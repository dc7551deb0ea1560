import Brainfuck.Excerpt
import Brainfuck.Proofs.Machine.Calls
import Brainfuck.Proofs.Text.Places

/-!
# What an excerpt shows

An error is shown with the symbols around it and a caret below. The caret stands under the symbol
that the error is about, if a machine gave the error and the text is its program: errors name the
symbol that was executed, also where the machine has moved on, and the window keeps the columns.

## Cutting out the window

The window is cut out between two places that are found from two indices on their own, and the first
of them may lie behind the end of the program. Yet the first place is never behind the second, since
an index behind the end has the place of the end. So all that can go wrong is that the end of the
window is no word. For an error of a machine that cannot happen: it names a symbol of the program or
the end of it, and a program is far shorter than the largest word.
-/

namespace Brainfuck

open Text

/-! ## Windows -/

namespace Excerpt

variable {heading : String} {code : List Char} {pos : Nat}

theorem min_start_le_stop (code : List Char) (pos : Nat) :
    min (start pos) code.length ≤ stop pos code.length := by
  unfold start stop
  omega

/-- The window that is cut out is the one that is meant. -/
theorem window?_eq (code : List Char) (pos : Nat) : window? code pos = some (window code pos) :=
  slice_placeOf (min_start_le_stop code pos)

theorem render?_of_lt (h : pos + radius + 1 < UInt64.size) :
    render? heading code pos = some (render heading code pos) := by
  rw [render?, if_pos h, window?_eq, Option.map_some, render]

theorem render?_of_le (h : UInt64.size ≤ pos + radius + 1) : render? heading code pos = none := by
  rw [render?, if_neg (Nat.not_lt.2 h)]

theorem pos_sub_start (pos : Nat) : pos - start pos = min pos radius := by
  unfold start
  omega

/-- The three lines that are shown. -/
theorem render_eq (heading : String) (code : List Char) (pos : Nat) :
    render heading code pos =
      heading ++ " at instruction " ++ pos.repr ++ "\n" ++
        String.ofList (' ' :: ' ' :: (window code pos).map shown) ++ "\n" ++
        String.ofList (' ' :: ' ' :: (List.replicate (min pos radius) ' ' ++ ['^'])) ++ "\n" := by
  rw [render, text, lines, windowLine, caretLine, pos_sub_start]
  simp [String.join, String.append_assoc]

/-- **A position is shown unless its window has no end among the words.** Whatever the text and the
position, the window can be cut out, since its two places lie between characters and in order. What
can fail is the sum that says where it ends. So the 33 largest words are not shown, and every other
position is. -/
theorem shown_iff_window_ends (heading : String) (code : List Char) (pos : UInt64) :
    let first := placeOf code (start pos.toNat)
    let last := placeOf code (stop pos.toNat code.length)
    first ≤ last ∧ IsBoundary code first ∧ IsBoundary code last ∧
      window? code pos.toNat = some (window code pos.toNat) ∧
      render? heading code pos.toNat =
        if pos.toNat < UInt64.size - 33 then some (render heading code pos.toNat) else none := by
  refine ⟨placeOf_le_placeOf (min_start_le_stop code pos.toNat), isBoundary_placeOf code _,
    isBoundary_placeOf code _, window?_eq code pos.toNat, ?_⟩
  have hpos : pos.toNat + radius + 1 < UInt64.size ↔ pos.toNat < UInt64.size - 33 := by
    unfold radius
    omega
  by_cases h : pos.toNat < UInt64.size - 33
  · rw [if_pos h, render?_of_lt (hpos.2 h)]
  · rw [if_neg h, render?_of_le (Nat.not_lt.1 (mt hpos.1 h))]

/-- The first word that is not shown. -/
theorem not_shown_near_largest_word :
    render? "bfvm: oops" "++\n+[".toList (18446744073709551583 : UInt64).toNat = none := by
  decide

/-- The symbol at a position stands in its window as many columns from the left as there are
symbols in front of it there. -/
theorem getElem?_window (code : List Char) (pos : Nat) :
    (window code pos)[min pos radius]? = code[pos]? := by
  have hpos : start pos + min pos radius = pos := by
    unfold start
    omega
  rw [window, List.getElem?_take, List.getElem?_drop, hpos]
  by_cases h : pos < code.length
  · rw [if_pos (by unfold start stop radius; omega)]
  · rw [List.getElem?_eq_none (Nat.not_lt.1 h), ite_self]

/-- At the end of the program the window ends where the caret stands. -/
theorem length_window_length (code : List Char) :
    (window code code.length).length = min code.length radius := by
  rw [window, List.length_take, List.length_drop]
  unfold start stop
  omega

end Excerpt

/-! ## Errors of machines -/

/-- The symbol that an error is about; there is none at the end of the program. -/
def RuntimeError.symbol? : RuntimeError → Option Char
  | terminated _ => none
  | unmatched _ side => some side.toChar
  | device _ op _ => some op

/-- The error names the end of the program, or the index of the command that it is about. -/
def RuntimeError.PointsInto (e : RuntimeError) (p : Program) : Prop :=
  (e.ip = p.size ∧ e.symbol? = none) ∨
    ∃ k, p.commandAt e.ip = some k ∧ e.symbol? = some k.toChar

namespace RuntimeError.PointsInto

variable {e : RuntimeError} {p : Program}

theorem ip_le_size (h : e.PointsInto p) : e.ip ≤ p.size := by
  rcases h with ⟨hend, -⟩ | ⟨k, hk, -⟩
  · exact Nat.le_of_eq hend
  · exact Nat.le_of_lt (Program.lt_size_of_commandAt hk)

/-- An error that points into a program can be shown: the window around it ends at a word, as the
program fits into memory. -/
theorem render?_eq (h : e.PointsInto p) (hfits : Fits p.toList) (name : Option String) :
    e.render? name p.toList = some (e.render name p.toList) := by
  have hsize : e.ip ≤ p.toList.length := Array.length_toList ▸ h.ip_le_size
  have hbytes := length_le_byteLength p.toList
  have hword : e.ip + Excerpt.radius + 1 < UInt64.size := by
    simp only [Fits, Excerpt.radius, UInt64.size] at hfits ⊢
    omega
  rw [RuntimeError.render?, Excerpt.render?_of_lt hword, RuntimeError.render]

/-- In the window around an error the symbol that the error is about stands above the caret. -/
theorem getElem?_map_shown_window (h : e.PointsInto p) :
    ((Excerpt.window p.toList e.ip).map Excerpt.shown)[min e.ip Excerpt.radius]? = e.symbol? := by
  rw [List.getElem?_map, Excerpt.getElem?_window, Array.getElem?_toList]
  rcases h with ⟨hend, hnone⟩ | ⟨k, hk, hsome⟩
  · rw [Array.getElem?_eq_none (Nat.le_of_eq hend.symm), hnone, Option.map_none]
  · have hshown : Excerpt.shown k.toChar = k.toChar := by cases k <;> rfl
    rw [Program.commandAt_eq_some_iff.1 hk, hsome, Option.map_some, hshown]

/-- An error that is about no symbol has the caret behind the last symbol of its window. -/
theorem length_window (h : e.PointsInto p) (hnone : e.symbol? = none) :
    (Excerpt.window p.toList e.ip).length = min e.ip Excerpt.radius := by
  rcases h with ⟨hend, -⟩ | ⟨k, -, hsome⟩
  · rw [hend.trans Array.length_toList.symm]
    exact Excerpt.length_window_length p.toList
  · rw [hnone] at hsome
    cases hsome

end RuntimeError.PointsInto

namespace Machine

variable {ω ι : Type} [OutputDevice ω] [InputDevice ι] {m m' : Machine ω ι} {e : RuntimeError}
  {r : Except RuntimeError Unit} {c fuel : Nat}

/-- The error of a step points at the symbol that was to be executed. -/
theorem pointsInto_of_step (hip : m.ip ≤ m.program.size) (h : m.step.1 = .error e) :
    e.PointsInto m.program := by
  rcases step_fst_eq_error_iff.1 h with ⟨rfl, hend⟩ | ⟨side, rfl, hstuck⟩ | ⟨-, op, f, hop, -, rfl⟩
  · exact Or.inl ⟨Nat.le_antisymm hip hend, rfl⟩
  · cases side with
    | opening => exact Or.inr ⟨.loopStart, hstuck.1, rfl⟩
    | closing => exact Or.inr ⟨.loopEnd, hstuck.1, rfl⟩
  · exact Or.inr ⟨op, hop, rfl⟩

/-- A machine that stops with an error stops at the step that gives it. -/
theorem Stops.exists_step (h : m.Stops c r m') (hip : m.ip ≤ m.program.size)
    (hr : r = .error e) :
    ∃ m₀ : Machine ω ι, m₀.program = m.program ∧ m₀.ip ≤ m₀.program.size ∧
      m₀.step = (.error e, m') := by
  induction h using Stops.induct with
  | ended hm => cases hr
  | @failed m m' e' hm hstep =>
    obtain rfl := Except.error.inj hr
    exact ⟨m, rfl, hip, hstep⟩
  | @next m m₁ m' c r hstep _ ih =>
    have hle := step_le_size hip
    have hprogram := step_program m
    rw [hstep] at hle hprogram
    obtain ⟨m₀, hm₀, hip₀, hstep₀⟩ := ih hle hr
    exact ⟨m₀, hm₀.trans hprogram, hip₀, hstep₀⟩

/-- The error of a call is that of a step, which may come after many others. -/
theorem exists_step_of_call {k : Call} {answer : Answer} (hip : m.ip ≤ m.program.size)
    (hcall : m.call fuel k = some (answer, m')) (herror : answer.result = .error e) :
    ∃ m₀ : Machine ω ι, m₀.program = m.program ∧ m₀.ip ≤ m₀.program.size ∧
      m₀.step = (.error e, m') := by
  cases k with
  | step =>
    obtain ⟨rfl, rfl⟩ := Prod.mk.inj (Option.some.inj hcall)
    exact ⟨m, rfl, hip, Prod.ext herror rfl⟩
  | run =>
    obtain ⟨c, -, hstops, -⟩ := call_run_eq_some_iff.1 hcall
    exact hstops.exists_step hip herror
  | runPaced delay =>
    obtain ⟨c, -, hstops, -⟩ := call_runPaced_eq_some_iff.1 hcall
    exact hstops.exists_step hip herror

/-- Behind a device that failed the machine has moved past the symbol. -/
theorem ip_of_step_eq_device {i : Nat} {op : Char} {f : Fault}
    (h : m.step = (.error (.device i op f), m')) : m'.ip = i + 1 := by
  obtain ⟨rfl, hpolicy, k, hk, rfl, hfails⟩ := step_fst_eq_device_iff.1 (congrArg Prod.fst h)
  rw [step_of_deviceFails hpolicy hk hfails] at h
  rw [← (Prod.mk.inj h).2]

/-! ## Carets -/

/-- **The caret stands under the symbol that failed.** Let a call on a machine give an error. It is
shown over three lines. The second one has two blanks and the symbols of the program from 32 in
front of the error to 32 behind it, as far as there are any, with blanks for control characters, so
that it is one line. The third one has two blanks, a blank for each symbol in front of the error,
and a caret. So the caret stands under the bracket that has no partner, under the command whose
device failed, behind which the machine has moved on, or behind the last symbol if there was none
left. Whatever the text and the position, as long as the end of the window is a word the window is
cut out between two places at which the text can be cut, the first not behind the second, and has
the symbols from the one index to the other. -/
theorem caret_under_failed_symbol {k : Call} {answer : Answer} (hip : m.ip ≤ m.program.size)
    (hfits : Fits m.program.toList) (hcall : m.call fuel k = some (answer, m'))
    (herror : answer.result = .error e) (name : Option String) :
    let code := m.program.toList
    let window := (code.extract (e.ip - 32) (min (e.ip + 33) code.length)).map fun c ↦
      if Excerpt.isControl c then ' ' else c
    let column := min e.ip 32
    e.render? name code =
        some (e.heading name ++ " at instruction " ++ e.ip.repr ++ "\n" ++
          String.ofList (' ' :: ' ' :: window) ++ "\n" ++
          String.ofList (' ' :: ' ' :: (List.replicate column ' ' ++ ['^'])) ++ "\n") ∧
      '\n' ∉ window ∧
      (∀ i side, e = .unmatched i side → window[column]? = some side.toChar) ∧
      (∀ i op f, e = .device i op f → window[column]? = some op ∧ m'.ip = i + 1) ∧
      (∀ i, e = .terminated i → column = window.length) ∧
      ∀ (heading : String) (text : List Char) (pos : Nat), pos + 33 < UInt64.size →
        let start := placeOf text (pos - 32)
        let stop := placeOf text (min (pos + 33) text.length)
        start ≤ stop ∧ IsBoundary text start ∧ IsBoundary text stop ∧
          Excerpt.window? text pos = slice start stop text ∧
          slice start stop text = some (text.extract (pos - 32) (min (pos + 33) text.length)) ∧
          Excerpt.render? heading text pos = some (Excerpt.render heading text pos) := by
  intro code window column
  obtain ⟨m₀, hprogram, hip₀, hstep⟩ := exists_step_of_call hip hcall herror
  have hpoints : e.PointsInto m.program :=
    hprogram ▸ pointsInto_of_step hip₀ (congrArg Prod.fst hstep)
  have habove : window[column]? = e.symbol? := hpoints.getElem?_map_shown_window
  refine ⟨?_, fun hmem ↦ ?_, ?_, ?_, ?_, fun heading text pos hpos ↦ ?_⟩
  · rw [hpoints.render?_eq hfits, RuntimeError.render, Excerpt.render_eq]
    rfl
  · exact Excerpt.newline_not_mem_windowLine (Excerpt.window code e.ip)
      (List.mem_cons_of_mem _ (List.mem_cons_of_mem _ hmem))
  · rintro i side rfl
    exact habove
  · rintro i op f rfl
    exact ⟨habove, ip_of_step_eq_device hstep⟩
  · rintro i rfl
    exact ((List.length_map _).trans (hpoints.length_window rfl)).symm
  · have hle := Excerpt.min_start_le_stop text pos
    exact ⟨placeOf_le_placeOf hle, isBoundary_placeOf text _, isBoundary_placeOf text _, rfl,
      slice_placeOf hle, Excerpt.render?_of_lt hpos⟩

/-- On a program with a letter of two bytes and a newline the output refuses its byte. The caret
stands under the `.`, and the machine has moved on. -/
theorem caret_under_failed_symbol_refused :
    let fault := FaultKind.brokenPipe.fault
    let m : Machine ScriptedOutput Queue :=
      { program := Program.ofString "é\n+."
        state := { output := some ⟨[some fault], #[]⟩, policy := .halt } }
    let e := RuntimeError.device 3 '.' fault
    m.ip ≤ m.program.size ∧ Fits m.program.toList ∧
      ∃ m', m.call 4 .run = some (⟨.error e, []⟩, m') ∧
        e.render? (some "bfvm") m.program.toList =
          some ("bfvm: I/O error during '.': broken pipe at instruction 3\n" ++
            "  é +.\n" ++
            "     ^\n") ∧
        m'.ip = 4 := by
  intro fault m e
  have hip : m.ip ≤ m.program.size := Nat.zero_le _
  have hfits : Fits m.program.toList := by decide
  have hcall : ∃ m', m.call 4 .run = some (⟨.error e, []⟩, m') := ⟨_, rfl⟩
  obtain ⟨m', hcall⟩ := hcall
  obtain ⟨htext, -, -, hdevice, -⟩ := caret_under_failed_symbol hip hfits hcall rfl (some "bfvm")
  exact ⟨hip, hfits, m', hcall, htext.trans (by decide), (hdevice 3 '.' fault rfl).2⟩

end Machine

end Brainfuck
