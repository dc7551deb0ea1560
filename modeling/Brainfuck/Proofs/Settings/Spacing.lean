import Brainfuck.Proofs.Settings.ConfigFile
import Mathlib.Logic.Relation

/-!
# The spacing of a configuration file

Blanks can be put around the lines of a configuration file, around the first `=` of a line and
around the name of a section, and carriage returns in front of its newlines, and the file asks for
the same as before. That holds for any text, also where the lines make no sense.

## What a line can become

Most lines mean the same as before, and it is a question of the order in which a line is taken apart
why they do. A line with an `=` is trimmed before it is cut there, but what stands on either side is
trimmed too. So what stands there without its blanks decides how the trimmed line begins and ends,
and with that whether it is a header or a comment. The one kind of line that can change is a header
with an `=` in its name, which opens a section of another name then. Neither section counts.
-/

namespace Brainfuck

open Text

namespace ConfigFile

/-! ## Lines that can stand for each other -/

/-- One of the lines can stand in the place of the other, and the same entries count. -/
def Line.Interchangeable (l l' : Line) : Prop :=
  ∀ inside ls, entriesOf runSection inside (l :: ls) = entriesOf runSection inside (l' :: ls)

theorem Line.interchangeable_of_eq {l l' : Line} (h : l = l') : l.Interchangeable l' := by
  subst h
  exact fun _ _ ↦ rfl

/-- Headers of sections that do not count can stand for each other. -/
theorem Line.interchangeable_header {n n' : List Char} (h : n ≠ runSection)
    (h' : n' ≠ runSection) : (header n).Interchangeable (header n') := by
  intro inside ls
  rw [entriesOf, entriesOf, decide_eq_false h, decide_eq_false h']

theorem entriesOf_eq_of_forall₂ {ls ls' : List Line}
    (h : List.Forall₂ Line.Interchangeable ls ls') (inside : Bool) :
    entriesOf runSection inside ls = entriesOf runSection inside ls' := by
  induction h generalizing inside with
  | nil => rfl
  | @cons l l' ls ls' hl _ ih =>
    calc entriesOf runSection inside (l :: ls)
        = entriesOf runSection inside (l' :: ls) := hl inside ls
      _ = entriesOf runSection inside (l' :: ls') := by
        rw [← List.singleton_append, entriesOf_append, ih, ← entriesOf_append,
          List.singleton_append]

/-! ## Headers -/

theorem eq_cons_concat_iff {cs : List Char} {a b : Char} (h : a ≠ b) :
    (∃ inner, cs = a :: (inner ++ [b])) ↔ cs.head? = some a ∧ cs.getLast? = some b := by
  constructor
  · rintro ⟨inner, rfl⟩
    exact ⟨rfl, by rw [← List.cons_append, List.getLast?_concat]⟩
  · rintro ⟨hhead, hlast⟩
    obtain ⟨rest, rfl⟩ := List.head?_eq_some_iff.1 hhead
    obtain ⟨front, hfront⟩ := List.getLast?_eq_some_iff.1 hlast
    cases front with
    | nil => exact absurd (List.cons.inj hfront).1 h
    | cons d inner => exact ⟨inner, by rw [hfront, (List.cons.inj hfront).1]; rfl⟩

/-- A line is a header exactly if it begins and ends with a bracket. -/
theorem exists_sectionName?_iff {cs : List Char} :
    (∃ name, sectionName? cs = some name) ↔ cs.head? = some '[' ∧ cs.getLast? = some ']' := by
  rw [← eq_cons_concat_iff (by decide)]
  simp only [sectionName?_eq_some_iff]
  constructor
  · rintro ⟨name, inner, hcs, -⟩
    exact ⟨inner, hcs⟩
  · rintro ⟨inner, hcs⟩
    exact ⟨trim inner, inner, hcs, rfl⟩

/-- What stands in the line of a header stands in the name, but for blanks and brackets. -/
theorem mem_of_opens {name l : List Char} {c : Char} (h : Opens name l) (hc : c ∈ l)
    (hblank : isBlank c = false) (hopen : c ≠ '[') (hclose : c ≠ ']') : c ∈ name := by
  obtain ⟨inner, hinner, rfl⟩ := h
  have hmem := mem_trim_of_not_blank hc hblank
  rw [hinner] at hmem
  simp only [List.mem_cons, List.mem_append, List.not_mem_nil, hopen, hclose, or_false,
    false_or] at hmem
  exact mem_trim_of_not_blank hmem hblank

/-- The section that counts is not opened by a line with an `=`. -/
theorem ne_runSection_of_opens {name l : List Char} (h : Opens name l) (hl : '=' ∈ l) :
    name ≠ runSection := by
  rintro rfl
  exact absurd (mem_of_opens h hl (by decide) (by decide) (by decide)) (by decide)

/-! ## Blanks in a line -/

/-- The text has only blanks, and no newline. -/
def Blanks (pad : List Char) : Prop := ∀ c ∈ pad, isBlank c = true ∧ c ≠ '\n'

instance : DecidablePred Blanks := fun pad ↦ List.decidableBAll _ pad

/-- The line with more blanks: around it, around its first `=`, or around the name of the section
that it opens. -/
inductive LineRespaced : List Char → List Char → Prop
  | around (pad l pad' : List Char) (hpad : Blanks pad) (hpad' : Blanks pad') :
      LineRespaced l (pad ++ (l ++ pad'))
  | equals (key pad pad' value : List Char) (hkey : '=' ∉ key) (hpad : Blanks pad)
      (hpad' : Blanks pad') :
      LineRespaced (key ++ '=' :: value) ((key ++ pad) ++ '=' :: (pad' ++ value))
  | name (front pad inner pad' back : List Char) (hfront : Blanks front) (hpad : Blanks pad)
      (hpad' : Blanks pad') (hback : Blanks back) :
      LineRespaced (front ++ ('[' :: (inner ++ [']']) ++ back))
        (front ++ ('[' :: ((pad ++ (inner ++ pad')) ++ [']']) ++ back))

section

variable {pad pad' key l l' : List Char}

theorem Blanks.isBlank (h : Blanks pad) : ∀ c ∈ pad, isBlank c = true := fun c hc ↦ (h c hc).1

theorem Blanks.not_mem {c : Char} (h : Blanks pad) (hc : Text.isBlank c = false) : c ∉ pad := by
  intro hmem
  rw [(h c hmem).1] at hc
  cases hc

theorem Blanks.newline_not_mem (h : Blanks pad) : '\n' ∉ pad := fun hmem ↦ (h _ hmem).2 rfl

/-- No newline comes into a line. -/
theorem LineRespaced.not_mem (h : LineRespaced l l') (hl : '\n' ∉ l) : '\n' ∉ l' := by
  cases h with
  | around pad l pad' hpad hpad' => simp [hl, hpad.newline_not_mem, hpad'.newline_not_mem]
  | equals key pad pad' value hkey hpad hpad' =>
    simpa [hpad.newline_not_mem, hpad'.newline_not_mem] using hl
  | name front pad inner pad' back hfront hpad hpad' =>
    simpa [hpad.newline_not_mem, hpad'.newline_not_mem] using hl

theorem newline_not_mem_of_forall₂ {ls ls' : List (List Char)}
    (h : List.Forall₂ LineRespaced ls ls') (hls : ∀ l ∈ ls, '\n' ∉ l) : ∀ l' ∈ ls', '\n' ∉ l' := by
  induction h with
  | nil => exact List.forall_mem_nil _
  | cons hl _ ih =>
    obtain ⟨hfirst, hls⟩ := List.forall_mem_cons.1 hls
    exact List.forall_mem_cons.2 ⟨hl.not_mem hfirst, ih hls⟩

theorem interchangeable_equals (hkey : '=' ∉ key) (hpad : Blanks pad) (hpad' : Blanks pad')
    (value : List Char) :
    (meaning (key ++ '=' :: value)).Interchangeable
      (meaning ((key ++ pad) ++ '=' :: (pad' ++ value))) := by
  have hequals : isBlank '=' = false := by decide
  have htrimkey : trim (key ++ pad) = trim key := trim_append_right hpad.isBlank key
  have htrimvalue : trim (pad' ++ value) = trim value := trim_append_left hpad'.isBlank value
  have hkey' : '=' ∉ key ++ pad := by simp [hkey, hpad.not_mem hequals]
  generalize hl : key ++ '=' :: value = l
  generalize hl' : (key ++ pad) ++ '=' :: (pad' ++ value) = l'
  have hhead : (trim l').head? = (trim l).head? := by
    rw [← hl, ← hl', head?_trim_cut hequals, head?_trim_cut hequals, htrimkey]
  have hlast : (trim l').getLast? = (trim l).getLast? := by
    rw [← hl, ← hl', getLast?_trim_cut hequals, getLast?_trim_cut hequals, htrimvalue]
  have hheaders : (∃ name, sectionName? (trim l') = some name) ↔
      ∃ name, sectionName? (trim l) = some name := by
    rw [exists_sectionName?_iff, exists_sectionName?_iff, hhead, hlast]
  cases hheader : sectionName? (trim l) with
  | none =>
    have hheader' : sectionName? (trim l') = none := by
      rw [hheader] at hheaders
      simpa [Option.eq_none_iff_forall_ne_some] using hheaders
    by_cases hcomment : (trim l).head? = some '#'
    · exact Line.interchangeable_of_eq <| (meaning_of_idle (Or.inr hcomment)).trans
        (meaning_of_idle (Or.inr (hhead.trans hcomment))).symm
    · refine Line.interchangeable_of_eq ?_
      rw [meaning_of_eq hl.symm hkey hheader hcomment,
        meaning_of_eq hl'.symm hkey' hheader' (hhead ▸ hcomment), htrimkey, htrimvalue]
  | some name =>
    -- both lines are headers, and both names have the `=` in them
    obtain ⟨name', hheader'⟩ := hheaders.2 ⟨name, hheader⟩
    have hopens : Opens name l := sectionName?_eq_some_iff.1 hheader
    have hopens' : Opens name' l' := sectionName?_eq_some_iff.1 hheader'
    rw [meaning_eq_header_iff.2 hopens, meaning_eq_header_iff.2 hopens']
    exact Line.interchangeable_header (ne_runSection_of_opens hopens (by simp [← hl]))
      (ne_runSection_of_opens hopens' (by simp [← hl']))

/-- More blanks in a line do not matter. -/
theorem LineRespaced.interchangeable (h : LineRespaced l l') :
    (meaning l).Interchangeable (meaning l') := by
  cases h with
  | around pad l pad' hpad hpad' =>
    exact Line.interchangeable_of_eq
      (congrArg Line.ofTrimmed (trim_pad hpad.isBlank hpad'.isBlank l).symm)
  | equals key pad pad' value hkey hpad hpad' =>
    exact interchangeable_equals hkey hpad hpad' value
  | name front pad inner pad' back hfront hpad hpad' hback =>
    have hopens : ∀ cs : List Char, trim cs = trim inner →
        Opens (trim inner) (front ++ ('[' :: (cs ++ [']']) ++ back)) := by
      intro cs hcs
      refine ⟨cs, ?_, hcs⟩
      rw [trim_pad hfront.isBlank hback.isBlank, trim_cons_concat (by decide) (by decide)]
    rw [meaning_eq_header_iff.2 (hopens inner rfl),
      meaning_eq_header_iff.2 (hopens _ (trim_pad hpad.isBlank hpad'.isBlank inner))]
    exact Line.interchangeable_of_eq rfl

end

/-! ## Blanks in a text -/

/-- The text with more blanks in its lines, or with a carriage return in front of every newline. -/
inductive Respaced : List Char → List Char → Prop
  | lines {cs : List Char} {ls' : List (List Char)}
      (h : List.Forall₂ LineRespaced (Text.lines cs) ls') : Respaced cs (['\n'].intercalate ls')
  | returns (cs : List Char) : Respaced cs (withReturns cs)

theorem runEntries_of_lines {cs cs' : List Char}
    (h : List.Forall₂ (fun l l' ↦ (meaning l).Interchangeable (meaning l')) (lines cs)
      (lines cs')) : runEntries cs' = runEntries cs := by
  rw [runEntries, runEntries, parse_eq, parse_eq]
  refine (entriesOf_eq_of_forall₂ ?_ false).symm
  rw [List.forall₂_map_left_iff, List.forall₂_map_right_iff]
  exact h

theorem runEntries_of_respaced {cs cs' : List Char} (h : Respaced cs cs') :
    runEntries cs' = runEntries cs := by
  cases h with
  | @lines ls' h =>
    have hne : ls' ≠ [] := by
      rintro rfl
      exact fields_ne_nil cs (List.forall₂_nil_right_iff.1 h)
    have hlines := newline_not_mem_of_forall₂ h fun l hl ↦ not_mem_of_mem_fields hl
    refine runEntries_of_lines ?_
    rw [lines_intercalate hne hlines]
    exact h.imp fun _ _ ↦ LineRespaced.interchangeable
  | returns =>
    refine runEntries_of_lines ((lines_withReturns cs).imp fun l l' h ↦ ?_)
    have hreturn : Blanks ['\r'] := by decide
    rcases h with rfl | rfl
    · exact Line.interchangeable_of_eq rfl
    · exact (LineRespaced.around [] l ['\r'] (by decide) hreturn).interchangeable

end ConfigFile

namespace Settings

open ConfigFile

/-- **Spacing.** Blanks around the lines of a text, around the first `=` of a line or around the
name of a section, and carriage returns at the ends of the lines, however many and in whatever
order they are put there, do not change what the text asks for. -/
theorem spacing_does_not_matter {cs cs' : List Char} (h : Relation.ReflTransGen Respaced cs cs') :
    ofConfig cs' = ofConfig cs := by
  induction h with
  | refl => rfl
  | tail _ hstep ih => exact (congrArg ofEntries (runEntries_of_respaced hstep)).trans ih

/-- Blanks of several kinds around the name of a section, around a line that makes no sense, around
the `=` of an entry, and in a header, which opens a section of another name with them; then carriage
returns at the ends of the lines. -/
theorem spacing_does_not_matter_malformed :
    let ls := ["[run]".toList, "[=".toList, "delay_ms=\"7\"".toList, "[x=y]".toList,
      "input=no".toList]
    let ls' := ["[\t run\u2003]".toList, " [=\u2028".toList, "delay_ms\u0085= \"7\"".toList,
      "[x =y]".toList, "input=no".toList]
    let cs := ['\n'].intercalate ls
    let cs' := withReturns (['\n'].intercalate ls')
    Relation.ReflTransGen Respaced cs cs' ∧ ofConfig cs' = ofConfig cs ∧
      ofConfig cs = { delay := some 7 } := by
  intro ls ls' cs cs'
  have hname : LineRespaced "[run]".toList "[\t run\u2003]".toList :=
    .name [] "\t ".toList "run".toList "\u2003".toList [] (by decide) (by decide) (by decide)
      (by decide)
  have haround : LineRespaced "[=".toList " [=\u2028".toList :=
    .around " ".toList "[=".toList "\u2028".toList (by decide) (by decide)
  have hequals : LineRespaced "delay_ms=\"7\"".toList "delay_ms\u0085= \"7\"".toList :=
    .equals "delay_ms".toList "\u0085".toList " ".toList "\"7\"".toList (by decide) (by decide)
      (by decide)
  have hheader : LineRespaced "[x=y]".toList "[x =y]".toList :=
    .equals "[x".toList " ".toList [] "y]".toList (by decide) (by decide) (by decide)
  have hsame : LineRespaced "input=no".toList "input=no".toList :=
    .around [] "input=no".toList [] (by decide) (by decide)
  have hlines : lines cs = ls := by decide +kernel
  have hspaced : Respaced cs (['\n'].intercalate ls') := by
    refine .lines (hlines ▸ ?_)
    exact .cons hname (.cons haround (.cons hequals (.cons hheader (.cons hsame .nil))))
  have hreach : Relation.ReflTransGen Respaced cs cs' := .tail (.single hspaced) (.returns _)
  exact ⟨hreach, spacing_does_not_matter hreach, by decide +kernel⟩

end Settings

end Brainfuck
