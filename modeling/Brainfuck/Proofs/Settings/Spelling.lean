import Brainfuck.Proofs.Settings.ConfigFile
import Brainfuck.Proofs.Text.Numeral
import Brainfuck.Proofs.Text.Words

/-!
# Settings that are written down

Every choice of settings can be written into a configuration file, and in many ways: the entries may
come in any order, a value has several spellings and may stand between quotes, and there may be
blanks, remarks and other sections around. All of these texts are read as the settings they were
made from.

## Spellings

What a value looks like is said here without the reader, field by field: the words for yes and no
and the names of the policies in any mixture of cases, and the numerals of a number. `Written` says
the same for a whole text. The two halves meet there: whatever is written is read back, and there is
a text for all settings that is written.
-/

namespace Brainfuck

open Text ConfigFile

/-! ## Values -/

namespace Settings

/-- The words for a truth value. -/
def truthWords : Bool → List (List Char)
  | true => ["true".toList, "yes".toList, "on".toList, "1".toList]
  | false => ["false".toList, "no".toList, "off".toList, "0".toList]

/-- The text is a spelling of a truth value. -/
def SpellsTruth (b : Bool) (cs : List Char) : Prop := ∃ word ∈ truthWords b, EitherCase cs word

theorem isWord_of_mem_truthWords {b : Bool} {word : List Char} (h : word ∈ truthWords b) :
    IsWord word := by
  revert word
  cases b <;> decide

theorem isWord_keyword (k : FailurePolicy) : IsWord k.keyword := by
  cases k <;> decide

theorem truth?_of_spellsTruth {b : Bool} {cs : List Char} (h : SpellsTruth b cs) :
    truth? cs = some b := by
  obtain ⟨word, hmem, hcs⟩ := h
  rw [truth?, lower_trim_of_eitherCase (isWord_of_mem_truthWords hmem) hcs]
  clear hcs
  revert word
  cases b <;> decide

namespace Field

/-- The text is a spelling of what a field holds. There is none for a pause that is not there. -/
def Spells : (f : Field) → f.Value → List Char → Prop
  | delay, none, _ => False
  | delay, some ms, cs => Numeral.Spells ms.toNat cs
  | input, b, cs => SpellsTruth b cs
  | output, b, cs => SpellsTruth b cs
  | policy, k, cs => EitherCase cs k.keyword

variable {f : Field} {v : f.Value} {cs : List Char}

theorem read?_of_spells (h : f.Spells v cs) : f.read? cs = some v := by
  cases f with
  | delay =>
    cases v with
    | none => exact h.elim
    | some ms => rw [read?, delay?, Numeral.parse_of_spells h]; rfl
  | input => exact truth?_of_spellsTruth h
  | output => exact truth?_of_spellsTruth h
  | policy =>
    have hparse := FailurePolicy.parse_eq_ok_iff.2 (lower_trim_of_eitherCase (isWord_keyword v) h)
    rw [read?, policy?, hparse]
    rfl

theorem isPlain_of_spells (h : f.Spells v cs) : ∀ c ∈ cs, IsPlain c := by
  have htruth : ∀ {b}, SpellsTruth b cs → ∀ c ∈ cs, IsPlain c := by
    rintro b ⟨word, hmem, hcs⟩
    exact isPlain_of_eitherCase (isWord_of_mem_truthWords hmem) hcs
  cases f with
  | delay =>
    cases v with
    | none => exact h.elim
    | some ms =>
      intro c hc
      rcases Numeral.isDigit_or_eq_of_spells h hc with hdigit | rfl
      · exact isPlain_of_isDigit hdigit
      · decide
  | input => exact htruth h
  | output => exact htruth h
  | policy => exact isPlain_of_eitherCase (isWord_keyword v) h

/-- Write down what a field holds. -/
def print : (f : Field) → f.Value → List Char
  | delay, none => []
  | delay, some ms => Nat.toDigits 10 ms.toNat
  | input, b => (ofTruth b).toList
  | output, b => (ofTruth b).toList
  | policy, k => k.keyword

theorem trim_key (f : Field) : trim f.key = f.key := by
  cases f <;> decide

theorem not_mem_key (f : Field) : '=' ∉ f.key ∧ '\n' ∉ f.key := by
  cases f <;> decide

end Field

/-- The fields that are written down: all of them, but the pause only if there is one. -/
def fields (s : Settings) : List Field :=
  (s.delay.map fun _ ↦ Field.delay).toList ++ [.input, .output, .policy]

variable {s : Settings} {f : Field}

theorem get_of_not_mem_fields (h : f ∉ s.fields) : s.get f = f.standard := by
  cases f with
  | delay =>
    cases hdelay : s.delay with
    | none => exact hdelay
    | some ms => simp [fields, hdelay] at h
  | input => simp [fields] at h
  | output => simp [fields] at h
  | policy => simp [fields] at h

theorem spells_print (h : f ∈ s.fields) : f.Spells (s.get f) (f.print (s.get f)) := by
  have htruth : ∀ b, SpellsTruth b (ofTruth b).toList := by
    intro b
    refine ⟨_, ?_, eitherCase_self _⟩
    cases b <;> decide
  cases f with
  | delay =>
    cases hdelay : s.delay with
    | none => simp [fields, hdelay] at h
    | some ms =>
      rw [get, hdelay]
      exact ⟨[], 0, Or.inl rfl, rfl⟩
  | input => exact htruth s.input
  | output => exact htruth s.output
  | policy => exact eitherCase_self _

end Settings

/-! ## Lines -/

namespace ConfigFile

theorem unquote_quoted (cs : List Char) : unquote ('"' :: (cs ++ ['"'])) = cs := by
  rw [unquote, dropFirst?_eq_some_iff.2 rfl, Option.bind_some, dropLast?_eq_some_iff.2 rfl,
    Option.getD_some]

theorem unquote_of_isPlain {cs : List Char} (h : ∀ c ∈ cs, IsPlain c) : unquote cs = cs := by
  cases cs with
  | nil => rfl
  | cons c cs =>
    have hc : c ≠ '"' := (h c List.mem_cons_self).2
    rw [unquote, dropFirst?, if_neg hc]
    rfl

end ConfigFile

namespace Settings

/-- A line for a field: its key, `=`, and a spelling of what the settings have there, which may
stand between quotes. There may be blanks around each of the parts. -/
def EntryFor (s : Settings) (f : Field) (l : List Char) : Prop :=
  ∃ key value cs, l = key ++ '=' :: value ∧ Padded f.key key ∧
    (Padded cs value ∨ Padded ('"' :: (cs ++ ['"'])) value) ∧ f.Spells (s.get f) cs

variable {s : Settings} {f : Field} {fs : List Field} {l : List Char} {ls : List (List Char)}

theorem meaning_of_entryFor (h : s.EntryFor f l) :
    ∃ cs, meaning l = .entry f.key cs ∧ f.read? cs = some (s.get f) := by
  obtain ⟨key, value, cs, hl, hkey, hvalue, hspells⟩ := h
  have hplain := Field.isPlain_of_spells hspells
  have htrim : trim key = f.key := (trim_of_padded hkey).trans f.trim_key
  have hunquote : unquote (trim value) = cs := by
    rcases hvalue with hvalue | hvalue
    · rw [trim_of_padded hvalue, trim_of_isPlain hplain, unquote_of_isPlain hplain]
    · rw [trim_of_padded hvalue, trim_quoted, unquote_quoted]
  obtain ⟨c, hhead, hc⟩ := f.exists_head?_key
  refine ⟨cs, ?_, Field.read?_of_spells hspells⟩
  rw [meaning_of_head hl (not_mem_of_padded hkey (by decide) f.not_mem_key.1) (htrim ▸ hhead) hc,
    htrim, hunquote]

/-- The lines write down some fields in this order, with blank lines and comments between them. -/
inductive Lists (s : Settings) : List (List Char) → List Field → Prop
  | nil : Lists s [] []
  | remark {l : List Char} {ls : List (List Char)} {fs : List Field}
      (hl : trim l = [] ∨ (trim l).head? = some '#') (h : Lists s ls fs) : Lists s (l :: ls) fs
  | entry {f : Field} {l : List Char} {ls : List (List Char)} {fs : List Field}
      (hl : s.EntryFor f l) (h : Lists s ls fs) : Lists s (l :: ls) (f :: fs)

/-- All entries in the lines are such that they are read as what the settings have. -/
theorem Lists.read?_of_mem (h : s.Lists ls fs) {key value : List Char}
    (hmem : (key, value) ∈ entriesOf runSection true (ls.map meaning)) (hkey : key = f.key) :
    f.read? value = some (s.get f) := by
  induction h with
  | nil => exact absurd hmem List.not_mem_nil
  | remark hl _ ih =>
    rw [List.map_cons, meaning_of_idle hl] at hmem
    exact ih hmem
  | entry hl _ ih =>
    obtain ⟨cs, hmeaning, hread⟩ := meaning_of_entryFor hl
    rw [List.map_cons, hmeaning, entriesOf, if_pos rfl, List.mem_cons] at hmem
    rcases hmem with heq | hmem
    · obtain ⟨rfl, rfl⟩ := Prod.mk.inj heq
      obtain rfl := Field.key_injective hkey
      exact hread
    · exact ih hmem

/-- There is an entry for each of the fields. -/
theorem Lists.exists_mem (h : s.Lists ls fs) (hf : f ∈ fs) :
    ∃ value, (f.key, value) ∈ entriesOf runSection true (ls.map meaning) := by
  induction h with
  | nil => exact absurd hf List.not_mem_nil
  | remark hl _ ih =>
    rw [List.map_cons, meaning_of_idle hl]
    exact ih hf
  | entry hl _ ih =>
    obtain ⟨cs, hmeaning, -⟩ := meaning_of_entryFor hl
    rw [List.map_cons, hmeaning, entriesOf, if_pos rfl]
    rcases List.mem_cons.1 hf with rfl | hf
    · exact ⟨cs, List.mem_cons_self⟩
    · obtain ⟨value, hvalue⟩ := ih hf
      exact ⟨value, List.mem_cons_of_mem _ hvalue⟩

/-- Lines for all fields are read as the settings. -/
theorem ofEntries_of_lists (h : s.Lists ls fs) (hfs : s.fields ⊆ fs) :
    ofEntries (entriesOf runSection true (ls.map meaning)) = s := by
  refine ext_get fun f ↦ ?_
  rw [get_ofEntries]
  cases hlast : lastValue f.key (entriesOf runSection true (ls.map meaning)) with
  | none =>
    have hf : f ∉ s.fields := by
      intro hf
      obtain ⟨value, hvalue⟩ := h.exists_mem (hfs hf)
      exact lastValue_eq_none_iff.1 hlast value hvalue
    exact (get_of_not_mem_fields hf).symm
  | some value =>
    have hread := h.read?_of_mem (mem_of_lastValue hlast) rfl
    rw [Field.ofValue, Option.bind_some, hread, Option.getD_some]

/-! ## Texts -/

/-- A text in which the settings are written down: a section that counts with a line for each field,
in any order, and sections that do not count in front of it and behind it. There may be blank lines
and comments anywhere. -/
inductive Written (s : Settings) : List Char → Prop
  | intro (front : List (List Char)) (header : List Char) (body back : List (List Char))
      (fs : List Field)
      (hlines : ∀ l ∈ front ++ header :: (body ++ back), '\n' ∉ l)
      (hfront : ∀ l ∈ front, ¬ Opens runSection l) (hheader : Opens runSection header)
      (hbody : s.Lists body fs) (hfields : fs.Perm s.fields)
      (hnext : ∀ l ∈ back.head?, ∃ name, Opens name l)
      (hback : ∀ l ∈ back, ¬ Opens runSection l) :
      Written s (['\n'].intercalate (front ++ header :: (body ++ back)))

theorem entriesOf_of_closed (h : ∀ l ∈ ls, ¬ Opens runSection l) :
    entriesOf runSection false (ls.map meaning) = [] := by
  induction ls with
  | nil => rfl
  | cons l ls ih =>
    obtain ⟨hl, hls⟩ := List.forall_mem_cons.1 h
    rw [List.map_cons]
    cases hmeaning : meaning l with
    | header name =>
      have hne : name ≠ runSection := by
        rintro rfl
        exact hl (meaning_eq_header_iff.1 hmeaning)
      rw [entriesOf, decide_eq_false hne, ih hls]
    | entry key value => rw [entriesOf, if_neg Bool.false_ne_true, ih hls]
    | idle => rw [entriesOf, ih hls]

/-- Lines that start with a header do not go on with the section in front of them. -/
theorem entriesOf_of_next (inside : Bool) (hnext : ∀ l ∈ ls.head?, ∃ name, Opens name l)
    (h : ∀ l ∈ ls, ¬ Opens runSection l) :
    entriesOf runSection inside (ls.map meaning) = [] := by
  cases ls with
  | nil => rfl
  | cons l ls =>
    obtain ⟨name, hname⟩ := hnext l rfl
    have hclosed := entriesOf_of_closed h
    rw [List.map_cons, meaning_eq_header_iff.2 hname, entriesOf] at hclosed ⊢
    exact hclosed

theorem ofConfig_of_written {cs : List Char} (h : s.Written cs) : ofConfig cs = s := by
  obtain ⟨front, header, body, back, fs, hlines, hfront, hheader, hbody, hfields, hnext, hback⟩ := h
  have hne : front ++ header :: (body ++ back) ≠ [] :=
    List.append_ne_nil_of_right_ne_nil _ (List.cons_ne_nil _ _)
  have hentries : runEntries (['\n'].intercalate (front ++ header :: (body ++ back))) =
      entriesOf runSection true (body.map meaning) := by
    rw [runEntries, parse_eq, lines_intercalate hne hlines, List.map_append, List.map_cons,
      List.map_append, entriesOf_append, entriesOf_of_closed hfront, List.nil_append,
      meaning_eq_header_iff.2 hheader, entriesOf, decide_eq_true rfl, entriesOf_append,
      entriesOf_of_next _ hnext hback, List.append_nil]
  rw [ofConfig, hentries]
  exact ofEntries_of_lists hbody fun f hf ↦ hfields.mem_iff.2 hf

/-! ## A text for all settings -/

/-- The line for a field. -/
def entryLine (s : Settings) (f : Field) : List Char :=
  (f.key ++ [' ']) ++ '=' :: (' ' :: f.print (s.get f))

/-- The settings as a configuration file. -/
def toConfig (s : Settings) : List Char :=
  ['\n'].intercalate ("[run]".toList :: s.fields.map s.entryLine)

theorem entryFor_entryLine (h : f ∈ s.fields) : s.EntryFor f (s.entryLine f) := by
  have hkey : Padded f.key (f.key ++ [' ']) := padded_append [] _ [' '] rfl rfl
  have hvalue : Padded (f.print (s.get f)) (' ' :: f.print (s.get f)) := by
    simpa using padded_append [' '] (f.print (s.get f)) [] rfl rfl
  exact ⟨_, _, f.print (s.get f), rfl, hkey, Or.inl hvalue, spells_print h⟩

theorem not_mem_entryLine (h : f ∈ s.fields) : '\n' ∉ s.entryLine f := by
  have hprint : '\n' ∉ f.print (s.get f) := by
    intro hmem
    exact absurd (Field.isPlain_of_spells (spells_print h) _ hmem) (by decide)
  simp [entryLine, f.not_mem_key.2, hprint]

theorem lists_entryLine (hfs : ∀ f ∈ fs, f ∈ s.fields) : s.Lists (fs.map s.entryLine) fs := by
  induction fs with
  | nil => exact .nil
  | cons f fs ih =>
    obtain ⟨hf, hfs⟩ := List.forall_mem_cons.1 hfs
    exact .entry (entryFor_entryLine hf) (ih hfs)

theorem written_toConfig (s : Settings) : s.Written s.toConfig := by
  have hlines : ∀ l ∈ "[run]".toList :: s.fields.map s.entryLine, '\n' ∉ l := by
    refine List.forall_mem_cons.2 ⟨by decide, fun l hl ↦ ?_⟩
    obtain ⟨f, hf, rfl⟩ := List.mem_map.1 hl
    exact not_mem_entryLine hf
  have hwritten := Written.intro [] "[run]".toList (s.fields.map s.entryLine) [] s.fields
    (by simpa using hlines) (by simp) ⟨"run".toList, by decide, by decide⟩
    (lists_entryLine fun f hf ↦ hf) (List.Perm.refl _) (by simp) (by simp)
  rwa [List.append_nil] at hwritten

/-- **Reading what was written.** A text in which settings are written down, in whatever order,
spelling and layout, is read as these settings. And there is such a text for all settings. -/
theorem written_settings_are_read (s : Settings) :
    (∀ cs, s.Written cs → ofConfig cs = s) ∧ s.Written s.toConfig :=
  ⟨fun _ h ↦ ofConfig_of_written h, written_toConfig s⟩

/-- The longest pause, with a sign and zeros in front and between quotes, words in mixed cases,
comments, and other sections that say something else about the same fields. -/
theorem written_settings_are_read_mixed :
    let s : Settings := ⟨some 18446744073709551615, false, true, .halt⟩
    let cs := ['\n'].intercalate
      ["# pace".toList, "[other]".toList, "input = yes".toList, "[run]".toList,
        "io_policy = \"HaLt\"".toList, [], "output=YES".toList, "# quiet".toList,
        "\tinput =\"oFF\" ".toList, "delay_ms = \"+0018446744073709551615\"".toList,
        "[more]".toList, "output = no".toList, []]
    s.Written cs ∧ ofConfig cs = s := by
  intro s cs
  have hpolicy : s.EntryFor .policy "io_policy = \"HaLt\"".toList :=
    ⟨"io_policy ".toList, " \"HaLt\"".toList, "HaLt".toList, rfl,
      padded_append [] _ [' '] rfl rfl, Or.inr (padded_append [' '] _ [] rfl rfl),
      (by decide : EitherCase "HaLt".toList "halt".toList)⟩
  have houtput : s.EntryFor .output "output=YES".toList :=
    ⟨"output".toList, "YES".toList, "YES".toList, rfl, padded_append [] _ [] rfl rfl,
      Or.inl (padded_append [] _ [] rfl rfl), "yes".toList, by decide, by decide⟩
  have hinput : s.EntryFor .input "\tinput =\"oFF\" ".toList :=
    ⟨"\tinput ".toList, "\"oFF\" ".toList, "oFF".toList, rfl,
      padded_append ['\t'] _ [' '] rfl rfl, Or.inr (padded_append [] _ [' '] rfl rfl),
      "off".toList, by decide, by decide⟩
  have hdelay : s.EntryFor .delay "delay_ms = \"+0018446744073709551615\"".toList :=
    ⟨"delay_ms ".toList, " \"+0018446744073709551615\"".toList, "+0018446744073709551615".toList,
      rfl, padded_append [] _ [' '] rfl rfl, Or.inr (padded_append [' '] _ [] rfl rfl),
      ['+'], 2, Or.inr rfl, by decide +kernel⟩
  have hbody := Lists.entry hpolicy <| .remark (Or.inl trim_nil) <| .entry houtput <|
    .remark (l := "# quiet".toList) (Or.inr (by decide)) <| .entry hinput <| .entry hdelay .nil
  have hnext : ∀ l ∈ ["[more]".toList, "output = no".toList, []].head?, ∃ name, Opens name l := by
    rintro l ⟨⟩
    exact ⟨"more".toList, by decide⟩
  have hwritten := Written.intro ["# pace".toList, "[other]".toList, "input = yes".toList]
    "[run]".toList _ _ _ (by decide +kernel) (by decide +kernel) (by decide) hbody (by decide) hnext
    (by decide +kernel)
  exact ⟨hwritten, (written_settings_are_read s).1 cs hwritten⟩

end Settings

end Brainfuck
