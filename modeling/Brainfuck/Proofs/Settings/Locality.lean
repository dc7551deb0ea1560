import Brainfuck.Proofs.Settings.ConfigFile

/-!
# What one line of a configuration file can do

A line that is put somewhere into a configuration file, and is not a header, can change one field at
most. It does so only if it is an entry with the key of the field, in a section that counts, and no
such entry follows it. Then the field takes its value from this line alone: what was said before
does not matter, not even if the new value cannot be read.

## Sections

Headers are the only lines with an effect on other lines, so it does not matter how the lines that
count are spread over sections. A text asks for the same as the text that has them all in one
section.
-/

namespace Brainfuck

open Text ConfigFile Settings

namespace ConfigFile

/-! ## Entries that follow -/

/-- There is an entry with this key in a section that counts; `inside` says whether the text begins
inside such a section. -/
def HasEntry (key : List Char) (inside : Bool) (cs : List Char) : Prop :=
  ∃ before value after, parse cs = before ++ .entry key value :: after ∧
    isOpen runSection inside before = true

theorem hasEntry_iff {key : List Char} {inside : Bool} {cs : List Char} :
    HasEntry key inside cs ↔ lastValue key (entriesOf runSection inside (parse cs)) ≠ none := by
  rw [Ne, lastValue_eq_none_iff]
  push Not
  constructor
  · rintro ⟨before, value, after, hparse, hopen⟩
    exact ⟨value, mem_entriesOf_iff.2 ⟨before, after, hparse, hopen⟩⟩
  · rintro ⟨value, hmem⟩
    obtain ⟨before, after, hparse, hopen⟩ := mem_entriesOf_iff.1 hmem
    exact ⟨before, value, after, hparse, hopen⟩

instance (key : List Char) (inside : Bool) (cs : List Char) : Decidable (HasEntry key inside cs) :=
  decidable_of_iff _ hasEntry_iff.symm

/-! ## One more line -/

section

variable {A l B : List Char}

theorem runEntries_insert (h : '\n' ∉ l) :
    runEntries (A ++ '\n' :: (l ++ '\n' :: B)) =
      runEntries A ++
        entriesOf runSection (isOpen runSection false (parse A)) (meaning l :: parse B) := by
  rw [runEntries_append, parse_append, parse_of_not_mem h, List.singleton_append]

theorem runEntries_insert_of_idle (h : '\n' ∉ l) (hl : meaning l = .idle) :
    runEntries (A ++ '\n' :: (l ++ '\n' :: B)) = runEntries (A ++ '\n' :: B) := by
  rw [runEntries_insert h, hl, entriesOf, runEntries_append]

theorem runEntries_insert_of_closed {key value : List Char} (h : '\n' ∉ l)
    (hl : meaning l = .entry key value) (hopen : isOpen runSection false (parse A) = false) :
    runEntries (A ++ '\n' :: (l ++ '\n' :: B)) = runEntries (A ++ '\n' :: B) := by
  rw [runEntries_insert h, hl, entriesOf, runEntries_append, hopen, if_neg Bool.false_ne_true]

theorem runEntries_insert_of_open {key value : List Char} (h : '\n' ∉ l)
    (hl : meaning l = .entry key value) (hopen : isOpen runSection false (parse A) = true) :
    runEntries (A ++ '\n' :: (l ++ '\n' :: B)) =
        runEntries A ++ (key, value) :: entriesOf runSection true (parse B) ∧
      runEntries (A ++ '\n' :: B) = runEntries A ++ entriesOf runSection true (parse B) := by
  rw [runEntries_insert h, hl, entriesOf, runEntries_append, hopen, if_pos rfl]
  exact ⟨rfl, rfl⟩

end

/-! ## One section for all lines that count -/

/-- The lines in sections that count, without the headers. -/
def runLines : (inside : Bool) → List (List Char) → List (List Char)
  | _, [] => []
  | inside, l :: ls =>
    match meaning l with
    | .header name => runLines (name = runSection) ls
    | _ => if inside then l :: runLines inside ls else runLines inside ls

/-- All lines of a text that count, in one section. -/
def gathered (cs : List Char) : List Char :=
  ['\n'].intercalate ("[run]".toList :: runLines false (lines cs))

theorem mem_of_mem_runLines {l : List Char} {inside : Bool} {ls : List (List Char)}
    (h : l ∈ runLines inside ls) : l ∈ ls := by
  induction ls generalizing inside with
  | nil => exact h
  | cons k ls ih =>
    rw [runLines] at h
    split at h
    · exact List.mem_cons_of_mem k (ih h)
    · split at h
      · rcases List.mem_cons.1 h with rfl | h
        · exact List.mem_cons_self
        · exact List.mem_cons_of_mem k (ih h)
      · exact List.mem_cons_of_mem k (ih h)

theorem entriesOf_runLines (inside : Bool) (ls : List (List Char)) :
    entriesOf runSection true ((runLines inside ls).map meaning) =
      entriesOf runSection inside (ls.map meaning) := by
  induction ls generalizing inside with
  | nil => rfl
  | cons l ls ih =>
    rw [List.map_cons, runLines]
    cases hl : meaning l with
    | header name => exact ih _
    | entry key value =>
      cases inside with
      | false => exact ih false
      | true =>
        have hcons : entriesOf runSection true ((l :: runLines true ls).map meaning) =
            (key, value) :: entriesOf runSection true ((runLines true ls).map meaning) := by
          rw [List.map_cons, hl, entriesOf, if_pos rfl]
        exact hcons.trans (congrArg _ (ih true))
    | idle =>
      cases inside with
      | false => exact ih false
      | true =>
        have hcons : entriesOf runSection true ((l :: runLines true ls).map meaning) =
            entriesOf runSection true ((runLines true ls).map meaning) := by
          rw [List.map_cons, hl, entriesOf]
        exact hcons.trans (ih true)

theorem runEntries_gathered (cs : List Char) : runEntries (gathered cs) = runEntries cs := by
  have hlines : ∀ l ∈ "[run]".toList :: runLines false (lines cs), '\n' ∉ l := by
    intro l hl
    rcases List.mem_cons.1 hl with rfl | hl
    · decide
    · exact not_mem_of_mem_fields (mem_of_mem_runLines hl)
  have hheader : meaning "[run]".toList = .header runSection := by decide
  rw [runEntries, parse_eq, gathered, lines_intercalate (List.cons_ne_nil _ _) hlines,
    List.map_cons, hheader, entriesOf, decide_eq_true rfl, entriesOf_runLines]
  rfl

end ConfigFile

/-! ## Settings -/

namespace Settings

/-- The fields under an entry that is put in front of others. -/
theorem get_ofEntries_insert (f : Field) (as bs : List (List Char × List Char))
    (k v : List Char) :
    (ofEntries (as ++ (k, v) :: bs)).get f =
      if f.key = k ∧ lastValue k bs = none then f.ofValue (some v)
      else (ofEntries (as ++ bs)).get f := by
  rw [get_ofEntries, get_ofEntries, lastValue_insert]
  by_cases hk : f.key = k
  · subst hk
    rw [if_pos rfl, lastValue_append]
    cases h : lastValue f.key bs with
    | none => simp
    | some w => simp
  · rw [if_neg hk, if_neg fun h ↦ hk h.1]

/-- A line that is not a header changes nothing unless it is an entry for a field in a section that
counts. -/
theorem ofConfig_insert {A l B : List Char} (hline : '\n' ∉ l)
    (hheader : sectionName? (trim l) = none)
    (h : ∀ (f : Field) (value : List Char), meaning l = .entry f.key value →
      lastHeader? (parse A) ≠ some runSection) :
    ofConfig (A ++ '\n' :: (l ++ '\n' :: B)) = ofConfig (A ++ '\n' :: B) := by
  rcases meaning_cases hheader with hl | ⟨key, value, -, -, hl⟩
  · exact congrArg ofEntries (runEntries_insert_of_idle hline hl)
  · cases hopen : isOpen runSection false (parse A) with
    | false => exact congrArg ofEntries (runEntries_insert_of_closed hline hl hopen)
    | true =>
      obtain ⟨hlonger, hshorter⟩ := runEntries_insert_of_open (B := B) hline hl hopen
      refine ext_get fun f ↦ ?_
      have hkey : f.key ≠ trim key := by
        intro hkey
        rw [← hkey] at hl
        exact h f _ hl (isOpen_false_iff.1 hopen)
      rw [ofConfig, ofConfig, hlonger, hshorter, get_ofEntries_insert, if_neg fun h ↦ hkey h.1]

/-- **Locality.** Let a line that is not a header be put between two parts of a text. It changes
nothing if it is blank, a comment, has no `=` or the key of no field, or if the last header in front
of it is not that of a section that counts. An entry for a field in a section that counts leaves the
other fields alone. It leaves its own field alone if another entry for this field follows in such a
section. Otherwise the field has the value in the line, or the one that holds where nothing is said
if that value cannot be read, whatever was said in front of it. And a text asks for the same as the
text with all lines that count in one section. -/
theorem line_concerns_its_field (A l B : List Char) (hline : '\n' ∉ l)
    (hheader : sectionName? (trim l) = none) :
    let longer := ofConfig (A ++ '\n' :: (l ++ '\n' :: B))
    let shorter := ofConfig (A ++ '\n' :: B)
    ((trim l = [] ∨ (trim l).head? = some '#' ∨ '=' ∉ l ∨
        (∃ key value, l = key ++ '=' :: value ∧ '=' ∉ key ∧ ∀ f : Field, trim key ≠ f.key) ∨
        lastHeader? (parse A) ≠ some runSection) → longer = shorter) ∧
      (∀ (f : Field) (key value : List Char), l = key ++ '=' :: value → '=' ∉ key →
        trim key = f.key → lastHeader? (parse A) = some runSection →
          (∀ g, g ≠ f → longer.get g = shorter.get g) ∧
          (HasEntry f.key true B → longer.get f = shorter.get f) ∧
          (¬ HasEntry f.key true B →
            longer.get f = (f.read? (unquote (trim value))).getD f.standard)) ∧
      ∀ cs, ofConfig (gathered cs) = ofConfig cs := by
  intro longer shorter
  refine ⟨fun h ↦ ?_, fun f key value hl hkey hf hopen ↦ ?_,
    fun cs ↦ congrArg ofEntries (runEntries_gathered cs)⟩
  · refine ofConfig_insert hline hheader fun f v hv hopen ↦ ?_
    rcases h with h | h | h | ⟨key, value, hl, hkey, hother⟩ | h
    · exact absurd ((meaning_of_idle (Or.inl h)).symm.trans hv) (by simp)
    · exact absurd ((meaning_of_idle (Or.inr h)).symm.trans hv) (by simp)
    · exact absurd ((meaning_of_not_mem hheader h).symm.trans hv) (by simp)
    · have hcomment : (trim l).head? ≠ some '#' := fun h ↦
        absurd ((meaning_of_idle (Or.inr h)).symm.trans hv) (by simp)
      have hentry := (meaning_of_eq hl hkey hheader hcomment).symm.trans hv
      exact hother f (Line.entry.inj hentry).1
    · exact h hopen
  · obtain ⟨c, hhead, hc⟩ := f.exists_head?_key
    have hentry := meaning_of_head hl hkey (hf ▸ hhead) hc
    rw [hf] at hentry
    obtain ⟨hlonger, hshorter⟩ :=
      runEntries_insert_of_open (B := B) hline hentry (isOpen_false_iff.2 hopen)
    have hget : ∀ g, longer.get g =
        if g.key = f.key ∧ lastValue f.key (entriesOf runSection true (parse B)) = none then
          g.ofValue (some (unquote (trim value)))
        else shorter.get g := by
      intro g
      rw [show longer = ofEntries _ from congrArg ofEntries hlonger,
        show shorter = ofEntries _ from congrArg ofEntries hshorter, get_ofEntries_insert]
    refine ⟨fun g hg ↦ ?_, fun hlater ↦ ?_, fun hlast ↦ ?_⟩
    · rw [hget, if_neg fun h ↦ hg (Field.key_injective h.1)]
    · rw [hget, if_neg fun h ↦ hasEntry_iff.1 hlater h.2]
    · rw [hget, if_pos ⟨rfl, Classical.byContradiction fun h ↦ hlast (hasEntry_iff.2 h)⟩]
      rfl

/-- A value that cannot be read takes back one that could, from a section of the same name, and the
entry in another section behind it does not count. -/
theorem line_concerns_its_field_unreadable :
    let A := "[run]\ninput = no\n[other]\n[ run ]".toList
    let l := "input = maybe".toList
    let B := "output = off\n[other]\ninput = no".toList
    '\n' ∉ l ∧ sectionName? (trim l) = none ∧ ¬ HasEntry Field.input.key true B ∧
      (ofConfig (A ++ '\n' :: (l ++ '\n' :: B))).get .input = true ∧
      (ofConfig (A ++ '\n' :: B)).get .input = false ∧
      (ofConfig (A ++ '\n' :: (l ++ '\n' :: B))).get .output = false := by
  intro A l B
  have hline : '\n' ∉ l := by decide
  have hheader : sectionName? (trim l) = none := by decide
  have hlater : ¬ HasEntry Field.input.key true B := by decide +kernel
  obtain ⟨-, hentry, -⟩ := line_concerns_its_field A l B hline hheader
  obtain ⟨hothers, -, hlast⟩ := hentry .input "input ".toList " maybe".toList rfl (by decide)
    (by decide) (by decide +kernel)
  refine ⟨hline, hheader, hlater, hlast hlater, by decide +kernel, ?_⟩
  rw [hothers .output (by decide)]
  decide +kernel

end Settings

end Brainfuck
