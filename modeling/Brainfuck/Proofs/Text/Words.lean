import Brainfuck.Proofs.Text.Layout

/-!
# Words in a line

A word is written in any mixture of upper and lower case, with blanks around it or between quotes.
The characters of words and of numerals are *plain*: none of them is blank or a quote, so nothing is
lost of them when blanks and quotes are taken off.
-/

namespace Brainfuck.Text

/-! ## Cases -/

/-- The same word, up to the case of its letters. -/
def EitherCase (cs word : List Char) : Prop :=
  List.Forall₂ (fun c d ↦ c = d ∨ c = d.toUpper) cs word

instance (cs word : List Char) : Decidable (EitherCase cs word) :=
  inferInstanceAs (Decidable (List.Forall₂ (fun c d ↦ c = d ∨ c = d.toUpper) cs word))

/-- The character is neither blank nor a quote. -/
def IsPlain (c : Char) : Prop := isBlank c = false ∧ c ≠ '"'

instance : DecidablePred IsPlain := fun c ↦
  inferInstanceAs (Decidable (isBlank c = false ∧ c ≠ '"'))

/-- A word of plain characters in lower case, which comes back from upper case as it was. -/
def IsWord (word : List Char) : Prop :=
  ∀ d ∈ word, (d.toLower = d ∧ IsPlain d) ∧ d.toUpper.toLower = d ∧ IsPlain d.toUpper

instance : DecidablePred IsWord := fun word ↦ List.decidableBAll _ word

theorem eitherCase_self (word : List Char) : EitherCase word word :=
  List.forall₂_same.2 fun _ _ ↦ Or.inl rfl

section

variable {cs word : List Char}

theorem lower_of_eitherCase (hword : IsWord word) (h : EitherCase cs word) : lower cs = word := by
  induction h with
  | nil => rfl
  | @cons c d cs word hcd _ ih =>
    obtain ⟨hd, hword⟩ := List.forall_mem_cons.1 hword
    have hc : c.toLower = d := by
      rcases hcd with rfl | rfl
      · exact hd.1.1
      · exact hd.2.1
    rw [lower, List.map_cons, hc, ← lower, ih hword]

theorem isPlain_of_eitherCase (hword : IsWord word) (h : EitherCase cs word) :
    ∀ c ∈ cs, IsPlain c := by
  induction h with
  | nil => exact List.forall_mem_nil _
  | @cons c d cs word hcd _ ih =>
    obtain ⟨hd, hword⟩ := List.forall_mem_cons.1 hword
    refine List.forall_mem_cons.2 ⟨?_, ih hword⟩
    rcases hcd with rfl | rfl
    · exact hd.1.2
    · exact hd.2.2

theorem trim_of_isPlain (h : ∀ c ∈ cs, IsPlain c) : trim cs = cs :=
  trim_eq_self fun c hc ↦ (h c hc).1

theorem lower_trim_of_eitherCase (hword : IsWord word) (h : EitherCase cs word) :
    lower (trim cs) = word := by
  rw [trim_of_isPlain (isPlain_of_eitherCase hword h), lower_of_eitherCase hword h]

end

theorem isPlain_of_isDigit {c : Char} (h : c.isDigit = true) : IsPlain c := by
  rw [Char.isDigit, Bool.and_eq_true, decide_eq_true_iff, decide_eq_true_iff, ge_iff_le,
    UInt32.le_iff_toNat_le, UInt32.le_iff_toNat_le] at h
  obtain ⟨hlow, hhigh⟩ : 48 ≤ c.toNat ∧ c.toNat ≤ 57 := h
  constructor
  · simp only [isBlank, inRanges, blankRanges, List.any_cons, List.any_nil, Bool.or_false,
      Bool.or_eq_false_iff, Bool.and_eq_false_iff, decide_eq_false_iff_not]
    omega
  · rintro rfl
    exact absurd hlow (by decide)

/-! ## Blanks and quotes -/

/-- A text with blanks around it. -/
def Padded (cs l : List Char) : Prop :=
  ∃ pad pad', (∀ c ∈ pad, isBlank c = true) ∧ (∀ c ∈ pad', isBlank c = true) ∧
    l = pad ++ (cs ++ pad')

theorem padded_append (pad cs pad' : List Char) (h : pad.all isBlank = true)
    (h' : pad'.all isBlank = true) : Padded cs (pad ++ (cs ++ pad')) :=
  ⟨pad, pad', List.all_eq_true.1 h, List.all_eq_true.1 h', rfl⟩

theorem trim_of_padded {cs l : List Char} (h : Padded cs l) : trim l = trim cs := by
  obtain ⟨pad, pad', hpad, hpad', rfl⟩ := h
  exact trim_pad hpad hpad' cs

theorem not_mem_of_padded {c : Char} {cs l : List Char} (h : Padded cs l) (hc : isBlank c = false)
    (hcs : c ∉ cs) : c ∉ l := by
  obtain ⟨pad, pad', hpad, hpad', rfl⟩ := h
  have hblank : ∀ {bs : List Char}, (∀ d ∈ bs, isBlank d = true) → c ∉ bs := by
    intro bs hbs hmem
    exact absurd (hbs c hmem) (by rw [hc]; exact Bool.false_ne_true)
  simp only [List.mem_append, not_or]
  exact ⟨hblank hpad, hcs, hblank hpad'⟩

theorem trim_quoted (cs : List Char) : trim ('"' :: (cs ++ ['"'])) = '"' :: (cs ++ ['"']) :=
  trim_cons_concat (by decide) (by decide) cs

end Brainfuck.Text
