import Brainfuck.Text.Numeral
import Mathlib.Data.List.Induction

/-!
# Numerals that are read

A number is written with its decimal digits, behind any number of zeros and behind a plus sign or
none. Each such numeral is read as the number, up to the largest word. Reading stops at the first
value that does not fit, but the values on the way never exceed the value of the whole numeral, so a
numeral of a word is read to its end. Nothing else is read: any row of digits is a numeral of its
value.
-/

namespace Brainfuck.Text.Numeral

/-- The text is a decimal numeral of `n`. -/
def Spells (n : Nat) (cs : List Char) : Prop :=
  ∃ sign zeros, (sign = [] ∨ sign = ['+']) ∧
    cs = sign ++ (List.replicate zeros '0' ++ Nat.toDigits 10 n)

/-- Digits never make a value smaller. -/
theorem le_ofDigitChars (n : Nat) (cs : List Char) : n ≤ Nat.ofDigitChars 10 cs n := by
  induction cs generalizing n with
  | nil => exact Nat.le_refl n
  | cons c cs ih =>
    rw [Nat.ofDigitChars_cons]
    exact Nat.le_trans (by omega) (ih _)

theorem digitsFrom_eq_ok {n : Nat} {cs : List Char} (hdigits : ∀ c ∈ cs, c.isDigit = true)
    (hlt : Nat.ofDigitChars 10 cs n < UInt64.size) :
    digitsFrom n cs = .ok (Nat.ofDigitChars 10 cs n) := by
  induction cs generalizing n with
  | nil => rfl
  | cons c cs ih =>
    rw [Nat.ofDigitChars_cons, Nat.mul_comm] at hlt ⊢
    have hfits : n * 10 + digitValue c < UInt64.size := Nat.lt_of_le_of_lt (le_ofDigitChars _ _) hlt
    rw [digitsFrom_cons, if_pos (hdigits c List.mem_cons_self), if_pos hfits]
    exact ih (fun d hd ↦ hdigits d (List.mem_cons_of_mem c hd)) hlt

/-- What is read has digits only, and has their value. -/
theorem isDigit_and_eq_of_digitsFrom {n k : Nat} {cs : List Char} (h : digitsFrom n cs = .ok k) :
    (∀ c ∈ cs, c.isDigit = true) ∧ k = Nat.ofDigitChars 10 cs n := by
  induction cs generalizing n with
  | nil => exact ⟨List.forall_mem_nil _, (Except.ok.inj h).symm⟩
  | cons c cs ih =>
    rw [digitsFrom_cons] at h
    split at h
    · next hc =>
      split at h
      · obtain ⟨hcs, hk⟩ := ih h
        rw [Nat.ofDigitChars_cons, Nat.mul_comm]
        exact ⟨List.forall_mem_cons.2 ⟨hc, hcs⟩, hk⟩
      · cases h
    · cases h

theorem toDigits_digitValue {c : Char} (h : c.isDigit = true) :
    digitValue c < 10 ∧ Nat.toDigits 10 (digitValue c) = [c] := by
  obtain ⟨hlow, hhigh⟩ : 48 ≤ c.toNat ∧ c.toNat ≤ 57 := Char.isDigit_iff_toNat.1 h
  have hlt : digitValue c < 10 := by
    have hvalue : digitValue c = c.toNat - 48 := rfl
    omega
  have hc : Char.ofNat (48 + digitValue c) = c := by
    rw [show 48 + digitValue c = c.toNat from Nat.add_sub_cancel' hlow, Char.ofNat_toNat]
  have hdigits : ∀ v, v < 10 → v.digitChar = Char.ofNat (48 + v) := by decide
  exact ⟨hlt, by rw [Nat.toDigits_of_lt_base hlt, hdigits _ hlt, hc]⟩

/-- A row of digits is a numeral of its value, with zeros in front. -/
theorem exists_replicate_append {cs : List Char} (hne : cs ≠ [])
    (hdigits : ∀ c ∈ cs, c.isDigit = true) :
    ∃ zeros, cs = List.replicate zeros '0' ++ Nat.toDigits 10 (Nat.ofDigitChars 10 cs 0) := by
  -- the digits are taken off from the back, where the value ends
  induction cs using List.reverseRecOn with
  | nil => exact absurd rfl hne
  | append_singleton cs c ih =>
    obtain ⟨hcs, hc⟩ := List.forall_mem_append.1 hdigits
    obtain ⟨hlt, hdigit⟩ := toDigits_digitValue (hc c List.mem_cons_self)
    have hvalue : Nat.ofDigitChars 10 (cs ++ [c]) 0 =
        10 * Nat.ofDigitChars 10 cs 0 + digitValue c := by
      rw [Nat.ofDigitChars_append, Nat.ofDigitChars_cons, Nat.ofDigitChars_nil]
      rfl
    rw [hvalue]
    by_cases hempty : cs = []
    · subst hempty
      exact ⟨0, by simpa using hdigit.symm⟩
    · obtain ⟨zeros, hzeros⟩ := ih hempty hcs
      rcases Nat.eq_zero_or_pos (Nat.ofDigitChars 10 cs 0) with hzero | hpos
      · refine ⟨zeros + 1, ?_⟩
        rw [hzero] at hzeros ⊢
        rw [Nat.mul_zero, Nat.zero_add, hdigit, hzeros, List.replicate_succ']
        rfl
      · refine ⟨zeros, ?_⟩
        rw [← Nat.toDigits_append_toDigits (by decide) hpos hlt, hdigit, ← List.append_assoc,
          ← hzeros]

section

variable {n zeros : Nat}

theorem isDigit_of_mem {c : Char} (h : c ∈ List.replicate zeros '0' ++ Nat.toDigits 10 n) :
    c.isDigit = true := by
  rcases List.mem_append.1 h with h | h
  · rw [List.eq_of_mem_replicate h]
    rfl
  · exact Nat.isDigit_of_mem_toDigits (by decide) (by decide) h

theorem ofDigitChars_eq (n zeros : Nat) :
    Nat.ofDigitChars 10 (List.replicate zeros '0' ++ Nat.toDigits 10 n) 0 = n := by
  rw [Nat.ofDigitChars_append, Nat.ofDigitChars_replicate_zero, Nat.mul_zero,
    Nat.ofDigitChars_ten_toDigits]

/-- A sign is taken off, and nothing else. -/
theorem unsigned_eq {sign cs : List Char} (hsign : sign = [] ∨ sign = ['+'])
    (hdigits : ∀ c ∈ cs, c.isDigit = true) : unsigned (sign ++ cs) = cs := by
  rcases hsign with rfl | rfl
  · rw [List.nil_append, unsigned]
    rintro rest rfl
    exact absurd (hdigits '+' List.mem_cons_self) (by decide)
  · rfl

end

/-- A numeral of a word is read as this word. -/
theorem parse_of_spells {n : UInt64} {cs : List Char} (h : Spells n.toNat cs) :
    parse cs = .ok n := by
  obtain ⟨sign, zeros, hsign, rfl⟩ := h
  have hdigits : ∀ c ∈ List.replicate zeros '0' ++ Nat.toDigits 10 n.toNat, c.isDigit = true :=
    fun c hc ↦ isDigit_of_mem hc
  have hne : List.replicate zeros '0' ++ Nat.toDigits 10 n.toNat ≠ [] :=
    List.append_ne_nil_of_right_ne_nil _ Nat.toDigits_ne_nil
  have hread := digitsFrom_eq_ok (n := 0) hdigits
    ((ofDigitChars_eq n.toNat zeros).symm ▸ n.toNat_lt_size)
  rw [ofDigitChars_eq] at hread
  rw [parse, if_neg (List.append_ne_nil_of_right_ne_nil _ hne), unsigned_eq hsign hdigits,
    if_neg hne, hread]
  exact congrArg Except.ok UInt64.ofNat_toNat

/-- A text is read as a word exactly if it is a numeral of this word. -/
theorem parse_eq_ok_iff {n : UInt64} {cs : List Char} :
    parse cs = .ok n ↔ Spells n.toNat cs := by
  refine ⟨fun h ↦ ?_, parse_of_spells⟩
  rw [parse] at h
  split at h
  · cases h
  split at h
  · cases h
  next hne =>
  cases hread : digitsFrom 0 (unsigned cs) with
  | error e =>
    rw [hread] at h
    cases h
  | ok k =>
    rw [hread] at h
    obtain rfl : k.toUInt64 = n := Except.ok.inj h
    have hfits := lt_size_of_digitsFrom (by decide) hread
    obtain ⟨hdigits, rfl⟩ := isDigit_and_eq_of_digitsFrom hread
    obtain ⟨zeros, hzeros⟩ := exists_replicate_append hne hdigits
    have hword : (Nat.ofDigitChars 10 (unsigned cs) 0).toUInt64.toNat =
        Nat.ofDigitChars 10 (unsigned cs) 0 := UInt64.toNat_ofNat_of_lt' hfits
    rw [hword]
    obtain ⟨sign, hsign, hcs⟩ : ∃ sign, (sign = [] ∨ sign = ['+']) ∧ cs = sign ++ unsigned cs := by
      unfold unsigned
      split
      · exact ⟨['+'], Or.inr rfl, rfl⟩
      · exact ⟨[], Or.inl rfl, rfl⟩
    exact ⟨sign, zeros, hsign, hcs.trans (congrArg _ hzeros)⟩

theorem isDigit_or_eq_of_spells {n : Nat} {cs : List Char} (h : Spells n cs) {c : Char}
    (hc : c ∈ cs) : c.isDigit = true ∨ c = '+' := by
  obtain ⟨sign, zeros, hsign, rfl⟩ := h
  rcases List.mem_append.1 hc with hc | hc
  · rcases hsign with rfl | rfl
    · exact absurd hc List.not_mem_nil
    · exact Or.inr (List.mem_singleton.1 hc)
  · exact Or.inl (isDigit_of_mem hc)

end Brainfuck.Text.Numeral
