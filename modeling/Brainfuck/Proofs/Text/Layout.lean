import Brainfuck.Text.Blank
import Brainfuck.Text.Lines
import Mathlib.Data.List.DropRight
import Mathlib.Data.List.Forall2
import Mathlib.Tactic.Common

/-!
# Blanks, lines and cuts

The blanks at the two ends of a text can be taken off in either order, and a character that is not
blank keeps the two ends apart: what stands in front of it is trimmed on the left only, and what
stands behind it on the right only. So it makes no difference whether a line is first trimmed and
then cut at such a character, or first cut and the parts trimmed then.

The lines of a text are those that give it back when they are put together with newlines between
them. With carriage returns in front of the newlines they are the same, up to a blank at their ends.
-/

namespace Brainfuck.Text

/-! ## Trimming -/

variable {c : Char} {as bs cs pad pad' : List Char}

theorem trimRight_eq (cs : List Char) : trimRight cs = (trimLeft cs.reverse).reverse := rfl

theorem trimLeft_append_cons (h : isBlank c = false) (as bs : List Char) :
    trimLeft (as ++ c :: bs) = trimLeft as ++ c :: bs := by
  have hc : List.dropWhile isBlank (c :: bs) = c :: bs := by simp [h]
  rw [trimLeft, trimLeft, List.dropWhile_append, hc]
  split
  · next hempty => rw [List.isEmpty_iff.1 hempty, List.nil_append]
  · rfl

theorem trimRight_append_cons (h : isBlank c = false) (as bs : List Char) :
    trimRight (as ++ c :: bs) = as ++ c :: trimRight bs := by
  rw [trimRight_eq, trimRight_eq, List.reverse_append, List.reverse_cons, List.append_assoc,
    List.singleton_append, trimLeft_append_cons h]
  simp

/-- A character that is not blank keeps the two ends apart. -/
theorem trim_append_cons (h : isBlank c = false) (as bs : List Char) :
    trim (as ++ c :: bs) = trimLeft as ++ c :: trimRight bs := by
  rw [trim, trimLeft_append_cons h, trimRight_append_cons h]

theorem trimLeft_of_blank (h : ∀ c ∈ cs, isBlank c = true) : trimLeft cs = [] :=
  List.dropWhile_eq_nil_iff.2 h

theorem trimRight_of_blank (h : ∀ c ∈ cs, isBlank c = true) : trimRight cs = [] :=
  List.rdropWhile_eq_nil_iff.2 h

/-- The two ends of a text can be trimmed in either order. -/
theorem trim_eq_trimLeft_trimRight (cs : List Char) : trim cs = trimLeft (trimRight cs) := by
  by_cases h : ∀ c ∈ cs, isBlank c = true
  · rw [trim, trimLeft_of_blank h, trimRight_of_blank h]
    rfl
  · -- the text has a character that keeps its ends apart
    push Not at h
    obtain ⟨c, hmem, hc⟩ := h
    obtain ⟨as, bs, rfl⟩ := List.append_of_mem hmem
    have hc : isBlank c = false := Bool.of_not_eq_true hc
    rw [trim_append_cons hc, trimRight_append_cons hc, trimLeft_append_cons hc]

@[simp] theorem trim_trimLeft (cs : List Char) : trim (trimLeft cs) = trim cs := by
  rw [trim, trimLeft, trimLeft, List.dropWhile_idempotent]
  rfl

@[simp] theorem trim_trimRight (cs : List Char) : trim (trimRight cs) = trim cs := by
  have hright : trimRight (trimRight cs) = trimRight cs := List.rdropWhile_idempotent _ cs
  rw [trim_eq_trimLeft_trimRight, hright, trim_eq_trimLeft_trimRight]

theorem trim_append_left (h : ∀ c ∈ pad, isBlank c = true) (cs : List Char) :
    trim (pad ++ cs) = trim cs := by
  rw [trim, trimLeft_append_of_blank h, ← trim]

theorem trim_append_right (h : ∀ c ∈ pad, isBlank c = true) (cs : List Char) :
    trim (cs ++ pad) = trim cs := by
  rw [trim_eq_trimLeft_trimRight, trimRight_append_of_blank h, ← trim_eq_trimLeft_trimRight]

/-- Blanks around a text do not matter. -/
theorem trim_pad (h : ∀ c ∈ pad, isBlank c = true) (h' : ∀ c ∈ pad', isBlank c = true)
    (cs : List Char) : trim (pad ++ (cs ++ pad')) = trim cs := by
  rw [trim_append_left h, trim_append_right h']

theorem trim_eq_self (h : ∀ c ∈ cs, isBlank c = false) : trim cs = cs := by
  cases cs with
  | nil => rfl
  | cons c cs =>
    have hleft : trimLeft (c :: cs) = c :: cs :=
      trimLeft_append_cons (h c List.mem_cons_self) [] cs
    rw [trim, hleft]
    refine List.rdropWhile_eq_self_iff.2 fun hne hblank ↦ ?_
    rw [h _ (List.getLast_mem hne)] at hblank
    cases hblank

theorem mem_of_mem_trim (h : c ∈ trim cs) : c ∈ cs := by
  have hright : c ∈ trimLeft cs := (List.rdropWhile_prefix isBlank _).subset h
  exact (List.dropWhile_suffix isBlank).subset hright

theorem mem_trim_of_not_blank (hmem : c ∈ cs) (h : isBlank c = false) : c ∈ trim cs := by
  obtain ⟨as, bs, rfl⟩ := List.append_of_mem hmem
  rw [trim_append_cons h]
  exact List.mem_append_right _ List.mem_cons_self

/-- Nothing is taken off between two characters that are not blank. -/
theorem trim_cons_concat {a b : Char} (ha : isBlank a = false) (hb : isBlank b = false)
    (cs : List Char) : trim (a :: (cs ++ [b])) = a :: (cs ++ [b]) := by
  calc trim (a :: (cs ++ [b]))
      = trimLeft [] ++ a :: trimRight (cs ++ [b]) := trim_append_cons ha [] _
    _ = a :: (cs ++ [b]) := by rw [trimRight_append_cons hb]; rfl

/-- The first character of a text that was trimmed is the first one that is not blank, whatever
follows. -/
theorem head?_trim_append_cons {d : Char} (h : isBlank c = false)
    (hhead : (trim as).head? = some d) (bs : List Char) :
    (trim (as ++ c :: bs)).head? = some d := by
  have hprefix : trim as <+: trimLeft as := List.rdropWhile_prefix isBlank _
  obtain ⟨rest, hrest⟩ := hprefix
  rw [trim_append_cons h, ← hrest, List.append_assoc, List.head?_append, hhead, Option.some_or]

theorem trim_eq_nil_iff : trim cs = [] ↔ ∀ c ∈ cs, isBlank c = true := by
  constructor
  · intro h c hc
    by_contra hblank
    have hmem := mem_trim_of_not_blank hc (Bool.of_not_eq_true hblank)
    rw [h] at hmem
    exact List.not_mem_nil hmem
  · intro h
    rw [trim, trimLeft_of_blank h]
    rfl

theorem trim_reverse (cs : List Char) : trim cs.reverse = (trim cs).reverse := by
  rw [trim_eq_trimLeft_trimRight, trimRight_eq, List.reverse_reverse, trim, trimRight_eq,
    List.reverse_reverse]

/-- A text that is cut at a character starts like what stands in front of the cut, or with that
character if only blanks stand there. -/
theorem head?_trim_cut (h : isBlank c = false) (as bs : List Char) :
    (trim (as ++ c :: bs)).head? = some ((trim as).head?.getD c) := by
  cases hhead : (trim as).head? with
  | some d => exact head?_trim_append_cons h hhead bs
  | none =>
    have hblank := trim_eq_nil_iff.1 (List.head?_eq_none_iff.1 hhead)
    rw [trim_append_cons h, trimLeft_of_blank hblank]
    rfl

/-- A text that is cut at a character ends like what stands behind the cut, or with that character
if only blanks stand there. -/
theorem getLast?_trim_cut (h : isBlank c = false) (as bs : List Char) :
    (trim (as ++ c :: bs)).getLast? = some ((trim bs).getLast?.getD c) := by
  have hreverse : (trim (as ++ c :: bs)).reverse = trim (bs.reverse ++ c :: as.reverse) := by
    rw [← trim_reverse]
    simp
  rw [← List.head?_reverse, hreverse, head?_trim_cut h, trim_reverse, List.head?_reverse]

/-! ## Lines -/

theorem fields_eq_splitOn (sep : Char) (cs : List Char) : fields sep cs = cs.splitOn sep := by
  induction cs with
  | nil => exact (List.splitOn_nil sep).symm
  | cons c cs ih =>
    rw [List.splitOn_eq_splitOnP, List.splitOnP_cons_eq_if_modifyHead, ← List.splitOn_eq_splitOnP,
      ← ih]
    by_cases h : c = sep
    · subst h
      rw [fields_cons_self, if_pos (beq_self_eq_true c)]
    · rw [fields_cons_of_ne h, if_neg (by simpa using h)]
      cases hl : fields sep cs with
      | nil => exact absurd hl (fields_ne_nil cs)
      | cons l ls => rfl

theorem lines_intercalate {ls : List (List Char)} (hne : ls ≠ []) (h : ∀ l ∈ ls, '\n' ∉ l) :
    lines (['\n'].intercalate ls) = ls := by
  rw [lines, fields_eq_splitOn, List.splitOn_intercalate '\n' h hne]

theorem not_mem_of_mem_fields {sep : Char} {l : List Char} (h : l ∈ fields sep cs) : sep ∉ l := by
  induction cs generalizing l with
  | nil =>
    obtain rfl := List.mem_singleton.1 h
    exact List.not_mem_nil
  | cons c cs ih =>
    by_cases hc : c = sep
    · subst hc
      rw [fields_cons_self, List.mem_cons] at h
      rcases h with rfl | h
      · exact List.not_mem_nil
      · exact ih h
    · rw [fields_cons_of_ne hc] at h
      cases hfields : fields sep cs with
      | nil => exact absurd hfields (fields_ne_nil cs)
      | cons first ls =>
        rw [hfields] at ih
        rw [hfields, consField, List.mem_cons] at h
        rcases h with rfl | h
        · exact List.not_mem_cons_of_ne_of_not_mem (Ne.symm hc) (ih List.mem_cons_self)
        · exact ih (List.mem_cons_of_mem _ h)

/-- The text with a carriage return in front of every newline. -/
def withReturns (cs : List Char) : List Char :=
  cs.flatMap fun c ↦ if c = '\n' then ['\r', '\n'] else [c]

/-- With carriage returns the lines are the same, but there may be one at the end of each. -/
theorem lines_withReturns (cs : List Char) :
    List.Forall₂ (fun l l' ↦ l' = l ∨ l' = l ++ ['\r']) (lines cs) (lines (withReturns cs)) := by
  have hcons : ∀ (c : Char) {ls ls' : List (List Char)},
      List.Forall₂ (fun l l' ↦ l' = l ∨ l' = l ++ ['\r']) ls ls' →
        List.Forall₂ (fun l l' ↦ l' = l ∨ l' = l ++ ['\r']) (consField c ls) (consField c ls') := by
    intro c ls ls' h
    cases h with
    | nil => exact .cons (Or.inl rfl) .nil
    | cons hl h => exact .cons (hl.imp (congrArg (c :: ·)) (congrArg (c :: ·))) h
  induction cs with
  | nil => exact .cons (Or.inl rfl) .nil
  | cons c cs ih =>
    by_cases hc : c = '\n'
    · subst hc
      have hreturns : withReturns ('\n' :: cs) = '\r' :: '\n' :: withReturns cs := rfl
      rw [hreturns, lines, lines, fields_cons_self, fields_cons_of_ne (by decide),
        fields_cons_self]
      exact .cons (Or.inr rfl) ih
    · have hreturns : withReturns (c :: cs) = c :: withReturns cs := by
        simp [withReturns, hc]
      rw [hreturns, lines, lines, fields_cons_of_ne hc, fields_cons_of_ne hc]
      exact hcons c ih

/-! ## Cuts -/

theorem cutAt_eq_none (h : c ∉ cs) : cutAt c cs = none := by
  have hall : ∀ d ∈ cs, decide (d ≠ c) = true := fun d hd ↦ by
    simpa using fun e : d = c ↦ h (e ▸ hd)
  rw [cutAt, List.dropWhile_eq_nil_iff.2 hall]

theorem dropFirst?_eq_some_iff : dropFirst? c cs = some as ↔ cs = c :: as := by
  cases cs with
  | nil => simp [dropFirst?]
  | cons d cs => simp [dropFirst?]

theorem dropLast?_eq_some_iff : dropLast? c cs = some as ↔ cs = as ++ [c] := by
  rw [dropLast?]
  constructor
  · intro h
    split at h
    · next hlast =>
      obtain ⟨bs, rfl⟩ := List.getLast?_eq_some_iff.1 hlast
      rw [← Option.some.inj h, List.dropLast_concat]
    · simp at h
  · rintro rfl
    rw [if_pos List.getLast?_concat, List.dropLast_concat]

end Brainfuck.Text
