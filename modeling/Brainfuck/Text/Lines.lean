/-!
# Lines and other cuts

A text is cut into fields at every occurrence of a separator, and into lines at its newlines; a line
is cut in two at the first occurrence of a character. No cut loses a character other than the ones
it cuts at.

A *place* in a text is given by the number of bytes in front of it. A text can be cut at a place
only if it lies between two characters, or at one of the two ends. A character can also be given by
its index among the characters of the text, and its place is then found by counting through the
text.
-/

namespace Brainfuck.Text

/-- Put a character in front of the first field. -/
def consField (c : Char) : List (List Char) → List (List Char)
  | [] => [[c]]
  | l :: ls => (c :: l) :: ls

/-- The parts of a text between the occurrences of a separator. There is one part more than there
are separators, and the last part is empty if the text ends with one. -/
def fields (sep : Char) (cs : List Char) : List (List Char) :=
  cs.foldr (fun c ls ↦ if c = sep then [] :: ls else consField c ls) [[]]

/-- The lines of a text. -/
def lines (cs : List Char) : List (List Char) := fields '\n' cs

/-- Cut a text in two at the first occurrence of `c`, which belongs to neither part. -/
def cutAt (c : Char) (cs : List Char) : Option (List Char × List Char) :=
  match cs.dropWhile (· ≠ c) with
  | [] => none
  | _ :: rest => some (cs.takeWhile (· ≠ c), rest)

/-- Take `c` off the front, if it is there. -/
def dropFirst? (c : Char) : List Char → Option (List Char)
  | [] => none
  | d :: cs => if d = c then some cs else none

/-- Take `c` off the back, if it is there. -/
def dropLast? (c : Char) (cs : List Char) : Option (List Char) :=
  if cs.getLast? = some c then some cs.dropLast else none

/-- The number of bytes in a text. -/
def byteLength : List Char → Nat
  | [] => 0
  | c :: cs => c.utf8Size + byteLength cs

/-- The place of the character at an index, or the end if there is none, in a text with `start`
bytes in front of it. -/
def placeFrom (start : Nat) : List Char → Nat → Nat
  | [], _ => start
  | _ :: _, 0 => start
  | c :: cs, i + 1 => placeFrom (start + c.utf8Size) cs i

/-- The place of the character at an index, or the end of the text if there is none. -/
def placeOf (cs : List Char) (i : Nat) : Nat := placeFrom 0 cs i

/-- The text behind its first `n` bytes. -/
def dropBytes (n : Nat) : List Char → Option (List Char)
  | [] => if n = 0 then some [] else none
  | c :: cs =>
    if n = 0 then some (c :: cs)
    else if c.utf8Size ≤ n then dropBytes (n - c.utf8Size) cs
    else none

/-- The first `n` bytes of a text. -/
def takeBytes (n : Nat) : List Char → Option (List Char)
  | [] => if n = 0 then some [] else none
  | c :: cs =>
    if n = 0 then some []
    else if c.utf8Size ≤ n then (takeBytes (n - c.utf8Size) cs).map (c :: ·)
    else none

/-- The part of a text from one place to another, which must not lie in front of it. -/
def slice (start stop : Nat) (cs : List Char) : Option (List Char) :=
  if start ≤ stop then (dropBytes start cs).bind (takeBytes (stop - start)) else none

/-- The part of a text behind a place. -/
def sliceFrom (start : Nat) (cs : List Char) : Option (List Char) := dropBytes start cs

/-- Find the first character that satisfies `p`, in a text with `start` bytes in front of it: its
place, the character, and the text behind it. -/
def seek (p : Char → Bool) (start : Nat) : List Char → Option (Nat × Char × List Char)
  | [] => none
  | c :: cs => if p c then some (start, c, cs) else seek p (start + c.utf8Size) cs

/-! ## Fields -/

section

variable {sep : Char}

@[simp] theorem fields_nil : fields sep [] = [[]] := rfl

@[simp] theorem fields_cons_self (cs : List Char) :
    fields sep (sep :: cs) = [] :: fields sep cs := by
  simp [fields]

theorem fields_cons_of_ne {c : Char} (h : c ≠ sep) (cs : List Char) :
    fields sep (c :: cs) = consField c (fields sep cs) := by
  simp [fields, h]

theorem fields_ne_nil (cs : List Char) : fields sep cs ≠ [] := by
  cases cs with
  | nil => simp
  | cons c cs =>
    by_cases h : c = sep
    · subst h
      simp
    · rw [fields_cons_of_ne h]
      cases fields sep cs <;> simp [consField]

/-- A text without separators is one field. -/
theorem fields_of_not_mem {l : List Char} (h : sep ∉ l) : fields sep l = [l] := by
  induction l with
  | nil => rfl
  | cons c l ih =>
    have hc : c ≠ sep := fun e ↦ h (e ▸ List.mem_cons_self ..)
    rw [fields_cons_of_ne hc, ih fun hl ↦ h (List.mem_cons_of_mem _ hl), consField]

/-- The fields of two texts with a separator between them are those of the one and then those of the
other. -/
theorem fields_append (as bs : List Char) :
    fields sep (as ++ sep :: bs) = fields sep as ++ fields sep bs := by
  induction as with
  | nil => simp
  | cons a as ih =>
    by_cases h : a = sep
    · subst h
      simp [ih]
    · rw [List.cons_append, fields_cons_of_ne h, fields_cons_of_ne h, ih]
      cases hl : fields sep as with
      | nil => exact absurd hl (fields_ne_nil as)
      | cons l ls => simp [consField]

end

/-! ## Cuts -/

theorem cutAt_append {c : Char} {as : List Char} (h : c ∉ as) (bs : List Char) :
    cutAt c (as ++ c :: bs) = some (as, bs) := by
  have hall : ∀ d ∈ as, decide (d ≠ c) = true := fun d hd ↦ by
    simpa using fun e : d = c ↦ h (e ▸ hd)
  rw [cutAt, List.dropWhile_append_of_pos hall, List.takeWhile_append_of_pos hall]
  simp

end Brainfuck.Text
