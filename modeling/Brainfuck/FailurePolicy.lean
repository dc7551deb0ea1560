import Brainfuck.Text.Blank

/-!
# Failure policies

A device can fail while a program runs. Under the policy *report* the failure is counted, handed to
the host, and the program goes on as if the command had done nothing; under *halt* it ends the run.
The name of a policy is read without regard to blanks around it or to the case of its letters.
-/

namespace Brainfuck

/-- What a machine does when a device fails. -/
inductive FailurePolicy where
  /-- Tell the host and go on. -/
  | report
  /-- Stop. -/
  | halt
deriving DecidableEq, Repr

namespace FailurePolicy

instance : Inhabited FailurePolicy := ⟨report⟩

/-- The policy of a machine for which none was chosen. -/
def standard : FailurePolicy := report

/-- How a policy is shown. -/
def label : FailurePolicy → String
  | report => "Report"
  | halt => "Halt"

/-- The spelling of a policy in lower case. -/
def keyword : FailurePolicy → List Char
  | report => "report".toList
  | halt => "halt".toList

/-- What was given where the name of a policy was expected, trimmed and in lower case. -/
structure Unknown where
  /-- The name that no policy has. -/
  name : List Char
deriving DecidableEq, Repr

/-- What is said about a name that no policy has. -/
def Unknown.message (u : Unknown) : String :=
  "unknown I/O policy '" ++ String.ofList u.name ++ "' (expected 'report' or 'halt')"

/-- Read the name of a policy. -/
def parse (cs : List Char) : Except Unknown FailurePolicy :=
  let name := Text.lower (Text.trim cs)
  if name = report.keyword then .ok report
  else if name = halt.keyword then .ok halt
  else .error ⟨name⟩

@[simp] theorem parse_keyword (k : FailurePolicy) : parse k.keyword = .ok k := by
  cases k <;> rfl

theorem parse_eq_ok_iff {cs : List Char} {k : FailurePolicy} :
    parse cs = .ok k ↔ Text.lower (Text.trim cs) = k.keyword := by
  have hne : report.keyword ≠ halt.keyword := by decide
  unfold parse
  by_cases hr : Text.lower (Text.trim cs) = report.keyword
  · rw [hr]
    cases k with
    | report => simp
    | halt => simp [hne]
  · by_cases hh : Text.lower (Text.trim cs) = halt.keyword
    · rw [hh]
      cases k with
      | report => simp [hne.symm]
      | halt => simp [hne.symm]
    · cases k with
      | report => simp [hr, hh]
      | halt => simp [hr, hh]

end FailurePolicy

end Brainfuck
