/-!
# Figures

How truth values and integers are written where a value is described in words.
-/

namespace Brainfuck.Text

/-- A truth value as a word. -/
def ofTruth : Bool → String
  | true => "true"
  | false => "false"

/-- An integer in decimal digits, with a sign if it is negative. -/
def ofInt : Int → String
  | .ofNat n => n.repr
  | .negSucc n => "-" ++ (n + 1).repr

end Brainfuck.Text
