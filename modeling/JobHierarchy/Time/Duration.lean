/-!
# Durations

A number of milliseconds in the largest unit that it fills, as a decimal where it is not whole.
-/

namespace JobHierarchy.Time

/-- The thousandths of a second behind the point, without zeros at the end. -/
def fractionText (thousandths : Nat) : String :=
  let digits := (Nat.toDigits 10 (1000 + thousandths)).drop 1
  match (digits.reverse.dropWhile (· = '0')).reverse with
  | [] => ""
  | significant => "." ++ String.ofList significant

def durationText (millis : Nat) : String :=
  if millis = 0 then "0ns"
  else if millis < 1000 then toString millis ++ "ms"
  else toString (millis / 1000) ++ fractionText (millis % 1000) ++ "s"

end JobHierarchy.Time
