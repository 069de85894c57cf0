/-!
# Whole numbers in text

`natural64 s` reads a number below 2^64, optionally with a leading plus sign, and says why a text
is not one. Digits are checked from left to right, so the first fault decides.
-/

namespace JobHierarchy.Text

/-- Why a text is not a number below 2^64. -/
inductive NumberFault where
  | empty
  | invalidDigit
  | tooLarge
  deriving DecidableEq, Repr

def NumberFault.message : NumberFault → String
  | .empty => "cannot parse integer from empty string"
  | .invalidDigit => "invalid digit found in string"
  | .tooLarge => "number too large to fit in target type"

/-- The value of a digit in a base up to sixteen. -/
def digitValue (base : Nat) (c : Char) : Option Nat :=
  let v :=
    if '0' ≤ c ∧ c ≤ '9' then some (c.toNat - '0'.toNat)
    else if 'a' ≤ c ∧ c ≤ 'f' then some (c.toNat - 'a'.toNat + 10)
    else if 'A' ≤ c ∧ c ≤ 'F' then some (c.toNat - 'A'.toNat + 10)
    else none
  v.filter (· < base)

/-- Digits after the value read so far. -/
def readDigits (base limit : Nat) : List Char → Nat → Except NumberFault Nat
  | [], value => .ok value
  | c :: cs, value =>
    match digitValue base c with
    | none => .error .invalidDigit
    | some d =>
      let next := value * base + d
      if next < limit then readDigits base limit cs next else .error .tooLarge

/-- A number below `limit` in the given base. A lone sign has no digit. -/
def naturalBelow (base limit : Nat) (cs : List Char) : Except NumberFault Nat :=
  match cs with
  | [] => .error .empty
  | '+' :: [] => .error .invalidDigit
  | '+' :: rest => readDigits base limit rest 0
  | _ => readDigits base limit cs 0

/-- A decimal number below 2^64. -/
def natural64 (s : String) : Except NumberFault Nat :=
  naturalBelow 10 UInt64.size s.toList

end JobHierarchy.Text
