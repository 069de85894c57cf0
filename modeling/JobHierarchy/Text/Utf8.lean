/-!
# Text from bytes

`decodeLossy` reads bytes as UTF-8. Where they are not well formed, each longest beginning of a
sequence that cannot go on becomes one replacement character.
-/

namespace JobHierarchy.Text

/-- How many bytes follow a first byte, and the range of the second one. -/
def sequenceOf? (b : Nat) : Option (Nat × Nat × Nat) :=
  if 0xC2 ≤ b && b ≤ 0xDF then some (1, 0x80, 0xBF)
  else if b = 0xE0 then some (2, 0xA0, 0xBF)
  else if b = 0xED then some (2, 0x80, 0x9F)
  else if 0xE1 ≤ b && b ≤ 0xEF then some (2, 0x80, 0xBF)
  else if b = 0xF0 then some (3, 0x90, 0xBF)
  else if b = 0xF4 then some (3, 0x80, 0x8F)
  else if 0xF1 ≤ b && b ≤ 0xF3 then some (3, 0x80, 0xBF)
  else none

/-- The rest of a sequence: `count` bytes, the first of them in a range. Gives the code point, or
nothing if the bytes do not go on, and how many bytes belong together. -/
def sequenceRest : (count low high code : Nat) → List UInt8 → Option Nat × Nat
  | 0, _, _, code, _ => (some code, 0)
  | _ + 1, _, _, _, [] => (none, 0)
  | count + 1, low, high, code, b :: bytes =>
    let n := b.toNat
    if low ≤ n && n ≤ high then
      let (result, used) := sequenceRest count 0x80 0xBF (code * 64 + n % 64) bytes
      (result, used + 1)
    else (none, 0)

def decodeLossyFrom : (fuel : Nat) → List UInt8 → List Char
  | 0, _ => []
  | _ + 1, [] => []
  | fuel + 1, b :: bytes =>
    let n := b.toNat
    if n < 0x80 then Char.ofNat n :: decodeLossyFrom fuel bytes
    else match sequenceOf? n with
      | none => '\uFFFD' :: decodeLossyFrom fuel bytes
      | some (count, low, high) =>
        let lead := n % Nat.pow 2 (6 - count)
        let (code, used) := sequenceRest count low high lead bytes
        (code.elim '\uFFFD' Char.ofNat) :: decodeLossyFrom fuel (bytes.drop used)

/-- The text of bytes; a byte order mark in front does not count. -/
def decodeLossy (bytes : List UInt8) : String :=
  match decodeLossyFrom (bytes.length + 1) bytes with
  | '\uFEFF' :: cs => String.ofList cs
  | cs => String.ofList cs

end JobHierarchy.Text
