/-!
# Base64

Bytes as letters, digits, plus and slash, four for three bytes, filled up with equals signs.
-/

namespace JobHierarchy.Text.Base64

def alphabet : List Char :=
  "ABCDEFGHIJKLMNOPQRSTUVWXYZabcdefghijklmnopqrstuvwxyz0123456789+/".toList

def digit (n : Nat) : Char := alphabet.getD (n % 64) '='

def encodeBytes : List UInt8 → List Char
  | [] => []
  | [a] => [digit (a.toNat / 4), digit (a.toNat * 16), '=', '=']
  | [a, b] =>
    let n := a.toNat * 256 + b.toNat
    [digit (n / 1024), digit (n / 16), digit (n * 4), '=']
  | a :: b :: c :: rest =>
    let n := (a.toNat * 256 + b.toNat) * 256 + c.toNat
    digit (n / 262144) :: digit (n / 4096) :: digit (n / 64) :: digit n :: encodeBytes rest

def encode (s : String) : String := String.ofList (encodeBytes s.toUTF8.toList)

example : encode "" = "" ∧ encode "a:b" = "YTpi" := by decide +kernel
example : encode "ab" = "YWI=" ∧ encode "a" = "YQ==" := by decide +kernel

end JobHierarchy.Text.Base64
