/-!
# Bytes

Byte strings, little-endian numbers and their hexadecimal text. A number is written with a fixed
width and its least significant byte first; reading takes the bytes in the same order.
-/
namespace Wiring

abbrev Bytes := List UInt8

namespace Bytes

/-- The `width` lowest bytes of `n`, least significant first. -/
def littleEndian : (width : Nat) → (n : Nat) → Bytes
  | 0, _ => []
  | width + 1, n => UInt8.ofNat (n % 256) :: littleEndian width (n / 256)

/-- The number whose bytes are given least significant first. -/
def ofLittleEndian : Bytes → Nat
  | [] => 0
  | b :: bs => b.toNat + 256 * ofLittleEndian bs

/-- The eight bytes of a word. -/
def word (w : UInt64) : Bytes := littleEndian 8 w.toNat

/-- The word in the first eight bytes; bytes after them are not looked at. -/
def word? (bs : Bytes) : Option UInt64 :=
  if 8 ≤ bs.length then some (UInt64.ofNat (ofLittleEndian (bs.take 8))) else none

theorem littleEndian_length (width n : Nat) : (littleEndian width n).length = width := by
  induction width generalizing n with
  | zero => rfl
  | succ width ih => simp [littleEndian, ih]

theorem word_length (w : UInt64) : (word w).length = 8 := littleEndian_length 8 w.toNat

/-- The hexadecimal digit of a value below sixteen, in lower case. -/
def hexDigit (n : Nat) : Char :=
  if n < 10 then Char.ofNat (48 + n) else Char.ofNat (87 + n)

/-- Two lower-case digits a byte. -/
def hex (bs : Bytes) : String :=
  String.ofList (bs.flatMap fun b => [hexDigit (b.toNat / 16), hexDigit (b.toNat % 16)])

end Bytes

/-- The value of a hexadecimal digit of either case. -/
def hexValue? (c : Char) : Option Nat :=
  if '0' ≤ c ∧ c ≤ '9' then some (c.toNat - 48)
  else if 'a' ≤ c ∧ c ≤ 'f' then some (c.toNat - 87)
  else if 'A' ≤ c ∧ c ≤ 'F' then some (c.toNat - 55)
  else none

/-- The number written by hexadecimal digits; no digits or another character give none. -/
def hexNat? (digits : List Char) : Option Nat :=
  if digits.isEmpty then none
  else digits.foldl (fun acc c => do return 16 * (← acc) + (← hexValue? c)) (some 0)

/-- The lower-case hexadecimal digits of `n`, without leading zeros. -/
def hexDigits (n : Nat) : String := String.ofList (Nat.toDigits 16 n)

/-- A word as exactly sixteen lower-case hexadecimal digits. -/
def hexWord (w : UInt64) : String :=
  let digits := Nat.toDigits 16 w.toNat
  String.ofList (List.replicate (16 - digits.length) '0' ++ digits)

end Wiring
