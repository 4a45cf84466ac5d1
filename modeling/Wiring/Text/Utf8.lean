import Wiring.Bytes

/-!
# UTF-8

Reading text from bytes. Bytes that are not text are refused with the place of the fault: the
length of the longest well-formed part at the front, and the length of the ill-formed part that
follows it, or none when the bytes merely end inside a character.
-/
namespace Wiring.Text

/-- Where bytes stop being UTF-8. -/
structure Utf8Fault where
  valid : Nat
  length : Option Nat
  deriving DecidableEq, Repr

namespace Utf8Fault

/-- The wording names the ill-formed part by its length, or says that the bytes end too early. -/
def message (f : Utf8Fault) : String :=
  match f.length with
  | some n => "invalid utf-8 sequence of " ++ toString n ++ " bytes from index " ++ toString f.valid
  | none => "incomplete utf-8 byte sequence from index " ++ toString f.valid

end Utf8Fault

/-- The number of bytes that follow a first byte, and the range that the first of them is in;
none for a byte that starts no character. Later bytes are in the range 0x80 to 0xBF. -/
def followers? (first : UInt8) : Option (Nat × UInt8 × UInt8) :=
  if first < 0x80 then some (0, 0x80, 0xBF)
  else if first < 0xC2 then none
  else if first < 0xE0 then some (1, 0x80, 0xBF)
  else if first = 0xE0 then some (2, 0xA0, 0xBF)
  else if first = 0xED then some (2, 0x80, 0x9F)
  else if first < 0xF0 then some (2, 0x80, 0xBF)
  else if first = 0xF0 then some (3, 0x90, 0xBF)
  else if first < 0xF4 then some (3, 0x80, 0xBF)
  else if first = 0xF4 then some (3, 0x80, 0x8F)
  else none

/-- How the bytes after a first byte go on. -/
inductive Tail where
  | complete (rest : Bytes)
  | broken (after : Nat)
  | cut

/-- Takes `count` following bytes, the next of which is in the range from `low` to `high`; `seen`
bytes of the character were read before. -/
def takeTail (seen : Nat) (low high : UInt8) : (count : Nat) → Bytes → Tail
  | 0, bs => .complete bs
  | _ + 1, [] => .cut
  | count + 1, b :: bs =>
    if low ≤ b ∧ b ≤ high then takeTail (seen + 1) 0x80 0xBF count bs else .broken seen

theorem takeTail_length {seen : Nat} {low high : UInt8} {count : Nat} {bs rest : Bytes}
    (h : takeTail seen low high count bs = .complete rest) : rest.length ≤ bs.length := by
  induction count generalizing seen low high bs with
  | zero => cases h; exact Nat.le_refl _
  | succ count ih =>
    cases bs with
    | nil => cases h
    | cons b bs =>
      unfold takeTail at h
      split at h
      · exact Nat.le_succ_of_le (ih h)
      · cases h

/-- The first fault of the bytes, `valid` bytes before them being well-formed. -/
def utf8Fault? (valid : Nat) : Bytes → Option Utf8Fault
  | [] => none
  | b :: bs =>
    match followers? b with
    | none => some ⟨valid, some 1⟩
    | some (count, low, high) =>
      match h : takeTail 1 low high count bs with
      | .complete rest => utf8Fault? (valid + 1 + count) rest
      | .broken after => some ⟨valid, some after⟩
      | .cut => some ⟨valid, none⟩
termination_by bs => bs.length
decreasing_by
  have := takeTail_length h
  simp only [List.length_cons]
  omega

/-- The text that the bytes are. -/
def ofUtf8 (bs : Bytes) : Except Utf8Fault String :=
  match String.fromUTF8? ⟨bs.toArray⟩ with
  | some text => .ok text
  | none => .error ((utf8Fault? 0 bs).getD ⟨0, some 1⟩)

/-- The bytes of a text. -/
def utf8 (text : String) : Bytes := text.toUTF8.data.toList

theorem ofUtf8_utf8 (text : String) : ofUtf8 (utf8 text) = .ok text := by
  unfold ofUtf8 utf8
  have h : (⟨text.toUTF8.data.toList.toArray⟩ : ByteArray) = text.toUTF8 := by simp
  rw [h]
  have : String.fromUTF8? text.toUTF8 = some text := by
    unfold String.fromUTF8?
    split
    · rfl
    · next hn => exact absurd text.isValidUTF8 (by simpa using hn)
  rw [this]

end Wiring.Text
