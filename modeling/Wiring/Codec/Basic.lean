import Wiring.Bytes
import Wiring.Failure
import Wiring.Text.Utf8

/-!
# Written form of values

Numbers have a fixed width, least significant byte first. A text or a list is its length as a
word and then its content; a choice is its number in four bytes; an optional value is a tag of one
byte, 0 or 1, before the value. A decoder takes what it needs from the front of the bytes and
leaves the rest, so bytes after a value are no fault.
-/
namespace Wiring.Codec

/-- Takes a value from the front of the bytes. -/
abbrev Decoder (α : Type) := StateT Bytes (Except MalformedBytes) α

def putNat (width n : Nat) : Bytes := Bytes.littleEndian width n

def putWord (w : UInt64) : Bytes := Bytes.word w

def putByte (b : UInt8) : Bytes := [b]

def putText (text : String) : Bytes :=
  let content := Text.utf8 text
  putNat 8 content.length ++ content

def putList {α : Type} (put : α → Bytes) (items : List α) : Bytes :=
  putNat 8 items.length ++ items.flatMap put

def putBytes (content : Bytes) : Bytes := putList putByte content

def putOption {α : Type} (put : α → Bytes) : Option α → Bytes
  | none => [0]
  | some a => 1 :: put a

/-- A choice is written by its number. -/
def putVariant (n : Nat) : Bytes := putNat 4 n

/-- The first `count` bytes and the rest, if there are as many. -/
def split? : (count : Nat) → Bytes → Option (Bytes × Bytes)
  | 0, bs => some ([], bs)
  | _ + 1, [] => none
  | count + 1, b :: bs => (split? count bs).map fun (front, rest) => (b :: front, rest)

/-- Takes a number of bytes of which none may be missing. -/
def take (count : Nat) (missing : MalformedBytes) : Decoder Bytes := fun bs =>
  match split? count bs with
  | some taken => .ok taken
  | none => .error missing

def getNat (width : Nat) : Decoder Nat := do
  return Bytes.ofLittleEndian (← take width .endOfInput)

def getWord : Decoder UInt64 := do return UInt64.ofNat (← getNat 8)

def getByte : Decoder UInt8 := do return UInt8.ofNat (← getNat 1)

def getText : Decoder String := do
  let content ← take (← getNat 8) .textTooLong
  match Text.ofUtf8 content with
  | .ok text => return text
  | .error fault => throw (.notText fault)

/-- The given number of values one after another. -/
def getMany {α : Type} (get : Decoder α) : Nat → Decoder (List α)
  | 0 => return []
  | count + 1 => do
    let first ← get
    return first :: (← getMany get count)

def getList {α : Type} (get : Decoder α) : Decoder (List α) := do getMany get (← getNat 8)

def getBytes : Decoder Bytes := getList getByte

def getOption {α : Type} (get : Decoder α) : Decoder (Option α) := do
  match ← getNat 1 with
  | 0 => return none
  | 1 => return some (← get)
  | tag => throw (.badTag tag)

/-- One of the given choices by its number. -/
def getVariant {α : Type} (choices : List α) : Decoder α := do
  let n ← getNat 4
  match choices[n]? with
  | some choice => return choice
  | none => throw (.badVariant n choices.length)

theorem split?_append (front rest : Bytes) :
    split? front.length (front ++ rest) = some (front, rest) := by
  induction front with
  | nil => rfl
  | cons b front ih => simp [split?, ih]

theorem split?_eq_some {count : Nat} {bs front rest : Bytes}
    (h : split? count bs = some (front, rest)) : bs = front ++ rest ∧ front.length = count := by
  induction count generalizing bs front with
  | zero => simp only [split?, Option.some.injEq, Prod.mk.injEq] at h; simp [← h.1, h.2]
  | succ count ih =>
    cases bs with
    | nil => simp [split?] at h
    | cons b bs =>
      simp only [split?, Option.map_eq_some_iff, Prod.exists, Prod.mk.injEq] at h
      obtain ⟨front', rest', hs, rfl, rfl⟩ := h
      obtain ⟨rfl, rfl⟩ := ih hs
      simp

end Wiring.Codec
