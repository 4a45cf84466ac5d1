import Wiring.Bytes
import Wiring.Text.Blank

/-!
# Capabilities

What an interface can do, as a set of flags in one word. The text of a set lists the names of its
known flags in their order, joined by ` | `, and after them the bits that no flag names as one
hexadecimal part; the reader of that text takes names and hexadecimal parts in any order.
-/
namespace Wiring

structure Capabilities where
  bits : UInt64 := 0
  deriving DecidableEq, Repr, Inhabited

namespace Capabilities

/-- The named flags; the place in the list is the number of the bit. -/
def names : List String :=
  ["AM_SHORT", "AM_BCOPY", "AM_ZCOPY", "PENDING", "PUT_SHORT", "PUT_BCOPY", "PUT_ZCOPY",
    "GET_BCOPY", "GET_ZCOPY", "ATOMIC_ADD32", "ATOMIC_ADD64", "ATOMIC_FADD32", "ATOMIC_FADD64",
    "ATOMIC_SWAP32", "ATOMIC_SWAP64", "ATOMIC_CSWAP32", "ATOMIC_CSWAP64", "CONNECT_TO_IFACE",
    "CONNECT_TO_EP", "AM_CB_SYNC", "AM_CB_ASYNC"]

/-- The set with the one flag of the given number. -/
def flag (n : Nat) : Capabilities := ⟨UInt64.ofNat (1 <<< n)⟩

/-- Active messages with a small payload copied into the send descriptor. -/
def shortMessages : Capabilities := flag 0

/-- Active messages packed into the send buffer. -/
def bulkMessages : Capabilities := flag 1

/-- Requests can wait for resources in a queue of the link. -/
def pending : Capabilities := flag 3

/-- Links can be created connected to a remote interface. -/
def connectToInterface : Capabilities := flag 17

/-- Links are created unconnected and then paired with a remote link. -/
def connectToLink : Capabilities := flag 18

/-- Handlers of active messages run inside the interface's progress. -/
def synchronousHandlers : Capabilities := flag 19

def union (a b : Capabilities) : Capabilities := ⟨a.bits ||| b.bits⟩

def difference (a b : Capabilities) : Capabilities := ⟨a.bits &&& ~~~b.bits⟩

def contains (a b : Capabilities) : Bool := a.bits &&& b.bits == b.bits

def isEmpty (a : Capabilities) : Bool := a.bits == 0

/-- The named flags with their names, in order. -/
def named : List (String × Capabilities) := names.zipIdx.map fun (name, n) => (name, flag n)

/-- All bits that some name stands for. -/
def known : Capabilities := named.foldl (fun acc entry => acc.union entry.2) ⟨0⟩

/-- The names of the flags contained in the set, then its unnamed bits in hexadecimal. -/
def parts (a : Capabilities) : List String :=
  let listed := (named.filter fun entry => a.contains entry.2).map Prod.fst
  let unnamed := a.difference known
  if unnamed.isEmpty then listed else listed ++ ["0x" ++ hexDigits unnamed.bits.toNat]

def text (a : Capabilities) : String := Text.join " | " a.parts

/-- The bits written after `0x`: hexadecimal digits, perhaps after a plus sign, within a word. -/
def ofHex? (digits : List Char) : Option Capabilities := do
  let digits := if digits.head? = some '+' then digits.tail else digits
  let n ← hexNat? digits
  if n < UInt64.size then return ⟨UInt64.ofNat n⟩ else none

/-- One part of a text: a hexadecimal number or the exact name of a flag. -/
def ofPart? : List Char → Option Capabilities
  | '0' :: 'x' :: digits => ofHex? digits
  | name => named.lookup (String.ofList name)

/-- The set that a text describes. A blank text is the empty set; an empty part, an unknown name
or a bad number refuses the text. -/
def ofText? (text : String) : Option Capabilities :=
  if (Text.trim text.toList).isEmpty then some ⟨0⟩
  else (Text.splitAt '|' text.toList).foldl
    (fun acc part => do return (← acc).union (← ofPart? (Text.trim part))) (some ⟨0⟩)

/-- What a full loopback interface can do. -/
def loopback : Capabilities :=
  connectToInterface.union connectToLink |>.union shortMessages |>.union bulkMessages
    |>.union pending |>.union synchronousHandlers

theorem contains_empty (a : Capabilities) : a.contains ⟨0⟩ = true := by
  simp [contains]

theorem contains_self (a : Capabilities) : a.contains a = true := by
  simp [contains]

example : (flag 1 |>.union (flag 3)).text = "AM_BCOPY | PENDING" := by decide +kernel

example : ofText? " AM_BCOPY|0x200000 " = some ⟨0x200002⟩ := by decide +kernel

end Capabilities

end Wiring
