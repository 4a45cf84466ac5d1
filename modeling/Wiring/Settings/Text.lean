import Wiring.Json.Reader
import Wiring.Json.Writer
import Wiring.Plan
import Wiring.Settings.Basic

/-!
# JSON texts of settings and plans
-/
namespace Wiring

open Json

/-- A set of capabilities is written as its text. -/
def Capabilities.reader : Reader Capabilities := do
  match Capabilities.ofText? (← Json.text) with
  | some set => return set
  | none => throw .mismatched

/-- A count is a whole number within a word. -/
def countReader : Reader Nat := natBelow UInt64.size

namespace InterfaceSettings

def fields : List (Member InterfaceSettings) :=
  [ .of "flags" false Capabilities.reader fun s v => { s with capabilities := v },
    .of "latency" false float fun s v => { s with latency := v },
    .of "bandwidth" false float fun s v => { s with bandwidth := v },
    .of "max_short" false countReader fun s v => { s with maxShort := v },
    .of "max_bcopy" false countReader fun s v => { s with maxBulk := v },
    .of "tx_credits" false countReader fun s v => { s with credits := v } ]

/-- Every field has a default. -/
def reader : Reader InterfaceSettings := record fields {}

end InterfaceSettings

namespace WorkerSettings

def fields : List (Member WorkerSettings) :=
  [ .of "name" true Json.text fun s v => { s with name := v },
    .of "uuid" false (nullable countReader) fun s v => { s with uuid := v.map UInt64.ofNat },
    .of "replay_yield_after" false (natBelow UInt32.size) fun s v => { s with replayYieldAfter := v },
    .of "flush_attempts" false (natBelow UInt32.size) fun s v => { s with flushAttempts := v } ]

/-- Only the name has to be there. -/
def reader : Reader WorkerSettings := record fields {}

def toJson (s : WorkerSettings) : Value :=
  .object
    [ ("name", .text s.name),
      ("uuid", .ofOption (fun u => .nat u.toNat) s.uuid),
      ("replay_yield_after", .nat s.replayYieldAfter),
      ("flush_attempts", .nat s.flushAttempts) ]

end WorkerSettings

def ResourceIndex.reader : Reader ResourceIndex := do return UInt8.ofNat (← natBelow 256)

def Category.reader : Reader Category := choice Category.ofCode?

/-- A list of exactly three values. -/
def PerCategory.reader {α : Type} (blank : α) (each : Reader α) : Reader (PerCategory α) := do
  let found ← items each 3
  return ⟨found.getD 0 blank, found.getD 1 blank, found.getD 2 blank⟩

namespace Plan

def fields : List (Member Plan) :=
  [ .of "rscs" true (PerCategory.reader none (nullable ResourceIndex.reader))
      fun p v => { p with resources := v },
    .of "dups" true (PerCategory.reader none (nullable Category.reader))
      fun p v => { p with aliases := v } ]

def reader : Reader Plan := record fields {}

def toJson (p : Plan) : Value :=
  .object
    [ ("rscs", .list (p.resources.toList.map (.ofOption fun (r : ResourceIndex) => .nat r.toNat))),
      ("dups", .list (p.aliases.toList.map (.ofOption fun (c : Category) => .text c.code))) ]

end Plan

end Wiring
