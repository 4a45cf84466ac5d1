import Wiring.Network.Basic

/-!
# Extent

How much there is in a network to work on: messages that have not arrived, requests with the
attempts that their scripts ask for, rounds of flushing, things that progress visits, what the
application holds and may let go of, and the jobs of the agenda. Every kind of work visits some of
these, and nests at most three deep, which bounds the work of an operation that ends.
-/
namespace Wiring

/-- The sum of a measure over a list. -/
def total {α : Type} (measure : α → Nat) : List α → Nat
  | [] => 0
  | a :: rest => measure a + total measure rest

/-- A request and the attempts that its script asks for. -/
def Request.extent : Request → Nat
  | .scripted c => 1 + total Prod.fst c.answers
  | .send _ => 1
  | .counted _ inner => 1 + inner.extent
  | .spent _ => 1

def requestsExtent (requests : List Request) : Nat := total Request.extent requests

namespace Network

/-- The extent of the things in a table. -/
def tableExtent {α : Type} (t : Table α) (extent : α → Nat) : Nat :=
  total (fun a => 1 + extent a) t.values

def extent (s : Network) : Nat :=
  tableExtent s.interfaces (fun i => i.inbox.length)
    + tableExtent s.links (fun l => requestsExtent l.queue)
    + tableExtent s.stubs (fun t => requestsExtent t.parked)
    + tableExtent s.endpoints (fun e => e.flushAttempts)
    + tableExtent s.workers (fun w => w.resources.length + w.posted.length + w.directory.length)
    + tableExtent s.registries List.length + s.holds.length
    + s.agenda.length + requestsExtent (s.agenda.filterMap Job.request?)

/-- An operation that takes this many steps is taken not to end. -/
def fuel (s : Network) : Nat := 1000000 * Nat.pow (1 + s.extent) 3

theorem fuel_pos (s : Network) : 0 < s.fuel :=
  Nat.mul_pos (by decide) (Nat.pow_pos (by omega))

end Network

end Wiring
