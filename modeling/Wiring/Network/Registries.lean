import Wiring.Network.Holding

/-!
# Registries

A registry runs its runners once each time it is run. Registering a runner again only counts; the
runner leaves the registry when it has been unregistered as often as it was registered. Runners
that are gone leave it the next time it is run.
-/
namespace Wiring

namespace Registry

/-- How often a runner is registered. -/
def count (r : Registry) (x : Runner) : Nat := (r.lookup x).getD 0

def replace (r : Registry) (x : Runner) (n : Nat) : Registry :=
  r.map fun entry => if entry.1 == x then (x, n) else entry

/-- One more registration. What is left of a runner that is gone counts for nothing. -/
def add (r : Registry) (x : Runner) (alive : Bool) : Registry × Nat :=
  match r.lookup x with
  | none => (r ++ [(x, 1)], 1)
  | some n =>
    let n := if alive then n + 1 else 1
    (r.replace x n, n)

/-- One registration less; none if there was none. -/
def remove (r : Registry) (x : Runner) : Registry × Option Nat :=
  match r.lookup x with
  | none => (r, none)
  | some n =>
    if n ≤ 1 then (r.filter fun entry => entry.1 != x, some 0)
    else (r.replace x (n - 1), some (n - 1))

end Registry

namespace Network

def registry (s : Network) (id : RegistryId) : Registry := (s.registries.get? id).getD []

def registrations (s : Network) (id : RegistryId) (x : Runner) : Nat := (s.registry id).count x

def register (s : Network) (id : RegistryId) (x : Runner) : Network × Nat :=
  let (r, n) := (s.registry id).add x (s.isLive x.ref)
  ({ s with registries := s.registries.set id r }, n)

def unregister (s : Network) (id : RegistryId) (x : Runner) : Network × Option Nat :=
  let (r, n) := (s.registry id).remove x
  ({ s with registries := s.registries.set id r }, n)

/-- Drops the entries of runners that are gone. -/
def prune (s : Network) (id : RegistryId) : Network :=
  { s with registries := s.registries.modify id (·.filter fun entry => s.isLive entry.1.ref) }

/-- Takes one of the application's holds away; the thing is released when the work before it is
done. -/
def letGo (s : Network) (ref : Ref) : Network :=
  if s.holds.contains ref then
    let s := { s with holds := s.holds.erase ref }
    s.push [.release ref]
  else s

/-- Does what a callback wants of its registry; labels without a callback are skipped. -/
def act (s : Network) (id : RegistryId) (a : Action) : Network :=
  match a with
  | .register label =>
    match s.labels.lookup label with
    | some c => (s.register id (.callback c)).1
    | none => s
  | .unregister label =>
    match s.labels.lookup label with
    | some c => (s.unregister id (.callback c)).1
    | none => s
  | .drop label =>
    match s.labels.lookup label with
    | some c => s.letGo (.callback c)
    | none => s

/-- Runs a callback: it takes the next part of its script. -/
def runCallback (s : Network) (id : CallbackId) : Network :=
  match s.callbacks.get? id with
  | none => s
  | some c =>
    let s := { s with callbacks := s.callbacks.set id { c with script := c.script.tail } }
    let s := s.note (.called c.name)
    (c.script.headD []).foldl (fun s a => s.act c.registry a) s

end Network

end Wiring
