import Wiring.Network.Basic

/-!
# Holding and releasing

A thing lives as long as something holds it: the application, work under way, or another thing
that owns it. Workers own the interfaces of their resources and the endpoints of their directory,
endpoints own the carriers in their slots, stubs own their links. When the last hold is released
the thing is retired: it leaves its table, its effects follow, and what it owned is released in a
fixed order.
-/
namespace Wiring.Network

def note (s : Network) (h : Happening) : Network := { s with trace := s.trace.push h }

/-- Puts work on top of the agenda. -/
def push (s : Network) (jobs : List Job) : Network := { s with agenda := jobs ++ s.agenda }

/-- Records a broken promise; while one stops the work, further ones are not recorded. -/
def violate (s : Network) (v : Violation) : Network :=
  match s.violation with
  | none => { s with violation := some v }
  | some _ => s

/-- Records how a send ended; only the first end counts. -/
def complete (s : Network) (h : HandleId) (o : Outcome) : Network :=
  { s with handles := s.handles.modify h fun old => some (old.getD o) }

def enterGate (s : Network) (g : GateId) : Network := { s with gates := s.gates.modify g (· + 1) }

def leaveGate (s : Network) (g : GateId) : Network := { s with gates := s.gates.modify g (· - 1) }

/-- Gives a request up without performing it. -/
def cancel (s : Network) : Request → Network
  | .scripted c => s.note (.cancelled c.name)
  | .send m => s.complete m.handle (.error .canceled)
  | .counted g inner => (s.leaveGate g).cancel inner
  | .spent _ => s

/-- Lets a request go. A scripted one notes if it was not finished; a send is not told. -/
def discard (s : Network) : Request → Network
  | .scripted c => if c.finished then s else s.note (.dropped c.name)
  | .send _ => s
  | .counted g inner => (s.leaveGate g).discard inner
  | .spent _ => s

def isLive (s : Network) : Ref → Bool
  | .interface id => s.interfaces.contains id
  | .link id => s.links.contains id
  | .stub id => s.stubs.contains id
  | .endpoint id => s.endpoints.contains id
  | .worker id => s.workers.contains id
  | .callback id => s.callbacks.contains id

/-- Whether another thing owns this one. -/
def isOwned (s : Network) : Ref → Bool
  | .interface id => s.workers.any fun w => w.resources.any fun r => r.interface == id
  | .link id =>
    s.endpoints.any (fun e => e.slots.toList.contains (some (.link id)))
      || s.stubs.any fun t =>
        t.next == some id || t.auxiliary == some id || t.promoted == some id
  | .stub id => s.endpoints.any fun e => e.slots.toList.contains (some (.stub id))
  | .endpoint id => s.workers.any fun w => w.directory.any fun entry => entry.2 == id
  | .worker _ => false
  | .callback _ => false

def isHeld (s : Network) (ref : Ref) : Bool :=
  s.holds.contains ref || s.agenda.any (fun t => t.hold? == some ref) || s.isOwned ref

/-- Its queue is cancelled from the front. -/
def retireLink (s : Network) (id : LinkId) : Network :=
  match s.links.get? id with
  | none => s
  | some l => l.queue.foldl cancel { s with links := s.links.erase id }

def releaseLink? (id : Option LinkId) : List Job := id.toList.map fun l => .release (.link l)

/-- A stub promises to hold no parked request when it goes. -/
def retireStub (s : Network) (id : StubId) : Network :=
  match s.stubs.get? id with
  | none => s
  | some t =>
    let s := { s with stubs := s.stubs.erase id }
    let s := if t.parked.isEmpty then s
      else s.violate (.releasedWithParked t.category t.parked.length)
    s.push (releaseLink? t.next ++ releaseLink? t.auxiliary ++ t.parked.map Job.discard
      ++ releaseLink? t.promoted)

def releaseSlots (slots : PerCategory Slot) : List Job :=
  (slots.toList.filterMap id).map fun c => .release c.ref

def retireEndpoint (s : Network) (id : EndpointId) : Network :=
  match s.endpoints.get? id with
  | none => s
  | some e =>
    let s := { s with endpoints := s.endpoints.erase id }
    s.push (releaseSlots e.slots)

/-- The resources go before the endpoints. -/
def retireWorker (s : Network) (id : WorkerId) : Network :=
  match s.workers.get? id with
  | none => s
  | some w =>
    let s := { s with workers := s.workers.erase id }
    s.push (w.resources.map (fun r => .release (.interface r.interface))
      ++ w.directory.map (fun entry => .release (.endpoint entry.2)))

/-- The messages in its inbox are lost, and with them the credits they took. -/
def retireInterface (s : Network) (id : InterfaceId) : Network :=
  match s.interfaces.get? id with
  | none => s
  | some i =>
    i.inbox.foldl (fun s m => s.note (.lost id m))
      { s with interfaces := s.interfaces.erase id }

def retire (s : Network) : Ref → Network
  | .interface id => s.retireInterface id
  | .link id => s.retireLink id
  | .stub id => s.retireStub id
  | .endpoint id => s.retireEndpoint id
  | .worker id => s.retireWorker id
  | .callback id => { s with callbacks := s.callbacks.erase id }

/-- Retires a thing that nothing holds any more. -/
def release (s : Network) (ref : Ref) : Network := if s.isHeld ref then s else s.retire ref

end Wiring.Network
