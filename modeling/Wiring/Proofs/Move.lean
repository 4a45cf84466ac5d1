import Mathlib
import Wiring.Proofs.Stub

/-!
# Moves

Whatever work does to a network is a sequence of moves. Some change nothing that is held, carried
or counted; some change what is held and planned; some build and take down what requests travel
on; and some pass a request on. A request on its way is in the job on top of the agenda, so that a
move takes it from one place and puts it to another.

A network is wild where the application may take sends of endpoints into its own hands.
-/
namespace Wiring

/-- What the books of a worker say; posted events are not in them. -/
def Worker.books (w : Worker) : Worker := { w with posted := [] }

/-- Endpoints and workers live only while they are held. -/
def Ref.isAnchor : Ref → Bool
  | .endpoint _ | .worker _ => true
  | _ => false

namespace Job

/-- Work that has no request in hand, holds nothing and settles no count. -/
def isIdle : Job → Bool
  | .release _ | .discard _ | .attempt _ _ | .conclude _ _ _ | .add _ _ | .replayed _ => false
  | _ => true

/-- The link whose turn it is. -/
def turn? : Job → Option LinkId
  | .dispatch l | .attempt _ (.queue l) | .conclude _ _ (.queue l) => some l
  | _ => none

/-- The request that the application gets back, and the place that it gets it back to. -/
def lending? : Job → Option (HeldId × Request)
  | .attempt r (.application h) | .conclude r _ (.application h) => some (h, r)
  | _ => none

end Job

/-- What an attempt that sends nothing makes of a request: its script may go on. -/
structure Answered (r r' : Request) (o : Outcome) : Prop where
  gates : r'.gates = r.gates
  send : r'.send? = r.send?
  unsent : r.send? ≠ none → r' = r ∧ o ≠ .ok ()

namespace Network

/-- A change of nothing that is held, carried or counted. Messages, credits, posted events,
callbacks and tallies may change, and interfaces and callbacks may be opened. -/
structure Aside (s t : Network) : Prop where
  interfaces : ∀ i, s.interfaces.contains i = true → t.interfaces.contains i = true
  callbacks : ∀ c, s.callbacks.contains c = true → t.callbacks.contains c = true
  linksNext : t.links.next = s.links.next
  queues : ∀ l, (t.links.get? l).map Link.queue = (s.links.get? l).map Link.queue
  stubs : t.stubs = s.stubs
  endpoints : t.endpoints = s.endpoints
  workersNext : t.workers.next = s.workers.next
  books : ∀ w, (t.workers.get? w).map Worker.books = (s.workers.get? w).map Worker.books
  registriesNext : s.registries.next ≤ t.registries.next
  registered : ∀ r x, s.stubs.contains x = true →
    t.registrations r (.stub x) = s.registrations r (.stub x)
  unregistered : ∀ r x, t.registrations r (.stub x) ≤ s.registrations r (.stub x)
  gates : t.gates = s.gates
  handles : t.handles = s.handles
  held : t.held = s.held
  holds : t.holds = s.holds
  agenda : t.agenda = s.agenda
  trace : ∃ marks : List Happening,
    t.trace = s.trace ++ marks.toArray ∧ ∀ h ∈ marks, h.isPlain = true

/-- Changes of what is held and of what is left to do. -/
inductive Hold (s : Network) : Network → Prop
  | keep (ref : Ref) (live : s.isLive ref = true) : Hold s { s with holds := ref :: s.holds }
  | letGo (ref : Ref) (held : ref ∈ s.holds) :
      Hold s { s with holds := s.holds.erase ref, agenda := .release ref :: s.agenda }
  | hold (ref : Ref) (live : s.isLive ref = true) :
      Hold s { s with agenda := .release ref :: s.agenda }
  | loose (ref : Ref) (rest : List Job) (top : s.agenda = .release ref :: rest)
      (anchored : ref.isAnchor = true → s.isLive ref = true →
        isHeld { s with agenda := rest } ref = true) :
      Hold s { s with agenda := rest }
  | plan (j : Job) (idle : j.isIdle = true)
      (escort : ∀ l, j.turn? = some l → .release (.link l) ∈ s.agenda) :
      Hold s { s with agenda := j :: s.agenda }
  | done (j : Job) (rest : List Job) (top : s.agenda = j :: rest) (idle : j.isIdle = true) :
      Hold s { s with agenda := rest }

/-- Building and taking down what requests travel on, and the state of its wiring. -/
inductive Wire (s : Network) : Network → Prop
  | closeInterface (i : InterfaceId) (free : s.isHeld (.interface i) = false) :
      Wire s { s with interfaces := s.interfaces.erase i }
  | closeCallback (c : CallbackId) (free : s.isHeld (.callback c) = false) :
      Wire s { s with callbacks := s.callbacks.erase c }
  | closeLink (l : LinkId) (lk : Link) (here : s.links.get? l = some lk) (empty : lk.queue = [])
      (free : s.isHeld (.link l) = false) :
      Wire s { s with links := s.links.erase l }
  | closeStub (id : StubId) (t : Stub) (here : s.stubs.get? id = some t) (empty : t.parked = [])
      (free : s.isHeld (.stub id) = false) :
      Wire s { s with
        stubs := s.stubs.erase id
        agenda := releaseLink? t.next ++ releaseLink? t.auxiliary ++ releaseLink? t.promoted
          ++ s.agenda }
  | closeEndpoint (id : EndpointId) (e : Endpoint) (rest : List Job)
      (top : s.agenda = .release (.endpoint id) :: rest) (here : s.endpoints.get? id = some e)
      (free : isHeld { s with agenda := rest } (.endpoint id) = false) :
      Wire s { s with
        endpoints := s.endpoints.erase id, agenda := releaseSlots e.slots ++ rest }
  | closeWorker (id : WorkerId) (w : Worker) (rest : List Job)
      (top : s.agenda = .release (.worker id) :: rest) (here : s.workers.get? id = some w)
      (free : isHeld { s with agenda := rest } (.worker id) = false) :
      Wire s { s with
        workers := s.workers.erase id
        agenda := w.resources.map (fun r => .release (.interface r.interface))
          ++ w.directory.map (fun entry => .release (.endpoint entry.2)) ++ rest }
  | openLink (l : Link) (empty : l.queue = []) : Wire s { s with links := s.links.push l }
  | openStub (t : Stub) (gate : t.gate = s.gates.next) (unparked : t.parked = [])
      (unmarked : t.localConnected = false ∧ t.remoteConnected = false)
      (unswitched : t.promoted = none)
      (next : ∃ l, t.next = some l ∧ s.links.contains l = true)
      (auxiliary : ∀ l, t.auxiliary = some l → s.links.contains l = true)
      (endpoint : s.endpoints.contains t.endpoint = true) :
      Wire s { s with gates := s.gates.push 0, stubs := s.stubs.push t }
  | openEndpoint (id : WorkerId) (w : Worker) (e : Endpoint)
      (here : s.workers.get? id = some w) (fresh : ∀ entry ∈ w.directory, entry.1 ≠ e.dest)
      (worker : e.worker = id) (empty : e.slots = .const none) :
      Wire s { s with
        endpoints := s.endpoints.push e
        workers := s.workers.set id
          { w with directory := w.directory ++ [(e.dest, s.endpoints.next)] }
        trace := s.trace.push (.opened s.endpoints.next id) }
  | openWorker (w : Worker) (registry : w.registry = s.registries.next)
      (fresh : w.parkedCount = 0 ∧ w.directory = [])
      (resources : ∀ r ∈ w.resources, s.interfaces.contains r.interface = true) :
      Wire s { s with
        registries := s.registries.push []
        workers := s.workers.push w
        holds := .worker s.workers.next :: s.holds }
  | install (id : EndpointId) (e : Endpoint) (lane : Category) (c : Carrier)
      (here : s.endpoints.get? id = some e) (live : s.isLive c.ref = true)
      (own : ∀ x, c = .stub x → ∃ t, s.stubs.get? x = some t ∧ t.endpoint = id ∧
        t.category = lane ∧ t.next ≠ none ∧ t.promoted = none)
      (unsent : ∀ h messageId payload, .sent h id messageId payload ∉ s.trace) :
      Wire s (s.setSlots id (installLane e lane c))
  | clear (id : EndpointId) : Wire s (s.setSlots id (.const none))
  | strike (id : WorkerId) (dest : UInt64)
      (pledged : ∀ w, s.workers.get? id = some w → ∀ entry ∈ w.directory, entry.1 = dest →
        .release (.endpoint entry.2) ∈ s.agenda) :
      Wire s { s with workers := s.workers.modify id fun w =>
        { w with directory := w.directory.filter fun entry => entry.1 != dest } }
  | markLocal (id : StubId) (here : s.stubs.contains id = true) :
      Wire s (note { s with stubs := s.stubs.modify id fun t => { t with localConnected := true } }
        (.connected id))
  | markRemote (id : StubId) (here : s.stubs.contains id = true) :
      Wire s (s.markRemoteConnected id)

/-- Passing a request on. -/
inductive Pass (wild : Prop) (s : Network) : Network → Prop
  /-- A new request of the application. -/
  | bring (c : Script) : Pass wild s { s with agenda := .discard (.scripted c) :: s.agenda }
  /-- A new send of an endpoint; a data send starts an activity. -/
  | send (m : Send) (handle : m.handle = s.handles.next)
      (live : s.endpoints.contains m.endpoint = true)
      (alone : m.messageId ≠ Signal.messageId → s.agenda = []) :
      Pass wild s { s with
        handles := s.handles.push none
        trace := s.trace.push (.sent m.handle m.endpoint m.messageId m.payload)
        agenda := .attempt (.send m) (.endpoint m.endpoint) :: s.agenda }
  | takeHeld (h : HeldId) (r : Request) (here : s.held.get? h = some r) :
      Pass wild s { s with held := s.held.erase h, agenda := .discard r :: s.agenda }
  | putHeld (r : Request) (rest : List Job) (top : s.agenda = .discard r :: rest)
      (sober : wild ∨ r.send? = none) :
      Pass wild s { s with held := s.held.push r, agenda := rest }
  /-- The application offers a request to a carrier, and may get it back. -/
  | offer (c : Carrier) (r : Request) (rest : List Job) (top : s.agenda = .discard r :: rest)
      (sober : wild ∨ r.send? = none) :
      Pass wild s { s with agenda := .add c r :: rest }
  | refuse (c : Carrier) (r : Request) (rest : List Job) (top : s.agenda = .add c r :: rest)
      (sober : wild ∨ r.send? = none) :
      Pass wild s { s with agenda := .discard r :: rest }
  /-- The application attempts a request that it keeps, and will get it back. -/
  | lend (r : Request) (h : HeldId) (rest : List Job) (top : s.agenda = .discard r :: rest)
      (room : h < s.held.next) (empty : s.held.get? h = none)
      (alone : ∀ j ∈ rest, ∀ r', j.lending? ≠ some (h, r')) (sober : wild ∨ r.send? = none) :
      Pass wild s { s with agenda := .attempt r (.application h) :: rest }
  | backHeld (r : Request) (o : Outcome) (h : HeldId) (rest : List Job)
      (top : s.agenda = .conclude r o (.application h) :: rest) :
      Pass wild s { s with held := s.held.set h r.unfinished, agenda := rest }
  | endHeld (r : Request) (o : Outcome) (h : HeldId) (rest : List Job)
      (top : s.agenda = .conclude r o (.application h) :: rest) :
      Pass wild s { s with
        held := s.held.set h r.finished
        handles := endHandle s.handles r o
        gates := leaveGates s.gates r
        agenda := rest }
  /-- The first request of a queue is taken out of it. -/
  | take (l : LinkId) (lk : Link) (r : Request) (queue : List Request)
      (here : s.links.get? l = some lk) (front : lk.queue = r :: queue) :
      Pass wild s { s with
        links := s.links.set l { lk with queue }, agenda := .discard r :: s.agenda }
  | dequeue (l : LinkId) (lk : Link) (r : Request) (queue : List Request)
      (here : s.links.get? l = some lk) (front : lk.queue = r :: queue)
      (escort : .release (.link l) ∈ s.agenda) :
      Pass wild s { s with
        links := s.links.set l { lk with queue }, agenda := .attempt r (.queue l) :: s.agenda }
  | requeue (l : LinkId) (lk : Link) (r : Request) (o : Outcome) (rest : List Job)
      (top : s.agenda = .conclude r o (.queue l) :: rest) (here : s.links.get? l = some lk)
      (unsent : o ≠ .ok ()) :
      Pass wild s { s with
        links := s.links.set l { lk with queue := r.unfinished :: lk.queue }, agenda := rest }
  /-- A carrier gives a request to the queue of a link. -/
  | queue (c : Carrier) (l : LinkId) (lk : Link) (r : Request) (rest : List Job)
      (top : s.agenda = .add c r :: rest) (here : s.links.get? l = some lk) :
      Pass wild s { s with
        links := s.links.set l { lk with queue := lk.queue ++ [r] }, agenda := rest }
  /-- A stub covers control traffic with its gate. -/
  | cover (id : StubId) (t : Stub) (r : Request) (rest : List Job)
      (top : s.agenda = .add (.stub id) r :: rest) (here : s.stubs.get? id = some t)
      (signal : r.isSignal = true) :
      Pass wild s { s with
        gates := s.gates.modify t.gate (· + 1)
        agenda := .add (.stub id) (.counted t.gate r) :: rest }
  /-- A carrier hands a request back, to be attempted. -/
  | handBack (c : Carrier) (r : Request) (rest : List Job) (top : s.agenda = .add c r :: rest) :
      Pass wild s { s with agenda := .attempt r (.retry c) :: rest }
  | answer (r r' : Request) (o : Outcome) (w : Waiter) (rest : List Job)
      (top : s.agenda = .attempt r w :: rest) (answered : Answered r r' o) :
      Pass wild s { s with agenda := .conclude r' o w :: rest }
  /-- The message of a send goes into an inbox. -/
  | accept (r : Request) (m : Send) (w : Waiter) (l : LinkId) (dest : InterfaceId)
      (rest : List Job) (top : s.agenda = .attempt r w :: rest)
      (inner : r.inner? = some (.send m)) :
      Pass wild s { s with
        trace := s.trace.push (.accepted l dest m.messageId m.payload (some m.handle))
        agenda := .conclude r (.ok ()) w :: rest }
  | again (r : Request) (o : Outcome) (c : Carrier) (rest : List Job)
      (top : s.agenda = .conclude r o (.retry c) :: rest) (unsent : o ≠ .ok ()) :
      Pass wild s { s with agenda := .add c r.unfinished :: rest }
  | first (r : Request) (o : Outcome) (e : EndpointId) (c : Carrier) (rest : List Job)
      (top : s.agenda = .conclude r o (.endpoint e) :: rest) (unsent : o ≠ .ok ())
      (slot : s.slot e .messages = some c) :
      Pass wild s { s with agenda := .add c r.unfinished :: .release c.ref :: rest }
  /-- A request is finished or given up, and its handle completed. -/
  | close (j : Job) (r : Request) (o : Outcome) (rest : List Job) (top : s.agenda = j :: rest)
      (hand : j.request? = some r) (lent : j.lending? = none)
      (truth : r.send? ≠ none → ∀ r' o' w, j = .conclude r' o' w → (o = .ok () ↔ o' = .ok ()))
      (untruth : r.send? ≠ none → (∀ r' o' w, j ≠ .conclude r' o' w) → o ≠ .ok ()) :
      Pass wild s { s with
        handles := endHandle s.handles r o, gates := leaveGates s.gates r, agenda := rest }
  /-- A request is let go untold. -/
  | letGo (r : Request) (rest : List Job) (top : s.agenda = .discard r :: rest)
      (sober : wild ∨ r.send? = none) :
      Pass wild s { s with gates := leaveGates s.gates r, agenda := rest }
  | park (id : StubId) (t : Stub) (w : WorkerId) (wk : Worker) (r : Request) (rest : List Job)
      (top : s.agenda = .add (.stub id) r :: rest) (here : s.stubs.get? id = some t)
      (data : r.isSignal = false) (worker : s.workerOf? t.endpoint = some w)
      (books : s.workers.get? w = some wk) (unswitched : t.next ≠ none) :
      Pass wild s { s with
        stubs := s.stubs.set id { t with parked := t.parked ++ [r] }
        workers := s.workers.set w { wk with parkedCount := wk.parkedCount + 1 }
        trace := s.trace.push (.parked id r)
        registries := s.registries.set wk.registry
          ((s.registry wk.registry).add (.stub id) true).1
        agenda := rest }
  | switch (id : StubId) (t : Stub) (w : WorkerId) (wk : Worker) (next : LinkId)
      (here : s.stubs.get? id = some t) (worker : s.workerOf? t.endpoint = some w)
      (books : s.workers.get? w = some wk) (unswitched : t.next = some next)
      (ready : s.isSwitchable t = true) :
      Pass wild s { s with
        stubs := s.stubs.set id
          { t with next := none, auxiliary := none, parked := [], promoted := some next }
        tally := s.tally + 1
        trace := s.trace.push (.switched id next)
        registries := withdraw s.registries wk.registry (.stub id) t.parked.length
        endpoints := s.endpoints.modify t.endpoint fun e => promoteSlots e id t.category next
        agenda := replay t w next ++ s.agenda }
  | replayed (w : WorkerId) (rest : List Job) (top : s.agenda = .replayed w :: rest) :
      Pass wild s { s with
        workers := s.workers.modify w fun w => { w with parkedCount := w.parkedCount - 1 }
        agenda := rest }

/-- One move. -/
inductive Move (wild : Prop) (s t : Network) : Prop
  | aside (h : Aside s t)
  | hold (h : Hold s t)
  | wire (h : Wire s t)
  | pass (h : Pass wild s t)

/-- A sequence of moves. -/
abbrev Moves (wild : Prop) : Network → Network → Prop :=
  Relation.ReflTransGen (Move wild)

end Network

end Wiring
