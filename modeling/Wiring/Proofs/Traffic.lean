import Mathlib
import Wiring.Proofs.Replay

/-!
# Traffic

The traffic of a network is what carries requests and messages, what of them is on its way, and what
has happened. A step does one deed to it: it takes the job on top of the agenda and puts others in
its place. Some deeds pass a request or a message on; all others only rig what carries them.
-/
namespace Wiring

structure Traffic where
  interfaces : Table Interface
  links : Table Link
  stubs : Table Stub
  endpoints : Table Endpoint
  handles : Table (Option Outcome)
  held : Table Request
  agenda : List Job
  trace : Array Happening

def Network.traffic (s : Network) : Traffic :=
  ⟨s.interfaces, s.links, s.stubs, s.endpoints, s.handles, s.held, s.agenda, s.trace⟩

/-- Work that has no message, no credit and no request in hand. -/
def Job.isBare : Job → Bool
  | .discard _ | .attempt _ _ | .conclude _ _ _ | .add _ _ | .giveBack _ | .handle _ _ => false
  | _ => true

/-- A link with nothing in its queue and all its credits. -/
structure Link.IsNew (lk : Link) : Prop where
  empty : lk.queue = []
  full : lk.credits = lk.settings.credits

/-- Happenings that move no message. -/
def Happening.isMute : Happening → Bool
  | .accepted _ _ _ _ _ | .delivered _ _ | .lost _ _ | .recorded _ _ _ => false
  | _ => true

/-- Happenings that move no message and do not tell what becomes of a request. -/
def Happening.isStill : Happening → Bool
  | .attempted _ _ | .cancelled _ | .dropped _ => false
  | x => x.isMute

/-! ## Ends of requests -/

namespace Request

/-- What is noted when an attempt at a request is answered. -/
def answerNotes (r : Request) (o : Outcome) : List Happening :=
  match r.inner? with
  | some (.scripted c) => [.attempted c.name o]
  | _ => []

/-- What is noted when a request is given up. -/
def cancelNotes (r : Request) : List Happening :=
  match r.inner? with
  | some (.scripted c) => [.cancelled c.name]
  | _ => []

/-- What is noted when a request is let go. -/
def dropNotes (r : Request) : List Happening :=
  match r.inner? with
  | some (.scripted c) => if c.finished then [] else [.dropped c.name]
  | _ => []

/-- How a request that somebody has in hand comes to its end: what is noted of it, and what the
handles tell. -/
inductive Ends (handles : Table (Option Outcome)) (r : Request) :
    Job → List Happening → Table (Option Outcome) → Prop
  | finish (o : Outcome) (w : Waiter) (done : o.isNoResource = false) :
      Ends handles r (.conclude r o w) (r.answerNotes o) (Network.endHandle handles r o)
  | cancel (w : Waiter) :
      Ends handles r (.conclude r (.error .noResource) w)
        (r.answerNotes (.error .noResource) ++ r.cancelNotes)
        (Network.endHandle handles r (.error .canceled))
  | lose (w : Waiter) :
      Ends handles r (.conclude r (.error .noResource) w) (r.answerNotes (.error .noResource)) handles
  | drop : Ends handles r (.discard r) r.dropNotes handles

end Request

namespace Traffic

/-- A request is given up. -/
def cancel (s : Traffic) (r : Request) : Traffic :=
  { s with
    handles := Network.endHandle s.handles r (.error .canceled)
    trace := s.trace ++ r.cancelNotes.toArray }

/-- One change of what carries requests and messages. Nothing new is queued, parked or sent, and the
agenda stays as it is. -/
inductive Rig (s : Traffic) : Traffic → Prop
  | note (x : Happening) (still : x.isStill = true) : Rig s { s with trace := s.trace.push x }
  /-- A stub pairs the link that it is wired up with. -/
  | pair (x : StubId) (st : Stub) (l : LinkId) (dest : InterfaceId)
      (here : s.stubs.get? x = some st) (next : st.next = some l) :
      Rig s { s with
        links := s.links.modify l fun lk => { lk with dest := some dest }
        stubs := s.stubs.modify x fun t => { t with localConnected := true } }
  | mark (x : StubId) :
      Rig s { s with stubs := s.stubs.modify x fun t => { t with remoteConnected := true } }
  /-- An interface counts the links that it has opened. -/
  | number (i : InterfaceId) (f : Interface) (n : Nat) (here : s.interfaces.get? i = some f) :
      Rig s { s with interfaces := s.interfaces.set i { f with linksOpened := n } }
  | openLink (lk : Link) (new : lk.IsNew) : Rig s { s with links := s.links.push lk }
  | openEndpoint (e : Endpoint) (empty : e.slots = .const none) :
      Rig s { s with endpoints := s.endpoints.push e }
  /-- A lane is served by a new link that is connected at once. -/
  | linkLane (id : EndpointId) (e : Endpoint) (lane : Category) (lk : Link)
      (here : s.endpoints.get? id = some e) (new : lk.IsNew) :
      Rig s { s with
        links := s.links.push lk
        endpoints := s.endpoints.modify id fun e' =>
          { e' with slots := Network.installLane e lane (.link s.links.next) } }
  /-- A lane is served by a new stub with new links of its own. -/
  | stubLane (id : EndpointId) (e : Endpoint) (lane : Category) (st : Stub) (lk : Link)
      (auxiliary : Option Link) (here : s.endpoints.get? id = some e) (new : lk.IsNew)
      (new' : ∀ lk' ∈ auxiliary, lk'.IsNew) (next : st.next = some s.links.next)
      (aside : st.auxiliary = auxiliary.map fun _ => s.links.next + 1)
      (unmarked : st.localConnected = false ∧ st.remoteConnected = false)
      (unparked : st.parked = []) (unswitched : st.promoted = none)
      (able : lk.settings.capabilities.contains .connectToLink = true) :
      Rig s { s with
        links := auxiliary.toList.foldl Table.push (s.links.push lk)
        stubs := s.stubs.push st
        endpoints := s.endpoints.modify id fun e' =>
          { e' with slots := Network.installLane e lane (.stub s.stubs.next) } }
  | clear (id : EndpointId) :
      Rig s { s with endpoints := s.endpoints.modify id fun e => { e with slots := .const none } }
  /-- The request at the front of the queue of a link is given up. -/
  | cancelFront (l : LinkId) (lk : Link) (r : Request) (queue : List Request)
      (here : s.links.get? l = some lk) (front : lk.queue = r :: queue) :
      Rig s (cancel { s with links := s.links.set l { lk with queue } } r)
  | closeInterface (i : InterfaceId) (f : Interface) (here : s.interfaces.get? i = some f) :
      Rig s { s with
        interfaces := s.interfaces.erase i
        trace := s.trace ++ (f.inbox.map (Happening.lost i)).toArray }
  | closeLink (l : LinkId) (lk : Link) (here : s.links.get? l = some lk) (empty : lk.queue = []) :
      Rig s { s with links := s.links.erase l }
  | closeStub (x : StubId) : Rig s { s with stubs := s.stubs.erase x }
  | closeEndpoint (id : EndpointId) : Rig s { s with endpoints := s.endpoints.erase id }

/-- A sequence of changes of what carries requests and messages. -/
abbrev Rigs : Traffic → Traffic → Prop := Relation.ReflTransGen Rig

/-- The carrier takes messages of an id to a link: it is that link, or a stub that sends signals
over it. -/
inductive Carries (s : Traffic) (l : LinkId) (messageId : UInt8) : Carrier → Prop
  | link : Carries s l messageId (.link l)
  | stub (x : StubId) (st : Stub) (here : s.stubs.get? x = some st)
      (link : st.signalLink = some l) (signal : messageId = Signal.messageId) :
      Carries s l messageId (.stub x)

/-- What an attempt at a request sends, and over what. -/
inductive Sends (s : Traffic) (r : Request) : Carrier → UInt8 → Bytes → Option HandleId → Prop
  | send (m : Send) (ep : Endpoint) (c : Carrier) (inner : r.inner? = some (.send m))
      (here : s.endpoints.get? m.endpoint = some ep) (slot : ep.slots.messages = some c) :
      Sends s r c m.messageId m.payload (some m.handle)
  | script (c : Script) (send : ScriptedSend) (inner : r.inner? = some (.scripted c))
      (sending : c.sending = some send) : Sends s r send.carrier send.messageId send.payload none

/-- A link puts a message into an inbox for one of its credits. -/
inductive Transmits (s : Traffic) (l : LinkId) (messageId : UInt8) (payload : Bytes)
    (source : Option HandleId) : Traffic → Prop
  | intro (lk : Link) (credits : Nat) (dest : InterfaceId) (f : Interface)
      (here : s.links.get? l = some lk) (credit : lk.credits = credits + 1)
      (leads : lk.dest = some dest) (there : s.interfaces.get? dest = some f) :
      Transmits s l messageId payload source { s with
        links := s.links.set l { lk with credits }
        interfaces := s.interfaces.set dest
          { f with inbox := f.inbox ++ [⟨messageId, payload, l⟩] }
        trace := s.trace.push (.accepted l dest messageId payload source) }

/-- A request is offered to a carrier, which takes it over or hands it back. -/
inductive Offers (s : Traffic) : Carrier → Request → Traffic → Option Request → Prop
  | queue (r : Request) (l : LinkId) (lk : Link) (here : s.links.get? l = some lk) :
      Offers s (.link l) r
        { s with links := s.links.set l { lk with queue := lk.queue ++ [r] } } none
  /-- A stub gives a signal to the link that carries signals. -/
  | cover (r : Request) (x : StubId) (st : Stub) (l : LinkId) (lk : Link)
      (stub : s.stubs.get? x = some st) (signal : r.isSignal = true)
      (link : st.signalLink = some l) (here : s.links.get? l = some lk) :
      Offers s (.stub x) r
        { s with links := s.links.set l { lk with queue := lk.queue ++ [.counted st.gate r] } }
        none
  /-- A stub that was switched over gives a request to its link. -/
  | promoted (r : Request) (x : StubId) (st : Stub) (l : LinkId) (lk : Link)
      (stub : s.stubs.get? x = some st) (data : r.isSignal = false) (switched : st.next = none)
      (link : st.promoted = some l) (here : s.links.get? l = some lk) :
      Offers s (.stub x) r
        { s with links := s.links.set l { lk with queue := lk.queue ++ [r] } } none
  | park (r : Request) (x : StubId) (st : Stub) (here : s.stubs.get? x = some st)
      (data : r.isSignal = false) (unswitched : st.next ≠ none) :
      Offers s (.stub x) r
        { s with
          stubs := s.stubs.set x { st with parked := st.parked ++ [r] }
          trace := s.trace.push (.parked x r) }
        none
  /-- A link hands a request back only if nothing waits on it. -/
  | back (c : Carrier) (r r' : Request)
      (covered : r' = r ∨ (r.isSignal = true ∧ ∃ g, r' = .counted g r))
      (free : ∀ l lk, c = .link l → s.links.get? l = some lk → lk.queue = []) :
      Offers s c r s (some r')

/-- What one step does. -/
inductive Deed (s : Traffic) : Traffic → Prop
  /-- What carries requests and messages is changed, and bare work put on the agenda. -/
  | work (j : Job) (rest jobs : List Job) (u : Traffic) (top : s.agenda = j :: rest)
      (light : ∀ l, j ≠ .giveBack l) (free : j.request? = none) (rigged : Rigs { s with agenda := rest } u)
      (bare : ∀ k ∈ jobs, k.isBare = true) : Deed s { u with agenda := jobs ++ u.agenda }
  /-- A request comes to its end. -/
  | close (j : Job) (r : Request) (rest jobs : List Job) (marks : List Happening)
      (handles : Table (Option Outcome)) (top : s.agenda = j :: rest)
      (ends : r.Ends s.handles j marks handles) (bare : ∀ k ∈ jobs, k.isBare = true) :
      Deed s { s with handles, trace := s.trace ++ marks.toArray, agenda := jobs ++ rest }
  /-- A signal is answered. -/
  | ask (w : WorkerId) (message : Message) (m : Send) (rest jobs : List Job) (u : Traffic)
      (top : s.agenda = .handle (.signals w) message :: rest)
      (rigged : Rigs { s with agenda := rest } u) (bare : ∀ k ∈ jobs, k.isBare = true)
      (signal : m.messageId = Signal.messageId) (handle : m.handle = u.handles.next) :
      Deed s { u with
        handles := u.handles.push none
        agenda := .attempt (.send m) (.endpoint m.endpoint) :: jobs ++ u.agenda }
  | deliver (i : InterfaceId) (f : Interface) (m : Message) (inbox : List Message) (left : Nat)
      (rest : List Job) (top : s.agenda = .deliver i (left + 1) :: rest)
      (here : s.interfaces.get? i = some f) (front : f.inbox = m :: inbox) :
      Deed s { s with
        interfaces := s.interfaces.set i { f with inbox }
        trace := s.trace.push (.delivered i m)
        agenda := (f.handlers.lookup m.id).toList.map (fun h => .handle h m)
          ++ [.giveBack m.sender, .deliver i left] ++ rest }
  | giveBack (l : LinkId) (rest : List Job) (top : s.agenda = .giveBack l :: rest) :
      Deed s { s with
        links := s.links.modify l fun lk => { lk with credits := lk.credits + 1 }
        agenda := rest }
  /-- A recorder sees a message. -/
  | record (log : String) (forward : Option Carrier) (decode : Bool) (m : Message)
      (rest jobs : List Job) (marks : List Happening)
      (top : s.agenda = .handle (.record log forward decode) m :: rest)
      (bare : ∀ k ∈ jobs, k.isBare = true) (still : ∀ x ∈ marks, x.isStill = true) :
      Deed s { s with
        trace := s.trace.push (.recorded log m.id (Network.content decode m.payload))
          ++ marks.toArray
        agenda := jobs ++ rest }
  /-- A recorder sends a message on. -/
  | relay (log : String) (c : Carrier) (decode : Bool) (m : Message) (l : LinkId) (rest : List Job)
      (x : Happening) (t : Traffic)
      (top : s.agenda = .handle (.record log (some c) decode) m :: rest)
      (carries : Carries s l m.id c)
      (sent : Transmits { s with
        trace := s.trace.push (.recorded log m.id (Network.content decode m.payload))
        agenda := rest } l m.id m.payload none t)
      (still : x.isStill = true) : Deed s { t with trace := t.trace.push x }
  /-- An attempt ends without a message. -/
  | answer (r : Request) (o : Outcome) (w : Waiter) (rest : List Job)
      (top : s.agenda = .attempt r w :: rest) :
      Deed s { s with agenda := .conclude r.taken o w :: rest }
  /-- An attempt puts a message into an inbox. -/
  | accept (r : Request) (w : Waiter) (rest : List Job) (c : Carrier) (messageId : UInt8)
      (payload : Bytes) (source : Option HandleId) (l : LinkId) (t : Traffic)
      (top : s.agenda = .attempt r w :: rest) (sends : Sends s r c messageId payload source)
      (carries : Carries s l messageId c)
      (sent : Transmits { s with agenda := .conclude r.taken (.ok ()) w :: rest } l messageId
        payload source t) : Deed s t
  /-- A stub holds an attempt off, and tries to switch over first. -/
  | holdOff (r : Request) (w : Waiter) (rest : List Job) (x : StubId) (messageId : UInt8)
      (payload : Bytes) (source : Option HandleId) (jobs : List Job)
      (top : s.agenda = .attempt r w :: rest)
      (sends : Sends s r (.stub x) messageId payload source)
      (data : messageId ≠ Signal.messageId) (bare : ∀ k ∈ jobs, k.isBare = true) :
      Deed s { s with agenda := jobs ++ .conclude r.taken (.error .noResource) w :: rest }
  /-- A request that ran out of resources goes back to the front of its queue. -/
  | requeue (r : Request) (l : LinkId) (lk : Link) (rest : List Job)
      (top : s.agenda = .conclude r (.error .noResource) (.queue l) :: rest)
      (here : s.links.get? l = some lk) :
      Deed s { s with
        links := s.links.set l { lk with queue := r.unfinished :: lk.queue }
        trace := s.trace ++ (r.answerNotes (.error .noResource)).toArray
        agenda := rest }
  | again (r : Request) (c : Carrier) (rest : List Job)
      (top : s.agenda = .conclude r (.error .noResource) (.retry c) :: rest) :
      Deed s { s with
        trace := s.trace ++ (r.answerNotes (.error .noResource)).toArray
        agenda := .add c r.unfinished :: rest }
  | first (r : Request) (e : EndpointId) (ep : Endpoint) (c : Carrier) (rest : List Job)
      (top : s.agenda = .conclude r (.error .noResource) (.endpoint e) :: rest)
      (here : s.endpoints.get? e = some ep) (slot : ep.slots.messages = some c) :
      Deed s { s with
        trace := s.trace ++ (r.answerNotes (.error .noResource)).toArray
        agenda := .add c r.unfinished :: .release c.ref :: rest }
  /-- The application gets a request back that ran out of resources. -/
  | returned (r : Request) (h : HeldId) (rest : List Job)
      (top : s.agenda = .conclude r (.error .noResource) (.application h) :: rest) :
      Deed s { s with
        held := s.held.set h r.unfinished
        trace := s.trace ++ (r.answerNotes (.error .noResource)).toArray
        agenda := rest }
  /-- The application gets back what is left of a request that is finished. -/
  | completed (r : Request) (o : Outcome) (h : HeldId) (rest : List Job)
      (top : s.agenda = .conclude r o (.application h) :: rest) (done : o.isNoResource = false) :
      Deed s { s with
        handles := Network.endHandle s.handles r o
        held := s.held.set h r.finished
        trace := s.trace ++ (r.answerNotes o).toArray
        agenda := rest }
  /-- A carrier takes a request over. -/
  | add (r : Request) (c : Carrier) (rest : List Job) (t : Traffic)
      (top : s.agenda = .add c r :: rest) (taken : Offers { s with agenda := rest } c r t none) :
      Deed s t
  /-- A carrier hands a request back, to be attempted. -/
  | handBack (r r' : Request) (c : Carrier) (rest : List Job) (t : Traffic)
      (top : s.agenda = .add c r :: rest)
      (back : Offers { s with agenda := rest } c r t (some r')) :
      Deed s { t with agenda := .attempt r' (.retry c) :: t.agenda }
  | dequeue (r : Request) (l : LinkId) (lk : Link) (queue : List Request) (rest : List Job)
      (top : s.agenda = .dispatch l :: rest) (here : s.links.get? l = some lk)
      (front : lk.queue = r :: queue) :
      Deed s { s with
        links := s.links.set l { lk with queue }, agenda := .attempt r (.queue l) :: rest }
  /-- A stub that is connected on both sides is switched over. -/
  | switch (x : StubId) (st : Stub) (next : LinkId) (w : WorkerId) (rest : List Job) (u : Traffic)
      (top : s.agenda = .switchover x :: rest) (rigged : Rigs { s with agenda := rest } u)
      (here : u.stubs.get? x = some st) (unswitched : st.next = some next)
      (connected : st.isConnected = true) :
      Deed s { u with
        stubs := u.stubs.set x
          { st with next := none, auxiliary := none, parked := [], promoted := some next }
        endpoints := u.endpoints.modify st.endpoint fun e =>
          Network.promoteSlots e x st.category next
        trace := u.trace.push (.switched x next)
        agenda := Network.replay st w next ++ u.agenda }

end Traffic

end Wiring
