import Wiring.Network.Handshake

/-!
# Work

Work that can set off other work is cut into jobs on an agenda: handlers send, sends try to switch
stubs over, a switchover replays requests, a destroyed endpoint makes its worker progress. One
step does the job on top of the agenda, which may put further jobs there. So every state in the
middle of an activity is a state of the network, and what somebody at work has in hand, be it a
request, a message or a hold on a thing, is a job still to be done.

A violation stops the work: the jobs that are left let go of what they have in hand, and nothing
else is done.
-/
namespace Wiring

namespace Script

/-- The next answer of a script. -/
def take (c : Script) : Option Outcome × Script :=
  match c.answers.dropWhile fun answer => answer.1 == 0 with
  | [] => (none, { c with answers := [] })
  | (n, o) :: rest =>
    (some o, { c with answers := if n ≤ 1 then rest else (n - 1, o) :: rest })

end Script

namespace Request

/-- The request inside all covers, if it is not finished. -/
def inner? : Request → Option Request
  | .counted _ inner => inner.inner?
  | .spent _ => none
  | r => some r

/-- The request with another one inside all covers. -/
def withInner (new : Request) : Request → Request
  | .counted gate inner => .counted gate (withInner new inner)
  | .spent gate => .spent gate
  | _ => new

/-- What is left of a request that is finished. -/
def finished : Request → Request
  | .scripted c => .scripted { c with finished := true }
  | .send m => .send m
  | .counted gate _ => .spent gate
  | .spent gate => .spent gate

/-- What is left of a request that ran out of resources: it has to be attempted again, even if it
was finished by an attempt before. -/
def unfinished : Request → Request
  | .scripted c => .scripted { c with finished := false }
  | .counted gate inner => .counted gate inner.unfinished
  | r => r

end Request

namespace Network

/-! ## Attempts -/

/-- What an attempt leaves behind: a scripted request notes its answer, a send that is finished
completes its handle, and the gates no longer count a finished signal. -/
def recordAttempt (s : Network) (r : Request) (o : Outcome) : Network :=
  let s :=
    match r.inner? with
    | some (.scripted c) => s.note (.attempted c.name o)
    | some (.send m) => if o.isNoResource then s else s.complete m.handle o
    | _ => s
  if o.isNoResource then s else r.gates.foldl leaveGate s

/-- Hands a request that ran out of resources back to who waits for it. A request that its
endpoint has nowhere to put is cancelled. -/
def giveUp (s : Network) (r : Request) : Waiter → Network
  | .queue l => s.requeue l r
  | .retry c => s.push [.add c r]
  | .endpoint e =>
    match s.slot e .messages with
    | some c => s.push [.add c r, .release c.ref]
    | none => s.cancel r
  | .application h => { s with held := s.held.set h r, verdict := .error .noResource }

/-- Tells who waits for a request that it is finished. A queue goes on with its next request. -/
def finish (s : Network) (r : Request) (o : Outcome) : Waiter → Network
  | .queue l =>
    let s := { s with tally := s.tally + 1 }
    (s.discard r).push [.dispatch l]
  | .retry _ | .endpoint _ => s.discard r
  | .application h => { s with held := s.held.set h r, verdict := o }

/-- Ends an attempt at a request. -/
def conclude (s : Network) (r : Request) (o : Outcome) (w : Waiter) : Network :=
  let s := s.recordAttempt r o
  if o.isNoResource then s.giveUp r.unfinished w else s.finish r.finished o w

/-- Sends for a request, and leaves the end of the attempt to do. If a stub holds the send off, the
stub tries to switch over while the things in `holding` are held, and then the attempt has run out
of resources. -/
def attemptOver (s : Network) (r : Request) (w : Waiter) (c : Carrier) (messageId : UInt8)
    (payload : Bytes) (source : Option HandleId) (holding : List Ref) : Network :=
  match s.sendOver c messageId payload source with
  | (s, some o) => s.push [.conclude r o w]
  | (s, none) =>
    let attempt : List Job :=
      match c with
      | .stub t => [.switchover t, .recount s.tally]
      | .link _ => []
    s.push (attempt ++ holding.map Job.release ++ [.conclude r (.error .noResource) w])

/-- Attempts a request once. -/
def attempt (s : Network) (r : Request) (w : Waiter) : Network :=
  match r.inner? with
  | some (.scripted c) =>
    let (answer, c) := c.take
    let r := Request.withInner (.scripted c) r
    match answer, c.sending with
    | some o, _ => s.push [.conclude r o w]
    | none, none => s.push [.conclude r (.ok ()) w]
    | none, some send =>
      if s.isLive send.carrier.ref then
        s.attemptOver r w send.carrier send.messageId send.payload none [send.carrier.ref]
      else s.push [.conclude r (.error .closed) w]
  | some (.send m) =>
    match s.endpoints.get? m.endpoint with
    | none => s.push [.conclude r (.error .closed) w]
    | some e =>
      match e.slots.messages with
      | none => s.push [.conclude r (.error .notConnected) w]
      | some c =>
        s.attemptOver r w c m.messageId m.payload (some m.handle)
          [c.ref, .endpoint m.endpoint]
  | _ => s.push [.conclude r (.ok ()) w]

/-! ## Delivery -/

/-- What a recorder sees of a payload. -/
def content (decode : Bool) (payload : Bytes) : Content :=
  if decode then .signal (Signal.decode payload) else .bytes payload

/-- Sends a recorded message on, if its carrier still lives. -/
def forward (s : Network) (log : String) (c : Carrier) (m : Message) : Network :=
  if s.isLive c.ref then
    match s.sendOver c m.id m.payload none with
    | (s, some o) => s.note (.forwarded log o)
    | (s, none) =>
      match c with
      | .stub t =>
        s.push [.switchover t, .recount s.tally, .noteForward log (.error .noResource),
          .release c.ref]
      | .link _ => s
  else s

def handle (s : Network) (m : Message) : Handler → Network
  | .record log carrier decode =>
    let s := s.note (.recorded log m.id (content decode m.payload))
    match carrier with
    | some c => s.forward log c m
    | none => s
  | .signals worker => s.handleSignal worker m.payload

/-- Delivers the next of the messages that had arrived. A message without a handler is dropped;
its credit goes back all the same. -/
def deliver (s : Network) (id : InterfaceId) (left : Nat) : Network :=
  match left, s.interfaces.get? id with
  | left + 1, some i =>
    match i.inbox with
    | [] => s
    | m :: rest =>
      let s := { s with
        interfaces := s.interfaces.set id { i with inbox := rest }, tally := s.tally + 1 }
      let s := s.note (.delivered id m)
      let handling : List Job := (i.handlers.lookup m.id).toList.map fun h => .handle h m
      s.push (handling ++ [.giveBack m.sender, .deliver id left])
  | _, _ => s

/-- Dispatches every link of an interface that lives now; each is held until its turn is over. -/
def dispatchLinks (s : Network) (id : InterfaceId) : Network :=
  s.push ((s.linksOf id).flatMap fun l => [.dispatch l, .release (.link l)])

/-- Attempts the request at the front of a link's queue. -/
def dispatch (s : Network) (id : LinkId) : Network :=
  match s.dequeue id with
  | (s, some r) => s.push [.attempt r (.queue id)]
  | (s, none) => s

/-- What had arrived before is delivered; then the queues of the links are worked off. -/
def progressInterface (s : Network) (id : InterfaceId) : Network :=
  match s.interfaces.get? id with
  | none => s
  | some i => s.push [.deliver id i.inbox.length, .dispatchLinks id]

/-! ## Progress of registries and workers -/

/-- Runs every live runner of a registry once; all of them are held until the last one ran. -/
def runRegistry (s : Network) (id : RegistryId) : Network :=
  let s := s.prune id
  let live := (s.registry id).map Prod.fst
  let s := { s with tally := s.tally + live.length }
  s.push (live.map Job.run ++ live.map fun x => .release x.ref)

def run (s : Network) : Runner → Network
  | .stub t => s.push [.switchover t, .recount s.tally]
  | .callback c => s.runCallback c

/-- Posted events, then every interface in order, then the registry. -/
def progressWorker (s : Network) (id : WorkerId) : Network :=
  match s.workers.get? id with
  | none => s
  | some w =>
    let (s, applied) := s.applyPosted id
    let s := { s with tally := s.tally + applied }
    s.push (w.resources.map (fun r => .progressInterface r.interface)
      ++ [.runRegistry w.registry])

/-! ## Destruction -/

/-- Empties the slots of an endpoint and takes its peer out of the directory. Each distinct
carrier is purged; links are then flushed. What the slots held is released in the end. -/
def destroy (s : Network) (id : EndpointId) : Network :=
  match s.endpoints.get? id with
  | none => s
  | some e =>
    let s := s.setSlots id (.const none)
    let worker := s.workerOf? id
    let removed := (worker.bind fun w => s.findEndpoint? w e.dest).toList
    let s :=
      match worker with
      | some w => { s with workers := s.workers.modify w fun w =>
          { w with directory := w.directory.filter fun entry => entry.1 != e.dest } }
      | none => s
    let carriers := (e.slots.toList.filterMap fun slot => slot).eraseDups
    let takeDown (c : Carrier) : List Job :=
      match c with
      | .link l => [.purge c, .flush l worker e.flushAttempts]
      | .stub _ => [.purge c]
    s.push (removed.map (fun r => .release (.endpoint r)) ++ carriers.flatMap takeDown
      ++ worker.toList.map (fun w => .release (.worker w)) ++ releaseSlots e.slots)

/-- Cancels what is queued on a link. A stub promises to have nothing parked. -/
def purge (s : Network) : Carrier → Network
  | .link l =>
    let (s, requests) := s.drain l
    requests.foldl cancel s
  | .stub t =>
    match s.stubs.get? t with
    | some t =>
      if t.parked.isEmpty then s else s.violate (.purgedWithParked t.category t.parked.length)
    | none => s

/-- Waits until nothing of a link is in flight, for at most the given rounds of progress. Without
a worker nothing would change. -/
def flush (s : Network) (l : LinkId) (worker : Option WorkerId) (rounds : Nat) : Network :=
  if s.linkIsIdle l then s
  else match rounds, worker with
    | rounds + 1, some w =>
      s.push [.progressWorker w, .recount s.tally, .flush l (some w) rounds]
    | _, _ => s

/-- Destroys a new endpoint whose request could not be sent. -/
def confirm (s : Network) (endpoint : EndpointId) (handle : HandleId) : Network :=
  match s.handles.get? handle with
  | some (some (.error _)) => s.push [.destroy endpoint]
  | _ => s

/-! ## Steps -/

/-- Does one job. -/
def perform (s : Network) : Job → Network
  | .release ref => s.release ref
  | .discard r => s.discard r
  | .attempt r w => s.attempt r w
  | .conclude r o w => s.conclude r o w
  | .add c r =>
    match s.offer c r with
    | (s, none) => s
    | (s, some back) => s.push [.attempt back (.retry c)]
  | .replayed w =>
    { s with workers := s.workers.modify w fun w => { w with parkedCount := w.parkedCount - 1 } }
  | .switchover t => s.switchover t
  | .run x => s.run x
  | .runRegistry r => s.runRegistry r
  | .deliver i left => s.deliver i left
  | .giveBack l => s.returnCredit l
  | .dispatchLinks i => s.dispatchLinks i
  | .dispatch l => s.dispatch l
  | .progressInterface i => s.progressInterface i
  | .progressWorker w => s.progressWorker w
  | .handle h m => s.handle m h
  | .noteForward log o => s.note (.forwarded log o)
  | .recount n => { s with tally := n }
  | .destroy e => s.destroy e
  | .purge c => s.purge c
  | .flush l w rounds => s.flush l w rounds
  | .confirm e h => s.confirm e h

/-- Lets go of what a job has in hand. -/
def unwind (s : Network) (j : Job) : Network :=
  match j with
  | .release ref => s.release ref
  | _ =>
    match j.request? with
    | some r => s.discard r
    | none => s

/-- Does the job on top of the agenda. -/
def step (s : Network) : Network :=
  match s.agenda with
  | [] => s
  | j :: rest =>
    let s := { s with agenda := rest }
    if s.violation.isSome then s.unwind j else s.perform j

/-- Works until the agenda is empty, for at most `fuel` steps. -/
def work : (fuel : Nat) → Network → Network
  | 0, s => s
  | fuel + 1, s => if s.agenda.isEmpty then s else work fuel s.step

theorem step_nil {s : Network} (h : s.agenda = []) : s.step = s := by simp [step, h]

theorem work_nil {s : Network} (h : s.agenda = []) (fuel : Nat) : work fuel s = s := by
  cases fuel <;> simp [work, h]

theorem work_add (m n : Nat) (s : Network) : work (m + n) s = work n (work m s) := by
  induction m generalizing s with
  | zero => simp [work]
  | succ m ih =>
    rw [Nat.succ_add]
    by_cases h : s.agenda = []
    · simp [work_nil h]
    · simp [work, h, ih]

end Network

end Wiring
