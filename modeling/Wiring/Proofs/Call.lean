import Mathlib
import Wiring.Network.Operations

/-!
# Runs

A run is what an application does to a network, one public operation after another, as long as
none of them meets a violation. The application names things that live; what it does with them,
and in which order, is open.
-/
namespace Wiring

/-- An operation of the application. -/
inductive Call where
  | keep (ref : Ref)
  | drop (ref : Ref)
  | openFabric
  | openInterface (fabric : FabricId) (settings : InterfaceSettings)
  | record (interface : InterfaceId) (messageId : UInt8) (log : String)
      (forward : Option Carrier) (decode : Bool)
  | progress (interface : InterfaceId)
  | createLink (interface : InterfaceId)
  | createConnectedLink (interface : InterfaceId) (device address : Bytes)
  | connect (carrier : Carrier) (device address : Bytes)
  | operate (carrier : Carrier) (operation : Network.Operation)
  | offerOnce (carrier : Carrier) (source : Network.Source) (keep : Bool)
  | hold (source : Network.Source)
  | purgeQueue (carrier : Carrier) (keep : Bool)
  | attemptHeld (held : HeldId)
  | cancelHeld (held : HeldId)
  | discardHeld (held : HeldId)
  | openRegistry
  | openCallback (label : String) (registry : RegistryId) (script : List (List Action))
  | register (registry : RegistryId) (callback : CallbackId)
  | unregister (registry : RegistryId) (callback : CallbackId)
  | dispatchRegistry (registry : RegistryId)
  | openWorker (settings : WorkerSettings) (plan : Plan) (resources : List Resource)
  | progressOf (worker : WorkerId)
  | applyPosted (worker : WorkerId)
  | post (worker : WorkerId) (event : RemoteConnected)
  | createEndpoint (worker : WorkerId) (address : WorkerAddress)
  | lookUp (worker : WorkerId) (peer : UInt64)
  | close (worker : WorkerId)
  | createAuxiliary (worker : WorkerId) (peer : String) (entries : List AddressEntry)
      (scorer : Scorer)
  | sendMessage (endpoint : EndpointId) (messageId : UInt8) (payload : Bytes)
  | addPending (carrier : Carrier) (source : Network.Source)
  | remoteConnected (slot : Slot)
  | progressEndpoint (endpoint : EndpointId)
  | destroyEndpoint (endpoint : EndpointId)
  | progressStub (stub : StubId)

namespace Call

variable {α : Type}

/-- An operation that meets no violation. -/
def plain (r : Network × α) : Network × Except Violation Unit := (r.1, .ok ())

/-- An operation whose answer does not matter. -/
def unanswered (r : Network × Except Violation α) : Network × Except Violation Unit :=
  (r.1, r.2.map fun _ => ())

def run (s : Network) : Call → Network × Except Violation Unit
  | .keep ref => (s.keep ref, .ok ())
  | .drop ref => unanswered (s.drop ref)
  | .openFabric => plain s.openFabric
  | .openInterface fabric settings => plain (s.openInterface fabric settings)
  | .record i messageId log forward decode =>
    (s.setHandler i messageId (.record log forward decode), .ok ())
  | .progress i => unanswered (s.progress i)
  | .createLink i => plain (s.createLink i)
  | .createConnectedLink i device address => plain (s.createConnectedLink i device address)
  | .connect c device address => plain (s.connect c device address)
  | .operate c operation => unanswered (s.operate c operation)
  | .offerOnce c source kept => plain (s.offerOnce c source kept)
  | .hold source => plain (s.hold source)
  | .purgeQueue c kept => unanswered (s.purgeQueue c kept)
  | .attemptHeld h => unanswered (s.attemptHeld h)
  | .cancelHeld h => (s.cancelHeld h, .ok ())
  | .discardHeld h => (s.discardHeld h, .ok ())
  | .openRegistry => plain s.openRegistry
  | .openCallback label registry script => plain (s.openCallback label registry script)
  | .register registry c => plain (s.register registry (.callback c))
  | .unregister registry c => plain (s.unregister registry (.callback c))
  | .dispatchRegistry registry => unanswered (s.dispatchRegistry registry)
  | .openWorker settings plan resources => plain (s.openWorker settings plan resources)
  | .progressOf w => unanswered (s.progressOf w)
  | .applyPosted w => plain (s.applyPosted w)
  | .post w event => plain (s.post w event)
  | .createEndpoint w address => unanswered (s.createEndpoint w address)
  | .lookUp w peer => plain (s.lookUp w peer)
  | .close w => unanswered (s.close w)
  | .createAuxiliary w peer entries scorer => plain (s.createAuxiliary w peer entries scorer)
  | .sendMessage e messageId payload => unanswered (s.sendMessage e messageId payload)
  | .addPending c source => unanswered (s.addPending c source)
  | .remoteConnected slot => unanswered (s.remoteConnected slot)
  | .progressEndpoint e => unanswered (s.progressEndpoint e)
  | .destroyEndpoint e => unanswered (s.destroyEndpoint e)
  | .progressStub t => unanswered (s.progressStub t)

theorem plain_ok {r : Network × α} {t : Network} (h : plain r = (t, .ok ())) : r.1 = t := by
  cases h
  rfl

theorem unanswered_ok {r : Network × Except Violation α} {t : Network}
    (h : unanswered r = (t, .ok ())) : ∃ a, r = (t, .ok a) := by
  obtain ⟨u, a⟩ := r
  cases a with
  | error v => cases h
  | ok a =>
    cases h
    exact ⟨a, rfl⟩

/-- The things whose life the operation relies on live. -/
def Permitted (s : Network) : Call → Prop
  | .openWorker _ _ resources => ∀ r ∈ resources, s.interfaces.contains r.interface = true
  | .createEndpoint w _ => s.workers.contains w = true
  | .sendMessage e _ _ => s.endpoints.contains e = true
  | .remoteConnected slot => (slot.all fun c => s.isLive c.ref) = true
  | _ => True

instance (s : Network) (c : Call) : Decidable (c.Permitted s) := by
  cases c <;> unfold Permitted <;> infer_instance

/-- Takes queued requests, which may be sends of endpoints, into the hands of the application. -/
def takesQueued : Call → Bool
  | .purgeQueue _ kept => kept
  | _ => false

end Call

/-- A run of permitted operations that all end without a violation. -/
inductive Run (allowed : Call → Prop) : Network → Network → Prop
  | refl (s : Network) : Run allowed s s
  | call {s t u : Network} (c : Call) (before : Run allowed s t) (ok : allowed c)
      (permitted : c.Permitted t) (ran : c.run t = (u, .ok ())) : Run allowed s u

/-- What runs lead to from an empty network of some process. -/
def Reachable (allowed : Call → Prop) (s : Network) : Prop :=
  ∃ process, Run allowed { process } s

theorem Run.trans {allowed : Call → Prop} {s t u : Network} (h : Run allowed s t)
    (g : Run allowed t u) : Run allowed s u := by
  induction g with
  | refl => exact h
  | call c _ ok permitted ran ih => exact .call c ih ok permitted ran

theorem Reachable.trans {allowed : Call → Prop} {s t : Network} (h : Reachable allowed s)
    (g : Run allowed s t) : Reachable allowed t := by
  obtain ⟨p, h⟩ := h
  exact ⟨p, h.trans g⟩

/-- Runs operations one after another, as long as they are permitted and meet no violation. -/
def Call.runAll : Network → List Call → Option Network
  | s, [] => some s
  | s, c :: cs =>
    if c.Permitted s then
      match c.run s with
      | (t, .ok ()) => runAll t cs
      | (_, .error _) => none
    else none

theorem Run.of_runAll {allowed : Call → Prop} {s t : Network} {cs : List Call}
    (ok : ∀ c ∈ cs, allowed c) (h : Call.runAll s cs = some t) : Run allowed s t := by
  induction cs generalizing s with
  | nil =>
    cases h
    exact .refl _
  | cons c cs ih =>
    unfold Call.runAll at h
    split at h
    · rename_i permitted
      split at h
      · rename_i u ran
        have first : Run allowed s u := .call c (.refl s) (ok c List.mem_cons_self) permitted ran
        exact first.trans (ih (fun c hc => ok c (List.mem_cons_of_mem _ hc)) h)
      · cases h
    · cases h

theorem Reachable.of_runAll {allowed : Call → Prop} {process : UInt32} {s : Network}
    {cs : List Call} (ok : ∀ c ∈ cs, allowed c) (h : Call.runAll { process } cs = some s) :
    Reachable allowed s := ⟨process, .of_runAll ok h⟩

/-- More operations allow more runs. -/
theorem Run.mono {P Q : Call → Prop} {s t : Network} (hpq : ∀ c, P c → Q c)
    (h : Run P s t) : Run Q s t := by
  induction h with
  | refl => exact .refl _
  | call c _ ok permitted ran ih => exact .call c ih (hpq c ok) permitted ran

/-! ## A pair of workers -/

namespace Call

/-- An interface of the pair, whose links are either connected at once or paired later. -/
def pairInterface (connecting : Capabilities) (credits : Nat) : Call :=
  .openInterface 0
    { capabilities := (connecting.union .bulkMessages).union .pending, credits }

def pairWorker (uuid : UInt64) (direct paired : InterfaceId) : Call :=
  .openWorker { uuid := some uuid } ((Plan.withResource {} .messages 0).withResource .memory 1)
    [⟨⟨"direct", "0"⟩, direct⟩, ⟨⟨"paired", "0"⟩, paired⟩]

/-- Opens two workers, and an endpoint of the first to the second: its messages go over link 0,
and stub 0 stands in for its access to memory, which will go over link 1. The first worker has the
interfaces 0 and 1, the second 2 and 3. -/
def pair (credits : Nat) : List Call :=
  [.openFabric,
    pairInterface .connectToInterface credits, pairInterface .connectToLink credits,
    pairInterface .connectToInterface credits, pairInterface .connectToLink credits,
    pairWorker 1 0 1, pairWorker 2 2 3,
    .createEndpoint 0
      { uuid := 2
        name := "worker"
        entries := [⟨"direct", "0", Bytes.word 1, Bytes.word 3⟩,
          ⟨"paired", "0", Bytes.word 1, Bytes.word 4⟩] }]

/-- Connects stub 0 of the pair to a link of the second worker, which is link 2, and posts to the
first worker that the second has connected. -/
def pairUp : List Call :=
  [.createLink 3, .connect (.stub 0) (Bytes.word 1) (Bytes.word 4 ++ Bytes.word 1),
    .post 0 ⟨2, .memory⟩]

end Call

end Wiring
