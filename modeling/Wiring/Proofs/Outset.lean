import Mathlib
import Wiring.Proofs.Creation
import Wiring.Proofs.Delivery

/-!
# The outset

Interfaces and workers are opened in a network that has neither links nor stubs, and where nothing
was posted, sent or received. The first endpoint of a worker that is created there has sent its
request: its stubs wait for the peer, and nothing waits in queues but for credits.
-/
namespace Wiring

namespace Network

open Traffic (Veiled Flows Dataless)

variable {s t u : Network} {e : EndpointId}

/-! ## A blank network -/

/-- No message has arrived, and data would only be recorded. -/
def Clean (s : Network) : Prop := ∀ i f, s.interfaces.get? i = some f →
  f.inbox = [] ∧ ∀ entry ∈ f.handlers, entry.2.Records entry.1

theorem Clean.setHandler (hs : Clean s) (i : InterfaceId) {messageId : UInt8} {h : Handler}
    (records : h.Records messageId) : Clean (s.setHandler i messageId h) := by
  intro k f here
  rcases Table.get?_of_modify here with ⟨g, there, rfl | rfl⟩
  · exact hs k f there
  · refine ⟨(hs k g there).1, fun entry hentry => ?_⟩
    rcases List.mem_cons.1 hentry with rfl | old
    · exact records
    · exact (hs k g there).2 entry (List.mem_of_mem_filter old)

/-- There are neither links nor stubs, no messages and no endpoints in directories. -/
structure Blank (s : Network) : Prop where
  regular : Regular s
  rested : Rested True s
  clean : Clean s
  links : ∀ l, s.links.get? l = none
  stubs : ∀ x, s.stubs.get? x = none
  workers : ∀ w wk, s.workers.get? w = some wk → wk.posted = [] ∧ wk.directory = []
  unseen : seen s.trace = []

theorem keep_eq (s : Network) (ref : Ref) : ∃ holds, s.keep ref = { s with holds } := by
  unfold keep
  split
  · exact ⟨_, rfl⟩
  · exact ⟨s.holds, rfl⟩

/-- The interfaces that were there and still are stay on their fabrics with their settings. -/
structure Upholds (s t : Network) : Prop where
  next : s.interfaces.next ≤ t.interfaces.next
  same : ∀ i f, t.interfaces.get? i = some f → i < s.interfaces.next →
    ∃ f', s.interfaces.get? i = some f' ∧ f'.fabric = f.fabric ∧ f'.settings = f.settings

namespace Upholds

theorem of_get? (next : s.interfaces.next ≤ t.interfaces.next)
    (old : ∀ i f, t.interfaces.get? i = some f → i < s.interfaces.next →
      s.interfaces.get? i = some f) : Upholds s t :=
  ⟨next, fun i f here lt => ⟨f, old i f here lt, rfl, rfl⟩⟩

theorem refl (s : Network) : Upholds s s := .of_get? le_rfl fun _ _ here _ => here

theorem trans (h : Upholds s t) (g : Upholds t u) : Upholds s u where
  next := h.next.trans g.next
  same i f here lt := by
    rcases g.same i f here (lt.trans_le h.next) with ⟨f', there, fabric, settings⟩
    rcases h.same i f' there lt with ⟨f'', before, fabric', settings'⟩
    exact ⟨f'', before, fabric'.trans fabric, settings'.trans settings⟩

theorem setHandler (s : Network) (i : InterfaceId) (messageId : UInt8) (h : Handler) :
    Upholds s (s.setHandler i messageId h) where
  next := (Table.next_modify ..).ge
  same k f here _ := by
    rcases Table.get?_of_modify here with ⟨g, there, rfl | rfl⟩
    · exact ⟨f, there, rfl, rfl⟩
    · exact ⟨g, there, rfl, rfl⟩

theorem setHandlers (s : Network) (messageId : UInt8) (h : Handler) (rs : List Resource) :
    Upholds s (rs.foldl (fun s r => s.setHandler r.interface messageId h) s) := by
  induction rs generalizing s with
  | nil => exact .refl s
  | cons r rs ih => exact (setHandler s r.interface messageId h).trans (ih _)

theorem setWorkerHandler (s : Network) (w : WorkerId) (messageId : UInt8) (h : Handler) :
    Upholds s (s.setWorkerHandler w messageId h) := by
  unfold Network.setWorkerHandler
  split
  · exact .refl s
  · exact setHandlers ..

theorem openInterface (s : Network) (fabric : FabricId) (settings : InterfaceSettings) :
    Upholds s (s.openInterface fabric settings).1 := by
  simp only [Network.openInterface]
  rcases keep_eq _ (.interface s.interfaces.next) with ⟨holds, kept⟩
  rw [kept]
  refine .of_get? ?_ fun i f here lt => ?_
  · exact (Nat.le_succ _).trans_eq (Table.next_push ..).symm
  · rcases Table.get?_of_push here with ⟨rfl, -⟩ | here
    · exact absurd lt (lt_irrefl _)
    · exact here

theorem openWorker (s : Network) (settings : WorkerSettings) (plan : Plan)
    (resources : List Resource) : Upholds s (s.openWorker settings plan resources).1 := by
  let opened : Network := { s with
    generated := if settings.uuid.isNone then s.generated + 1 else s.generated
    registries := s.registries.push []
    workers := s.workers.push
      { uuid := settings.uuid.getD (generatedUuid s.process s.generated), settings, plan
        resources := resources.take maxResources, registry := s.registries.next } }
  have handled := setWorkerHandler opened s.workers.next Signal.messageId (.signals s.workers.next)
  simp only [Network.openWorker]
  rcases keep_eq _ (.worker s.workers.next) with ⟨holds, kept⟩
  rw [kept]
  exact ⟨handled.next, handled.same⟩

end Upholds

namespace Blank

theorem initial (process : UInt32) : Blank { process } where
  regular := .initial process
  rested := .initial process
  clean i f here := by cases here
  links l := rfl
  stubs x := rfl
  workers w wk here := by cases here
  unseen := rfl

/-- A discreet operation that makes no link and no stub and sends nothing. -/
theorem call (hs : Blank s) {c : Call} (discreet : c.Discreet s) (permitted : c.Permitted s)
    (ran : c.run s = (t, .ok ())) (clean : Clean t)
    (workers : ∀ w wk, t.workers.get? w = some wk → wk.posted = [] ∧ wk.directory = [])
    (same : t.links = s.links ∧ t.stubs = s.stubs ∧ t.trace = s.trace) : Blank t := by
  rcases hs.regular.call hs.rested discreet permitted ran with ⟨regular, leads⟩
  refine ⟨regular, leads.rested, clean, fun l => ?_, fun x => ?_, workers, ?_⟩
  · rw [same.1, hs.links]
  · rw [same.2.1, hs.stubs]
  · rw [same.2.2, hs.unseen]

theorem openFabric (hs : Blank s) : Blank s.openFabric.1 :=
  hs.call (c := .openFabric) rfl trivial rfl hs.clean hs.workers ⟨rfl, rfl, rfl⟩

theorem openInterface (hs : Blank s) (fabric : FabricId) (settings : InterfaceSettings) :
    Blank (s.openInterface fabric settings).1 := by
  refine hs.call (c := .openInterface fabric settings) rfl trivial rfl ?_ ?_ ?_
  all_goals
    simp only [Network.openInterface]
    rcases keep_eq _ (.interface s.interfaces.next) with ⟨holds, kept⟩
    rw [kept]
  · intro i f here
    rcases Table.get?_of_push here with ⟨-, rfl⟩ | here
    · exact ⟨rfl, by simp⟩
    · exact hs.clean i f here
  · exact hs.workers
  · exact ⟨rfl, rfl, rfl⟩

theorem setHandler (hs : Blank s) (i : InterfaceId) {messageId : UInt8}
    (data : messageId ≠ Signal.messageId) (log : String) (decode : Bool) :
    Blank (s.setHandler i messageId (.record log none decode)) :=
  hs.call (c := .record i messageId log none decode) rfl trivial rfl
    (hs.clean.setHandler i ⟨rfl, data⟩) hs.workers ⟨rfl, rfl, rfl⟩

/-- A worker may record data on all its resources. -/
theorem setWorkerHandler (hs : Blank s) (w : WorkerId) {messageId : UInt8}
    (data : messageId ≠ Signal.messageId) (log : String) (decode : Bool) :
    Blank (s.setWorkerHandler w messageId (.record log none decode)) := by
  unfold Network.setWorkerHandler
  split
  · exact hs
  · rename_i wk here
    clear here
    induction wk.resources generalizing s with
    | nil => exact hs
    | cons r rs ih => exact ih (hs.setHandler r.interface data log decode)

theorem openWorker (hs : Blank s) (settings : WorkerSettings) (plan : Plan)
    {resources : List Resource}
    (live : ∀ r ∈ resources, s.interfaces.contains r.interface = true) :
    Blank (s.openWorker settings plan resources).1 := by
  have handled {v : Network} (hv : Clean v) (w : WorkerId) (rs : List Resource) :
      Clean (rs.foldl (fun s r => s.setHandler r.interface Signal.messageId (.signals w)) v) := by
    induction rs generalizing v with
    | nil => exact hv
    | cons r rs ih => exact ih (hv.setHandler r.interface trivial)
  refine hs.call (c := .openWorker settings plan resources) rfl live rfl ?_ ?_ ?_
  all_goals
    simp only [Network.openWorker, Network.setWorkerHandler, Table.get?_push, if_true]
    rcases keep_eq _ (.worker s.workers.next) with ⟨holds, kept⟩
    rw [kept]
  · refine fun i f here => handled ?_ _ _ i f here
    exact hs.clean
  all_goals
    rcases foldl_setHandler _ Signal.messageId (.signals s.workers.next) _ with
      ⟨interfaces, -, same⟩
    rw [same]
  · intro w wk here
    rcases Table.get?_of_push here with ⟨-, rfl⟩ | here
    · exact ⟨rfl, rfl⟩
    · exact hs.workers w wk here
  · exact ⟨rfl, rfl, rfl⟩

/-- An interface that is let go of goes down at most. -/
theorem drop (hs : Blank s) {i : InterfaceId} (ran : s.drop (.interface i) = (t, .ok ())) :
    Blank t ∧ t.workers = s.workers ∧ Upholds s t := by
  have released {v : Network} (clean : Clean v) :
      ∃ interfaces, v.release (.interface i) = { v with interfaces } ∧
        interfaces.next = v.interfaces.next ∧
        ∀ k f, interfaces.get? k = some f → v.interfaces.get? k = some f := by
    unfold Network.release
    split
    · exact ⟨v.interfaces, rfl, rfl, fun _ _ here => here⟩
    · simp only [retire, retireInterface]
      split
      · exact ⟨v.interfaces, rfl, rfl, fun _ _ here => here⟩
      · rename_i f here
        refine ⟨v.interfaces.erase i, ?_, Table.next_erase .., fun k f there =>
          Table.get?_of_erase there⟩
        rw [(clean i f here).1]
        rfl
  have ended : ∃ holds interfaces, t = { s with holds, interfaces } ∧
      interfaces.next = s.interfaces.next ∧
      ∀ k f, interfaces.get? k = some f → s.interfaces.get? k = some f := by
    rcases settle_ok ran with ⟨rfl, -, -, -⟩
    unfold letGo
    split
    · set v := push { s with holds := s.holds.erase (.interface i) } [.release (.interface i)] with hv
      have top : v.agenda = [.release (.interface i)] := by simp [hv, push, hs.rested.idle]
      rcases Nat.exists_eq_succ_of_ne_zero (n := v.fuel) (by have := v.toil_lt_fuel; omega) with
        ⟨n, fuel⟩
      rcases released (v := { v with agenda := [] }) hs.clean with ⟨interfaces, gone, next, old⟩
      have stepped : v.step = { v with agenda := [], interfaces } := by
        rw [step_eq top hs.rested.calm]
        exact gone
      rw [fuel, work_succ top, stepped, work_nil rfl]
      let left (agenda : List Job) : Network :=
        { s with holds := s.holds.erase (.interface i), interfaces, agenda }
      exact ⟨_, interfaces, congrArg left hs.rested.idle.symm, next, old⟩
    · rw [work_nil hs.rested.idle]
      exact ⟨s.holds, s.interfaces, rfl, rfl, fun _ _ here => here⟩
  have answered : Call.run s (.drop (.interface i)) = (t, .ok ()) := by
    simp only [Call.run, ran, Call.unanswered]
    rfl
  rcases ended with ⟨holds, interfaces, rfl, next, old⟩
  refine ⟨hs.call (c := .drop (.interface i)) rfl trivial answered
    (fun k f here => hs.clean k f (old k f here)) hs.workers ⟨rfl, rfl, rfl⟩, rfl, ?_⟩
  exact .of_get? next.ge fun k f here _ => old k f here

/-- There is no data of anybody. -/
theorem dataless (hs : Blank s) (e : EndpointId) : Dataless e s.traffic := by
  intro x
  have confined : Traffic.Confined e (.stub x) s.traffic :=
    { queued := fun l lk here => by
        cases (hs.links l).symm.trans here
      parked := fun y st here => by
        cases (hs.stubs y).symm.trans here
      arrived := fun i f here m hm => by
        rw [(hs.clean i f here).1] at hm
        cases hm
      handlers := fun i f here => (hs.clean i f here).2
      shown := fun l i way => by cases way
      leads := fun l i way => by cases way }
  have idle : s.traffic.agenda = [] := hs.rested.idle
  refine .of_leaves confined (by simp [idle]) ?_
  have parked : (Route.stub x).parked s.traffic.stubs = [] := by
    simp [Route.parked, Table.listAt, traffic, hs.stubs]
  rw [parked, idle]
  simp [traffic, hs.unseen, Route.arrived, Route.queued]

end Blank

/-! ## The first endpoint -/

/-- Work that creates an endpoint changes nothing that is on its way. -/
theorem createEndpoint_flows {ρ : Route} {sent : List Bytes} (hs : Flows e ρ sent s.traffic)
    (idle : s.agenda = []) (w : WorkerId) (address : WorkerAddress) :
    Flows e ρ sent (Call.start s (.createEndpoint w address)).traffic := by
  have bared {u : Network} (h : Tends s u) {jobs : List Job} (bare : ∀ j ∈ jobs, j.isBare = true) :
      Flows e ρ sent (u.begin jobs).traffic :=
    flows_of_tends hs idle (h.trans (.trans (.same (t := { u with tally := 0 }) rfl) (.push bare)))
  have opened := openEndpoint_tends s w address.uuid address.name
  simp only [Call.start]
  split
  · rw [keep_traffic]
    exact hs
  · generalize s.openEndpoint w address.uuid address.name = new at opened
    rcases new with ⟨t, e'⟩
    simp only at opened ⊢
    have furnished := opened.trans (openLanes_tends t e' address.entries
      (((t.workers.get? w).map fun w => w.plan.lanes).getD []))
    split
    · rename_i u why h
      rw [h] at furnished
      exact bared furnished (by simp [Job.isBare])
    · rename_i u h
      rw [h] at furnished
      rcases u.newSignal_cases e' .request with ⟨why, h⟩ | ⟨payload, -, h⟩
      · simp only [h]
        exact bared furnished (by simp [Job.isBare])
      · simp only [h]
        have noted : Tends u (u.note (.sent u.handles.next e' Signal.messageId payload)) := .note rfl
        rcases (furnished.trans noted).thins hs.toConfined with ⟨thins, jobs, bare, agenda⟩
        rw [idle, List.append_nil] at agenda
        have rest : ∀ k ∈ .confirm e' (u.newSend e' Signal.messageId payload).2.1 ::
            .release (.endpoint e') :: jobs, k.isBare = true := by
          simpa [Job.isBare] using bare
        refine .of_signal { thins.confined with } (congrArg (_ :: _ :: _ :: ·) agenda) rfl
          (fun k hk => Traffic.leaves_of_bare (rest k hk)) ?_
        have order := hs.order
        rw [Traffic.stream_idle idle] at order
        rw [Traffic.added_of_bare rest]
        exact (thins.stream [] [] [] []).trans order

/-- An endpoint has made its request and sends its data along a route. No stub is connected yet, and
nothing waits in queues but for credits. -/
structure Poised (e : EndpointId) (ρ : Route) (sent : List Bytes) (s : Network) : Prop where
  regular : Regular s
  rested : Rested True s
  flows : Flows e ρ sent s.traffic
  told : HasSent s e
  slot : ∀ c, s.slot e .messages = some c → c = ρ.carrier
  tight : Tight s
  unconnected : ∀ x st, s.stubs.get? x = some st → st.isConnected = false
  unposted : ∀ w wk, s.workers.get? w = some wk → wk.posted = []
  alive : ∃ ep, s.endpoints.get? e = some ep ∧ s.workers.contains ep.worker = true

theorem Poised.underway {ρ : Route} {sent : List Bytes} (hs : Poised e ρ sent s) :
    Underway e sent s where
  conveys := by
    refine ⟨ρ, hs.flows, hs.told, ?_⟩
    cases slot : s.slot e .messages with
    | none => exact .emptied
    | some c =>
      rw [hs.slot c slot]
      exact .same
  regular := hs.regular
  rested := hs.rested

/-- Where there is no data, it may go wherever the endpoint sends its messages. -/
theorem route_of_dataless (hs : Dataless e s.traffic) (idle : s.agenda = [])
    (veiled : Veiled s.traffic) :
    ∃ ρ, Flows e ρ [] s.traffic ∧ ∀ c, s.slot e .messages = some c → c = ρ.carrier := by
  cases slot : s.slot e .messages with
  | none => exact ⟨.stub 0, hs 0, fun c serves => by cases serves⟩
  | some c =>
    cases c with
    | stub x =>
      refine ⟨.stub x, hs x, fun c serves => ?_⟩
      cases serves
      rfl
    | link l =>
      rcases Option.bind_eq_some_iff.1 slot with ⟨ep, here, serves⟩
      rcases veiled.covered.slots e ep .messages (.link l) here serves with ⟨given, shown, -⟩
      have free : ∀ x st, s.stubs.get? x = some st → ¬st.Owns l := fun x st stub owns =>
        shown st.gate ⟨x, st, stub, owns, rfl⟩
      rcases hs.link idle given free with ⟨i, flows⟩
      refine ⟨.link l i, flows, fun c serves => ?_⟩
      cases serves
      rfl

/-- What the first endpoint finds once its request is made: its stubs are not connected, and nothing
waits but for credits. -/
theorem Founded.fresh {w : WorkerId} {wk : Worker} {dest : UInt64} (hs : Blank s)
    (h : Founded s w wk dest e t) (same : Undisturbed t u) :
    Tight u ∧ (∀ x st, u.stubs.get? x = some st → st.isConnected = false) ∧
      (∀ w' wk', u.workers.get? w' = some wk' → wk'.posted = []) ∧
      ∃ ep, u.endpoints.get? e = some ep ∧ u.workers.contains ep.worker = true := by
  rw [same.stubs, same.workers, same.endpoints]
  refine ⟨same.tight fun l lk here free => ?_, fun x st here => ?_, fun w' wk' here => ?_, ?_⟩
  · rcases Nat.lt_or_ge l s.links.next with old | new
    · cases (hs.links l).symm.trans ((h.raised.links.same l old).symm.trans here)
    · exact (h.raised.idle l lk new here).2
  · rcases Nat.lt_or_ge x s.stubs.next with old | new
    · cases (hs.stubs x).symm.trans ((h.raised.stubs.same x old).symm.trans here)
    · exact h.raised.unmarked x st new here
  · rw [h.raised.workers] at here
    rcases Table.get?_of_set here with ⟨-, rfl⟩ | here
    · exact (hs.workers w wk h.books).1
    · exact (hs.workers w' wk' here).1
  · rcases h.here with ⟨ep, here, own, -, -⟩
    rw [← own] at h
    exact ⟨ep, here, Table.contains_of_get? h.enlisted⟩

/-- The creation of an endpoint leaves no data of anybody. -/
theorem Blank.created_dataless (hs : Blank s) {w : WorkerId} {address : WorkerAddress}
    (ran : Call.run s (.createEndpoint w address) = (t, .ok ())) (idle : t.agenda = [])
    (calm : t.violation = none) (e : EndpointId) : Dataless e t.traffic := by
  rcases Call.run_start ran idle calm with ⟨n, ends⟩
  have started : Veiled (Call.start s (.createEndpoint w address)).traffic ∧
      Dataless e (Call.start s (.createEndpoint w address)).traffic :=
    ⟨start_veiled hs.regular.veiled rfl,
      fun x => createEndpoint_flows (hs.dataless e x) hs.rested.idle w address⟩
  have worked := (work_keeps (I := fun τ => Veiled τ ∧ Dataless e τ)
    (fun _ _ hs deed => ⟨hs.1.deed deed, hs.2.deed hs.1 deed⟩) started ends.calm).2
  rcases ends.held with same | ⟨ref, same⟩
  · exact same ▸ worked
  · rw [same, keep_traffic]
    exact worked

/-- The first endpoint of a worker is created when its request was sent, which changes nothing of its
lanes. -/
theorem Blank.asks (hs : Blank s) {w : WorkerId} {wk : Worker} (books : s.workers.get? w = some wk)
    {address : WorkerAddress} (ran : s.createEndpoint w address = (t, .ok (.ok e))) :
    ∃ v holds x, Begun s w address v e (.ok ()) ∧ Founded s w wk address.uuid e v ∧
      Undisturbed v x ∧ HasSent x e ∧ t = { x with holds } := by
  have live : s.workers.contains w = true := Table.contains_of_get? books
  cases createEndpoint_ok ran with
  | found e known kept =>
    rw [findEndpoint?, books] at known
    simp [(hs.workers w wk books).2] at known
  | failed v e done begun why answer ran => cases answer
  | asked v v' x e' begun h job made o asked kept =>
    rcases kept with ⟨-, why, answer⟩ | ⟨kept, answer, fine⟩
    · cases answer
    cases answer
    rcases hs.rested.begun live begun with ⟨led, alive⟩
    have sent : HasSent x e := by
      have told := (led.rested.asked alive made asked).1
      rcases newSignal_ok made with ⟨payload, made⟩
      cases made
      exact ⟨v.handles.next, Signal.messageId, payload, told.remembers Array.mem_push_self⟩
    rcases begun.founded books with ⟨founded, idle, calm⟩
    have held : .worker w ∈ s.holds := hs.regular.anchored.worker hs.rested.idle live
    rcases newSignal_ok made with ⟨payload, made⟩
    rcases founded.sends hs.rested.idle hs.rested.fit.sound.live held (calm.trans hs.rested.calm)
      (idle.trans hs.rested.idle) payload made with ⟨x', o', asked', ended⟩
    cases asked.symm.trans asked'
    rcases ended with ⟨why, failed, -⟩ | ⟨-, same⟩
    · exact absurd failed (fine why)
    rcases keep_eq x (.endpoint e) with ⟨holds, eq⟩
    exact ⟨v, holds, x, begun, founded, same, sent, kept.trans eq⟩

/-- The first endpoint of a worker is created. -/
theorem Blank.createEndpoint (hs : Blank s) {w : WorkerId} (live : s.workers.contains w = true)
    {address : WorkerAddress} (ran : s.createEndpoint w address = (t, .ok (.ok e))) :
    ∃ ρ, Poised e ρ [] t := by
  have answered : Call.run s (.createEndpoint w address) = (t, .ok ()) := by
    simp only [Call.run, ran, Call.unanswered]
    rfl
  rcases hs.regular.call hs.rested (c := .createEndpoint w address) rfl live answered with
    ⟨regular, -, rested⟩
  have dataless := hs.created_dataless answered rested.idle rested.calm e
  rcases route_of_dataless dataless rested.idle regular.veiled with ⟨ρ, flows, slot⟩
  rcases Table.contains_iff.1 live with ⟨wk, books⟩
  rcases hs.asks books ran with ⟨v, holds, x, -, founded, same, sent, rfl⟩
  rcases founded.fresh hs same with ⟨tight, unconnected, unposted, alive⟩
  exact ⟨ρ, regular, rested, flows, sent, slot, tight, unconnected, unposted, alive⟩

end Network

end Wiring
