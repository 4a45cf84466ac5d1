import Mathlib
import Wiring.Proofs.Outset
import Wiring.Proofs.Reception

/-!
# Sending at the outset

Data that an endpoint sends before anything has come back goes out at once, waits in the queue of
its link for a credit, or is parked on its stub. Each message stands behind those sent before it.
-/
namespace Wiring

namespace Network

open Traffic (Flows)

variable {s t u : Network} {e : EndpointId} {ep : Endpoint} {x : StubId} {st : Stub} {m : Send}
  {ρ : Route} {sent : List Bytes} {rest : List Job}

/-! ## Parking -/

/-- A worker without posted events has none to apply. -/
theorem caughtUp_unposted (unposted : ∀ w wk, s.workers.get? w = some wk → wk.posted = []) :
    s.caughtUp x = s := by
  unfold caughtUp
  split
  · rfl
  · rename_i w alive
    unfold applyPosted
    split
    · rfl
    · rename_i wk here
      have same : { wk with posted := [] } = wk := by rw [← unposted w wk here]
      simp only [same, Table.set_get? here, unposted w wk here, List.foldl_nil]

/-- Nor does a stub switch over that is not connected. -/
theorem switchover_unconnected
    (unposted : ∀ w wk, s.workers.get? w = some wk → wk.posted = [])
    (unconnected : ∀ st, s.stubs.get? x = some st → st.isConnected = false) :
    s.switchover x = s := by
  rw [switchover_eq, caughtUp_unposted unposted]
  split
  · rfl
  · split
    · rfl
    · rename_i st here
      split
      · rw [if_neg]
        simp [isSwitchable, unconnected st here]
      · rfl

/-- Data that its endpoint sends over a stub is parked there, if the stub does not switch over. -/
theorem attempt_parked (own : m.endpoint = e) (data : m.messageId ≠ Signal.messageId)
    (here : t.endpoints.get? e = some ep) (slot : ep.slots.messages = some (.stub x))
    (stub : t.stubs.get? x = some st) (aim : st.endpoint = e) (unswitched : st.next ≠ none)
    (worker : t.workers.contains ep.worker = true)
    (unposted : ∀ w wk, t.workers.get? w = some wk → wk.posted = [])
    (unconnected : st.isConnected = false)
    (held : ∀ agenda, isHeld { t with agenda } (.endpoint e) = true)
    (calm : t.violation = none) (top : t.agenda = .attempt (.send m) (.endpoint e) :: rest) :
    WorksWithin rest 8 t { t.park x st ep.worker (.send m) with agenda := rest } := by
  have calmly (agenda : List Job) : ({ t with agenda } : Network).violation = none := calm
  let ended : Job := .conclude (.send m) (.error .noResource) (.endpoint e)
  -- the stub holds the send off
  let holding : List Job := .release (.stub x) :: .release (.endpoint e) :: ended :: rest
  have attempted : t.step = { t with agenda := .switchover x :: .recount t.tally :: holding } := by
    rw [step_eq top calm]
    simp only [perform, Network.attempt, Request.inner?, own, here, slot, attemptOver,
      sendOver_data _ x m.payload (some m.handle) data]
    rfl
  have waits (jobs : List Job) :
      step { t with agenda := .switchover x :: jobs } = { t with agenda := jobs } := by
    rw [step_eq rfl (calmly _)]
    refine switchover_unconnected unposted fun st' there => ?_
    cases stub.symm.trans there
    exact unconnected
  have recounted (jobs : List Job) :
      step { t with agenda := .recount t.tally :: jobs } = { t with agenda := jobs } :=
    step_eq rfl (calmly _)
  have spared (jobs : List Job) :
      step { t with agenda := .release (.stub x) :: jobs } = { t with agenda := jobs } :=
    step_release_held rfl (calmly _)
      (isHeld_of_messages (s := { t with agenda := jobs }) (c := .stub x) here slot)
  have spared' (jobs : List Job) :
      step { t with agenda := .release (.endpoint e) :: jobs } = { t with agenda := jobs } :=
    step_release_held rfl (calmly _) (held _)
  have concluded : step { t with agenda := ended :: rest } =
      { t with agenda := .add (.stub x) (.send m) :: .release (.stub x) :: rest } :=
    step_conclude_starved (t := { t with agenda := ended :: rest }) here slot rfl (calmly _)
  -- and parks it
  have parked : step { t with agenda := .add (.stub x) (.send m) :: .release (.stub x) :: rest } =
      { t.park x st ep.worker (.send m) with agenda := .release (.stub x) :: rest } := by
    have alive : workerOf? { t with agenda := .release (.stub x) :: rest } e = some ep.worker := by
      simp only [workerOf?, here, worker, if_true]
    rcases Option.ne_none_iff_exists'.1 unswitched with ⟨next, waiting⟩
    rcases Table.contains_iff.1 worker with ⟨wk, books⟩
    rw [step_eq rfl (calmly _)]
    simp only [perform, offer, stub, Request.isSignal, beq_eq_false_iff_ne.2 data, aim, alive,
      waiting, Bool.false_eq_true, if_false]
    rw [park_eq (s := { t with agenda := .release (.stub x) :: rest }) stub books,
      park_eq stub books]
    rfl
  have released : step { t.park x st ep.worker (.send m) with
      agenda := .release (.stub x) :: rest } =
      { t.park x st ep.worker (.send m) with agenda := rest } := by
    rcases Table.contains_iff.1 worker with ⟨wk, books⟩
    rw [park_eq stub books]
    exact step_release_held rfl calm (isHeld_of_messages (c := .stub x) here slot)
  refine .one top ?_
  rw [attempted]
  refine .step [_, _, _, _] rfl ?_
  rw [waits]
  refine .step [_, _, _] rfl ?_
  rw [recounted]
  refine .step [_, _] rfl ?_
  rw [spared]
  refine .step [_] rfl ?_
  rw [spared']
  refine .one rfl ?_
  rw [concluded]
  refine .step [_] rfl ?_
  rw [parked]
  refine .one rfl ?_
  rw [released]
  exact .refl _ _ _

/-! ## One message more -/

/-- The message is sent by the endpoint, and is data. -/
theorem sends_of_data (own : m.endpoint = e) (data : m.messageId ≠ Signal.messageId) :
    (Request.send m).Sends e ∧ (Request.send m).data = [m.payload] := by
  have plain : (Request.send m).isSignal = false := beq_eq_false_iff_ne.2 data
  refine ⟨⟨Request.isPlain_send m, fun m' inner signal => ?_, fun m' inner _ => ?_⟩, ?_⟩
  · rw [plain] at signal
    cases signal
  · cases inner
    exact own
  · simp [Request.data, plain, Request.send?, Request.inner?]

/-- A send is noted and has a handle, and there is nothing to do but this. -/
def sending (s : Network) (e : EndpointId) (messageId : UInt8) (payload : Bytes)
    (agenda : List Job) : Network :=
  { s with
    handles := s.handles.push none
    trace := s.trace.push (.sent s.handles.next e messageId payload)
    tally := 0
    agenda }

theorem sendMessage_works {messageId : UInt8} {payload : Bytes} {h : HandleId}
    (idle : s.agenda = []) (ran : s.sendMessage e messageId payload = (u, .ok h)) {start : Network}
    (begun : start = s.sending e messageId payload
      [.attempt (.send ⟨e, messageId, payload, s.handles.next⟩) (.endpoint e)]) :
    u.agenda = [] ∧ ∀ t, WorksAbove [] start t → t.agenda = [] → t = u := by
  have same : start =
      (s.newSend e messageId payload).1.begin [(s.newSend e messageId payload).2.2] := by
    simp [begun, sending, newSend, note, begin, push, idle]
  unfold Network.sendMessage at ran
  rcases settle_ok ran with ⟨rfl, -, done, -⟩
  refine ⟨done, fun t works rests => ?_⟩
  subst same
  exact works.unique rests done

namespace Poised

/-- What a link takes goes to the end of the stream. -/
theorem flows_posted (hs : Flows e ρ sent s.traffic) (idle : s.agenda = []) (tight : Tight s)
    (own : m.endpoint = e) (data : m.messageId ≠ Signal.messageId)
    (way : ∀ l, ep.slots.messages = some (.link l) → ∃ i, ρ = .link l i)
    (direct : ∀ x, ep.slots.messages ≠ some (.stub x)) (posted : Posted s m ep t) :
    Flows e ρ (sent ++ [m.payload]) t.traffic := by
  have nothing : s.traffic.agenda = [] := idle
  have order := hs.order
  rw [Traffic.stream_idle nothing] at order
  have grown := order.append (.refl [m.payload])
  rcases sends_of_data own data with ⟨sends, payload⟩
  cases posted with
  | refused why final =>
    refine .of_leaves { hs.toConfined with } (by simp [traffic, idle]) ?_
    simpa [traffic, idle] using order.trans (List.sublist_append_left sent [m.payload])
  | sent c l u slot carries sent' =>
    rcases carries with rfl | ⟨x, -, rfl, -⟩
    · rcases way l slot with ⟨i, rfl⟩
      cases sent' with
      | intro lk credits dest f here credit leads there =>
        cases hs.leads l i rfl lk dest here leads
        have confined := (hs.setLink here { lk with credits } rfl fun r old => .inl old).setInterface
          there { f with inbox := f.inbox ++ [⟨m.messageId, m.payload, l⟩] } rfl fun m' hm => by
            rcases List.mem_append.1 hm with old | new
            · exact .inl old
            · exact .inr (.inr ⟨l, rfl⟩)
        refine .of_leaves { confined with } (by simp [traffic, idle]) ?_
        have empty : (Route.link l i).queued s.traffic.links = [] := by
          refine (Table.listAt_of here).trans ?_
          rw [tight l lk here (by simp [credit])]
          rfl
        have arrives := Traffic.arrived_snoc (s := s.traffic) (ρ := .link l i) there
          (m := ⟨m.messageId, m.payload, l⟩) (.inr ⟨l, rfl⟩)
        have queued := Traffic.queued_credits (s := s.traffic) (ρ := .link l i) here credits
        rw [empty] at queued grown
        simp only [traffic, idle, seen_push, Happening.data, Message.data, if_neg data] at arrives queued grown ⊢
        rw [arrives, queued]
        simpa [Route.parked] using grown
    · exact absurd slot (direct x)
  | queued c u slot queued =>
    cases queued with
    | link l lk here empty =>
      rcases way l slot with ⟨i, rfl⟩
      have confined := hs.setLink here { lk with queue := lk.queue ++ [.send m] } rfl fun r hr => by
        rcases List.mem_append.1 hr with old | new
        · exact .inl old
        · rw [List.mem_singleton.1 new]
          exact .inr ⟨sends, fun _ => ⟨i, rfl⟩⟩
      refine .of_leaves { confined with } (by simp [traffic, idle]) ?_
      have queued := Traffic.queued_snoc (s := s.traffic) (ρ := .link l i) here (r := .send m)
        fun _ => ⟨i, rfl⟩
      simp only [traffic, idle] at queued grown ⊢
      rw [queued, payload]
      simpa [Route.parked] using grown
    | stub x st l lk stub carries here empty => exact absurd slot (direct x)

/-- What a stub parks goes to the end of the stream. -/
theorem flows_parked (hs : Flows e (.stub x) sent s.traffic) (idle : s.agenda = [])
    (own : m.endpoint = e) (data : m.messageId ≠ Signal.messageId)
    (stub : s.stubs.get? x = some st) : Flows e (.stub x) (sent ++ [m.payload]) { s.traffic with
      stubs := s.stubs.set x { st with parked := st.parked ++ [.send m] }
      trace := s.trace.push (.parked x (.send m)) } := by
  have nothing : s.traffic.agenda = [] := idle
  have order := hs.order
  rw [Traffic.stream_idle nothing] at order
  have grown := order.append (.refl [m.payload])
  rcases sends_of_data own data with ⟨sends, payload⟩
  refine .of_leaves { hs.toConfined with
    parked := fun y st' there r hr => ?_
    shown := fun l i way => by cases way } (by simp [nothing]) ?_
  · rcases Table.get?_of_set there with ⟨rfl, rfl⟩ | there
    · rcases List.mem_append.1 hr with old | new
      · exact hs.parked _ st stub r old
      · rw [List.mem_singleton.1 new]
        exact ⟨sends, rfl⟩
    · exact hs.parked y st' there r hr
  · have parked : (Route.stub x).parked s.traffic.stubs = st.parked.flatMap Request.data :=
      Table.listAt_of stub
    have parked' : (Route.stub x).parked
        (s.stubs.set x { st with parked := st.parked ++ [.send m] }) =
        st.parked.flatMap Request.data ++ [m.payload] := by
      refine (Table.listAt_set stub _ x).trans ?_
      simp [payload]
    rw [parked] at grown
    simp only [parked', nothing, seen_push, Happening.data]
    simpa [traffic] using grown

/-- A network that differs in nothing that matters is as fit for the next send. -/
theorem next {sent' : List Bytes} (hs : Poised e ρ sent s) (leads : Leads True s t)
    (regular : Regular t) (flows : Flows e ρ sent' t.traffic) (tight : Tight t)
    (endpoints : t.endpoints = s.endpoints)
    (unconnected : ∀ x st, t.stubs.get? x = some st → st.isConnected = false)
    (unposted : ∀ w wk, t.workers.get? w = some wk → wk.posted = [])
    (workers : ∀ w, s.workers.contains w = true → t.workers.contains w = true) :
    Poised e ρ sent' t where
  regular := regular
  rested := leads.rested
  flows := flows
  told := hs.told.moves leads.moves
  slot c serves := by
    have before : s.slot e .messages = some c := by
      rw [← serves, Network.slot, Network.slot, endpoints]
    exact hs.slot c before
  tight := tight
  unconnected := unconnected
  unposted := unposted
  alive := by
    rcases hs.alive with ⟨ep, here, worker⟩
    exact ⟨ep, by rw [endpoints, here], workers _ worker⟩

/-- The endpoint sends data. -/
theorem sendMessage (hs : Poised e ρ sent s) {messageId : UInt8}
    (data : messageId ≠ Signal.messageId) {payload : Bytes} {h : HandleId}
    (ran : s.sendMessage e messageId payload = (u, .ok h)) :
    Poised e ρ (sent ++ [payload]) u := by
  rcases hs.alive with ⟨ep, here, worker⟩
  have answered : Call.run s (.sendMessage e messageId payload) = (u, .ok ()) := by
    simp only [Call.run, ran, Call.unanswered]
    rfl
  rcases hs.regular.call hs.rested (c := .sendMessage e messageId payload) rfl
    (Table.contains_of_get? here) answered with ⟨regular, leads⟩
  let m : Send := ⟨e, messageId, payload, s.handles.next⟩
  let start (agenda : List Job) : Network := s.sending e messageId payload agenda
  have begun : start [.attempt (.send m) (.endpoint e)] = s.sending e messageId payload
      [.attempt (.send m) (.endpoint e)] := rfl
  rcases sendMessage_works hs.rested.idle ran begun with ⟨idle, ends⟩
  have noted : Flows e ρ sent (start []).traffic := by
    have tends := flows_of_tends hs.flows hs.rested.idle
      (.note (x := .sent s.handles.next e messageId payload) rfl)
    rw [traffic, note, hs.rested.idle] at tends
    exact { tends with }
  by_cases stub : ∃ x, ep.slots.messages = some (.stub x)
  · rcases stub with ⟨x, serves⟩
    have way : Carrier.stub x = ρ.carrier :=
      hs.slot _ (Option.bind_eq_some_iff.2 ⟨ep, here, serves⟩)
    cases ρ with
    | link l i => cases way
    | stub y =>
      cases way
      rcases hs.regular.fitted e ep .messages x here serves with ⟨st, stub, aim, -, unswitched⟩
      have held (agenda : List Job) : (start agenda).isHeld (.endpoint e) = true := by
        have before := hs.regular.anchored (.endpoint e) rfl (Table.contains_of_get? here)
        rcases isHeld_iff.1 before with held | planned | owned
        · exact isHeld_of_holds held
        · rw [hs.rested.idle] at planned
          cases planned
        · exact isHeld_of_owned owned
      have works := attempt_parked (m := m) (t := start [.attempt (.send m) (.endpoint e)]) rfl data
        here serves stub aim unswitched worker hs.unposted (hs.unconnected x st stub) held
        hs.rested.calm rfl
      rcases Table.contains_iff.1 worker with ⟨wk, books⟩
      have parked := park_eq (s := start [.attempt (.send m) (.endpoint e)]) stub books (.send m)
      rw [parked] at works
      cases ends _ works.above rfl
      have flows := flows_parked noted rfl (m := m) rfl data stub
      refine hs.next leads regular flows hs.tight rfl (fun y st' there => ?_)
        (fun w wk' there => ?_) fun w live => ?_
      · rcases Table.get?_of_set there with ⟨-, rfl⟩ | there
        · exact hs.unconnected x st stub
        · exact hs.unconnected y st' there
      · rcases Table.get?_of_set there with ⟨-, rfl⟩ | there
        · exact hs.unposted _ wk books
        · exact hs.unposted w wk' there
      · exact (Table.contains_set books _ w).trans live
  · have direct (x : StubId) : ep.slots.messages ≠ some (.stub x) := fun serves => stub ⟨x, serves⟩
    rcases attempt_posted (m := m) (t := start [.attempt (.send m) (.endpoint e)]) rfl here
      (.inr direct) hs.rested.calm rfl with ⟨u', works, posted⟩
    rcases posted.undisturbed with ⟨same, rests⟩
    cases ends _ works.above rests
    have way (l : LinkId) (serves : ep.slots.messages = some (.link l)) : ∃ i, ρ = .link l i := by
      have way : Carrier.link l = ρ.carrier :=
        hs.slot _ (Option.bind_eq_some_iff.2 ⟨ep, here, serves⟩)
      cases ρ with
      | stub y => cases way
      | link k i =>
        cases way
        exact ⟨i, rfl⟩
    have flows := flows_posted (s := start []) (m := m) noted rfl hs.tight rfl data way direct posted
    refine hs.next leads regular flows (same.tight hs.tight) same.endpoints
      (fun x st there => ?_) (fun w wk there => ?_) fun w live => ?_
    · rw [same.stubs] at there
      exact hs.unconnected x st there
    · rw [same.workers] at there
      exact hs.unposted w wk there
    · rw [same.workers]
      exact live

end Poised

end Network

end Wiring
