import Mathlib
import Wiring.Proofs.Layout
import Wiring.Proofs.Starts
import Wiring.Proofs.Switchover

/-!
# The roster of a network

The roster of a network says what endpoints there are and what serves their categories, what each
worker keeps for life, and whom it knows. Work leaves it alone but for five kinds of jobs: a worker or
an endpoint that nothing holds is retired, a stub is switched over, an endpoint is destroyed, and a
request of a peer opens an endpoint.
-/
namespace Wiring

/-- What a worker keeps for life, and its directory. -/
def Worker.office (w : Worker) : Worker := { w with posted := [], parkedCount := 0 }

/-- A worker forgets a peer. -/
def Worker.strike (w : Worker) (peer : UInt64) : Worker :=
  { w with directory := w.directory.filter fun entry => entry.1 != peer }

/-- A worker knows a peer by a new endpoint. -/
def Worker.enlist (w : Worker) (peer : UInt64) (e : EndpointId) : Worker :=
  { w with directory := (w.strike peer).directory ++ [(peer, e)] }

@[ext]
structure Roster where
  endpoints : EndpointId → Option Endpoint
  /-- The number of endpoints opened so far. -/
  opened : Nat
  offices : WorkerId → Option Worker
  /-- The number of workers opened so far. -/
  hired : Nat

/-- One endpoint more, which its worker has in the directory. -/
def Roster.add (r : Roster) (ep : Endpoint) : Roster :=
  { r with
    endpoints := Function.update r.endpoints r.opened (some ep)
    opened := r.opened + 1
    offices := Function.update r.offices ep.worker
      ((r.offices ep.worker).map (Worker.enlist · ep.dest r.opened)) }

theorem of_update_map {α β : Type} [DecidableEq α] {f : α → Option β} {k i : α} {g : β → β} {b : β}
    (h : Function.update f k ((f k).map g) i = some b) : ∃ a, f i = some a ∧ (b = a ∨ b = g a) := by
  simp only [Function.update_apply] at h
  split at h
  · rename_i same
    rcases Option.map_eq_some_iff.1 h with ⟨a, here, rfl⟩
    exact ⟨a, same ▸ here, .inr rfl⟩
  · exact ⟨b, h, .inl rfl⟩

/-- Workers that come to know a peer, or forget one, have the plan and the resources that they had. -/
theorem Roster.offices_add {r : Roster} {ep : Endpoint} {w : WorkerId} {wk : Worker}
    (here : (r.add ep).offices w = some wk) :
    ∃ wk', r.offices w = some wk' ∧ wk.plan = wk'.plan ∧ wk.resources = wk'.resources := by
  rcases of_update_map here with ⟨wk', before, rfl | rfl⟩
  · exact ⟨wk, before, rfl, rfl⟩
  · exact ⟨wk', before, rfl, rfl⟩

namespace Network

variable {s t u : Network}

def roster (s : Network) : Roster where
  endpoints e := s.endpoints.get? e
  opened := s.endpoints.next
  offices w := (s.workers.get? w).map Worker.office
  hired := s.workers.next

theorem Aside.roster (h : Aside s t) : t.roster = s.roster := by
  have office (w : Worker) : w.books.office = w.office := rfl
  have same (w : WorkerId) :
      (t.workers.get? w).map Worker.office = (s.workers.get? w).map Worker.office := by
    have books := congrArg (Option.map Worker.office) (h.books w)
    simpa only [Option.map_map, Function.comp_def, office] using books
  simp only [Network.roster, h.endpoints, h.workersNext, same]

theorem roster_foldl {α : Type} {f : Network → α → Network}
    (h : ∀ s a, (f s a).roster = s.roster) (as : List α) (s : Network) :
    (as.foldl f s).roster = s.roster := by
  induction as generalizing s with
  | nil => rfl
  | cons a as ih => exact (ih _).trans (h s a)

/-- A worker changes, but not in what it keeps for life, nor in its directory. -/
theorem roster_modifyWorker (s : Network) (w : WorkerId) {f : Worker → Worker}
    (office : ∀ wk, (f wk).office = wk.office) :
    roster { s with workers := s.workers.modify w f } = s.roster := by
  have same := Table.map_get?_modify (t := s.workers) (k := w) office
  simp only [roster, Table.next_modify, same]

/-! ## Requests -/

theorem cancel_roster (s : Network) (r : Request) : (s.cancel r).roster = s.roster := by
  rcases s.cancel_eq r with ⟨marks, -, h⟩
  rw [h]
  rfl

theorem discard_roster (s : Network) (r : Request) : (s.discard r).roster = s.roster := by
  rcases s.discard_eq r with ⟨marks, -, h⟩
  rw [h]
  rfl

theorem recordAttempt_roster (s : Network) (r : Request) (o : Outcome) :
    (s.recordAttempt r o).roster = s.roster := by
  by_cases ho : o.isNoResource = true
  · rcases s.recordAttempt_noResource r ho with ⟨marks, -, h⟩
    rw [h]
    rfl
  · rcases s.recordAttempt_eq r (Bool.eq_false_iff.2 ho) with ⟨marks, -, h⟩
    rw [h]
    rfl

/-! ## Sending, connecting and marking -/

theorem sendOver_roster (s : Network) (c : Carrier) (messageId : UInt8) (payload : Bytes)
    (source : Option HandleId) : (s.sendOver c messageId payload source).1.roster = s.roster := by
  rcases s.sendOver_cases c messageId payload source with
    ⟨-, -, h⟩ | ⟨why, h⟩ | ⟨l, dest, u, aside, -, h⟩
  · rw [h]
  · rw [h]
  · rw [h]
    exact aside.roster

theorem connect_roster (s : Network) (c : Carrier) (device address : Bytes) :
    (s.connect c device address).1.roster = s.roster := by
  have link (l : LinkId) : (s.connectLink l device address).1.roster = s.roster := by
    rcases s.connectLink_cases l device address with ⟨why, h⟩ | ⟨u, aside, h⟩
    · rw [h]
    · rw [h]
      exact aside.roster
  unfold connect
  split
  · exact link _
  · split
    · rfl
    · rename_i next _
      have h := link next
      split
      · rename_i u hu
        rw [hu] at h
        exact h
      · rename_i u why hu
        rw [hu] at h
        exact h

theorem connectLanes_roster (s : Network) (e : EndpointId) (lanes : List LaneAddress) :
    (s.connectLanes e lanes).1.roster = s.roster := by
  induction lanes generalizing s with
  | nil => rfl
  | cons lane lanes ih =>
    unfold connectLanes
    split
    · rename_i x _
      have h := connect_roster s (.stub x) lane.deviceAddress lane.linkAddress
      split
      · rename_i u hu
        rw [hu] at h
        exact (ih u).trans h
      · rename_i u why hu
        rw [hu] at h
        exact h
    · exact ih s

theorem Marked.roster (h : Marked s t) : t.roster = s.roster := by
  rw [h.frame]
  rfl

theorem markSlot_roster (s : Network) (c : Slot) : (s.markSlot c).roster = s.roster :=
  (markSlot_marked s c).roster

theorem markLanes_roster (s : Network) (e : EndpointId) : (s.markLanes e).roster = s.roster := by
  unfold markLanes
  split
  · rfl
  · exact roster_foldl (fun s _ => markSlot_roster s _) _ s

theorem applyPosted_roster (s : Network) (w : WorkerId) :
    (s.applyPosted w).1.roster = s.roster :=
  (applyPosted_marked s w).roster.trans (roster_modifyWorker s w fun _ => rfl)

/-! ## Opening links and stubs -/

theorem LinkOpened.roster {l : LinkId} (h : LinkOpened s u l) : u.roster = s.roster := by
  rcases h with ⟨mid, lk, aside, -, -, -, -, rfl⟩
  exact aside.roster

theorem retireLink_roster (s : Network) (l : LinkId) : (s.retireLink l).roster = s.roster := by
  unfold retireLink
  split
  · rfl
  · exact roster_foldl cancel_roster _ _

theorem openAuxiliary_roster (s : Network) (w : Worker) (peer : String)
    (entries : List AddressEntry) (scorer : Scorer) :
    (s.openAuxiliary w peer entries scorer).1.roster = s.roster := by
  rcases s.openAuxiliary_cases w peer entries scorer with ⟨why, h⟩ | ⟨u, r, l, opened, h⟩
  · rw [h]
  · rw [h]
    exact opened.roster

theorem openStub_roster (s : Network) (endpoint : EndpointId) (e : Endpoint) (w : Worker)
    (lane : Category) (i : InterfaceId) (entries : List AddressEntry) :
    (s.openStub endpoint e w lane i entries).1.roster = s.roster := by
  unfold openStub
  rcases s.openLink_cases i with ⟨why, h⟩ | ⟨u, next, opened, h⟩
  · simp only [h]
  · simp only [h]
    split
    · have aux := openAuxiliary_roster u w e.peer entries .auxiliary
      split
      · rename_i v why hv
        rw [hv] at aux
        exact (retireLink_roster v next).trans (aux.trans opened.roster)
      · rename_i v auxiliary hv
        rw [hv] at aux
        exact aux.trans opened.roster
    · exact opened.roster

theorem openLane_roster (s : Network) (endpoint : EndpointId) (e : Endpoint) (w : Worker)
    (lane : Category) (entries : List AddressEntry) :
    (s.openLane endpoint e w lane entries).1.roster = s.roster := by
  unfold openLane
  split
  · rfl
  · rename_i r _
    split
    · rfl
    · split
      · have h := openStub_roster s endpoint e w lane r.interface entries
        split
        · rename_i u x hu
          rw [hu] at h
          exact h
        · rename_i u why hu
          rw [hu] at h
          exact h
      · simp only
        split
        · rfl
        · rename_i entry _
          rcases s.openConnectedLink_cases r.interface entry.deviceAddress entry.interfaceAddress
            with ⟨why, h⟩ | ⟨u, l, opened, h⟩
          · simp only [h]
          · simp only [h]
            exact opened.roster

/-! ## Sending signals -/

theorem newSignal_roster (s : Network) (e : EndpointId) (kind : Signal.Kind) :
    (s.newSignal e kind).1.roster = s.roster := by
  rcases s.newSignal_cases e kind with ⟨why, h⟩ | ⟨payload, -, h⟩
  · rw [h]
  · rw [h]
    rfl

theorem answer_roster (s : Network) (e : EndpointId) (kind : Signal.Kind) :
    (s.answer e kind).roster = s.roster := by
  unfold answer
  have h := newSignal_roster s e kind
  split
  · rename_i u why hu
    rw [hu] at h
    exact h
  · rename_i u handle job hu
    rw [hu] at h
    exact h

theorem replyTo_roster (s : Network) (e : EndpointId) (lanes : List LaneAddress) :
    (s.replyTo e lanes).roster = s.roster := by
  unfold replyTo
  have h := connectLanes_roster s e lanes
  split
  · rename_i u why hu
    rw [hu] at h
    exact h
  · rename_i u hu
    rw [hu] at h
    exact (answer_roster u e .reply).trans h

/-! ## Attempts and offers -/

theorem attemptOver_roster (s : Network) (r : Request) (w : Waiter) (c : Carrier)
    (messageId : UInt8) (payload : Bytes) (source : Option HandleId) (holding : List Ref) :
    (s.attemptOver r w c messageId payload source holding).roster = s.roster := by
  unfold attemptOver
  have h := sendOver_roster s c messageId payload source
  split
  · rename_i u o hu
    rw [hu] at h
    exact h
  · rename_i u hu
    rw [hu] at h
    exact h

theorem attempt_roster (s : Network) (r : Request) (w : Waiter) :
    (s.attempt r w).roster = s.roster := by
  unfold attempt
  rcases r.inner?_cases with ⟨c, h⟩ | ⟨m, h⟩ | h
  · simp only [h]
    split
    · rfl
    · rfl
    · split
      · exact attemptOver_roster s _ w _ _ _ none _
      · rfl
  · simp only [h]
    split
    · rfl
    · split
      · rfl
      · exact attemptOver_roster s r w _ _ _ _ _
  · simp only [h]
    rfl

theorem giveUp_roster (s : Network) (r : Request) (w : Waiter) :
    (s.giveUp r w).roster = s.roster := by
  unfold giveUp
  split
  · rfl
  · rfl
  · split
    · rfl
    · exact cancel_roster s r
  · rfl

theorem finish_roster (s : Network) (r : Request) (o : Outcome) (w : Waiter) :
    (s.finish r o w).roster = s.roster := by
  unfold finish
  split
  · exact discard_roster { s with tally := s.tally + 1 } r
  · exact discard_roster s r
  · exact discard_roster s r
  · rfl

theorem conclude_roster (s : Network) (r : Request) (o : Outcome) (w : Waiter) :
    (s.conclude r o w).roster = s.roster := by
  unfold conclude
  refine Eq.trans ?_ (recordAttempt_roster s r o)
  simp only
  split
  · exact giveUp_roster _ _ w
  · exact finish_roster _ _ o w

theorem enqueue_roster (s : Network) (l : LinkId) (r : Request) :
    (s.enqueue l r).1.roster = s.roster := by
  unfold enqueue
  split
  · rfl
  · split <;> rfl

theorem park_roster (s : Network) (x : StubId) (st : Stub) (w : WorkerId) (r : Request) :
    (s.park x st w r).roster = s.roster := by
  refine Eq.trans ?_ (roster_modifyWorker { s with
    stubs := s.stubs.set x { st with parked := st.parked ++ [r] } } w
      (f := fun wk => { wk with parkedCount := wk.parkedCount + 1 }) fun _ => rfl)
  unfold park
  simp only
  split <;> rfl

theorem offer_roster (s : Network) (c : Carrier) (r : Request) :
    (s.offer c r).1.roster = s.roster := by
  unfold offer
  split
  · exact enqueue_roster s _ r
  · split
    · rfl
    · rename_i t _
      split
      · split
        · rfl
        · exact enqueue_roster (s.enterGate t.gate) _ _
      · split
        · rfl
        · exact park_roster s _ t _ r
        · exact enqueue_roster s _ r
        · rfl

theorem offerOrAttempt_roster (s : Network) (c : Carrier) (r : Request) :
    (s.offerOrAttempt c r).roster = s.roster := by
  unfold offerOrAttempt
  have h := offer_roster s c r
  split
  · rename_i u hu
    rw [hu] at h
    exact h
  · rename_i u back hu
    rw [hu] at h
    exact h

theorem dequeue_roster (s : Network) (l : LinkId) : (s.dequeue l).1.roster = s.roster := by
  unfold dequeue
  split
  · rfl
  · split <;> rfl

theorem dispatch_roster (s : Network) (l : LinkId) : (s.dispatch l).roster = s.roster := by
  unfold dispatch
  have h := dequeue_roster s l
  split
  · rename_i u r hu
    rw [hu] at h
    exact h
  · rename_i u hu
    rw [hu] at h
    exact h

/-! ## Delivery, registries and progress -/

theorem forward_roster (s : Network) (log : String) (c : Carrier) (m : Message) :
    (s.forward log c m).roster = s.roster := by
  unfold forward
  have h := sendOver_roster s c m.id m.payload none
  split
  · split
    · rename_i u o hu
      rw [hu] at h
      exact h
    · rename_i u hu
      rw [hu] at h
      split <;> exact h
  · rfl

theorem deliver_roster (s : Network) (i : InterfaceId) (left : Nat) :
    (s.deliver i left).roster = s.roster := by
  unfold deliver
  split
  · split <;> rfl
  · rfl

theorem letGo_roster (s : Network) (ref : Ref) : (s.letGo ref).roster = s.roster := by
  unfold letGo
  simp only
  split <;> rfl

theorem act_roster (s : Network) (r : RegistryId) (a : Action) :
    (s.act r a).roster = s.roster := by
  unfold act
  split
  · split <;> rfl
  · split <;> rfl
  · split
    · exact letGo_roster s _
    · rfl

theorem runCallback_roster (s : Network) (c : CallbackId) :
    (s.runCallback c).roster = s.roster := by
  unfold runCallback
  split
  · rfl
  · exact roster_foldl (fun s a => act_roster s _ a) _ _

theorem run_roster (s : Network) (x : Runner) : (s.run x).roster = s.roster := by
  cases x with
  | stub x => rfl
  | callback c => exact runCallback_roster s c

theorem progressInterface_roster (s : Network) (i : InterfaceId) :
    (s.progressInterface i).roster = s.roster := by
  unfold progressInterface
  split <;> rfl

theorem progressWorker_roster (s : Network) (w : WorkerId) :
    (s.progressWorker w).roster = s.roster := by
  unfold progressWorker
  split
  · rfl
  · exact applyPosted_roster s w

theorem drain_roster (s : Network) (l : LinkId) : (s.drain l).1.roster = s.roster := by
  unfold drain
  split <;> rfl

theorem violate_roster (s : Network) (v : Violation) : (s.violate v).roster = s.roster := by
  unfold violate
  split <;> rfl

theorem purge_roster (s : Network) (c : Carrier) : (s.purge c).roster = s.roster := by
  unfold purge
  split
  · exact (roster_foldl cancel_roster _ _).trans (drain_roster s _)
  · split
    · split
      · rfl
      · exact violate_roster s _
    · rfl

theorem flush_roster (s : Network) (l : LinkId) (w : Option WorkerId) (rounds : Nat) :
    (s.flush l w rounds).roster = s.roster := by
  unfold flush
  split
  · rfl
  · split <;> rfl

theorem confirm_roster (s : Network) (e : EndpointId) (h : HandleId) :
    (s.confirm e h).roster = s.roster := by
  unfold confirm
  split <;> rfl

/-! ## Retiring -/

theorem retireInterface_roster (s : Network) (i : InterfaceId) :
    (s.retireInterface i).roster = s.roster := by
  have lost (u : Network) (m : Message) : (u.note (.lost i m)).roster = u.roster := rfl
  unfold retireInterface
  split
  · rfl
  · exact roster_foldl lost _ _

theorem retireStub_roster (s : Network) (x : StubId) : (s.retireStub x).roster = s.roster := by
  unfold retireStub
  split
  · rfl
  · simp only
    split
    · rfl
    · exact violate_roster { s with stubs := s.stubs.erase x } _

/-! ## Opening and destroying endpoints -/

theorem roster_modifyEndpoint (s : Network) (e : EndpointId) (f : Endpoint → Endpoint) :
    roster { s with endpoints := s.endpoints.modify e f } = { s.roster with
      endpoints := Function.update s.roster.endpoints e ((s.roster.endpoints e).map f) } := by
  refine Roster.ext (funext fun k => ?_) (Table.next_modify _ _ _) rfl rfl
  simp only [roster, Table.get?_modify, Function.update_apply, eq_comm (a := k)]
  split
  · rename_i h
    rw [h]
  · rfl

theorem roster_setSlots {e : EndpointId} {ep : Endpoint} (here : s.endpoints.get? e = some ep)
    (slots : PerCategory Slot) : (s.setSlots e slots).roster = { s.roster with
      endpoints := Function.update s.roster.endpoints e (some { ep with slots }) } := by
  have there : s.roster.endpoints e = some ep := here
  rw [setSlots, roster_modifyEndpoint, there, Option.map_some]

theorem roster_strike (s : Network) (w : WorkerId) (peer : UInt64) :
    roster { s with workers := s.workers.modify w (Worker.strike · peer) } = { s.roster with
      offices := Function.update s.roster.offices w
        ((s.roster.offices w).map (Worker.strike · peer)) } := by
  refine Roster.ext rfl rfl (funext fun v => ?_) (Table.next_modify _ _ _)
  simp only [roster, Table.get?_modify, Function.update_apply, eq_comm (a := v)]
  split
  · rename_i same
    subst same
    cases s.workers.get? w <;> rfl
  · rfl

theorem roster_eraseEndpoint (s : Network) (e : EndpointId) :
    roster { s with endpoints := s.endpoints.erase e } =
      { s.roster with endpoints := Function.update s.roster.endpoints e none } := by
  refine Roster.ext (funext fun k => ?_) (Table.next_erase _ _) rfl rfl
  simp only [roster, Table.get?_erase, Function.update_apply, eq_comm (a := k)]

/-- A new endpoint has the plan of its worker and nothing in its slots. -/
theorem openEndpoint_roster {w : WorkerId} {wk : Worker} (here : s.workers.get? w = some wk)
    (dest : UInt64) (peer : String) : ∃ ep : Endpoint, ep.worker = w ∧ ep.plan = wk.plan ∧
      ep.slots = .const none ∧ (s.openEndpoint w dest peer).2 = s.endpoints.next ∧
      (s.openEndpoint w dest peer).1.roster = s.roster.add ep := by
  unfold openEndpoint
  simp only [here]
  refine ⟨{ worker := w, dest, peer, plan := wk.plan, flushAttempts := wk.settings.flushAttempts },
    rfl, rfl, rfl, trivial, ?_⟩
  refine Roster.ext (funext fun k => ?_) (Table.next_push _ _) (funext fun v => ?_)
    (Table.next_set _ _ _)
  · exact (Table.get?_push _ _ _).trans (Function.update_apply _ _ _ _).symm
  · have office : s.roster.offices w = some wk.office := congrArg (Option.map Worker.office) here
    simp only [Roster.add, office, Function.update_apply, eq_comm (a := v)]
    simp only [roster, note, Table.get?_set_of here]
    split <;> rfl

theorem get?_of_roster_add {ep : Endpoint} (h : u.roster = s.roster.add ep) :
    u.endpoints.get? s.endpoints.next = some ep :=
  (congrFun (congrArg Roster.endpoints h) s.endpoints.next).trans (Function.update_self _ _ _)

/-- While its lanes are opened, an endpoint changes in its slots only, and the rest not at all. -/
theorem openLanes_roster {e : EndpointId} {ep : Endpoint} (here : s.endpoints.get? e = some ep)
    (entries : List AddressEntry) (lanes : List Category) :
    ∃ slots, (s.openLanes e entries lanes).1.roster = { s.roster with
      endpoints := Function.update s.roster.endpoints e (some { ep with slots }) } := by
  have untouched (s : Network) (ep : Endpoint) (here : s.endpoints.get? e = some ep) :
      s.roster = { s.roster with
        endpoints := Function.update s.roster.endpoints e (some { ep with slots := ep.slots }) } := by
    have same : some ep = s.roster.endpoints e := here.symm
    simp only [same, Function.update_eq_self]
  induction lanes generalizing s ep with
  | nil => exact ⟨ep.slots, untouched s ep here⟩
  | cons lane lanes ih =>
    unfold openLanes
    simp only [here]
    split
    · exact ⟨ep.slots, untouched s ep here⟩
    · rename_i w _
      have opened := openLane_roster s e ep w lane entries
      split
      · rename_i u why hu
        rw [hu] at opened
        exact ⟨ep.slots, opened.trans (untouched s ep here)⟩
      · rename_i u c hu
        rw [hu] at opened
        have here' : u.endpoints.get? e = some ep :=
          (congrFun (congrArg Roster.endpoints opened) e).trans here
        let slots := installLane ep lane c
        have installed := roster_setSlots here' slots
        have there : (u.setSlots e slots).endpoints.get? e = some { ep with slots } := by
          simp only [setSlots, Table.get?_modify, here', if_true, Option.map_some]
        rcases ih there with ⟨slots', h⟩
        refine ⟨slots', h.trans ?_⟩
        simp only [installed, opened, Function.update_idem]

theorem openLanes_add {ep : Endpoint} (h : u.roster = s.roster.add ep)
    (entries : List AddressEntry) (lanes : List Category) :
    ∃ slots, (u.openLanes s.endpoints.next entries lanes).1.roster =
      s.roster.add { ep with slots } := by
  rcases openLanes_roster (get?_of_roster_add h) entries lanes with ⟨slots, laid⟩
  refine ⟨slots, laid.trans ?_⟩
  rw [h]
  exact Roster.ext (Function.update_idem _ _ _) rfl rfl rfl

/-- What one job does to the roster. -/
inductive Shift (s : Network) : Job → Roster → Prop
  | stay (j : Job) : Shift s j s.roster
  | closeEndpoint (e : EndpointId) : Shift s (.release (.endpoint e))
      { s.roster with endpoints := Function.update s.roster.endpoints e none }
  | closeWorker (w : WorkerId) : Shift s (.release (.worker w))
      { s.roster with offices := Function.update s.roster.offices w none }
  | switch (x : StubId) (st : Stub) (next : LinkId) (here : s.stubs.get? x = some st)
      (unswitched : st.next = some next) : Shift s (.switchover x) { s.roster with
        endpoints := Function.update s.roster.endpoints st.endpoint
          ((s.roster.endpoints st.endpoint).map fun ep => promoteSlots ep x st.category next) }
  | clear (e : EndpointId) (ep : Endpoint) (here : s.endpoints.get? e = some ep) :
      Shift s (.destroy e) { s.roster with
        endpoints := Function.update s.roster.endpoints e
          ((s.roster.endpoints e).map fun ep => { ep with slots := .const none })
        offices := Function.update s.roster.offices ep.worker
          ((s.roster.offices ep.worker).map (Worker.strike · ep.dest)) }
  | welcome (w : WorkerId) (m : Message) (wk : Worker) (ep : Endpoint)
      (here : s.workers.get? w = some wk) (worker : ep.worker = w) (plan : ep.plan = wk.plan) :
      Shift s (.handle (.signals w) m) (s.roster.add ep)

theorem Shift.of_eq {j : Job} {r : Roster} (h : r = s.roster) : Shift s j r := h ▸ .stay j

theorem retire_shift (s : Network) (ref : Ref) : Shift s (.release ref) (s.retire ref).roster := by
  cases ref with
  | interface i => exact .of_eq (retireInterface_roster s i)
  | link l => exact .of_eq (retireLink_roster s l)
  | stub x => exact .of_eq (retireStub_roster s x)
  | callback c => exact .stay _
  | endpoint e =>
    simp only [retire, retireEndpoint]
    split
    · exact .stay _
    · exact roster_eraseEndpoint s e ▸ .closeEndpoint e
  | worker w =>
    simp only [retire, retireWorker]
    split
    · exact .stay _
    · have erased : roster { s with workers := s.workers.erase w } =
          { s.roster with offices := Function.update s.roster.offices w none } := by
        refine Roster.ext rfl rfl (funext fun v => ?_) (Table.next_erase _ _)
        simp only [roster, Table.get?_erase, Function.update_apply, eq_comm (a := v)]
        split <;> rfl
      exact erased ▸ .closeWorker w

theorem release_shift (s : Network) (ref : Ref) :
    Shift s (.release ref) (s.release ref).roster := by
  unfold release
  split
  · exact .stay _
  · exact retire_shift s ref

theorem switchover_shift (s : Network) (x : StubId) :
    Shift s (.switchover x) (s.switchover x).roster := by
  have caught : (s.caughtUp x).roster = s.roster := by
    unfold caughtUp
    split
    · rfl
    · exact applyPosted_roster s _
  rw [switchover_eq]
  split
  · exact .of_eq caught
  · rename_i w alive
    split
    · exact .of_eq caught
    · rename_i st here
      split
      · rename_i next unswitched
        split
        · rcases (caughtUp_marked s x).stubs x with ⟨b, same⟩
          rw [here] at same
          rcases Option.map_eq_some_iff.1 same.symm with ⟨st', here', rfl⟩
          have switched := Shift.switch (s := s) x st' next here' unswitched
          rw [← caught, ← roster_modifyEndpoint] at switched
          convert switched using 1
          unfold switch
          simp only [foldl_unregister]
          rfl
        · exact .of_eq caught
      · exact .of_eq caught

theorem destroy_shift (s : Network) (e : EndpointId) :
    Shift s (.destroy e) (s.destroy e).roster := by
  unfold destroy
  split
  · exact .stay _
  · rename_i ep here
    have cleared := Shift.clear e ep here
    have struck := roster_strike (s.setSlots e (.const none)) ep.worker ep.dest
    rw [setSlots, roster_modifyEndpoint] at struck
    convert cleared using 1
    refine Eq.trans ?_ struck
    have worker : (s.setSlots e (.const none)).workerOf? e =
        if s.workers.contains ep.worker then some ep.worker else none := by
      rw [setSlots_workerOf?, workerOf?, here]
    simp only [worker]
    by_cases lives : s.workers.contains ep.worker = true
    · simp only [if_pos lives]
      rfl
    · have gone : s.workers.get? ep.worker = none := by
        simpa [Table.contains] using lives
      simp only [if_neg lives, Table.modify_of_none gone]
      rfl

theorem welcome_shift {w : WorkerId} {wk : Worker} (here : s.workers.get? w = some wk) (m : Signal)
    (address : WorkerAddress) (message : Message) :
    Shift s (.handle (.signals w) message) (s.welcome w m address).roster := by
  unfold welcome
  rcases openEndpoint_roster here m.source address.name with ⟨ep, worker, plan, -, id, opened⟩
  generalize s.openEndpoint w m.source address.name = made at id opened ⊢
  rcases made with ⟨u, e⟩
  subst id
  simp only
  generalize hv : u.push [.release (.endpoint s.endpoints.next), .release (.worker w)] = v
  have opened : v.roster = s.roster.add ep := hv ▸ opened
  generalize ((v.workers.get? w).map fun w => w.plan.lanes).getD [] = lanes
  rcases openLanes_add opened address.entries lanes with ⟨slots, laid⟩
  have welcomed : Shift s (.handle (.signals w) message)
      (v.openLanes s.endpoints.next address.entries lanes).1.roster :=
    laid ▸ .welcome w message wk { ep with slots } here worker plan
  split
  · rename_i x why hx
    rw [hx] at welcomed
    exact welcomed
  · rename_i x hx
    rw [hx] at welcomed
    rw [replyTo_roster]
    exact welcomed

theorem receive_shift {w : WorkerId} {wk : Worker} (here : s.workers.get? w = some wk) (m : Signal)
    (message : Message) :
    Shift s (.handle (.signals w) message) (s.receive w m).roster := by
  unfold receive
  split
  · split
    · exact welcome_shift here m _ message
    · exact .stay _
  · rename_i e _
    refine .of_eq ?_
    simp only
    split
    · exact replyTo_roster (s.push _) e _
    · have connected := connectLanes_roster
        (s.push [.release (.endpoint e), .release (.worker w)]) e m.lanes
      split
      · rename_i u why hu
        rw [hu] at connected
        exact connected
      · rename_i u hu
        rw [hu] at connected
        exact (answer_roster _ e .ack).trans ((markLanes_roster u e).trans connected)
    · exact markLanes_roster (s.push _) e

theorem handle_shift (s : Network) (h : Handler) (m : Message) :
    Shift s (.handle h m) (s.handle m h).roster := by
  cases h with
  | record log carrier decode =>
    refine .of_eq ?_
    unfold handle
    simp only
    split
    · exact forward_roster (s.note _) log _ m
    · rfl
  | signals w =>
    unfold handle handleSignal
    simp only
    split
    · rename_i wk m' here _
      split
      · exact receive_shift here m' m
      · exact .stay _
    · exact .stay _

theorem perform_shift (s : Network) (j : Job) : Shift s j (s.perform j).roster := by
  cases j with
  | release ref => exact release_shift s ref
  | discard r => exact .of_eq (discard_roster s r)
  | attempt r w => exact .of_eq (attempt_roster s r w)
  | conclude r o w => exact .of_eq (conclude_roster s r o w)
  | add c r => exact .of_eq (offerOrAttempt_roster s c r)
  | replayed w => exact .of_eq (roster_modifyWorker s w fun _ => rfl)
  | switchover x => exact switchover_shift s x
  | run x => exact .of_eq (run_roster s x)
  | runRegistry r => exact .stay _
  | deliver i left => exact .of_eq (deliver_roster s i left)
  | giveBack l => exact .stay _
  | dispatchLinks i => exact .stay _
  | dispatch l => exact .of_eq (dispatch_roster s l)
  | progressInterface i => exact .of_eq (progressInterface_roster s i)
  | progressWorker w => exact .of_eq (progressWorker_roster s w)
  | handle h m => exact handle_shift s h m
  | noteForward log o => exact .stay _
  | recount n => exact .stay _
  | destroy e => exact destroy_shift s e
  | purge c => exact .of_eq (purge_roster s c)
  | flush l w rounds => exact .of_eq (flush_roster s l w rounds)
  | confirm e h => exact .of_eq (confirm_roster s e h)

/-! ## Operations -/

theorem keep_roster (s : Network) (ref : Ref) : (s.keep ref).roster = s.roster := by
  unfold keep
  split <;> rfl

theorem setWorkerHandler_roster (s : Network) (w : WorkerId) (messageId : UInt8) (h : Handler) :
    (s.setWorkerHandler w messageId h).roster = s.roster := by
  have one (u : Network) (r : Resource) :
      (u.setHandler r.interface messageId h).roster = u.roster := rfl
  unfold setWorkerHandler
  split
  · rfl
  · exact roster_foldl one _ s

theorem keepLink_roster {opened : Network × Except Refusal LinkId}
    (h : opened.1.roster = s.roster) : (keepLink opened).1.roster = s.roster := by
  rcases opened with ⟨u, l | l⟩
  · exact h
  · exact (keep_roster u _).trans h

theorem createLink_roster (s : Network) (i : InterfaceId) :
    (s.createLink i).1.roster = s.roster := by
  refine keepLink_roster ?_
  rcases s.openLink_cases i with ⟨why, h⟩ | ⟨u, l, opened, h⟩
  · rw [h]
  · rw [h]
    exact opened.roster

theorem createConnectedLink_roster (s : Network) (i : InterfaceId) (device address : Bytes) :
    (s.createConnectedLink i device address).1.roster = s.roster := by
  refine keepLink_roster ?_
  rcases s.openConnectedLink_cases i device address with ⟨why, h⟩ | ⟨u, l, opened, h⟩
  · rw [h]
  · rw [h]
    exact opened.roster

theorem createAuxiliary_roster (s : Network) (w : WorkerId) (peer : String)
    (entries : List AddressEntry) (scorer : Scorer) :
    (s.createAuxiliary w peer entries scorer).1.roster = s.roster := by
  unfold createAuxiliary
  split
  · rfl
  · rename_i wk _
    have h := openAuxiliary_roster s wk peer entries scorer
    split
    · rename_i u r l hu
      rw [hu] at h
      exact (keep_roster u _).trans h
    · rename_i u why hu
      rw [hu] at h
      exact h

theorem takeRequest_roster (s : Network) (source : Source) :
    (s.takeRequest source).1.roster = s.roster := by
  cases source <;> rfl

theorem operate_roster (s : Network) (c : Carrier) (op : Operation) :
    (Call.start s (.operate c op)).roster = s.roster := by
  have sent (messageId : UInt8) (payload : Bytes) := sendOver_roster s c messageId payload none
  cases c with
  | link l =>
    cases op with
    | short messageId header payload => exact (Aside.sendShort s l messageId header payload).roster
    | bulk messageId payload => exact sent messageId payload
    | other name => rfl
  | stub x =>
    cases op with
    | short messageId header payload => rfl
    | other name => rfl
    | bulk messageId payload =>
      simp only [Call.start]
      split
      · rfl
      · rename_i signal
        rw [operate_signal s x (not_not.1 signal) payload]
        exact sent messageId payload

theorem offerOnce_roster (s : Network) (c : Carrier) (source : Source) (kept : Bool) :
    (s.offerOnce c source kept).1.roster = s.roster := by
  have taken := takeRequest_roster s source
  unfold offerOnce
  generalize s.takeRequest source = out at taken ⊢
  rcases out with ⟨t, r | r⟩
  · exact taken
  · have offered := offer_roster t c r
    simp only
    generalize t.offer c r = out at offered ⊢
    rcases out with ⟨u, back | back⟩
    · exact offered.trans taken
    · cases kept
      · exact (discard_roster u back).trans (offered.trans taken)
      · exact offered.trans taken

theorem hold_roster (s : Network) (source : Source) : (s.hold source).1.roster = s.roster := by
  have taken := takeRequest_roster s source
  unfold hold
  generalize s.takeRequest source = out at taken ⊢
  rcases out with ⟨t, r | r⟩ <;> exact taken

theorem keepRequests_roster (s : Network) (rs : List Request) :
    (s.keepRequests rs).1.roster = s.roster := by
  induction rs generalizing s with
  | nil => rfl
  | cons r rs ih => exact ih (s.keepRequest r).1

theorem purgeQueue_roster (s : Network) (l : LinkId) (kept : Bool) :
    (s.purgeQueue (.link l) kept).1.roster = s.roster := by
  have drained := drain_roster s l
  unfold purgeQueue
  simp only
  cases kept
  · exact (roster_foldl cancel_roster _ _).trans drained
  · exact (keepRequests_roster _ _).trans drained

/-- What an operation does to the roster at once. -/
inductive Enrols (s : Network) : Call → Roster → Prop
  | stay (c : Call) : Enrols s c s.roster
  | openWorker (settings : WorkerSettings) (plan : Plan) (resources : List Resource) (wk : Worker)
      (own : wk.plan = plan) (kept : wk.resources = resources.take maxResources) :
      Enrols s (.openWorker settings plan resources) { s.roster with
        offices := Function.update s.roster.offices s.roster.hired (some wk.office)
        hired := s.roster.hired + 1 }
  | createEndpoint (w : WorkerId) (address : WorkerAddress) (wk : Worker) (ep : Endpoint)
      (here : s.workers.get? w = some wk) (worker : ep.worker = w) (plan : ep.plan = wk.plan) :
      Enrols s (.createEndpoint w address) (s.roster.add ep)

theorem Enrols.of_eq {c : Call} {r : Roster} (h : r = s.roster) : Enrols s c r := h ▸ .stay c

theorem openWorker_enrols (s : Network) (settings : WorkerSettings) (plan : Plan)
    (resources : List Resource) : Enrols s (.openWorker settings plan resources)
      (s.openWorker settings plan resources).1.roster := by
  unfold openWorker
  simp only [keep_roster, setWorkerHandler_roster]
  generalize settings.uuid.getD (generatedUuid s.process s.generated) = uuid
  have opened (wk : Worker) : roster { s with workers := s.workers.push wk } = { s.roster with
      offices := Function.update s.roster.offices s.roster.hired (some wk.office)
      hired := s.roster.hired + 1 } := by
    refine Roster.ext rfl rfl (funext fun v => ?_) (Table.next_push _ _)
    simp only [roster, Table.get?_push, Function.update_apply]
    split <;> rfl
  let wk : Worker :=
    { uuid, settings, plan, resources := resources.take maxResources,
      registry := s.registries.next }
  exact (opened wk).symm ▸ Enrols.openWorker settings plan resources wk rfl rfl

theorem createEndpoint_enrols (s : Network) (w : WorkerId) (address : WorkerAddress) :
    Enrols s (.createEndpoint w address) (Call.start s (.createEndpoint w address)).roster := by
  simp only [Call.start]
  split
  · exact .of_eq (keep_roster s _)
  · cases here : s.workers.get? w with
    | none =>
      simp only [openEndpoint, here, Option.map_none, Option.getD_none, openLanes]
      have asked := newSignal_roster s s.endpoints.next .request
      split
      · rename_i u why hu
        rw [hu] at asked
        exact .of_eq asked
      · rename_i u handle job hu
        rw [hu] at asked
        exact .of_eq asked
    | some wk =>
      rcases openEndpoint_roster here address.uuid address.name with
        ⟨ep, worker, plan, -, id, opened⟩
      generalize s.openEndpoint w address.uuid address.name = made at id opened ⊢
      rcases made with ⟨u, e⟩
      subst id
      simp only
      generalize ((u.workers.get? w).map fun w => w.plan.lanes).getD [] = lanes
      rcases openLanes_add opened address.entries lanes with ⟨slots, laid⟩
      have enrolled : Enrols s (.createEndpoint w address)
          (u.openLanes s.endpoints.next address.entries lanes).1.roster :=
        laid ▸ .createEndpoint w address wk { ep with slots } here worker plan
      split
      · rename_i x why hx
        rw [hx] at enrolled
        exact enrolled
      · rename_i x hx
        rw [hx] at enrolled
        have asked := newSignal_roster x s.endpoints.next .request
        split
        · rename_i y why hy
          rw [hy] at asked
          exact asked.symm ▸ enrolled
        · rename_i y handle job hy
          rw [hy] at asked
          exact asked.symm ▸ enrolled

theorem start_enrols (s : Network) (c : Call) : Enrols s c (c.start s).roster := by
  cases c with
  | keep ref => exact .of_eq (keep_roster s ref)
  | drop ref => exact .of_eq (letGo_roster s ref)
  | openInterface fabric settings => exact .of_eq (keep_roster _ _)
  | createLink i => exact .of_eq (createLink_roster s i)
  | createConnectedLink i device address =>
    exact .of_eq (createConnectedLink_roster s i device address)
  | connect c device address => exact .of_eq (connect_roster s c device address)
  | operate c op => exact .of_eq (operate_roster s c op)
  | offerOnce c source kept => exact .of_eq (offerOnce_roster s c source kept)
  | hold source => exact .of_eq (hold_roster s source)
  | purgeQueue c kept =>
    cases c with
    | link l => exact .of_eq (purgeQueue_roster s l kept)
    | stub x => exact .stay _
  | attemptHeld h =>
    simp only [Call.start]
    split <;> exact .stay _
  | cancelHeld h =>
    simp only [Call.start, Call.run, cancelHeld]
    split
    · exact .stay _
    · exact .of_eq (cancel_roster { s with held := s.held.erase h } _)
  | discardHeld h =>
    simp only [Call.start, Call.run, discardHeld]
    split
    · exact .stay _
    · exact .of_eq (discard_roster { s with held := s.held.erase h } _)
  | openCallback label registry script => exact .of_eq (keep_roster _ _)
  | openWorker settings plan resources => exact openWorker_enrols s settings plan resources
  | applyPosted w => exact .of_eq (applyPosted_roster s w)
  | post w event => exact .of_eq (roster_modifyWorker s w fun _ => rfl)
  | createEndpoint w address => exact createEndpoint_enrols s w address
  | lookUp w peer =>
    simp only [Call.start, Call.run, Call.plain, lookUp]
    split
    · exact .of_eq (keep_roster s _)
    · exact .stay _
  | createAuxiliary w peer entries scorer =>
    exact .of_eq (createAuxiliary_roster s w peer entries scorer)
  | addPending c source =>
    have taken := takeRequest_roster s source
    simp only [Call.start]
    generalize s.takeRequest source = out at taken ⊢
    rcases out with ⟨t, r | r⟩ <;> exact .of_eq taken
  | remoteConnected slot =>
    cases slot with
    | none => exact .stay _
    | some c => cases c <;> exact .stay _
  | progressEndpoint e =>
    simp only [Call.start]
    split <;> exact .stay _
  | progress | dispatchRegistry | progressOf | destroyEndpoint | progressStub | close
  | sendMessage | openFabric | openRegistry | record | register | unregister => exact .stay _

end Network

/-! ## Runs -/

open Network in
/-- What every operation keeps at once, and every job, holds wherever a run comes by. -/
theorem Visited.roster_keeps {fits : Network → Call → Prop} {I : Roster → Prop} {s : Network}
    (h : Visited fits s) (initial : ∀ process, I (roster { process }))
    (start : ∀ s c r, I s.roster → fits s c → Enrols s c r → I r)
    (shift : ∀ s j r, I s.roster → Shift s j r → I r) : I s.roster := by
  have step (s : Network) (hs : I s.roster) (calm : s.step.violation = none) : I s.step.roster := by
    cases top : s.agenda with
    | nil => rwa [step_nil top]
    | cons j rest =>
      rw [step_eq top (step_violation calm)]
      exact shift { s with agenda := rest } j _ hs (perform_shift _ j)
  exact h.keeps (I := fun s => I s.roster) initial
    (fun s c _ hs fit _ => start s c _ hs fit (start_enrols s c))
    (fun s n hs calm => work_invariant step hs calm)
    fun s ref hs => (keep_roster s ref).symm ▸ hs

end Wiring
