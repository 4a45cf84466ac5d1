import Mathlib
import Wiring.Proofs.Layout
import Wiring.Proofs.Raising
import Wiring.Proofs.Starts
import Wiring.Proofs.Switchover

/-!
# The fixtures of a network

The fixtures of a network are its fabrics, the places of its interfaces, its registries, and the
callbacks that these may run. Hardly anything that work does changes them: interfaces and callbacks
that nothing holds go, and registries are changed by what is parked, by switchovers, by callbacks
and by pruning.
-/
namespace Wiring

@[ext]
structure Fixtures where
  fabrics : Table Fabric
  places : InterfaceId → Option Face
  registries : Table Registry
  callbacks : Table Callback
  labels : List (String × CallbackId)

/-- No fabric, no callback and no interface comes, nor is one put to another place. -/
structure Fixtures.Stands (f g : Fixtures) : Prop where
  fabrics : g.fabrics = f.fabrics
  places : ∀ i face, g.places i = some face → f.places i = some face
  registries : g.registries.next = f.registries.next
  given : g.callbacks.next = f.callbacks.next
  callbacks : ∀ c, g.callbacks.contains c = true → f.callbacks.contains c = true
  labels : g.labels = f.labels

namespace Fixtures.Stands

variable {f g h : Fixtures}

theorem refl (f : Fixtures) : f.Stands f :=
  ⟨rfl, fun _ _ there => there, rfl, rfl, fun _ live => live, rfl⟩

theorem of_eq (same : g = f) : f.Stands g := same ▸ refl f

theorem of_registries {registries : Table Registry} (same : g = { f with registries })
    (next : registries.next = f.registries.next) : f.Stands g :=
  same ▸ ⟨rfl, fun _ _ there => there, next, rfl, fun _ live => live, rfl⟩

end Fixtures.Stands

/-- Work that may change the fixtures. -/
def Job.isFitting : Job → Bool
  | .release (.interface _) | .release (.callback _) => true
  | .add _ _ | .switchover _ | .run (.callback _) | .runRegistry _ => true
  | _ => false

/-- Operations that may change the fixtures at once. -/
def Call.isFitting : Call → Bool
  | .openFabric | .openInterface _ _ | .openRegistry | .openWorker _ _ _ => true
  | .openCallback _ _ _ | .register _ _ | .unregister _ _ | .offerOnce _ _ _ => true
  | _ => false

namespace Network

variable {s t u : Network}

def fixtures (s : Network) : Fixtures where
  fabrics := s.fabrics
  places i := (s.interfaces.get? i).map Interface.face
  registries := s.registries
  callbacks := s.callbacks
  labels := s.labels

theorem fixtures_foldl {α : Type} {f : Network → α → Network}
    (h : ∀ s a, (f s a).fixtures = s.fixtures) (as : List α) (s : Network) :
    (as.foldl f s).fixtures = s.fixtures := by
  induction as generalizing s with
  | nil => rfl
  | cons a as ih => exact (ih _).trans (h s a)

/-- An interface changes, but not where it is. -/
theorem fixtures_setInterface {i : InterfaceId} {f f' : Interface}
    (here : s.interfaces.get? i = some f) (interfaces : t.interfaces = s.interfaces.set i f')
    (face : f'.face = f.face)
    (others : { t.fixtures with places := s.fixtures.places } = s.fixtures) :
    t.fixtures = s.fixtures := by
  have places : t.fixtures.places = s.fixtures.places := by
    funext k
    simp only [fixtures, interfaces]
    exact Table.map_get?_set here face k
  exact (congrArg (fun p => { t.fixtures with places := p }) places).trans others

/-- What only comes to a network does not move what was there. -/
theorem Spares.fixtures (h : Spares s t) : t.fixtures = s.fixtures := by
  have ground {α : Type} (f : Network → α) : f t.ground = f s.ground := congrArg f h.frame
  refine Fixtures.ext (ground Network.fabrics) (funext fun i => ?_) (ground Network.registries)
    h.callbacks (ground Network.labels)
  have same := congrArg (Option.map Interface.face) (h.interfaces i)
  simp only [Option.map_map] at same
  exact same

/-! ## Requests -/

theorem cancel_fixtures (s : Network) (r : Request) : (s.cancel r).fixtures = s.fixtures := by
  rcases s.cancel_eq r with ⟨marks, -, h⟩
  rw [h]
  rfl

theorem discard_fixtures (s : Network) (r : Request) : (s.discard r).fixtures = s.fixtures := by
  rcases s.discard_eq r with ⟨marks, -, h⟩
  rw [h]
  rfl

theorem recordAttempt_fixtures (s : Network) (r : Request) (o : Outcome) :
    (s.recordAttempt r o).fixtures = s.fixtures := by
  by_cases ho : o.isNoResource = true
  · rcases s.recordAttempt_noResource r ho with ⟨marks, -, h⟩
    rw [h]
    rfl
  · rcases s.recordAttempt_eq r (Bool.eq_false_iff.2 ho) with ⟨marks, -, h⟩
    rw [h]
    rfl

/-! ## Sending, connecting and marking -/

theorem transmit_fixtures (s : Network) (l : LinkId) (messageId : UInt8) (payload : Bytes)
    (source : Option HandleId) :
    (s.transmit l messageId payload source).1.fixtures = s.fixtures := by
  unfold transmit
  split
  · rfl
  · split
    · rfl
    · split
      · rfl
      · rfl
      · rename_i dest _ i credits there _
        exact fixtures_setInterface there rfl rfl rfl

theorem sendWithin_fixtures (s : Network) (l : LinkId) (check : Outcome) (limit : Nat)
    (messageId : UInt8) (payload : Bytes) (source : Option HandleId) :
    (s.sendWithin l check limit messageId payload source).1.fixtures = s.fixtures := by
  unfold sendWithin
  split
  · rfl
  · split
    · rfl
    · exact transmit_fixtures s l messageId payload source

theorem sendBulk_fixtures (s : Network) (l : LinkId) (messageId : UInt8) (payload : Bytes)
    (source : Option HandleId) :
    (s.sendBulk l messageId payload source).1.fixtures = s.fixtures := by
  unfold sendBulk
  split
  · rfl
  · exact sendWithin_fixtures s l _ _ messageId payload source

theorem sendShort_fixtures (s : Network) (l : LinkId) (messageId : UInt8) (header : UInt64)
    (payload : Bytes) : (s.sendShort l messageId header payload).1.fixtures = s.fixtures := by
  unfold sendShort
  split
  · rfl
  · exact sendWithin_fixtures s l _ _ messageId _ none

theorem sendOver_fixtures (s : Network) (c : Carrier) (messageId : UInt8) (payload : Bytes)
    (source : Option HandleId) :
    (s.sendOver c messageId payload source).1.fixtures = s.fixtures := by
  unfold sendOver
  split
  · exact sendBulk_fixtures s _ messageId payload source
  · split
    · rfl
    · split
      · rfl
      · exact sendBulk_fixtures s _ messageId payload source

theorem connectLink_fixtures (s : Network) (l : LinkId) (device address : Bytes) :
    (s.connectLink l device address).1.fixtures = s.fixtures := by
  unfold connectLink
  split <;> rfl

theorem connect_fixtures (s : Network) (c : Carrier) (device address : Bytes) :
    (s.connect c device address).1.fixtures = s.fixtures := by
  unfold connect
  split
  · exact connectLink_fixtures s _ device address
  · split
    · rfl
    · rename_i next _
      have h := connectLink_fixtures s next device address
      split
      · rename_i u hu
        rw [hu] at h
        exact h
      · rename_i u why hu
        rw [hu] at h
        exact h

theorem connectLanes_fixtures (s : Network) (e : EndpointId) (lanes : List LaneAddress) :
    (s.connectLanes e lanes).1.fixtures = s.fixtures := by
  induction lanes generalizing s with
  | nil => rfl
  | cons lane lanes ih =>
    unfold connectLanes
    split
    · rename_i x _
      have h := connect_fixtures s (.stub x) lane.deviceAddress lane.linkAddress
      split
      · rename_i u hu
        rw [hu] at h
        exact (ih u).trans h
      · rename_i u why hu
        rw [hu] at h
        exact h
    · exact ih s

theorem Marked.fixtures (h : Marked s t) : t.fixtures = s.fixtures := by
  rw [h.frame]
  rfl

theorem markSlot_fixtures (s : Network) (c : Slot) : (s.markSlot c).fixtures = s.fixtures :=
  (markSlot_marked s c).fixtures

theorem markLanes_fixtures (s : Network) (e : EndpointId) :
    (s.markLanes e).fixtures = s.fixtures := by
  unfold markLanes
  split
  · rfl
  · exact fixtures_foldl (fun s _ => markSlot_fixtures s _) _ s

theorem applyPosted_fixtures (s : Network) (w : WorkerId) :
    (s.applyPosted w).1.fixtures = s.fixtures :=
  (applyPosted_marked s w).fixtures

/-! ## Opening -/

theorem openEndpoint_fixtures (s : Network) (w : WorkerId) (dest : UInt64) (peer : String) :
    (s.openEndpoint w dest peer).1.fixtures = s.fixtures := by
  unfold openEndpoint
  simp only
  split <;> rfl

theorem openLanes_fixtures (s : Network) (e : EndpointId) (entries : List AddressEntry)
    (lanes : List Category) : (s.openLanes e entries lanes).1.fixtures = s.fixtures := by
  induction lanes generalizing s with
  | nil => rfl
  | cons lane lanes ih =>
    unfold openLanes
    split
    · rfl
    · split
      · rfl
      · rename_i ep _ _ w _
        rcases openLane_adds s e ep w lane entries with ⟨u, why, added, h⟩ | ⟨u, c, added, h⟩
        · simp only [h]
          exact added.fixtures
        · rcases added with ⟨-, new, added, -⟩
          simp only [h]
          exact (ih _).trans added.fixtures

/-! ## Sending signals -/

theorem newSignal_fixtures (s : Network) (e : EndpointId) (kind : Signal.Kind) :
    (s.newSignal e kind).1.fixtures = s.fixtures := by
  unfold newSignal
  split <;> rfl

theorem answer_fixtures (s : Network) (e : EndpointId) (kind : Signal.Kind) :
    (s.answer e kind).fixtures = s.fixtures := by
  have h := newSignal_fixtures s e kind
  unfold answer
  split
  · rename_i u why hu
    rw [hu] at h
    exact h
  · rename_i u handle job hu
    rw [hu] at h
    exact h

theorem replyTo_fixtures (s : Network) (e : EndpointId) (lanes : List LaneAddress) :
    (s.replyTo e lanes).fixtures = s.fixtures := by
  have h := connectLanes_fixtures s e lanes
  unfold replyTo
  split
  · rename_i u why hu
    rw [hu] at h
    exact h
  · rename_i u hu
    rw [hu] at h
    exact (answer_fixtures u e .reply).trans h

theorem welcome_fixtures (s : Network) (w : WorkerId) (m : Signal) (address : WorkerAddress) :
    (s.welcome w m address).fixtures = s.fixtures := by
  have opened := openEndpoint_fixtures s w m.source address.name
  unfold welcome
  generalize s.openEndpoint w m.source address.name = made at opened ⊢
  rcases made with ⟨u, e⟩
  simp only
  generalize hv : u.push [.release (.endpoint e), .release (.worker w)] = v
  have opened : v.fixtures = s.fixtures := hv ▸ opened
  generalize ((v.workers.get? w).map fun w => w.plan.lanes).getD [] = lanes
  have laid := openLanes_fixtures v e address.entries lanes
  split
  · rename_i x why hx
    rw [hx] at laid
    exact laid.trans opened
  · rename_i x hx
    rw [hx] at laid
    exact (replyTo_fixtures x e m.lanes).trans (laid.trans opened)

theorem receive_fixtures (s : Network) (w : WorkerId) (m : Signal) :
    (s.receive w m).fixtures = s.fixtures := by
  unfold receive
  split
  · split
    · exact welcome_fixtures s w m _
    · rfl
  · rename_i e _
    simp only
    split
    · exact replyTo_fixtures (s.push _) e m.lanes
    · have connected := connectLanes_fixtures
        (s.push [.release (.endpoint e), .release (.worker w)]) e m.lanes
      split
      · rename_i u why hu
        rw [hu] at connected
        exact connected
      · rename_i u hu
        rw [hu] at connected
        exact (answer_fixtures _ e .ack).trans ((markLanes_fixtures u e).trans connected)
    · exact markLanes_fixtures (s.push _) e

/-! ## Attempts and offers -/

theorem attemptOver_fixtures (s : Network) (r : Request) (w : Waiter) (c : Carrier)
    (messageId : UInt8) (payload : Bytes) (source : Option HandleId) (holding : List Ref) :
    (s.attemptOver r w c messageId payload source holding).fixtures = s.fixtures := by
  have h := sendOver_fixtures s c messageId payload source
  unfold attemptOver
  split
  · rename_i u o hu
    rw [hu] at h
    exact h
  · rename_i u hu
    rw [hu] at h
    exact h

theorem attempt_fixtures (s : Network) (r : Request) (w : Waiter) :
    (s.attempt r w).fixtures = s.fixtures := by
  unfold attempt
  rcases r.inner?_cases with ⟨c, h⟩ | ⟨m, h⟩ | h
  · simp only [h]
    split
    · rfl
    · rfl
    · split
      · exact attemptOver_fixtures s _ w _ _ _ none _
      · rfl
  · simp only [h]
    split
    · rfl
    · split
      · rfl
      · exact attemptOver_fixtures s r w _ _ _ _ _
  · simp only [h]
    rfl

theorem giveUp_fixtures (s : Network) (r : Request) (w : Waiter) :
    (s.giveUp r w).fixtures = s.fixtures := by
  unfold giveUp
  split
  · rfl
  · rfl
  · split
    · rfl
    · exact cancel_fixtures s r
  · rfl

theorem finish_fixtures (s : Network) (r : Request) (o : Outcome) (w : Waiter) :
    (s.finish r o w).fixtures = s.fixtures := by
  unfold finish
  split
  · exact discard_fixtures { s with tally := s.tally + 1 } r
  · exact discard_fixtures s r
  · exact discard_fixtures s r
  · rfl

theorem conclude_fixtures (s : Network) (r : Request) (o : Outcome) (w : Waiter) :
    (s.conclude r o w).fixtures = s.fixtures := by
  unfold conclude
  refine Eq.trans ?_ (recordAttempt_fixtures s r o)
  simp only
  split
  · exact giveUp_fixtures _ _ w
  · exact finish_fixtures _ _ o w

theorem enqueue_fixtures (s : Network) (l : LinkId) (r : Request) :
    (s.enqueue l r).1.fixtures = s.fixtures := by
  unfold enqueue
  split
  · rfl
  · split <;> rfl

theorem dispatch_fixtures (s : Network) (l : LinkId) : (s.dispatch l).fixtures = s.fixtures := by
  unfold dispatch dequeue
  cases s.links.get? l with
  | none => rfl
  | some lk =>
    simp only
    split <;> rename_i h <;> split at h <;> cases h <;> rfl

/-! ## Delivery and progress -/

theorem forward_fixtures (s : Network) (log : String) (c : Carrier) (m : Message) :
    (s.forward log c m).fixtures = s.fixtures := by
  have h := sendOver_fixtures s c m.id m.payload none
  unfold forward
  split
  · split
    · rename_i u o hu
      rw [hu] at h
      exact h
    · rename_i u hu
      rw [hu] at h
      split <;> exact h
  · rfl

theorem handle_fixtures (s : Network) (m : Message) (h : Handler) :
    (s.handle m h).fixtures = s.fixtures := by
  cases h with
  | record log carrier decode =>
    unfold handle
    simp only
    split
    · exact forward_fixtures (s.note _) log _ m
    · rfl
  | signals w =>
    unfold handle handleSignal
    simp only
    split
    · split
      · exact receive_fixtures s w _
      · rfl
    · rfl

theorem deliver_fixtures (s : Network) (i : InterfaceId) (left : Nat) :
    (s.deliver i left).fixtures = s.fixtures := by
  unfold deliver
  split
  · rename_i f here
    split
    · rfl
    · exact fixtures_setInterface here rfl rfl rfl
  · rfl

theorem progressInterface_fixtures (s : Network) (i : InterfaceId) :
    (s.progressInterface i).fixtures = s.fixtures := by
  unfold progressInterface
  split <;> rfl

theorem progressWorker_fixtures (s : Network) (w : WorkerId) :
    (s.progressWorker w).fixtures = s.fixtures := by
  unfold progressWorker
  split
  · rfl
  · exact applyPosted_fixtures s w

theorem violate_fixtures (s : Network) (v : Violation) :
    (s.violate v).fixtures = s.fixtures := by
  unfold violate
  split <;> rfl

theorem drain_fixtures (s : Network) (l : LinkId) : (s.drain l).1.fixtures = s.fixtures := by
  unfold drain
  split <;> rfl

theorem purge_fixtures (s : Network) (c : Carrier) : (s.purge c).fixtures = s.fixtures := by
  unfold purge
  split
  · exact (fixtures_foldl cancel_fixtures _ _).trans (drain_fixtures s _)
  · split
    · split
      · rfl
      · exact violate_fixtures s _
    · rfl

theorem flush_fixtures (s : Network) (l : LinkId) (w : Option WorkerId) (rounds : Nat) :
    (s.flush l w rounds).fixtures = s.fixtures := by
  unfold flush
  split
  · rfl
  · split <;> rfl

theorem confirm_fixtures (s : Network) (e : EndpointId) (h : HandleId) :
    (s.confirm e h).fixtures = s.fixtures := by
  unfold confirm
  split <;> rfl

theorem destroy_fixtures (s : Network) (e : EndpointId) :
    (s.destroy e).fixtures = s.fixtures := by
  unfold destroy
  split
  · rfl
  · simp only
    split <;> rfl

/-! ## Retiring -/

theorem retireLink_fixtures (s : Network) (l : LinkId) :
    (s.retireLink l).fixtures = s.fixtures := by
  unfold retireLink
  split
  · rfl
  · exact fixtures_foldl cancel_fixtures _ _

theorem retireStub_fixtures (s : Network) (x : StubId) :
    (s.retireStub x).fixtures = s.fixtures := by
  unfold retireStub
  split
  · rfl
  · simp only
    split
    · rfl
    · exact violate_fixtures { s with stubs := s.stubs.erase x } _

/-- An interface that goes leaves its place; nothing else is moved. -/
theorem retireInterface_fixtures (s : Network) (i : InterfaceId) :
    (s.retireInterface i).fixtures =
      { s.fixtures with places := Function.update s.fixtures.places i none } := by
  have lost (u : Network) (m : Message) : (u.note (.lost i m)).fixtures = u.fixtures := rfl
  have erased : fixtures { s with interfaces := s.interfaces.erase i } =
      { s.fixtures with places := Function.update s.fixtures.places i none } := by
    refine Fixtures.ext rfl (funext fun k => ?_) rfl rfl rfl
    simp only [fixtures, Table.get?_erase, Function.update_apply, eq_comm (a := k)]
    split <;> rfl
  unfold retireInterface
  cases here : s.interfaces.get? i with
  | none =>
    have gone : Function.update s.fixtures.places i none = s.fixtures.places := by
      refine (Function.update_eq_self_iff).2 ?_
      simp [fixtures, here]
    rw [gone]
  | some f => exact (fixtures_foldl lost _ _).trans erased

theorem retire_fixtures (s : Network) (ref : Ref)
    (fixed : (Job.release ref).isFitting = false) : (s.retire ref).fixtures = s.fixtures := by
  cases ref with
  | link l => exact retireLink_fixtures s l
  | stub x => exact retireStub_fixtures s x
  | endpoint e =>
    unfold retire retireEndpoint
    simp only
    split <;> rfl
  | worker w =>
    unfold retire retireWorker
    simp only
    split <;> rfl
  | interface | callback => cases fixed

/-- All other work leaves the fixtures alone. -/
theorem perform_fixtures (s : Network) {j : Job} (fixed : j.isFitting = false) :
    (s.perform j).fixtures = s.fixtures := by
  cases j with
  | release ref =>
    simp only [perform, release]
    split
    · rfl
    · exact retire_fixtures s ref fixed
  | discard r => exact discard_fixtures s r
  | attempt r w => exact attempt_fixtures s r w
  | conclude r o w => exact conclude_fixtures s r o w
  | run x =>
    cases x with
    | stub x => rfl
    | callback c => cases fixed
  | deliver i left => exact deliver_fixtures s i left
  | dispatch l => exact dispatch_fixtures s l
  | progressInterface i => exact progressInterface_fixtures s i
  | progressWorker w => exact progressWorker_fixtures s w
  | handle h m => exact handle_fixtures s m h
  | destroy e => exact destroy_fixtures s e
  | purge c => exact purge_fixtures s c
  | flush l w rounds => exact flush_fixtures s l w rounds
  | confirm e h => exact confirm_fixtures s e h
  | replayed | giveBack | dispatchLinks | noteForward | recount => rfl
  | add | switchover | runRegistry => cases fixed

/-! ## Work that changes them -/

theorem fixtures_registries (same : t.fixtures = s.fixtures) :
    t.fixtures = { s.fixtures with registries := t.registries } := by
  have registries : t.registries = s.registries := congrArg Fixtures.registries same
  rw [same, registries]
  rfl

theorem park_fixtures (s : Network) (x : StubId) (st : Stub) (w : WorkerId) (r : Request) :
    (s.park x st w r).fixtures =
      { s.fixtures with registries := (s.park x st w r).registries } := by
  unfold park
  simp only
  split <;> rfl

theorem offer_fixtures (s : Network) (c : Carrier) (r : Request) :
    (s.offer c r).1.fixtures = { s.fixtures with registries := (s.offer c r).1.registries } := by
  unfold offer
  split
  · exact fixtures_registries (enqueue_fixtures s _ r)
  · split
    · rfl
    · rename_i st _
      split
      · split
        · rfl
        · exact fixtures_registries (enqueue_fixtures (s.enterGate st.gate) _ _)
      · split
        · rfl
        · exact park_fixtures s _ st _ r
        · exact fixtures_registries (enqueue_fixtures s _ r)
        · rfl

theorem switch_fixtures (s : Network) (x : StubId) (st : Stub) (w : WorkerId) (next : LinkId) :
    (s.switch x st w next).fixtures =
      { s.fixtures with registries := (s.switch x st w next).registries } := by
  simp only [switch, foldl_unregister]
  rfl

theorem caughtUp_fixtures (s : Network) (x : StubId) : (s.caughtUp x).fixtures = s.fixtures := by
  unfold caughtUp
  split
  · rfl
  · exact applyPosted_fixtures s _

theorem switchover_fixtures (s : Network) (x : StubId) : (s.switchover x).fixtures =
    { s.fixtures with registries := (s.switchover x).registries } := by
  have caught := fixtures_registries (caughtUp_fixtures s x)
  rw [switchover_eq]
  split
  · exact caught
  · split
    · exact caught
    · split
      · split
        · rw [switch_fixtures, caughtUp_fixtures]
        · exact caught
      · exact caught

theorem letGo_fixtures (s : Network) (ref : Ref) : (s.letGo ref).fixtures = s.fixtures := by
  unfold letGo
  simp only
  split <;> rfl

theorem act_fixtures (s : Network) (id : RegistryId) (a : Action) :
    (s.act id a).fixtures = { s.fixtures with registries := (s.act id a).registries } := by
  unfold act
  split
  · split <;> rfl
  · split <;> rfl
  · split
    · exact fixtures_registries (letGo_fixtures s _)
    · rfl

theorem foldl_act_fixtures (id : RegistryId) (as : List Action) (s : Network) :
    (as.foldl (fun s a => s.act id a) s).fixtures =
      { s.fixtures with registries := (as.foldl (fun s a => s.act id a) s).registries } := by
  induction as generalizing s with
  | nil => rfl
  | cons a as ih => rw [List.foldl_cons, ih, act_fixtures]

theorem act_registries_next (s : Network) (id : RegistryId) (a : Action) :
    (s.act id a).registries.next = s.registries.next := by
  unfold act
  split
  · split
    · exact Table.next_set _ _ _
    · rfl
  · split
    · exact Table.next_set _ _ _
    · rfl
  · split
    · exact congrArg (fun f => f.registries.next) (letGo_fixtures s _)
    · rfl

theorem foldl_act_registries_next (id : RegistryId) (as : List Action) (s : Network) :
    (as.foldl (fun s a => s.act id a) s).registries.next = s.registries.next := by
  induction as generalizing s with
  | nil => rfl
  | cons a as ih => exact (ih _).trans (act_registries_next s id a)

theorem offer_stands (s : Network) (c : Carrier) (r : Request) :
    s.fixtures.Stands (s.offer c r).1.fixtures := by
  refine .of_registries (offer_fixtures s c r) ?_
  have queued (u : Network) (l : LinkId) (r : Request) :
      (u.enqueue l r).1.registries.next = u.registries.next :=
    congrArg (fun f => f.registries.next) (enqueue_fixtures u l r)
  unfold offer
  split
  · exact queued s _ r
  · split
    · rfl
    · split
      · split
        · rfl
        · exact queued (s.enterGate _) _ _
      · split
        · rfl
        · unfold park
          simp only
          split
          · exact Table.next_set _ _ _
          · rfl
        · exact queued s _ r
        · rfl

theorem switchover_stands (s : Network) (x : StubId) :
    s.fixtures.Stands (s.switchover x).fixtures := by
  refine .of_registries (switchover_fixtures s x) ?_
  have caught : (s.caughtUp x).registries = s.registries :=
    congrArg Fixtures.registries (caughtUp_fixtures s x)
  rw [switchover_eq]
  split
  · rw [caught]
    rfl
  · split
    · rw [caught]
      rfl
    · split
      · split
        · simp only [switch, foldl_unregister, push, note, withdraw_next, caught]
          rfl
        · rw [caught]
          rfl
      · rw [caught]
        rfl

theorem runCallback_stands (s : Network) (c : CallbackId) :
    s.fixtures.Stands (s.runCallback c).fixtures := by
  unfold runCallback
  cases here : s.callbacks.get? c with
  | none => exact .refl _
  | some cb =>
    simp only
    rw [foldl_act_fixtures]
    refine ⟨rfl, fun _ _ there => there, ?_, Table.next_set _ _ _, fun d live => ?_, rfl⟩
    · exact (foldl_act_registries_next _ _ _)
    · exact (Table.contains_set here _ d).symm.trans live

theorem retire_stands (s : Network) (ref : Ref) : s.fixtures.Stands (s.retire ref).fixtures := by
  cases ref with
  | interface i =>
    rw [retire, retireInterface_fixtures]
    refine ⟨rfl, fun k face there => ?_, rfl, rfl, fun _ live => live, rfl⟩
    simp only [Function.update_apply] at there
    split at there
    · cases there
    · exact there
  | callback c =>
    refine ⟨rfl, fun _ _ there => there, rfl, Table.next_erase _ _, fun d live => ?_, rfl⟩
    simp only [fixtures, retire, Table.contains_erase, Bool.and_eq_true] at live
    exact live.2
  | link | stub | endpoint | worker => exact .of_eq (retire_fixtures s _ rfl)

/-- Whatever work does, all fixtures stay where they are, or go. -/
theorem perform_stands (s : Network) (j : Job) : s.fixtures.Stands (s.perform j).fixtures := by
  cases fits : j.isFitting with
  | false => exact .of_eq (perform_fixtures s fits)
  | true =>
    cases j with
    | release ref =>
      simp only [perform, release]
      split
      · exact .refl _
      · exact retire_stands s ref
    | add c r =>
      have offered := offer_stands s c r
      simp only [perform]
      split
      · rename_i u hu
        rw [hu] at offered
        exact offered
      · rename_i u back hu
        rw [hu] at offered
        exact offered
    | switchover x => exact switchover_stands s x
    | run x =>
      cases x with
      | stub x => cases fits
      | callback c => exact runCallback_stands s c
    | runRegistry id => exact .of_registries rfl (Table.next_modify _ _ _)
    | _ => cases fits

/-! ## Operations -/

theorem keep_fixtures (s : Network) (ref : Ref) : (s.keep ref).fixtures = s.fixtures := by
  unfold keep
  split <;> rfl

theorem setHandler_fixtures (s : Network) (i : InterfaceId) (messageId : UInt8) (h : Handler) :
    (s.setHandler i messageId h).fixtures = s.fixtures := by
  refine Fixtures.ext rfl (funext fun k => ?_) rfl rfl rfl
  simp only [fixtures, setHandler, Table.get?_modify]
  split
  · rw [Option.map_map]
    rfl
  · rfl

theorem takeRequest_fixtures (s : Network) (source : Source) :
    (s.takeRequest source).1.fixtures = s.fixtures := by
  cases source <;> rfl

theorem keepRequests_fixtures (s : Network) (rs : List Request) :
    (s.keepRequests rs).1.fixtures = s.fixtures := by
  induction rs generalizing s with
  | nil => rfl
  | cons r rs ih => exact ih (s.keepRequest r).1

theorem keepLink_fixtures {opened : Network × Except Refusal LinkId}
    (h : opened.1.fixtures = s.fixtures) : (keepLink opened).1.fixtures = s.fixtures := by
  rcases opened with ⟨u, l | l⟩
  · exact h
  · exact (keep_fixtures u _).trans h

theorem createLink_fixtures (s : Network) (i : InterfaceId) :
    (s.createLink i).1.fixtures = s.fixtures := by
  refine keepLink_fixtures ?_
  rcases (Adds.refl s).openLink i with ⟨why, h⟩ | ⟨u, l, added, -, h⟩
  · rw [h]
  · rw [h]
    exact added.fixtures

theorem createConnectedLink_fixtures (s : Network) (i : InterfaceId) (device address : Bytes) :
    (s.createConnectedLink i device address).1.fixtures = s.fixtures := by
  refine keepLink_fixtures ?_
  rcases (Adds.refl s).openConnectedLink i device address with ⟨why, h⟩ | ⟨u, l, added, -, h⟩
  · rw [h]
  · rw [h]
    exact added.fixtures

theorem createAuxiliary_fixtures (s : Network) (w : WorkerId) (peer : String)
    (entries : List AddressEntry) (scorer : Scorer) :
    (s.createAuxiliary w peer entries scorer).1.fixtures = s.fixtures := by
  unfold createAuxiliary
  split
  · rfl
  · rename_i wk _
    rcases (Adds.refl s).openAuxiliary wk peer entries scorer with
      ⟨why, h⟩ | ⟨u, r, l, added, -, h⟩
    · simp only [h]
    · simp only [h]
      exact (keep_fixtures u _).trans added.fixtures

theorem operate_fixtures (s : Network) (c : Carrier) (op : Operation) :
    (Call.start s (.operate c op)).fixtures = s.fixtures := by
  have sent (messageId : UInt8) (payload : Bytes) :=
    sendOver_fixtures s c messageId payload none
  cases c with
  | link l =>
    cases op with
    | short messageId header payload => exact sendShort_fixtures s l messageId header payload
    | bulk messageId payload => exact sent messageId payload
    | other name => rfl
  | stub x =>
    cases op with
    | short messageId header payload => rfl
    | other name => rfl
    | bulk messageId payload =>
      simp only [Call.start]
      split
      · rfl
      · rename_i signal
        rw [operate_signal s x (not_not.1 signal) payload]
        exact sent messageId payload

theorem purgeQueue_fixtures (s : Network) (l : LinkId) (kept : Bool) :
    (s.purgeQueue (.link l) kept).1.fixtures = s.fixtures := by
  have drained := drain_fixtures s l
  unfold purgeQueue
  simp only
  cases kept
  · exact (fixtures_foldl cancel_fixtures _ _).trans drained
  · exact (keepRequests_fixtures _ _).trans drained

theorem createEndpoint_fixtures (s : Network) (w : WorkerId) (address : WorkerAddress) :
    (Call.start s (.createEndpoint w address)).fixtures = s.fixtures := by
  simp only [Call.start]
  split
  · exact keep_fixtures s _
  · have opened := openEndpoint_fixtures s w address.uuid address.name
    generalize s.openEndpoint w address.uuid address.name = made at opened ⊢
    rcases made with ⟨u, e⟩
    simp only at opened ⊢
    generalize ((u.workers.get? w).map fun w => w.plan.lanes).getD [] = lanes
    have laid := openLanes_fixtures u e address.entries lanes
    split
    · rename_i v why hv
      rw [hv] at laid
      exact laid.trans opened
    · rename_i v hv
      rw [hv] at laid
      have asked := newSignal_fixtures v e .request
      split
      · rename_i x why hx
        rw [hx] at asked
        exact asked.trans (laid.trans opened)
      · rename_i x handle job hx
        rw [hx] at asked
        exact asked.trans (laid.trans opened)

/-- All other operations leave the fixtures alone before any work is done. -/
theorem start_fixtures (s : Network) {c : Call} (fixed : c.isFitting = false) :
    (c.start s).fixtures = s.fixtures := by
  cases c with
  | keep ref => exact keep_fixtures s ref
  | drop ref => exact letGo_fixtures s ref
  | record i messageId log forward decode => exact setHandler_fixtures s i messageId _
  | createLink i => exact createLink_fixtures s i
  | createConnectedLink i device address => exact createConnectedLink_fixtures s i device address
  | connect c device address => exact connect_fixtures s c device address
  | operate c op => exact operate_fixtures s c op
  | hold source =>
    have taken := takeRequest_fixtures s source
    simp only [Call.start, Call.run, Call.plain, hold]
    generalize s.takeRequest source = out at taken ⊢
    rcases out with ⟨t, r | r⟩ <;> exact taken
  | purgeQueue c kept =>
    cases c with
    | link l => exact purgeQueue_fixtures s l kept
    | stub x => rfl
  | attemptHeld h =>
    simp only [Call.start]
    split <;> rfl
  | cancelHeld h =>
    simp only [Call.start, Call.run, cancelHeld]
    split
    · rfl
    · exact cancel_fixtures { s with held := s.held.erase h } _
  | discardHeld h =>
    simp only [Call.start, Call.run, discardHeld]
    split
    · rfl
    · exact discard_fixtures { s with held := s.held.erase h } _
  | applyPosted w => exact applyPosted_fixtures s w
  | createEndpoint w address => exact createEndpoint_fixtures s w address
  | lookUp w peer =>
    simp only [Call.start, Call.run, Call.plain, lookUp]
    split
    · exact keep_fixtures s _
    · rfl
  | createAuxiliary w peer entries scorer =>
    exact createAuxiliary_fixtures s w peer entries scorer
  | addPending c source =>
    have taken := takeRequest_fixtures s source
    simp only [Call.start]
    generalize s.takeRequest source = out at taken ⊢
    rcases out with ⟨t, r | r⟩ <;> exact taken
  | remoteConnected slot =>
    cases slot with
    | none => rfl
    | some c => cases c <;> rfl
  | progressEndpoint e =>
    simp only [Call.start]
    split <;> rfl
  | post | sendMessage | close | progress | dispatchRegistry | progressOf | destroyEndpoint
  | progressStub => rfl
  | openFabric | openInterface | openRegistry | openWorker | openCallback | register | unregister
  | offerOnce => cases fixed

/-! ## Operations that change them -/

/-- A new interface gets the next number of its fabric. -/
theorem openInterface_fixtures (s : Network) (fabric : FabricId) (settings : InterfaceSettings) :
    let opened := ((s.fabrics.get? fabric).map Fabric.opened).getD 0 + 1
    (s.openInterface fabric settings).1.fixtures = { s.fixtures with
      fabrics := s.fabrics.modify fabric fun f => { f with opened }
      places := Function.update s.fixtures.places s.interfaces.next
        (some ⟨fabric, UInt64.ofNat opened, settings⟩) } := by
  simp only [openInterface, keep_fixtures]
  refine Fixtures.ext rfl (funext fun i => ?_) rfl rfl rfl
  simp only [fixtures, Table.get?_push, Function.update_apply]
  split <;> rfl

theorem setWorkerHandler_fixtures (s : Network) (w : WorkerId) (messageId : UInt8) (h : Handler) :
    (s.setWorkerHandler w messageId h).fixtures = s.fixtures := by
  have one (u : Network) (r : Resource) :
      (u.setHandler r.interface messageId h).fixtures = u.fixtures :=
    setHandler_fixtures u r.interface messageId h
  unfold setWorkerHandler
  split
  · rfl
  · exact fixtures_foldl one _ s

theorem openWorker_fixtures (s : Network) (settings : WorkerSettings) (plan : Plan)
    (resources : List Resource) : (s.openWorker settings plan resources).1.fixtures =
      { s.fixtures with registries := s.registries.push [] } := by
  simp only [openWorker, keep_fixtures, setWorkerHandler_fixtures]
  rfl

theorem openCallback_fixtures (s : Network) (label : String) (registry : RegistryId)
    (script : List (List Action)) : (s.openCallback label registry script).1.fixtures =
      { s.fixtures with
        callbacks := s.callbacks.push { name := label, registry, script }
        labels := (label, s.callbacks.next) :: s.labels.filter fun entry => entry.1 != label } := by
  simp only [openCallback, keep_fixtures]
  rfl

theorem offerOnce_stands (s : Network) (c : Carrier) (source : Source) (kept : Bool) :
    s.fixtures.Stands (s.offerOnce c source kept).1.fixtures := by
  have taken := takeRequest_fixtures s source
  unfold offerOnce
  generalize s.takeRequest source = out at taken ⊢
  rcases out with ⟨t, r | r⟩
  · exact .of_eq taken
  · have offered := offer_stands t c r
    simp only at taken ⊢
    rw [taken] at offered
    generalize t.offer c r = out at offered ⊢
    rcases out with ⟨u, back | back⟩
    · exact offered
    · cases kept
      · simp only [Bool.false_eq_true, if_false, discard_fixtures]
        exact offered
      · exact offered

theorem step_stands (calm : s.step.violation = none) : s.fixtures.Stands s.step.fixtures := by
  cases top : s.agenda with
  | nil => exact .of_eq (congrArg fixtures (step_nil top))
  | cons j rest =>
    rw [step_eq top (step_violation calm)]
    exact perform_stands { s with agenda := rest } j

end Network

/-! ## Runs -/

/-- The fabric that an interface is opened on. -/
def Call.fabric? : Call → Option FabricId
  | .openInterface fabric _ => some fabric
  | _ => none

/-- Interfaces are opened on fabrics that have a number left. -/
def Call.Named (s : Network) (c : Call) : Prop :=
  ∀ fabric ∈ c.fabric?, ((s.fabrics.get? fabric).any fun f => f.opened + 1 < UInt64.size) = true

instance (s : Network) (c : Call) : Decidable (c.Named s) :=
  inferInstanceAs (Decidable (∀ fabric ∈ c.fabric?,
    ((s.fabrics.get? fabric).any fun f => f.opened + 1 < UInt64.size) = true))

/-- What every operation keeps at once, and what is kept while everything stands where it is, holds
wherever a run comes by. -/
theorem Visited.fixtures_keeps {fits : Network → Call → Prop} {I : Fixtures → Prop} {s : Network}
    (h : Visited fits s) (initial : ∀ process, I (Network.fixtures { process }))
    (start : ∀ s c, I s.fixtures → fits s c → I (c.start s).fixtures)
    (stands : ∀ f g, I f → f.Stands g → I g) : I s.fixtures :=
  h.keeps (I := fun s => I s.fixtures) initial (fun s c _ hs fit _ => start s c hs fit)
    (fun _ _ hs calm => Network.work_invariant
      (fun u hs calm => stands _ _ hs (Network.step_stands (s := u) calm)) hs calm)
    fun s ref hs => (Network.keep_fixtures s ref).symm ▸ hs

end Wiring
