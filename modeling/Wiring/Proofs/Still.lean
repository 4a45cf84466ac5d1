import Mathlib
import Wiring.Proofs.Layout

/-!
# Work that leaves the layout alone

Sending, queueing, parking, delivering and progress change no wiring. What a tame job leaves to do
is tame again; only signals that are handled, stubs that are switched over and things that are
released change the layout.
-/
namespace Wiring

/-- Work that changes the layout. -/
def Job.Moving : Job → Prop
  | .release _ | .switchover _ | .handle (.signals _) _ => True
  | _ => False

namespace Network

variable {s : Network}

/-! ## Ends of requests -/

theorem complete_still (s : Network) (h : HandleId) (o : Outcome) : Still s (s.complete h o) :=
  .books s _ _ _ _ _ _ _

theorem enterGate_still (s : Network) (g : GateId) : Still s (s.enterGate g) :=
  .books s _ _ _ _ _ _ _

theorem leaveGate_still (s : Network) (g : GateId) : Still s (s.leaveGate g) :=
  .books s _ _ _ _ _ _ _

theorem cancel_still (s : Network) (r : Request) : Still s (s.cancel r) := by
  induction r generalizing s with
  | scripted c => exact .note trivial
  | send m => exact complete_still s m.handle _
  | counted g inner ih => exact (leaveGate_still s g).trans (ih _)
  | spent g => exact .refl s

theorem discard_still (s : Network) (r : Request) : Still s (s.discard r) := by
  induction r generalizing s with
  | scripted c =>
    unfold discard
    split
    · exact .refl s
    · exact .note trivial
  | send m => exact .refl s
  | counted g inner ih => exact (leaveGate_still s g).trans (ih _)
  | spent g => exact .refl s

theorem recordAttempt_still (s : Network) (r : Request) (o : Outcome) :
    Still s (s.recordAttempt r o) := by
  have answered (u : Network) :
      Still u (if o.isNoResource then u else r.gates.foldl leaveGate u) := by
    split
    · exact .refl u
    · exact .foldl leaveGate_still _ u
  unfold recordAttempt
  rcases r.inner?_cases with ⟨c, h⟩ | ⟨m, h⟩ | h
  · simp only [h]
    have noted : Still s (s.note (.attempted c.name o)) := .note trivial
    exact noted.trans (answered _)
  · simp only [h]
    split
    · exact .refl s
    · exact (complete_still s m.handle o).trans (.foldl leaveGate_still _ _)
  · simp only [h]
    exact answered s

/-! ## Sending -/

/-- Links put what is sent over them into inboxes; a signal over a link that is not too long for a
reader has to be a send of an endpoint. -/
theorem transmit_still (s : Network) (l : LinkId) (messageId : UInt8) (payload : Bytes)
    (source : Option HandleId)
    (genuine : messageId = Signal.messageId → source ≠ none ∧ payload.length < UInt64.size) :
    Still s (s.transmit l messageId payload source).1 := by
  unfold transmit
  split
  · exact .refl s
  · rename_i lk here
    split
    · exact .refl s
    · rename_i dest hd
      split
      · exact .refl s
      · exact .refl s
      · rename_i f credits hf _
        -- the message is noted first, so that it is known when it comes into the inbox
        let noted := s.note (.accepted l dest messageId payload source)
        have first : Still s noted := .note genuine
        have paid : Still noted { noted with links := noted.links.set l { lk with credits } } :=
          .setLink here rfl fun r hr => .inl hr
        refine (first.trans paid).trans (.setInterface (f := f) hf rfl rfl fun m hm => ?_)
        rcases List.mem_append.1 hm with hm | hm
        · exact .inl hm
        · rw [List.mem_singleton.1 hm]
          exact .inr ⟨source, Array.mem_push_self⟩

theorem sendBulk_still (s : Network) (l : LinkId) (messageId : UInt8) (payload : Bytes)
    (source : Option HandleId) (tidy : Tidy s)
    (genuine : messageId = Signal.messageId → source ≠ none) :
    Still s (s.sendBulk l messageId payload source).1 := by
  unfold sendBulk
  split
  · exact .refl s
  · rename_i lk here
    unfold sendWithin
    split
    · exact .refl s
    · split
      · exact .refl s
      · rename_i short
        have small := tidy.bulk l lk here
        exact transmit_still s l messageId payload source fun h => ⟨genuine h, by omega⟩

theorem sendOver_still (s : Network) (c : Carrier) (messageId : UInt8) (payload : Bytes)
    (source : Option HandleId) (tidy : Tidy s)
    (genuine : messageId = Signal.messageId → source ≠ none) :
    Still s (s.sendOver c messageId payload source).1 := by
  unfold sendOver
  split
  · exact sendBulk_still s _ messageId payload source tidy genuine
  · split
    · exact .refl s
    · split
      · exact .refl s
      · exact sendBulk_still s _ messageId payload source tidy genuine

/-! ## Queues -/

theorem enqueue_still (s : Network) (l : LinkId) {r : Request} (plain : r.IsPlain) :
    Still s (s.enqueue l r).1 := by
  unfold enqueue
  split
  · exact .refl s
  · rename_i lk here
    split
    · exact .refl s
    · refine .setLink here rfl fun r' hr => ?_
      rcases List.mem_append.1 hr with hr | hr
      · exact .inl hr
      · rw [List.mem_singleton.1 hr]
        exact .inr plain

/-- What is handed back by a queue is the request that was given. -/
theorem enqueue_back {s : Network} {l : LinkId} {r back : Request}
    (h : (s.enqueue l r).2 = some back) : back = r := by
  unfold enqueue at h
  split at h
  · exact (Option.some.inj h).symm
  · split at h
    · exact (Option.some.inj h).symm
    · cases h

theorem dequeue_still (s : Network) (l : LinkId) :
    Still s (s.dequeue l).1 ∧
      ∀ r, (s.dequeue l).2 = some r → Tidy s → r.IsPlain := by
  unfold dequeue
  split
  · exact ⟨.refl s, nofun⟩
  · rename_i lk here
    split
    · rename_i r rest _ front
      refine ⟨.setLink here rfl fun r' hr => .inl ?_, fun r' hr tidy => ?_⟩
      · rw [front]
        exact List.mem_cons_of_mem _ hr
      · cases hr
        exact tidy.queued l lk here r (by simp [front])
    · exact ⟨.refl s, nofun⟩

theorem requeue_still (s : Network) (l : LinkId) {r : Request} (plain : r.IsPlain) :
    Still s (s.requeue l r) := by
  unfold requeue
  cases here : s.links.get? l with
  | none =>
    rw [Table.modify_of_none here]
    exact .refl s
  | some lk =>
    rw [Table.modify_eq_set here]
    refine .setLink here rfl fun r' hr => ?_
    rcases List.mem_cons.1 hr with rfl | hr
    · exact .inr plain
    · exact .inl hr

theorem drain_still (s : Network) (l : LinkId) : Still s (s.drain l).1 := by
  unfold drain
  split
  · exact .refl s
  · rename_i lk here
    exact .setLink here rfl fun r hr => by cases hr

theorem returnCredit_still (s : Network) (l : LinkId) : Still s (s.returnCredit l) := by
  unfold returnCredit
  cases here : s.links.get? l with
  | none =>
    rw [Table.modify_of_none here]
    exact .refl s
  | some lk =>
    rw [Table.modify_eq_set here]
    exact .setLink here rfl fun r hr => .inl hr

/-! ## Offers -/

theorem park_still {s : Network} {x : StubId} {st : Stub} (here : s.stubs.get? x = some st)
    (w : WorkerId) {r : Request} (plain : r.IsPlain) : Still s (s.park x st w r) := by
  have stubs : Still s { s with stubs := s.stubs.set x { st with parked := st.parked ++ [r] } } := by
    refine .setStub here rfl fun r' hr => ?_
    rcases List.mem_append.1 hr with hr | hr
    · exact .inl hr
    · rw [List.mem_singleton.1 hr]
      exact .inr plain
  have counted := stubs.trans (.modifyWorker _ w fun wk =>
    show ({ wk with parkedCount := wk.parkedCount + 1 } : Worker).seat = wk.seat from rfl)
  have noted := counted.trans (.note (x := .parked x r) trivial)
  unfold park
  simp only
  split
  · exact noted.trans (.books _ _ _ _ _ _ _ _)
  · exact noted

theorem offer_still (s : Network) (c : Carrier) {r : Request} (plain : r.IsPlain) :
    Still s (s.offer c r).1 := by
  unfold offer
  split
  · exact enqueue_still s _ plain
  · split
    · exact .refl s
    · rename_i x st here
      split
      · split
        · exact .refl s
        · rename_i l hl
          have covered : (Request.counted st.gate r).IsPlain := plain
          exact (enterGate_still s st.gate).trans (enqueue_still _ l covered)
      · split
        · exact .refl s
        · exact park_still here _ plain
        · exact enqueue_still s _ plain
        · exact .refl s

/-- What is handed back by a carrier is the request that was given, maybe under a cover. -/
theorem offer_back {c : Carrier} {r back : Request} (h : (s.offer c r).2 = some back) :
    back.inner? = r.inner? := by
  have same {b : Request} (h : some r = some b) : b.inner? = r.inner? := by
    cases h
    rfl
  unfold offer at h
  split at h
  · rw [enqueue_back h]
  · split at h
    · exact same h
    · split at h
      · split at h
        · exact same h
        · rw [enqueue_back h]
          rfl
      · split at h
        · exact same h
        · cases h
        · rw [enqueue_back h]
        · exact same h

/-! ## Attempts -/

theorem giveUp_still (s : Network) {r : Request} (plain : r.IsPlain) (w : Waiter) :
    Still s (s.giveUp r w) := by
  unfold giveUp
  split
  · exact requeue_still s _ plain
  · refine .push fun j hj => ?_
    rw [List.mem_singleton.1 hj]
    exact plain
  · split
    · refine .push fun j hj => ?_
      simp only [List.mem_cons, List.not_mem_nil, or_false] at hj
      rcases hj with rfl | rfl
      · exact plain
      · trivial
    · exact cancel_still s r
  · exact .books s _ _ _ _ _ _ _

theorem finish_still (s : Network) (r : Request) (o : Outcome) (w : Waiter) :
    Still s (s.finish r o w) := by
  unfold finish
  split
  · have counted : Still s { s with tally := s.tally + 1 } := .books s _ _ _ _ _ _ _
    refine (counted.trans (discard_still _ r)).trans (.push fun j hj => ?_)
    rw [List.mem_singleton.1 hj]
    trivial
  · exact discard_still s r
  · exact discard_still s r
  · exact .books s _ _ _ _ _ _ _

theorem conclude_still (s : Network) {r : Request} (plain : r.IsPlain) (o : Outcome) (w : Waiter) :
    Still s (s.conclude r o w) := by
  have recorded := recordAttempt_still s r o
  unfold conclude
  simp only
  split
  · exact recorded.trans (giveUp_still _ (Request.isPlain_unfinished plain) w)
  · exact recorded.trans (finish_still _ _ o w)

theorem attemptOver_still (s : Network) {r : Request} (plain : r.IsPlain) (w : Waiter) (c : Carrier)
    (messageId : UInt8) (payload : Bytes) (h : HandleId) (holding : List Ref) (tidy : Tidy s) :
    Still s (s.attemptOver r w c messageId payload (some h) holding) := by
  have sent := sendOver_still s c messageId payload (some h) tidy (fun _ => by simp)
  unfold attemptOver
  split
  · rename_i u o hu
    rw [hu] at sent
    refine sent.trans (.push fun j hj => ?_)
    rw [List.mem_singleton.1 hj]
    exact plain
  · rename_i u hu
    rw [hu] at sent
    refine sent.trans (.push fun j hj => ?_)
    simp only [List.mem_append, List.mem_map, List.mem_singleton] at hj
    rcases hj with (hj | ⟨ref, -, rfl⟩) | rfl
    · cases c with
      | link l => cases hj
      | stub x =>
        simp only [List.mem_cons, List.not_mem_nil, or_false] at hj
        rcases hj with rfl | rfl <;> trivial
    · trivial
    · exact plain

theorem attempt_still (s : Network) {r : Request} (plain : r.IsPlain) (w : Waiter) (tidy : Tidy s) :
    Still s (s.attempt r w) := by
  have answered (o : Outcome) : Still s (s.push [.conclude r o w]) := by
    refine .push fun j hj => ?_
    rw [List.mem_singleton.1 hj]
    exact plain
  unfold attempt
  rcases r.inner?_cases with ⟨c, h⟩ | ⟨m, h⟩ | h
  · exact absurd h (plain c)
  · simp only [h]
    split
    · exact answered _
    · split
      · exact answered _
      · exact attemptOver_still s plain w _ _ _ _ _ tidy
  · simp only [h]
    exact answered _

/-- What a carrier hands back is attempted. -/
theorem offerOrAttempt_still (s : Network) (c : Carrier) {r : Request} (plain : r.IsPlain) :
    Still s (s.offerOrAttempt c r) := by
  have offered := offer_still s c plain
  have handed {back : Request} (h : (s.offer c r).2 = some back) : back.IsPlain := by
    unfold Request.IsPlain
    rw [offer_back h]
    exact plain
  unfold offerOrAttempt
  split
  · rename_i u hu
    rw [hu] at offered
    exact offered
  · rename_i u back hu
    rw [hu] at offered handed
    refine offered.trans (.push fun j hj => ?_)
    rw [List.mem_singleton.1 hj]
    exact handed rfl

theorem dispatch_still (s : Network) (l : LinkId) (tidy : Tidy s) : Still s (s.dispatch l) := by
  have taken := dequeue_still s l
  unfold dispatch
  split
  · rename_i u r hu
    rw [hu] at taken
    refine taken.1.trans (.push fun j hj => ?_)
    rw [List.mem_singleton.1 hj]
    exact taken.2 r rfl tidy
  · rename_i u hu
    rw [hu] at taken
    exact taken.1

/-! ## Delivery and progress -/

theorem deliver_still (s : Network) (i : InterfaceId) (left : Nat) (tidy : Tidy s) :
    Still s (s.deliver i left) := by
  unfold deliver
  split
  · rename_i left f here
    split
    · exact .refl s
    · rename_i m inbox front
      have accepted := tidy.inbox i f here m (by simp [front])
      have taken : Still s { s with interfaces := s.interfaces.set i { f with inbox } } := by
        refine .setInterface here rfl rfl fun m' hm => .inl ?_
        rw [front]
        exact List.mem_cons_of_mem m hm
      have counted := taken.trans (.books _ s.handles s.gates s.held s.registries (s.tally + 1)
        s.verdict s.violation)
      have noted := counted.trans (.note (x := .delivered i m) trivial)
      refine noted.trans (.push fun j hj => ?_)
      simp only [List.mem_append, List.mem_map, Option.mem_toList, List.mem_cons,
        List.not_mem_nil, or_false] at hj
      rcases hj with ⟨h, hh, rfl⟩ | rfl | rfl
      · rcases accepted with ⟨source, accepted⟩
        exact ⟨tidy.handlers i f here _ (lookup_mem hh), i, source, Array.mem_push_of_mem _ accepted⟩
      · trivial
      · trivial
  · exact .refl s

theorem dispatchLinks_still (s : Network) (i : InterfaceId) : Still s (s.dispatchLinks i) := by
  refine .push fun j hj => ?_
  simp only [List.mem_flatMap, List.mem_cons, List.not_mem_nil, or_false] at hj
  rcases hj with ⟨l, -, rfl | rfl⟩ <;> trivial

theorem progressInterface_still (s : Network) (i : InterfaceId) :
    Still s (s.progressInterface i) := by
  unfold progressInterface
  split
  · exact .refl s
  · refine .push fun j hj => ?_
    simp only [List.mem_cons, List.not_mem_nil, or_false] at hj
    rcases hj with rfl | rfl <;> trivial

theorem runRegistry_still (s : Network) (id : RegistryId) : Still s (s.runRegistry id) := by
  unfold runRegistry
  have counted : Still s { s.prune id with
      tally := s.tally + (((s.prune id).registry id).map Prod.fst).length } := .books s _ _ _ _ _ _ _
  refine counted.trans (.push fun j hj => ?_)
  simp only [List.mem_append, List.mem_map] at hj
  rcases hj with ⟨x, -, rfl⟩ | ⟨x, -, rfl⟩ <;> trivial

theorem run_still (s : Network) (x : Runner) (tidy : Tidy s) : Still s (s.run x) := by
  unfold run
  split
  · refine .push fun j hj => ?_
    simp only [List.mem_cons, List.not_mem_nil, or_false] at hj
    rcases hj with rfl | rfl <;> trivial
  · unfold runCallback
    rw [tidy.callbacks]
    exact .refl s

/-- Nothing is posted, so that there is nothing to apply. -/
theorem applyPosted_eq {s : Network} (tidy : Tidy s) (w : WorkerId) : s.applyPosted w = (s, 0) := by
  unfold applyPosted
  split
  · rfl
  · rename_i wk here
    have none := tidy.posted w wk here
    have same : { wk with posted := [] } = wk := by rw [← none]
    rw [same, Table.set_get? here, none]
    rfl

theorem progressWorker_still (s : Network) (w : WorkerId) (tidy : Tidy s) :
    Still s (s.progressWorker w) := by
  unfold progressWorker
  split
  · exact .refl s
  · rename_i wk here
    rw [applyPosted_eq tidy]
    refine .push fun j hj => ?_
    simp only [List.mem_append, List.mem_map, List.mem_singleton] at hj
    rcases hj with ⟨r, -, rfl⟩ | rfl <;> trivial

/-! ## Purging and flushing -/

theorem purge_still (s : Network) (c : Carrier) : Still s (s.purge c) := by
  unfold purge
  split
  · exact (drain_still s _).trans (.foldl cancel_still _ _)
  · split
    · split
      · exact .refl s
      · unfold violate
        split
        · exact .books s _ _ _ _ _ _ _
        · exact .refl s
    · exact .refl s

theorem flush_still (s : Network) (l : LinkId) (w : Option WorkerId) (rounds : Nat) :
    Still s (s.flush l w rounds) := by
  unfold flush
  split
  · exact .refl s
  · split
    · refine .push fun j hj => ?_
      simp only [List.mem_cons, List.not_mem_nil, or_false] at hj
      rcases hj with rfl | rfl | rfl <;> trivial
    · exact .refl s

/-! ## Work -/

/-- Tame work leaves the layout alone, unless a signal is handled, a stub is switched over or
something is released. -/
theorem perform_still (tidy : Tidy s) {j : Job} (tame : j.Tame s.trace) (calm : ¬ Job.Moving j) :
    Still s (s.perform j) := by
  cases j with
  | release ref => exact absurd trivial calm
  | discard r => exact absurd tame id
  | attempt r w => exact attempt_still s tame w tidy
  | conclude r o w => exact conclude_still s tame o w
  | add c r => exact offerOrAttempt_still s c tame
  | replayed w =>
    exact .modifyWorker s w fun wk =>
      show ({ wk with parkedCount := wk.parkedCount - 1 } : Worker).seat = wk.seat from rfl
  | switchover x => exact absurd trivial calm
  | run x => exact run_still s x tidy
  | runRegistry id => exact runRegistry_still s id
  | deliver i left => exact deliver_still s i left tidy
  | giveBack l => exact returnCredit_still s l
  | dispatchLinks i => exact dispatchLinks_still s i
  | dispatch l => exact dispatch_still s l tidy
  | progressInterface i => exact progressInterface_still s i
  | progressWorker w => exact progressWorker_still s w tidy
  | handle h m =>
    cases h with
    | record log forward decode =>
      have none : forward = none := tame.1
      rw [none]
      exact .note trivial
    | signals w => exact absurd trivial calm
  | noteForward log o => exact absurd tame id
  | recount n => exact .books s _ _ _ _ _ _ _
  | destroy e => exact absurd tame id
  | purge c => exact purge_still s c
  | flush l w rounds => exact flush_still s l w rounds
  | confirm e h => exact absurd tame id

end Network

end Wiring
