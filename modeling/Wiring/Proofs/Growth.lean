import Mathlib
import Wiring.Proofs.Passing
import Wiring.Proofs.Quiet

/-!
# What work leaves to do

Doing a job puts further jobs on top of the agenda and leaves those below alone. The tally only
grows, except where an earlier count is put back, and a violation stays.
-/
namespace Wiring

/-- A job that may be left to do when the tally is at least `n`. -/
def Job.Calm (n : Nat) : Job → Prop
  | .discard _ => False
  | .recount m => n ≤ m
  | _ => True

theorem Job.Calm.mono {m n : Nat} (h : m ≤ n) {j : Job} (hj : j.Calm n) : j.Calm m := by
  cases j with
  | recount k => exact h.trans hj
  | _ => exact hj

namespace Network

variable {s t u : Network}

/-- New jobs on top of the agenda. -/
structure Grows (s t : Network) : Prop where
  agenda : t.violation = none →
    ∃ jobs, t.agenda = jobs ++ s.agenda ∧ ∀ j ∈ jobs, j.Calm s.tally
  tally : s.tally ≤ t.tally
  violation : t.violation = none → s.violation = none

namespace Grows

theorem refl (s : Network) : Grows s s := ⟨fun _ => ⟨[], rfl, by simp⟩, le_rfl, id⟩

theorem of_quiet (h : Quiet s t) : Grows s t :=
  ⟨fun _ => ⟨[], by simpa using h.agenda, by simp⟩, h.tally.ge,
    fun hv => h.violation.symm.trans hv⟩

theorem trans (h : Grows s t) (g : Grows t u) : Grows s u := by
  refine ⟨fun hv => ?_, h.tally.trans g.tally, fun hv => h.violation (g.violation hv)⟩
  obtain ⟨jobs, ha, calm⟩ := h.agenda (g.violation hv)
  obtain ⟨jobs', ha', calm'⟩ := g.agenda hv
  refine ⟨jobs' ++ jobs, by simp [ha', ha], fun j hj => ?_⟩
  obtain hj | hj := List.mem_append.1 hj
  · exact (calm' j hj).mono h.tally
  · exact calm j hj

theorem quiet (h : Quiet s t) (g : Grows t u) : Grows s u :=
  (of_quiet h).trans g

theorem push {jobs : List Job} (calm : ∀ j ∈ jobs, j.Calm s.tally) :
    Grows s (s.push jobs) := ⟨fun _ => ⟨jobs, rfl, calm⟩, le_rfl, id⟩

theorem push_quiet {jobs : List Job} (h : Quiet s t) (calm : ∀ j ∈ jobs, j.Calm t.tally) :
    Grows s (t.push jobs) := quiet h (push calm)

theorem plan {j : Job} (calm : j.Calm s.tally) : Grows s (s.push [j]) :=
  push fun _ hk => List.mem_singleton.1 hk ▸ calm

theorem counted {n : Nat} (h : s.tally ≤ n) : Grows s { s with tally := n } :=
  ⟨fun _ => ⟨[], rfl, by simp⟩, h, id⟩

theorem foldl {α : Type} {f : Network → α → Network} (h : ∀ s a, Grows s (f s a))
    (as : List α) (s : Network) : Grows s (as.foldl f s) := by
  induction as generalizing s with
  | nil => exact refl s
  | cons a as ih => exact (h s a).trans (ih _)

end Grows

/-! ## Attempts and offers -/

/-- A stub that holds an attempt off leaves its switchover and the end of the attempt to do. -/
theorem attemptOver_grows (s : Network) (r : Request) (w : Waiter) (c : Carrier)
    (messageId : UInt8) (payload : Bytes) (source : Option HandleId) (holding : List Ref) :
    Grows s (s.attemptOver r w c messageId payload source holding) := by
  unfold attemptOver
  have h := sendOver_quiet s c messageId payload source
  obtain ⟨-, ⟨x, rfl⟩, hu⟩ | ⟨why, hu⟩ | ⟨l, dest, u, -, -, hu⟩ :=
    sendOver_cases s c messageId payload source
  · simp only [hu]
    refine .push fun j hj => ?_
    simp only [List.mem_append, List.mem_map, List.mem_cons, List.not_mem_nil, or_false] at hj
    obtain ((rfl | rfl) | ⟨ref, -, rfl⟩) | rfl := hj
    · trivial
    · exact le_rfl
    · trivial
    · trivial
  · simp only [hu]
    exact .plan trivial
  · rw [hu] at h
    simp only [hu]
    exact .quiet h (.plan trivial)

theorem attempt_grows (s : Network) (r : Request) (w : Waiter) : Grows s (s.attempt r w) := by
  unfold attempt
  obtain ⟨c, h⟩ | ⟨m, h⟩ | h := r.inner?_cases
  · simp only [h]
    split
    · exact .plan trivial
    · exact .plan trivial
    · split
      · exact attemptOver_grows s _ w _ _ _ none _
      · exact .plan trivial
  · simp only [h]
    split
    · exact .plan trivial
    · split
      · exact .plan trivial
      · exact attemptOver_grows s r w _ _ _ _ _
  · simp only [h]
    exact .plan trivial

theorem giveUp_grows (s : Network) (r : Request) (w : Waiter) : Grows s (s.giveUp r w) := by
  unfold giveUp
  split
  · exact .of_quiet ⟨rfl, rfl, rfl⟩
  · exact .plan trivial
  · split
    · refine .push fun j hj => ?_
      simp only [List.mem_cons, List.not_mem_nil, or_false] at hj
      obtain rfl | rfl := hj <;> trivial
    · exact .of_quiet (cancel_quiet s r)
  · exact .of_quiet ⟨rfl, rfl, rfl⟩

theorem finish_grows (s : Network) (r : Request) (o : Outcome) (w : Waiter) :
    Grows s (s.finish r o w) := by
  unfold finish
  split
  · rename_i l
    refine (Grows.counted (Nat.le_succ s.tally)).trans (.quiet (discard_quiet _ r) (.push fun j hj => ?_))
    cases List.mem_singleton.1 hj
    trivial
  · exact .of_quiet (discard_quiet s r)
  · exact .of_quiet (discard_quiet s r)
  · exact .of_quiet ⟨rfl, rfl, rfl⟩

theorem conclude_grows (s : Network) (r : Request) (o : Outcome) (w : Waiter) :
    Grows s (s.conclude r o w) := by
  unfold conclude
  refine .quiet (recordAttempt_quiet s r o) ?_
  simp only
  split
  · exact giveUp_grows _ _ w
  · exact finish_grows _ _ o w

theorem enqueue_quiet (s : Network) (l : LinkId) (r : Request) : Quiet s (s.enqueue l r).1 := by
  unfold enqueue
  split
  · exact .refl s
  · split <;> exact ⟨rfl, rfl, rfl⟩

theorem offer_quiet (s : Network) (c : Carrier) (r : Request) : Quiet s (s.offer c r).1 := by
  unfold offer
  split
  · exact enqueue_quiet s _ r
  · split
    · exact .refl s
    · rename_i id t here
      split
      · split
        · exact .refl s
        · rename_i l hl
          have entered : Quiet s (s.enterGate t.gate) := ⟨rfl, rfl, rfl⟩
          exact entered.trans (enqueue_quiet _ l _)
      · split
        · exact .refl s
        · unfold park
          simp only
          split <;> exact ⟨rfl, rfl, rfl⟩
        · exact enqueue_quiet s _ r
        · exact .refl s

theorem offerOrAttempt_grows (s : Network) (c : Carrier) (r : Request) :
    Grows s (s.offerOrAttempt c r) := by
  unfold offerOrAttempt
  have h := offer_quiet s c r
  split
  · rename_i u hu
    rw [hu] at h
    exact .of_quiet h
  · rename_i u back hu
    rw [hu] at h
    exact .quiet h (.plan trivial)

theorem dispatch_grows (s : Network) (l : LinkId) : Grows s (s.dispatch l) := by
  unfold dispatch dequeue
  split
  · rename_i u r hu
    refine Grows.quiet (t := u) ?_ (.plan trivial)
    split at hu
    · cases hu
    · split at hu
      · cases hu
        exact ⟨rfl, rfl, rfl⟩
      · cases hu
  · rename_i u hu
    refine .of_quiet ?_
    split at hu
    · cases hu
      exact .refl s
    · split at hu
      · cases hu
      · cases hu
        exact .refl s

/-! ## Releases -/

theorem calm_releaseLink? {n : Nat} (l : Option LinkId) :
    ∀ j ∈ releaseLink? l, j.Calm n := by
  intro j hj
  obtain ⟨l, -, rfl⟩ := mem_releaseLink?.1 hj
  trivial

theorem calm_releaseSlots {n : Nat} (slots : PerCategory Slot) :
    ∀ j ∈ releaseSlots slots, j.Calm n := by
  intro j hj
  obtain ⟨c, -, rfl⟩ := mem_releaseSlots.1 hj
  trivial

theorem violate_violation (s : Network) (v : Violation) : (s.violate v).violation ≠ none := by
  unfold violate
  split
  · exact fun h => by cases h
  · rename_i w hw
    exact fun h => by cases hw.symm.trans h

theorem violate_grows (s : Network) (v : Violation) : Grows s (s.violate v) := by
  refine ⟨fun h => absurd h (s.violate_violation v), ?_, fun h => absurd h (s.violate_violation v)⟩
  unfold violate
  split <;> exact le_rfl

theorem retireStub_grows (s : Network) (x : StubId) : Grows s (s.retireStub x) := by
  unfold retireStub
  split
  · exact .refl s
  · rename_i t here
    have erased : Quiet s { s with stubs := s.stubs.erase x } := ⟨rfl, rfl, rfl⟩
    cases hp : t.parked with
    | nil =>
      refine .quiet erased (.push fun j hj => ?_)
      simp only [List.map_nil, List.append_nil, List.mem_append] at hj
      obtain (hj | hj) | hj := hj <;> exact calm_releaseLink? _ j hj
    | cons r parked =>
      simp only [List.isEmpty_cons, Bool.false_eq_true, if_false]
      have broken := violate_violation { s with stubs := s.stubs.erase x }
        (.releasedWithParked t.category (r :: parked).length)
      exact .quiet erased ((violate_grows _ (.releasedWithParked t.category _)).trans
        ⟨fun h => absurd h broken, le_rfl, fun h => absurd h broken⟩)

theorem retireInterface_quiet (s : Network) (id : InterfaceId) :
    Quiet s (s.retireInterface id) := by
  unfold retireInterface
  split
  · exact .refl s
  · have erased : Quiet s { s with interfaces := s.interfaces.erase id } := ⟨rfl, rfl, rfl⟩
    have lost (u : Network) (m : Message) : Quiet u (u.note (.lost id m)) := ⟨rfl, rfl, rfl⟩
    exact erased.trans (.foldl lost _ _)

theorem retire_grows (s : Network) (ref : Ref) : Grows s (s.retire ref) := by
  unfold retire
  split
  · exact .of_quiet (retireInterface_quiet s _)
  · exact .of_quiet (retireLink_quiet s _)
  · exact retireStub_grows s _
  · unfold retireEndpoint
    simp only
    split
    · exact .refl s
    · exact .push_quiet ⟨rfl, rfl, rfl⟩ (calm_releaseSlots _)
  · unfold retireWorker
    simp only
    split
    · exact .refl s
    · refine .push_quiet ⟨rfl, rfl, rfl⟩ fun j hj => ?_
      simp only [List.mem_append, List.mem_map] at hj
      obtain ⟨r, -, rfl⟩ | ⟨entry, -, rfl⟩ := hj <;> trivial
  · exact .of_quiet ⟨rfl, rfl, rfl⟩

theorem release_grows (s : Network) (ref : Ref) : Grows s (s.release ref) := by
  unfold release
  split
  · exact .refl s
  · exact retire_grows s ref

theorem letGo_grows (s : Network) (ref : Ref) : Grows s (s.letGo ref) := by
  unfold letGo
  simp only
  split
  · refine .push_quiet ⟨rfl, rfl, rfl⟩ fun j hj => ?_
    cases List.mem_singleton.1 hj
    trivial
  · exact .refl s

/-! ## Switchovers and runners -/

theorem switch_grows (s : Network) (id : StubId) (t : Stub) (w : WorkerId) (next : LinkId) :
    Grows s (s.switch id t w next) := by
  unfold switch
  simp only [foldl_unregister]
  refine (Grows.counted (Nat.le_succ s.tally)).trans (.push_quiet ⟨rfl, rfl, rfl⟩ fun j hj => ?_)
  simp only [List.mem_append, List.mem_flatMap, List.mem_cons, List.not_mem_nil, or_false] at hj
  obtain (hj | ⟨r, -, rfl | rfl⟩) | rfl | rfl | rfl := hj
  · exact calm_releaseLink? _ j hj
  all_goals trivial

theorem switchover_grows (s : Network) (id : StubId) : Grows s (s.switchover id) := by
  unfold switchover
  split
  · exact .refl s
  · rename_i w hw
    refine .quiet (applyPosted_quiet s w) ?_
    simp only
    split
    · exact .refl _
    · split
      · split
        · exact switch_grows _ _ _ _ _
        · exact .refl _
      · exact .refl _

theorem act_grows (s : Network) (id : RegistryId) (a : Action) :
    Grows s (s.act id a) := by
  unfold act
  split
  · split
    · exact .of_quiet ⟨rfl, rfl, rfl⟩
    · exact .refl s
  · split
    · exact .of_quiet ⟨rfl, rfl, rfl⟩
    · exact .refl s
  · split
    · exact letGo_grows s _
    · exact .refl s

theorem runCallback_grows (s : Network) (id : CallbackId) :
    Grows s (s.runCallback id) := by
  unfold runCallback
  split
  · exact .refl s
  · rename_i c here
    have called : Quiet s (note { s with
        callbacks := s.callbacks.set id { c with script := c.script.tail } }
        (.called c.name)) := ⟨rfl, rfl, rfl⟩
    exact .quiet called (.foldl (fun s a => act_grows s c.registry a) _ _)

theorem run_grows (s : Network) (x : Runner) : Grows s (s.run x) := by
  unfold run
  split
  · refine .push fun j hj => ?_
    simp only [List.mem_cons, List.not_mem_nil, or_false] at hj
    obtain rfl | rfl := hj
    · trivial
    · exact le_rfl
  · exact runCallback_grows s _

theorem runRegistry_grows (s : Network) (id : RegistryId) :
    Grows s (s.runRegistry id) := by
  unfold runRegistry
  have pruned : Quiet s (s.prune id) := ⟨rfl, rfl, rfl⟩
  have counted : Grows s _ := .quiet pruned (.counted
    (Nat.le_add_right (s.prune id).tally (((s.prune id).registry id).map Prod.fst).length))
  refine counted.trans (.push fun j hj => ?_)
  simp only [List.mem_append, List.mem_map] at hj
  obtain ⟨x, -, rfl⟩ | ⟨x, -, rfl⟩ := hj <;> trivial

/-! ## Delivery -/

theorem deliver_grows (s : Network) (id : InterfaceId) (left : Nat) :
    Grows s (s.deliver id left) := by
  unfold deliver
  split
  · rename_i left i here
    split
    · exact .refl s
    · rename_i m inbox hm
      have counted : Grows s (note { s with
          interfaces := s.interfaces.set id { i with inbox }, tally := s.tally + 1 }
          (.delivered id m)) :=
        (Grows.counted (Nat.le_succ s.tally)).trans (.of_quiet ⟨rfl, rfl, rfl⟩)
      refine counted.trans (.push fun j hj => ?_)
      simp only [List.mem_append, List.mem_map, List.mem_cons, List.not_mem_nil, or_false] at hj
      obtain ⟨h, -, rfl⟩ | rfl | rfl := hj <;> trivial
  · exact .refl s

theorem forward_grows (s : Network) (log : String) (c : Carrier) (m : Message) :
    Grows s (s.forward log c m) := by
  unfold forward
  split
  · have h := sendOver_quiet s c m.id m.payload none
    obtain ⟨-, ⟨x, rfl⟩, hu⟩ | ⟨why, hu⟩ | ⟨l, dest, u, -, -, hu⟩ :=
      sendOver_cases s c m.id m.payload none
    · simp only [hu]
      refine .push fun j hj => ?_
      simp only [List.mem_cons, List.not_mem_nil, or_false] at hj
      obtain rfl | rfl | rfl | rfl := hj
      · trivial
      · exact le_rfl
      · trivial
      · trivial
    · simp only [hu]
      exact .of_quiet ⟨rfl, rfl, rfl⟩
    · rw [hu] at h
      simp only [hu]
      exact .of_quiet (h.trans ⟨rfl, rfl, rfl⟩)
  · exact .refl s

theorem answer_grows (s : Network) (e : EndpointId) (kind : Signal.Kind) :
    Grows s (s.answer e kind) := by
  unfold answer
  have h := newSignal_quiet s e kind
  obtain ⟨why, hu⟩ | ⟨payload, -, hu⟩ := s.newSignal_cases e kind
  · simp only [hu]
    exact .of_quiet (.refl s)
  · rw [hu] at h
    simp only [hu]
    exact .quiet h (.plan trivial)

theorem replyTo_grows (s : Network) (e : EndpointId) (lanes : List LaneAddress) :
    Grows s (s.replyTo e lanes) := by
  unfold replyTo
  have h := connectLanes_quiet s e lanes
  split
  · rename_i u why hu
    rw [hu] at h
    exact .of_quiet h
  · rename_i u hu
    rw [hu] at h
    exact .quiet h (answer_grows u e .reply)

theorem welcome_grows (s : Network) (w : WorkerId) (m : Signal) (address : WorkerAddress) :
    Grows s (s.welcome w m address) := by
  unfold welcome
  have h := openEndpoint_quiet s w m.source address.name
  simp only
  generalize (s.openEndpoint w m.source address.name).2 = e
  revert h
  generalize (s.openEndpoint w m.source address.name).1 = u
  intro h
  have held : Grows s (u.push [.release (.endpoint e), .release (.worker w)]) := by
    refine .quiet h (.push fun j hj => ?_)
    simp only [List.mem_cons, List.not_mem_nil, or_false] at hj
    obtain rfl | rfl := hj <;> trivial
  have opened := openLanes_quiet (u.push [.release (.endpoint e), .release (.worker w)]) e
    address.entries (((u.push [.release (.endpoint e), .release (.worker w)]).workers.get? w).map
      (fun w => w.plan.lanes) |>.getD [])
  split
  · rename_i v why hv
    rw [hv] at opened
    refine held.trans (.quiet opened (.push fun j hj => ?_))
    cases List.mem_singleton.1 hj
    trivial
  · rename_i v hv
    rw [hv] at opened
    exact held.trans (.quiet opened (replyTo_grows v e m.lanes))

theorem receive_grows (s : Network) (w : WorkerId) (m : Signal) :
    Grows s (s.receive w m) := by
  unfold receive
  split
  · split
    · exact welcome_grows s w m _
    · exact .of_quiet (.refl s)
  · rename_i e he
    have held : Grows s (s.push [.release (.endpoint e), .release (.worker w)]) := by
      refine .push fun j hj => ?_
      simp only [List.mem_cons, List.not_mem_nil, or_false] at hj
      obtain rfl | rfl := hj <;> trivial
    refine held.trans ?_
    simp only
    generalize s.push [.release (.endpoint e), .release (.worker w)] = u
    split
    · exact replyTo_grows u e m.lanes
    · have h := connectLanes_quiet u e m.lanes
      split
      · rename_i v why hv
        rw [hv] at h
        exact .of_quiet h
      · rename_i v hv
        rw [hv] at h
        exact .quiet (h.trans (markLanes_quiet v e)) (answer_grows _ e .ack)
    · exact .of_quiet (markLanes_quiet u e)

theorem handle_grows (s : Network) (m : Message) (h : Handler) :
    Grows s (s.handle m h) := by
  unfold handle
  split
  · rename_i log carrier decode
    have recorded : Quiet s (s.note (.recorded log m.id (content decode m.payload))) :=
      ⟨rfl, rfl, rfl⟩
    refine .quiet recorded ?_
    simp only
    split
    · exact (forward_grows _ _ _ m)
    · exact .of_quiet (.refl _)
  · unfold handleSignal
    split
    · split
      · exact receive_grows s _ _
      · exact .of_quiet (.refl s)
    · exact .of_quiet (.refl s)

/-! ## Destruction -/

theorem destroy_grows (s : Network) (id : EndpointId) : Grows s (s.destroy id) := by
  unfold destroy
  split
  · exact .refl s
  · rename_i e here
    simp only
    refine .quiet ?_ (.push fun j hj => ?_)
    · split <;> exact ⟨rfl, rfl, rfl⟩
    · simp only [List.append_assoc, List.mem_append, List.mem_map, List.mem_flatMap] at hj
      obtain ⟨r, -, rfl⟩ | ⟨c, -, hj⟩ | ⟨w, -, rfl⟩ | hj := hj
      · trivial
      · cases c with
        | link l =>
          simp only [List.mem_cons, List.not_mem_nil, or_false] at hj
          obtain rfl | rfl := hj <;> trivial
        | stub x =>
          cases List.mem_singleton.1 hj
          trivial
      · trivial
      · exact calm_releaseSlots _ j hj

theorem purge_grows (s : Network) (c : Carrier) : Grows s (s.purge c) := by
  unfold purge
  split
  · rename_i l
    simp only [drain]
    cases here : s.links.get? l with
    | none => exact .refl s
    | some lk =>
      have taken : Quiet s { s with links := s.links.set l { lk with queue := [] } } :=
        ⟨rfl, rfl, rfl⟩
      exact .of_quiet (taken.trans (.foldl cancel_quiet _ _))
  · split
    · split
      · exact .refl s
      · exact violate_grows s _
    · exact .refl s

theorem flush_grows (s : Network) (l : LinkId) (w : Option WorkerId) (rounds : Nat) :
    Grows s (s.flush l w rounds) := by
  unfold flush
  split
  · exact .refl s
  · split
    · refine .push fun j hj => ?_
      simp only [List.mem_cons, List.not_mem_nil, or_false] at hj
      obtain rfl | rfl | rfl := hj
      · trivial
      · exact le_rfl
      · trivial
    · exact .refl s

/-! ## Steps -/

/-- Every job but one that puts an earlier count back leaves work on top. -/
theorem perform_grows (s : Network) (j : Job) (count : ∀ n, j ≠ .recount n) :
    Grows s (s.perform j) := by
  unfold perform
  cases j with
  | release ref => exact (release_grows s ref)
  | discard r => exact .of_quiet (discard_quiet s r)
  | attempt r w => exact attempt_grows s r w
  | conclude r o w => exact conclude_grows s r o w
  | add c r => exact offerOrAttempt_grows s c r
  | replayed w => exact .of_quiet ⟨rfl, rfl, rfl⟩
  | switchover id => exact (switchover_grows s id)
  | run x => exact (run_grows s x)
  | runRegistry id => exact (runRegistry_grows s id)
  | deliver id left => exact (deliver_grows s id left)
  | giveBack l => exact .of_quiet ⟨rfl, rfl, rfl⟩
  | dispatchLinks id =>
    refine .push fun j hj => ?_
    simp only [List.mem_flatMap, List.mem_cons, List.not_mem_nil, or_false] at hj
    obtain ⟨l, -, rfl | rfl⟩ := hj <;> trivial
  | dispatch l => exact dispatch_grows s l
  | progressInterface id =>
    simp only [progressInterface]
    split
    · exact .of_quiet (.refl s)
    · refine .push fun j hj => ?_
      simp only [List.mem_cons, List.not_mem_nil, or_false] at hj
      obtain rfl | rfl := hj <;> trivial
  | progressWorker id =>
    simp only [progressWorker]
    split
    · exact .of_quiet (.refl s)
    · have counted := @Grows.counted _ _
        (Nat.le_add_right (s.applyPosted id).1.tally (s.applyPosted id).2)
      refine Grows.quiet (applyPosted_quiet s id) (counted.trans (.push fun j hj => ?_))
      simp only [List.mem_append, List.mem_map, List.mem_singleton] at hj
      obtain ⟨r, -, rfl⟩ | rfl := hj <;> trivial
  | handle h m => exact handle_grows s m h
  | noteForward log o => exact .of_quiet ⟨rfl, rfl, rfl⟩
  | recount n => exact absurd rfl (count n)
  | destroy id => exact (destroy_grows s id)
  | purge c => exact (purge_grows s c)
  | flush l w rounds => exact (flush_grows s l w rounds)
  | confirm e h =>
    simp only [confirm]
    split
    · refine .push fun j hj => ?_
      cases List.mem_singleton.1 hj
      trivial
    · exact .of_quiet (.refl s)

end Network

end Wiring
