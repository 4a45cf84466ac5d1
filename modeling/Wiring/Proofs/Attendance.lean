import Mathlib
import Wiring.Proofs.Discipline
import Wiring.Proofs.Fixtures
import Wiring.Proofs.Minutes
import Wiring.Proofs.Registering

/-!
# What the registries of a network are asked

Registries are asked to register by what parks and by callbacks, to unregister by switchovers and by
callbacks, and to let go of runners that are gone when they are run. Whatever else is done leaves
them alone, so the minutes of what a registry was asked tell what it holds.
-/
namespace Wiring

open Registry (Query Log)

/-- A registry that is asked something, and what it is asked. -/
abbrev Asking := Option (RegistryId × List Query)

namespace Network

variable {s t : Network} {k : RegistryId} {log : Log}

/-! ## Asking -/

/-- Parking a request registers the stub with the registry of its worker. -/
def parking (s : Network) (c : Carrier) (r : Request) : Asking :=
  match c with
  | .link _ => none
  | .stub x => (s.stubs.get? x).bind fun st =>
    match r.isSignal, s.workerOf? st.endpoint, st.next with
    | false, some w, some _ =>
      (s.workers.get? w).map fun wk => (wk.registry, [.register (.stub x) true])
    | _, _, _ => none

/-- A switchover takes back the registrations of all that was parked. -/
def withdrawing (s : Network) (x : StubId) : Asking :=
  let s := s.caughtUp x
  (s.stubs.get? x).bind fun st =>
    match s.workerOf? st.endpoint, st.next with
    | some w, some _ =>
      if s.isSwitchable st then
        (s.workers.get? w).map fun wk =>
          (wk.registry, List.replicate st.parked.length (.unregister (.stub x)))
      else none
    | _, _ => none

/-- What a callback asks of its registry by an action. -/
def wanting (s : Network) : Action → List Query
  | .register label => (s.labels.lookup label).toList.map fun c =>
    .register (.callback c) (s.callbacks.contains c)
  | .unregister label => (s.labels.lookup label).toList.map fun c => .unregister (.callback c)
  | .drop _ => []

/-- The runners of a registry that live. -/
def ready (s : Network) (k : RegistryId) : List Runner :=
  (s.registry k).runners.filter fun x => s.isLive x.ref

/-- What is asked by a job. -/
def asking (s : Network) : Job → Asking
  | .add c r => s.parking c r
  | .switchover x => s.withdrawing x
  | .run (.callback c) => (s.callbacks.get? c).map fun cb =>
    (cb.registry, (cb.script.headD []).flatMap s.wanting)
  | .runRegistry i => some (i, [.prune (s.ready i)])
  | _ => none

/-- What one of the registries is asked, if it was opened. -/
def addressed (s : Network) (k : RegistryId) (a : Asking) : List Query :=
  match a with
  | some (i, qs) => if i = k ∧ k < s.registries.next then qs else []
  | none => []

/-! ## Answering -/

/-- The registries once one of them was asked. -/
def Asked (s t : Network) (a : Asking) : Prop :=
  ∀ k, t.registry k = ((s.registry k).asks (s.addressed k a)).1

theorem addressed_some (s : Network) (k i : RegistryId) (qs : List Query) :
    s.addressed k (some (i, qs)) = if i = k ∧ k < s.registries.next then qs else [] := rfl

theorem registry_set (s : Network) (i : RegistryId) (r : Registry) (k : RegistryId) :
    registry { s with registries := s.registries.set i r } k =
      if i = k ∧ k < s.registries.next then r else s.registry k := by
  unfold registry
  simp only [Table.get?_set]
  by_cases same : i = k
  · subst same
    by_cases opened : i < s.registries.next <;> simp [opened]
  · simp [same]

namespace Asked

variable {i : RegistryId} {qs qs' : List Query} {a : Asking}

theorem of_eq (same : t.registries = s.registries) : Asked s t none := fun k => by
  rw [registry, same]
  rfl

theorem congr (h : Asked s t a) {u : Network} (same : u.registries = t.registries) :
    Asked s u a := fun k => by
  rw [registry, same]
  exact h k

theorem nothing (i : RegistryId) (same : t.registries = s.registries) :
    Asked s t (some (i, [])) := fun k => by
  rw [registry, same, addressed_some, ite_self]
  rfl

/-- The registry that was asked is put back. -/
theorem set (same : t.registries = s.registries.set i ((s.registry i).asks qs).1) :
    Asked s t (some (i, qs)) := fun k => by
  have put := registry_set s i ((s.registry i).asks qs).1 k
  rw [addressed_some, registry, same]
  refine Eq.trans put ?_
  by_cases own : i = k ∧ k < s.registries.next
  · rw [if_pos own, if_pos own, own.1]
  · rw [if_neg own, if_neg own]
    rfl

theorem append {u : Network} (h : Asked s t (some (i, qs))) (g : Asked t u (some (i, qs')))
    (next : t.registries.next = s.registries.next) : Asked s u (some (i, qs ++ qs')) := fun k => by
  have first := h k
  have second := g k
  rw [addressed_some] at first second ⊢
  rw [second, first, next]
  split
  · exact (Registry.asks_append _ qs qs').symm
  · rfl

end Asked

theorem register_asked (s : Network) (i : RegistryId) (x : Runner) :
    Asked s (s.register i x).1 (some (i, [.register x (s.isLive x.ref)])) := .set rfl

theorem unregister_asked (s : Network) (i : RegistryId) (x : Runner) :
    Asked s (s.unregister i x).1 (some (i, [.unregister x])) := .set rfl

theorem withdraw_asked (i : RegistryId) (x : Runner) (n : Nat) (s : Network) :
    Asked s { s with registries := withdraw s.registries i x n }
      (some (i, List.replicate n (.unregister x))) := by
  induction n generalizing s with
  | zero => exact .nothing i rfl
  | succ n ih =>
    have rest := ih (s.unregister i x).1
    exact (unregister_asked s i x).append rest (Table.next_set _ _ _)

theorem offer_asked (s : Network) (c : Carrier) (r : Request) :
    Asked s (s.offer c r).1 (s.parking c r) := by
  have queued (u : Network) (l : LinkId) (r : Request) (same : u.registries = s.registries) :
      Asked s (u.enqueue l r).1 none :=
    .of_eq ((congrArg Fixtures.registries (enqueue_fixtures u l r)).trans same)
  cases c with
  | link l => exact queued s l r rfl
  | stub x =>
    cases here : s.stubs.get? x with
    | none =>
      simp only [offer, parking, here, Option.bind_none]
      exact .of_eq rfl
    | some st =>
      simp only [offer, parking, here, Option.bind_some]
      cases signal : r.isSignal with
      | true =>
        cases carrier : st.signalLink with
        | none => exact .of_eq rfl
        | some l => exact queued (s.enterGate st.gate) l _ rfl
      | false =>
        cases worker : s.workerOf? st.endpoint with
        | none => exact .of_eq rfl
        | some w =>
          cases next : st.next with
          | none =>
            cases promoted : st.promoted with
            | none => exact .of_eq rfl
            | some l => exact queued s l r rfl
          | some l =>
            rcases workerOf?_eq_some.1 worker with ⟨-, -, -, live⟩
            rcases Table.contains_iff.1 live with ⟨wk, hired⟩
            simp only [hired, Option.map_some, park_eq here hired r]
            exact .set rfl

theorem switchover_asked (s : Network) (x : StubId) :
    Asked s (s.switchover x) (s.withdrawing x) := by
  have caught : (s.caughtUp x).registries = s.registries :=
    congrArg Fixtures.registries (caughtUp_fixtures s x)
  have alive := caughtUp_alive s x
  rw [switchover_eq, ← alive]
  unfold withdrawing
  simp only
  cases here : (s.caughtUp x).stubs.get? x with
  | none => exact .of_eq caught
  | some st =>
    simp only [Option.bind_some]
    cases worker : (s.caughtUp x).workerOf? st.endpoint with
    | none => exact .of_eq caught
    | some w =>
      cases next : st.next with
      | none => exact .of_eq caught
      | some l =>
        simp only
        by_cases ready : (s.caughtUp x).isSwitchable st = true
        · rcases workerOf?_eq_some.1 worker with ⟨-, -, -, live⟩
          rcases Table.contains_iff.1 live with ⟨wk, hired⟩
          simp only [ready, if_true, hired, Option.map_some]
          refine (withdraw_asked wk.registry (.stub x) st.parked.length s).congr ?_
          rw [switch_eq x st hired l, caught]
        · simp only [ready, if_false, Bool.false_eq_true]
          exact .of_eq caught

theorem act_asked (s : Network) (i : RegistryId) (a : Action) :
    Asked s (s.act i a) (some (i, s.wanting a)) := by
  unfold act wanting
  cases a with
  | register label =>
    simp only
    cases s.labels.lookup label with
    | none => exact .nothing i rfl
    | some c => exact register_asked s i (.callback c)
  | unregister label =>
    simp only
    cases s.labels.lookup label with
    | none => exact .nothing i rfl
    | some c => exact unregister_asked s i (.callback c)
  | drop label =>
    simp only
    cases s.labels.lookup label with
    | none => exact .nothing i rfl
    | some c => exact .nothing i (congrArg Fixtures.registries (letGo_fixtures s (.callback c)))

/-- What callbacks ask does not depend on the registries. -/
theorem wanting_congr (labels : t.labels = s.labels) (callbacks : t.callbacks = s.callbacks)
    (a : Action) : t.wanting a = s.wanting a := by
  unfold wanting
  rw [labels, callbacks]

theorem foldl_act_asked (i : RegistryId) (as : List Action) (s : Network) :
    Asked s (as.foldl (fun s a => s.act i a) s) (some (i, as.flatMap s.wanting)) := by
  induction as generalizing s with
  | nil => exact .nothing i rfl
  | cons a as ih =>
    have same := act_fixtures s i a
    have wanted : (s.act i a).wanting = s.wanting :=
      funext (wanting_congr (congrArg Fixtures.labels same) (congrArg Fixtures.callbacks same))
    have rest := ih (s.act i a)
    rw [wanted] at rest
    exact (act_asked s i a).append rest (act_registries_next s i a)

theorem runCallback_asked (s : Network) (c : CallbackId) :
    Asked s (s.runCallback c) (s.asking (.run (.callback c))) := by
  cases here : s.callbacks.get? c with
  | none =>
    simp only [runCallback, asking, here, Option.map_none]
    exact .of_eq rfl
  | some cb =>
    simp only [runCallback, asking, here, Option.map_some]
    generalize hu : note { s with
      callbacks := s.callbacks.set c { cb with script := cb.script.tail } } (.called cb.name) = u
    have registries : u.registries = s.registries := hu ▸ rfl
    have wanted : u.wanting = s.wanting := by
      have contains (d : CallbackId) : u.callbacks.contains d = s.callbacks.contains d := by
        rw [← hu]
        exact Table.contains_set here _ d
      have labels : u.labels = s.labels := hu ▸ rfl
      funext a
      simp only [wanting, contains, labels]
    intro k
    have asked := foldl_act_asked cb.registry (cb.script.headD []) u k
    simp only [registry, addressed, registries, wanted] at asked ⊢
    exact asked

theorem prune_registry (s : Network) (k : RegistryId) :
    (s.prune k).registry k = (s.registry k).filter fun entry => s.isLive entry.1.ref := by
  simp only [registry, prune, Table.get?_modify, if_true]
  cases s.registries.get? k <;> rfl

theorem prune_registry_ne (s : Network) {i : RegistryId} (other : i ≠ k) :
    (s.prune i).registry k = s.registry k := by
  simp only [registry, prune, Table.get?_modify, other, if_false]

/-- Those that live stay. -/
theorem prune_runners (s : Network) (k : RegistryId) :
    ((s.prune k).registry k).runners = s.ready k := by
  rw [prune_registry]
  exact Registry.runners_filter _ fun x => s.isLive x.ref

theorem runRegistry_asked (s : Network) (i : RegistryId) :
    Asked s (s.runRegistry i) (some (i, [.prune (s.ready i)])) := fun k => by
  have pruned : (s.runRegistry i).registry k = (s.prune i).registry k := rfl
  rw [pruned, addressed_some]
  by_cases own : i = k
  · subst own
    rw [prune_registry]
    by_cases opened : i < s.registries.next
    · rw [if_pos ⟨rfl, opened⟩]
      refine List.filter_congr fun entry there => ?_
      have listed : entry.1 ∈ (s.registry i).runners := List.mem_map_of_mem there
      simp [ready, listed]
    · have empty : s.registry i = [] := by
        rw [registry, Table.get?_of_next_le (Nat.le_of_not_lt opened)]
        rfl
      rw [if_neg fun h => opened h.2, empty]
      rfl
  · rw [prune_registry_ne s own, if_neg fun h => own h.1]
    rfl

theorem asking_of_fixed {j : Job} (fixed : j.isFitting = false) : s.asking j = none := by
  cases j with
  | run x =>
    cases x with
    | stub x => rfl
    | callback c => cases fixed
  | add | switchover | runRegistry => cases fixed
  | _ => rfl

theorem retire_registries (s : Network) (ref : Ref) :
    (s.retire ref).registries = s.registries := by
  cases ref with
  | interface i => exact congrArg Fixtures.registries (retireInterface_fixtures s i)
  | callback c => rfl
  | link | stub | endpoint | worker =>
    exact congrArg Fixtures.registries (retire_fixtures s _ rfl)

/-- What a job asks of the registries is all that it does to them. -/
theorem perform_asked (s : Network) (j : Job) : Asked s (s.perform j) (s.asking j) := by
  cases fits : j.isFitting with
  | false =>
    rw [asking_of_fixed fits]
    exact .of_eq (congrArg Fixtures.registries (perform_fixtures s fits))
  | true =>
    cases j with
    | add c r =>
      have offered := offer_asked s c r
      simp only [perform, asking]
      generalize s.offer c r = out at offered ⊢
      rcases out with ⟨u, back | back⟩ <;> exact offered
    | switchover x => exact switchover_asked s x
    | run x =>
      cases x with
      | stub x => cases fits
      | callback c => exact runCallback_asked s c
    | runRegistry i => exact runRegistry_asked s i
    | release ref =>
      simp only [perform, release]
      split
      · exact .of_eq rfl
      · exact .of_eq (retire_registries s ref)
    | _ => cases fits

end Network

/-! ## Operations -/

open Network

variable {s t : Network} {k : RegistryId} {log : Log} {c : Call} {x : Runner}

/-- What an operation asks at once. -/
def Call.asking (s : Network) : Call → Asking
  | .register i c => some (i, [.register (.callback c) (s.callbacks.contains c)])
  | .unregister i c => some (i, [.unregister (.callback c)])
  | .offerOnce c source _ =>
    match s.takeRequest source with
    | (t, some r) => t.parking c r
    | (_, none) => none
  | _ => none

/-- The callback that is registered. -/
def Call.registered? : Call → Option CallbackId
  | .register _ c => some c
  | _ => none

/-- Nobody registers a callback that was not opened. -/
def Call.Registrable (s : Network) (c : Call) : Prop := ∀ d ∈ c.registered?, d < s.callbacks.next

instance (s : Network) (c : Call) : Decidable (c.Registrable s) :=
  inferInstanceAs (Decidable (∀ d ∈ c.registered?, d < s.callbacks.next))

namespace Network

theorem offerOnce_asked (s : Network) (c : Carrier) (source : Source) (kept : Bool) :
    Asked s (s.offerOnce c source kept).1 (Call.asking s (.offerOnce c source kept)) := by
  have taken := congrArg Fixtures.registries (takeRequest_fixtures s source)
  simp only [offerOnce, Call.asking]
  generalize s.takeRequest source = out at taken ⊢
  rcases out with ⟨t, r | r⟩
  · exact .of_eq taken
  · have offered : Asked s (t.offer c r).1 (t.parking c r) := by
      intro k
      have asked := offer_asked t c r k
      have same : t.registries = s.registries := taken
      simp only [registry, addressed, same] at asked ⊢
      exact asked
    simp only
    generalize t.offer c r = out at offered ⊢
    rcases out with ⟨u, back | back⟩
    · exact offered
    · cases kept
      · exact offered.congr (congrArg Fixtures.registries (discard_fixtures u back))
      · exact offered

theorem openRegistry_asked (same : t.registries = s.registries.push []) : Asked s t none := by
  intro k
  simp only [registry, same, Table.get?_push]
  split
  · rename_i new
    rw [new, Table.get?_of_next_le le_rfl]
    rfl
  · rfl

theorem start_asked (s : Network) (c : Call) : Asked s (c.start s) (c.asking s) := by
  cases fits : c.isFitting with
  | false =>
    have none : c.asking s = none := by cases c <;> first | rfl | cases fits
    rw [none]
    exact .of_eq (congrArg Fixtures.registries (start_fixtures s fits))
  | true =>
    cases c with
    | openFabric => exact .of_eq rfl
    | openInterface fabric settings =>
      exact .of_eq (congrArg Fixtures.registries (openInterface_fixtures s fabric settings))
    | openRegistry => exact openRegistry_asked rfl
    | openWorker settings plan resources =>
      exact openRegistry_asked
        (congrArg Fixtures.registries (openWorker_fixtures s settings plan resources))
    | openCallback label registry script =>
      exact .of_eq (congrArg Fixtures.registries (openCallback_fixtures s label registry script))
    | register i c => exact register_asked s i (.callback c)
    | unregister i c => exact unregister_asked s i (.callback c)
    | offerOnce c source kept => exact offerOnce_asked s c source kept
    | _ => cases fits

/-! ## The minutes of a registry -/

/-- What a registry is asked by the next job, and what it answers. -/
def heard (k : RegistryId) (s : Network) : Log :=
  match s.agenda with
  | [] => []
  | j :: rest =>
    let s := { s with agenda := rest }
    ((s.registry k).asks (s.addressed k (s.asking j))).2

end Network

/-- What a registry is asked in the course of a run, each time with its answer. -/
def Registry.clerk (k : RegistryId) : Clerk (Query × Option Nat) where
  step := heard k
  start s c := ((s.registry k).asks (s.addressed k (c.asking s))).2

/-- The runner's number was given. -/
def Runner.Given (s : Network) : Runner → Prop
  | .stub x => x < s.stubs.next
  | .callback c => c < s.callbacks.next

/-- The runner lived, and does so no more. -/
def Runner.Gone (s : Network) (x : Runner) : Prop := x.Given s ∧ s.isLive x.ref = false

theorem Runner.given_of_live (live : s.isLive x.ref = true) : x.Given s := by
  cases x with
  | stub x =>
    rcases Table.contains_iff.1 live with ⟨st, here⟩
    exact Table.lt_next_of_get? here
  | callback c =>
    rcases Table.contains_iff.1 live with ⟨cb, here⟩
    exact Table.lt_next_of_get? here

/-- Numbers stay given, and who is gone does not come back. -/
structure Network.Mortal (s t : Network) : Prop where
  given : ∀ x : Runner, x.Given s → x.Given t
  gone : ∀ x : Runner, x.Gone s → x.Gone t

namespace Network

theorem Mortal.trans {u : Network} (h : Mortal s t) (g : Mortal t u) : Mortal s u :=
  ⟨fun x given => g.given x (h.given x given), fun x gone => g.gone x (h.gone x gone)⟩

/-- Stubs grow old, and so do callbacks. -/
theorem Mortal.of_ages (ages : Ages s t) (next : s.callbacks.next ≤ t.callbacks.next)
    (callbacks : ∀ c, c < s.callbacks.next → t.callbacks.contains c = true →
      s.callbacks.contains c = true) : Mortal s t := by
  have given (x : Runner) (h : x.Given s) : x.Given t := by
    cases x with
    | stub x => exact Nat.lt_of_lt_of_le h ages.given
    | callback c => exact Nat.lt_of_lt_of_le h next
  refine ⟨given, fun x gone => ⟨given x gone.1, Bool.eq_false_iff.2 fun live => ?_⟩⟩
  have dead := gone.2
  cases x with
  | stub x =>
    rcases Table.contains_iff.1 live with ⟨st', there⟩
    rcases ages.stub x st' there with new | ⟨st, here, -⟩
    · exact Nat.not_lt_of_le new gone.1
    · rw [Runner.ref, isLive, Table.contains_of_get? here] at dead
      cases dead
  | callback c =>
    rw [Runner.ref, isLive, callbacks c gone.1 live] at dead
    cases dead

theorem Mortal.of_stands (ages : Ages s t) (stands : s.fixtures.Stands t.fixtures) : Mortal s t :=
  .of_ages ages stands.given.ge fun c _ live => stands.callbacks c live

theorem start_mortal (rested : Rested True s) (permitted : c.Permitted s) :
    Mortal s (c.start s) := by
  have ages := (Call.start_moves rested permitted).ages
  have same (callbacks : (c.start s).callbacks = s.callbacks) : Mortal s (c.start s) :=
    .of_ages ages (congrArg Table.next callbacks).ge fun c _ live => callbacks ▸ live
  cases fits : c.isFitting with
  | false => exact .of_stands ages (.of_eq (start_fixtures s fits))
  | true =>
    cases c with
    | openFabric | openRegistry | register | unregister => exact same rfl
    | openInterface fabric settings =>
      exact same (congrArg Fixtures.callbacks (openInterface_fixtures s fabric settings))
    | openWorker settings plan resources =>
      exact same (congrArg Fixtures.callbacks (openWorker_fixtures s settings plan resources))
    | openCallback label registry script =>
      have opened := congrArg Fixtures.callbacks (openCallback_fixtures s label registry script)
      have next := (congrArg Table.next opened).trans (Table.next_push _ _)
      refine .of_ages ages ((Nat.le_succ _).trans_eq next.symm) fun d old live => ?_
      have pushed := congrArg (fun t => Table.contains t d) opened
      simp only [fixtures, Table.contains_push] at pushed
      have live : (s.openCallback label registry script).1.callbacks.contains d = true := live
      simpa [pushed, old.ne] using live
    | offerOnce c source kept => exact .of_stands ages (offerOnce_stands s c source kept)
    | _ => cases fits

end Network

/-! ## Honest questions -/

/-- Nobody is registered who never lived, or who is taken for dead. -/
def Registry.Query.Honest (s : Network) : Query → Prop
  | .register x alive => x.Given s ∧ alive = s.isLive x.ref
  | .unregister _ => True
  | .prune _ => False

/-- Labels name callbacks that were opened. -/
def Fixtures.Labelled (f : Fixtures) : Prop := ∀ entry ∈ f.labels, entry.2 < f.callbacks.next

theorem Fixtures.Labelled.stands {f g : Fixtures} (h : f.Labelled) (stands : f.Stands g) :
    g.Labelled := by
  intro entry there
  rw [stands.labels] at there
  exact (h entry there).trans_eq stands.given.symm

namespace Network

variable {i : RegistryId} {qs : List Query} {q : Query}

theorem parking_honest {c : Carrier} {r : Request} (asks : s.parking c r = some (i, qs))
    (hq : q ∈ qs) : q.Honest s := by
  cases c with
  | link l => cases asks
  | stub x =>
    rcases Option.bind_eq_some_iff.1 asks with ⟨st, here, asks⟩
    split at asks
    · rcases Option.map_eq_some_iff.1 asks with ⟨wk, -, same⟩
      cases same
      cases List.mem_singleton.1 hq
      exact ⟨Table.lt_next_of_get? here, (Table.contains_of_get? here).symm⟩
    · cases asks

theorem withdrawing_honest {x : StubId} (asks : s.withdrawing x = some (i, qs)) (hq : q ∈ qs) :
    q.Honest s := by
  rcases Option.bind_eq_some_iff.1 asks with ⟨st, -, asks⟩
  split at asks
  · split at asks
    · rcases Option.map_eq_some_iff.1 asks with ⟨wk, -, same⟩
      cases same
      cases List.eq_of_mem_replicate hq
      trivial
    · cases asks
  · cases asks

theorem wanting_honest (labelled : s.fixtures.Labelled) {a : Action} (hq : q ∈ s.wanting a) :
    q.Honest s := by
  cases a with
  | register label =>
    rcases List.mem_map.1 hq with ⟨c, found, rfl⟩
    exact ⟨labelled _ (lookup_mem (Option.mem_toList.1 found)), rfl⟩
  | unregister label =>
    rcases List.mem_map.1 hq with ⟨c, -, rfl⟩
    trivial
  | drop label => cases hq

/-- All but running a registry asks honestly, and running it has it let go of who is gone. -/
theorem asking_honest (labelled : s.fixtures.Labelled) {j : Job}
    (asks : s.asking j = some (i, qs)) :
    (∀ q ∈ qs, q.Honest s) ∨ qs = [.prune (s.ready i)] := by
  cases j with
  | add c r => exact .inl fun q hq => parking_honest asks hq
  | switchover x => exact .inl fun q hq => withdrawing_honest asks hq
  | run x =>
    cases x with
    | stub x => cases asks
    | callback c =>
      rcases Option.map_eq_some_iff.1 asks with ⟨cb, -, same⟩
      cases same
      refine .inl fun q hq => ?_
      rcases List.mem_flatMap.1 hq with ⟨a, -, wanted⟩
      exact wanting_honest labelled wanted
  | runRegistry k =>
    cases asks
    exact .inr rfl
  | _ => cases asks

/-- So do operations on callbacks that were opened. -/
theorem start_honest (registrable : c.Registrable s) (asks : c.asking s = some (i, qs)) (hq : q ∈ qs) :
    q.Honest s := by
  cases c with
  | register k c =>
    cases asks
    cases List.mem_singleton.1 hq
    exact ⟨registrable c rfl, rfl⟩
  | unregister k c =>
    cases asks
    cases List.mem_singleton.1 hq
    trivial
  | offerOnce c source kept =>
    cases source with
    | fresh script => exact parking_honest (s := s) asks hq
    | held id =>
      simp only [Call.asking, takeRequest] at asks
      cases here : s.held.get? id with
      | none =>
        simp only [here] at asks
        cases asks
      | some r =>
        simp only [here] at asks
        have honest := parking_honest asks hq
        cases q with
        | register x alive => cases x <;> exact honest
        | unregister x => trivial
        | prune live => exact honest
  | _ => cases asks

theorem start_labelled (h : s.fixtures.Labelled) (c : Call) : (c.start s).fixtures.Labelled := by
  have same (labels : (c.start s).labels = s.labels)
      (callbacks : (c.start s).callbacks = s.callbacks) : (c.start s).fixtures.Labelled := by
    intro entry there
    simp only [fixtures, labels, callbacks] at there ⊢
    exact h entry there
  cases fits : c.isFitting with
  | false => exact h.stands (.of_eq (start_fixtures s fits))
  | true =>
    cases c with
    | openFabric | openRegistry | register | unregister => exact same rfl rfl
    | openInterface fabric settings =>
      have opened := openInterface_fixtures s fabric settings
      exact same (congrArg Fixtures.labels opened) (congrArg Fixtures.callbacks opened)
    | openWorker settings plan resources =>
      have opened := openWorker_fixtures s settings plan resources
      exact same (congrArg Fixtures.labels opened) (congrArg Fixtures.callbacks opened)
    | openCallback label registry script =>
      have opened := openCallback_fixtures s label registry script
      intro entry there
      have labels := congrArg Fixtures.labels opened
      have next := (congrArg (fun f => f.callbacks.next) opened).trans (Table.next_push _ _)
      refine Nat.lt_of_lt_of_eq ?_ next.symm
      rcases List.mem_cons.1 (labels ▸ there) with rfl | old
      · exact Nat.lt_succ_self _
      · exact (h entry (List.mem_of_mem_filter old)).trans (Nat.lt_succ_self _)
    | offerOnce c source kept => exact h.stands (offerOnce_stands s c source kept)
    | _ => cases fits

end Network

theorem Visited.labelled {fits : Network → Call → Prop} (h : Visited fits s) :
    s.fixtures.Labelled :=
  h.fixtures_keeps (fun _ _ there => by cases there) (fun _ c hs _ => Network.start_labelled hs c)
    fun _ _ hs stands => hs.stands stands

/-! ## The law of a run -/

/-- A registry goes by its minutes: it keeps what they tell of the runners that are not gone. -/
structure Network.Minds (k : RegistryId) (log : Log) (s : Network) : Prop where
  law : Registry.Law (fun x => ¬x.Gone s) log (s.registry k)
  given : ∀ x ∈ (s.registry k).runners, x.Given s

namespace Network.Minds

variable {a : Asking}

/-- It goes on to when it is asked honestly, or to let go of who is gone. -/
theorem asked (h : Minds k log s) (mortal : Mortal s t) (asked : Asked s t a)
    (honest : ∀ i qs, a = some (i, qs) →
      (∀ q ∈ qs, q.Honest s) ∨ qs = [.prune (s.ready i)]) :
    Minds k (log ++ ((s.registry k).asks (s.addressed k a)).2) t := by
  generalize hqs : s.addressed k a = qs
  have registry : t.registry k = ((s.registry k).asks qs).1 := hqs ▸ asked k
  have cases : (∀ q ∈ qs, q.Honest s) ∨ qs = [.prune (s.ready k)] := by
    rw [← hqs]
    cases a with
    | none => exact .inl fun q hq => by cases hq
    | some asking =>
      rcases asking with ⟨i, qs'⟩
      rw [addressed_some]
      split
      · rename_i own
        exact own.1 ▸ honest i qs' rfl
      · exact .inl fun q hq => by cases hq
  have law : Registry.Law (fun x => ¬x.Gone s) (log ++ ((s.registry k).asks qs).2)
      ((s.registry k).asks qs).1 := by
    rcases cases with honest | rfl
    · refine h.law.asks fun q hq r => ?_
      have fair := honest q hq
      cases q with
      | register x alive =>
        intro stays
        rw [fair.2]
        exact Bool.eq_true_of_not_eq_false fun dead => stays ⟨fair.1, dead⟩
      | unregister x => trivial
      | prune live => exact fair.elim
    · refine h.law.ask fun x there stays => ?_
      refine List.mem_filter.2 ⟨there, ?_⟩
      exact Bool.eq_true_of_not_eq_false fun dead => stays ⟨h.given x there, dead⟩
  refine ⟨?_, fun x there => mortal.given x ?_⟩
  · rw [registry]
    exact law.mono fun x stays gone => stays (mortal.gone x gone)
  · rw [registry] at there
    rcases Registry.mem_asks there with old | ⟨q, hq, registers⟩
    · exact h.given x old
    · rcases cases with honest | rfl
      · have fair := honest q hq
        cases q with
        | register y alive =>
          cases of_decide_eq_true registers
          exact fair.1
        | unregister y => cases registers
        | prune live => cases registers
      · cases List.mem_singleton.1 hq
        cases registers

theorem mortal (h : Minds k log s) (mortal : Mortal s t) (same : t.registry k = s.registry k) :
    Minds k log t where
  law := same ▸ h.law.mono fun x stays gone => stays (mortal.gone x gone)
  given x there := mortal.given x (h.given x (same ▸ there))

end Network.Minds

/-- Wherever a run comes by, a registry goes by its minutes. -/
theorem Minutes.minds {log : Log}
    (h : Minutes (fun s c => c.Registrable s) (Registry.clerk k) log s) :
    Network.Minds k log s := by
  induction h with
  | initial process => exact ⟨.empty _, fun x there => by cases there⟩
  | @step log s before visited ih =>
    have calm := visited.calm
    rcases before.visited.moves with ⟨process, -, fit⟩
    have mortal : Mortal s s.step := .of_stands (fit.step calm).1.ages (step_stands calm)
    cases top : s.agenda with
    | nil =>
      have nothing : (Registry.clerk k).step s = [] := by simp [Registry.clerk, heard, top]
      rw [nothing, List.append_nil, step_nil top]
      exact ih
    | cons j rest =>
      have told : (Registry.clerk k).step s =
          ((s.registry k).asks (addressed { s with agenda := rest } k
            (asking { s with agenda := rest } j))).2 := by
        simp only [Registry.clerk, heard, top]
        rfl
      have popped : Mortal s { s with agenda := rest } := .of_stands (.of_eq rfl) (.of_eq rfl)
      have back : Mortal { s with agenda := rest } s := .of_stands (.of_eq rfl) (.of_eq rfl)
      have asked := perform_asked { s with agenda := rest } j
      rw [← step_eq top before.visited.calm] at asked
      rw [told]
      exact (ih.mortal popped rfl).asked (back.trans mortal) asked fun i qs asks =>
        asking_honest before.visited.labelled asks
  | start c before journey fit permitted calm ih =>
    exact ih.asked (start_mortal journey.rested permitted) (start_asked _ c) fun i qs asks =>
      .inl fun q hq => start_honest fit asks hq
  | @keep log s ref before idle visited ih =>
    have fixtures := keep_fixtures s ref
    refine ih.mortal (.of_stands (.of_eq ?_) (.of_eq fixtures)) ?_
    · unfold Network.keep
      split <;> rfl
    · exact congrArg (fun f => (f.registries.get? k).getD []) fixtures

end Wiring
