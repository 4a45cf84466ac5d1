import Mathlib
import Wiring.Proofs.Agreement
import Wiring.Proofs.Turning

/-!
# Switchovers between the parties

When a lane is connected and marked, its stub can be switched over: the lane gets its link, the link
that carried the signals is closed, and what was parked goes out over the new link. Before that, an
attempt to switch over does nothing.
-/
namespace Wiring

theorem PerCategory.eq_of_get {α : Type} {a b : PerCategory α} (h : ∀ c, a.get c = b.get c) :
    a = b := by
  have messages := h .messages
  have memory := h .memory
  have atomics := h .atomics
  cases a
  cases b
  simp only [PerCategory.get] at messages memory atomics
  rw [messages, memory, atomics]

namespace Registry

/-- A runner is unregistered a number of times. -/
def dismiss (r : Registry) (x : Runner) : Nat → Registry
  | 0 => r
  | n + 1 => ((r.remove x).1).dismiss x n

/-- A runner that is unregistered as often as it was registered is gone. -/
theorem dismiss_all (x : Runner) (n : Nat) : dismiss [(x, n + 1)] x (n + 1) = [] := by
  induction n with
  | zero => simp [dismiss, remove]
  | succ n ih =>
    have once : (Registry.remove [(x, n + 1 + 1)] x).1 = [(x, n + 1)] := by simp [remove, replace]
    rw [dismiss, once]
    exact ih

end Registry

namespace Network

theorem withdraw_get? {registries : Table Registry} {id : RegistryId} {entries : Registry}
    (here : registries.get? id = some entries) (x : Runner) (n : Nat) (r : RegistryId) :
    (withdraw registries id x n).get? r =
      if r = id then some (entries.dismiss x n) else registries.get? r := by
  induction n generalizing registries entries with
  | zero =>
    split
    · rename_i same
      rw [same]
      exact here
    · rfl
  | succ n ih =>
    have once := Table.get?_set_of here (entries.remove x).1
    rw [withdraw, here, Option.getD_some, ih ((once id).trans (if_pos rfl)), once r]
    split
    · rfl
    · rename_i other
      rw [if_neg (Ne.symm other)]

end Network

/-- Nothing is parked on a stub any more, and if something was, no runner is left to run for it. -/
def Cargo.unpark (c : Cargo) (x : StubId) (r : RegistryId) : Cargo := { c with
  parked := Function.update c.parked x []
  runners := Function.update c.runners r (if c.parked x = [] then c.runners r else some []) }

theorem Cargo.unpark_nothing {c : Cargo} {x : StubId} (empty : c.parked x = []) (r : RegistryId) :
    c.unpark x r = c := by
  have parked : Function.update c.parked x [] = c.parked := by
    rw [← empty, Function.update_eq_self]
  rw [Cargo.unpark, if_pos empty, parked, Function.update_eq_self]

/-- What was parked on a stub is handed over to its link: some numbers have gone out, and the others
wait in the queue. -/
def Cargo.pass (c : Cargo) (x : StubId) (r : RegistryId) (d : InterfaceId) (l : LinkId)
    (new : List Message) : Cargo :=
  (c.unpark x r).ship d l new ((c.parked x).drop new.length)

/-! ## Lanes -/

/-- A change of the layout leaves the lanes of a party as they are. -/
def Unharmed (o : Outfit) (p q : Party) (k k' : Layout) : Prop :=
  ∀ loc rem slots links, Aboard o p q k o.plan.lanes loc rem slots links →
    Aboard o p q k' o.plan.lanes loc rem slots links

/-- The links in whose queues something waits serve the messages of one of two parties. -/
def Cargo.Claimed (c : Cargo) (o : Outfit) (p q : Party) (k : Layout)
    (links : Category → LinkId) : Prop :=
  ∀ l, c.queue l = [] ∨ l = links .messages ∨ ∃ loc rem slots links',
    Aboard o q p k o.plan.lanes loc rem slots links' ∧ l = links' .messages

section

variable {o : Outfit} {p q : Party} {k k' k'' : Layout} {done : List Category} {size : Nat}
  {loc rem : Category → Bool} {slots : PerCategory Slot} {links : Category → LinkId} {c : Category}
  {x : StubId} {st : Stub} {l : LinkId}

theorem Unharmed.refl (o : Outfit) (p q : Party) (k : Layout) : Unharmed o p q k k :=
  fun _ _ _ _ aboard => aboard

theorem Unharmed.trans (h : Unharmed o p q k k') (g : Unharmed o p q k' k'') : Unharmed o p q k k'' :=
  fun _ _ _ _ aboard => g _ _ _ _ (h _ _ _ _ aboard)

theorem Cargo.Claimed.later {c : Cargo} (h : c.Claimed o p q k links) (unharmed : Unharmed o q p k k') :
    c.Claimed o p q k' links := by
  intro l
  rcases h l with empty | same | ⟨loc, rem, slots, links', aboard, same⟩
  · exact .inl empty
  · exact .inr (.inl same)
  · exact .inr (.inr ⟨loc, rem, slots, links', unharmed _ _ _ _ aboard, same⟩)

theorem Unharmed.of_clear (fair : o.Fair size) (clear : ClearOf o p k k') : Unharmed o p q k k' :=
  fun _ _ _ _ aboard => aboard.clear (fun _ hc => fair.serves_lt hc) clear

/-- What a party switches over is not the other one's. -/
theorem Strangers.promote (h : Strangers o p q) (own : st.endpoint = p.endpoint)
    (stub : k.stub x = some st) (l : LinkId) (ep : Endpoint) :
    ClearOf o q k (k.promote x st l ep) where
  worker := rfl
  endpoint := Function.update_of_ne (fun same => h.endpoint (own.symm.trans same.symm)) _ _
  course _ _ here _ := here
  stub y st' here own' := by
    have other : y ≠ x := by
      rintro rfl
      cases stub.symm.trans here
      exact h.endpoint (own.symm.trans own')
    rw [← here]
    exact Function.update_of_ne other _ _

namespace Aboard

/-- The stub of a lane that is ready, and its link. -/
theorem ready (h : Aboard o p q k done loc rem slots links) (hc : c ∈ done)
    (slot : slots.get c = some (.stub x)) : ∃ st, k.stub x = some st ∧ st.endpoint = p.endpoint ∧
      st.category = c ∧ st.next = some (links c) ∧ st.promoted = none ∧
      st.auxiliary ≠ some (links c) ∧ st.localConnected = loc c ∧ st.remoteConnected = rem c ∧
      o.paired c = true ∧ k.course (links c) =
        some (o.course p (o.serves c) (if loc c then some (q.at (o.meets c)) else none)) := by
  have lane := h.lanes c hc
  rw [slot] at lane
  generalize links c = l at lane ⊢
  cases lane with
  | waiting _ st _ paired stub own category next sole marks course =>
    exact ⟨st, stub, own, category, next, sole.1, sole.2, marks.1, marks.2, paired, course⟩

/-- A lane that is ready gets its link. -/
theorem promote (h : Aboard o p q k done loc rem slots links)
    (unshared : ∀ lane c, o.plan.shares lane c = (c == lane)) (hc : c ∈ done)
    (ready : (loc c && rem c) = true) (slot : slots.get c = some (.stub x))
    (stub : k.stub x = some st) :
    Aboard o p q (k.promote x st (links c) (o.endpoint p q slots)) done loc rem
      (slots.set c (some (.link (links c)))) links := by
  rcases h.ready hc slot with ⟨st', stub', own, category, next, -, -, -, -, -, course⟩
  cases stub.symm.trans stub'
  have promoted : Network.promoteSlots (o.endpoint p q slots) x st.category (links c) =
      o.endpoint p q (slots.set c (some (.link (links c)))) := by
    unfold Network.promoteSlots
    congr 1
    refine PerCategory.eq_of_get fun d => ?_
    have same : (o.endpoint p q slots).slots = slots := rfl
    have plan : (o.endpoint p q slots).plan = o.plan := rfl
    simp only [PerCategory.get_mapWith, PerCategory.get_set, same, plan, unshared, category,
      beq_iff_eq]
    by_cases chosen : d = c
    · rw [if_pos chosen, if_pos ⟨chosen, chosen ▸ slot⟩]
    · rw [if_neg chosen, if_neg fun both => chosen both.1]
  refine ⟨h.worker, ?_, fun d hd => ?_, fun d hd => ?_, h.apart⟩
  · rw [Layout.promote, own, promoted]
    exact Function.update_self ..
  · rw [PerCategory.get_set]
    by_cases chosen : d = c
    · subst chosen
      rw [if_pos rfl]
      refine .linked _ (.inr ready) ?_
      rw [(Bool.and_eq_true_iff.1 ready).1, if_pos rfl] at course
      exact course
    · rw [if_neg chosen]
      have lane := h.lanes d hd
      generalize hs : slots.get d = slot' at lane ⊢
      generalize links d = l at lane ⊢
      cases lane with
      | linked _ free course => exact .linked _ free course
      | waiting y st' _ paired stub' own' category' next' sole marks course =>
        have other : y ≠ x := fun same => chosen (h.stub_inj hd hc hs slot same)
        refine .waiting y st' _ paired ?_ own' category' next' sole marks course
        rw [← stub']
        exact Function.update_of_ne other _ _
  · have other : d ≠ c := fun same => hd (same ▸ hc)
    rw [PerCategory.get_set, if_neg other]
    exact h.others d hd

end Aboard

end

namespace Network

variable {o : Outfit} {ps : List Party} {p q : Party} {s t u : Network} {size n m a b k : Nat}
  {loc rem : Category → Bool} {slots : PerCategory Slot} {links : Category → LinkId} {v l : LinkId}
  {c c' : Cargo} {d : Category} {x : StubId} {st : Stub} {P Q : Network → Prop}

namespace Stage

/-! ## Attempts to switch over -/

/-- What a party knows of a stub of its own when it tries to switch it over. -/
theorem looks (h : Stage o ps c s)
    (aboard : Aboard o p q s.layout o.plan.lanes loc rem slots links) (hd : d ∈ o.plan.lanes)
    (slot : slots.get d = some (.stub x)) : ∃ st wk, s.stubs.get? x = some st ∧
      st.endpoint = p.endpoint ∧ st.category = d ∧ st.next = some (links d) ∧
      st.auxiliary ≠ some (links d) ∧ st.parked = c.parked x ∧
      st.isConnected = (loc d && rem d) ∧ s.workers.get? p.worker = some wk ∧
      wk.registry = p.registry ∧ ∀ agenda, perform { s with agenda } (.switchover x) =
        if loc d && rem d then switch { s with agenda } x st p.worker (links d)
        else { s with agenda } := by
  rcases aboard.ready hd slot with
    ⟨st', stub, own, category, next, promoted, sole, joined, marked, paired, course⟩
  rcases Option.map_eq_some_iff.1 stub with ⟨st, here, rfl⟩
  rcases Option.map_eq_some_iff.1 aboard.worker with ⟨wk, books, seat⟩
  have own : st.endpoint = p.endpoint := own
  have next : st.next = some (links d) := next
  have posted : wk.posted = [] := (congrArg Worker.posted seat :)
  have registry : wk.registry = p.registry := (congrArg Worker.registry seat :)
  have connected : st.isConnected = (loc d && rem d) := by
    rw [← joined, ← marked]
    rfl
  refine ⟨st, wk, here, own, category, next, sole, h.bears.parked x st here, connected, books,
    registry, fun agenda => ?_⟩
  have endpoint : s.endpoints.get? p.endpoint = some (o.endpoint p q slots) := aboard.endpoint
  have worker : workerOf? { s with agenda } p.endpoint = some p.worker :=
    workerOf?_eq_some.2 ⟨_, endpoint, rfl, Table.contains_of_get? books⟩
  have applied := applyPosted_nothing (s := { s with agenda }) books posted
  have closed : gate { s with agenda } st.gate = 0 := by
    unfold gate
    cases there : s.gates.get? st.gate with
    | none => rfl
    | some n => exact h.scene.gates _ n there
  simp only [perform, switchover, here, Option.bind_some, own, worker, applied, next, isSwitchable,
    connected, closed, beq_self_eq_true, Bool.and_true]

/-- A stub that is not connected on both sides stays. -/
theorem declines (h : Stage o ps c s)
    (aboard : Aboard o p q s.layout o.plan.lanes loc rem slots links) (hd : d ∈ o.plan.lanes)
    (slot : slots.get d = some (.stub x)) (unready : (loc d && rem d) = false) :
    Works s [.switchover x] 1 s := by
  rcases h.looks aboard hd slot with ⟨st, wk, -, -, -, -, -, -, -, -, -, done⟩
  refine .one h.scene.calm fun agenda => ?_
  rw [done, unready]
  rfl

/-- What is left by a stub that was switched over. -/
structure Crossed (p : Party) (links : Category → LinkId) (d : Category) (x : StubId) (s : Network)
    (c : Cargo) : Prop where
  empty : c.parked x = []
  stub : ∃ st, s.layout.stub x = some st ∧ st.endpoint = p.endpoint ∧ st.next = none ∧
    st.auxiliary = none ∧ st.promoted = some (links d)

/-- A stub that is connected on both sides gives its link to its lane. The link for signals is then
to be released, and what was parked is to be handed over. -/
theorem turns (h : Stage o ps c s) (fair : o.Fair size) (strangers : Strangers o p q)
    (aboard : Aboard o p q s.layout o.plan.lanes loc rem slots links) (hd : d ∈ o.plan.lanes)
    (slot : slots.get d = some (.stub x)) (ready : (loc d && rem d) = true)
    (served : c.parked x = [] ∨
      c.runners p.registry = some [(.stub x, (c.parked x).length)]) :
    ∃ t aux, (∀ agenda, perform { s with agenda } (.switchover x) = { t with
        agenda := releaseLink? aux
          ++ (c.parked x).flatMap (fun r => [.add (.link (links d)) r, .replayed p.worker])
          ++ [.release (.link (links d)), .release (.worker p.worker),
            .release (.endpoint p.endpoint)] ++ agenda }) ∧
      aux ≠ some (links d) ∧ Scene o ps t ∧ Bears (c.unpark x p.registry) t ∧
      (∀ k, t.links.contains k = true → t.isOwned (.link k) = true ∨ aux = some k) ∧
      Aboard o p q t.layout o.plan.lanes loc rem (slots.set d (some (.link (links d)))) links ∧
      Unharmed o q p s.layout t.layout ∧ Crossed p links d x t (c.unpark x p.registry) ∧
      (∀ y, y ≠ x → t.layout.stub y = s.layout.stub y) ∧ t.links = s.links := by
  rcases h.looks aboard hd slot with
    ⟨st, wk, here, own, category, next, sole, parked, connected, books, registry, done⟩
  rcases aboard.ready hd slot with ⟨st', stub, -, -, -, promoted, -, -, -, -, course⟩
  have stand : s.layout.stub x = some st.stand := Option.map_eq_some_iff.2 ⟨st, here, rfl⟩
  cases stand.symm.trans stub
  have unpromoted : st.promoted = none := promoted
  have endpoint : s.endpoints.get? st.endpoint = some (o.endpoint p q slots) :=
    own ▸ aboard.endpoint
  let st₁ : Stub :=
    { st with next := none, auxiliary := none, parked := [], promoted := some (links d) }
  let t : Network := { s with
    stubs := s.stubs.set x st₁
    tally := s.tally + 1
    trace := s.trace.push (.switched x (links d))
    registries := withdraw s.registries wk.registry (.stub x) st.parked.length
    endpoints := s.endpoints.modify st.endpoint fun e => promoteSlots e x st.category (links d) }
  have layout : t.layout = s.layout.promote x st.stand (links d) (o.endpoint p q slots) := by
    rw [← switch_layout (l := links d) here books endpoint, switch_eq x st books]
    rfl
  have stubs : t.layout.stub x = some st₁ := by
    rw [layout]
    exact Function.update_self ..
  have aboard₁ := aboard.promote fair.shares hd ready slot stub
  have spares : Unharmed o q p s.layout t.layout := by
    rw [layout]
    exact .of_clear fair (strangers.promote (show st.stand.endpoint = p.endpoint from own) stub _ _)
  rw [← layout] at aboard₁
  refine ⟨t, st.auxiliary, fun agenda => ?_, sole, ?_, ?_, fun k live => ?_, aboard₁, spares,
    ⟨Function.update_self .., st₁, stubs, own, rfl, rfl, rfl⟩, fun y other => ?_, rfl⟩
  · rw [done, ready, if_pos rfl, switch_eq (s := { s with agenda }) x st books, replay, ← parked, ← own]
  · exact h.scene.next rfl rfl (fun _ => rfl) (fun _ _ => .inl) id (fun _ => id) fun _ => id
  · exact {
      mail := h.bears.mail
      links := h.bears.links
      parked := fun y st' there => by
        simp only [t, Table.get?_set_of here] at there
        simp only [Cargo.unpark, Function.update_apply]
        by_cases same : x = y
        · rw [if_pos same] at there
          rw [if_pos same.symm, ← Option.some.inj there]
        · rw [if_neg same] at there
          rw [if_neg (Ne.symm same)]
          exact h.bears.parked y st' there
      runners := fun r => by
        have before : t.registries = withdraw s.registries p.registry (.stub x)
            (c.parked x).length := by rw [← registry, ← parked]
        rw [before]
        simp only [Cargo.unpark, Function.update_apply]
        rcases served with empty | served
        · rw [empty, if_pos rfl]
          split
          · rename_i chosen
            rw [chosen]
            exact h.bears.runners p.registry
          · exact h.bears.runners r
        · rw [withdraw_get? ((h.bears.runners _).trans served)]
          split
          · split
            · rename_i empty
              rw [served, empty]
              rfl
            · rename_i full
              rcases List.exists_cons_of_ne_nil full with ⟨first, others, split⟩
              rw [split, List.length_cons, Registry.dismiss_all]
          · exact h.bears.runners r
      arrived := (arrivalCount_push _ rfl).trans h.bears.arrived
      freshLinks := h.bears.freshLinks
      freshStubs := fun y hy => by
        have given := Table.lt_next_of_get? here
        simp only [t, Table.next_set] at hy
        simp only [Cargo.unpark, Function.update_apply, if_neg (show y ≠ x by omega)]
        exact h.bears.freshStubs y hy }
  · -- only the link for signals loses its owner
    rcases isOwned_iff.1 (h.housed k live) with ⟨w, wk, -, owns⟩ | ⟨e, ep, carrier, there, owns, same⟩ |
      ⟨y, st', l, there, owns, same⟩
    · rcases owns with ⟨r, -, same⟩ | ⟨entry, -, same⟩ <;> cases same
    · cases carrier with
      | stub y => cases same
      | link l =>
        cases same
        rcases Endpoint.owns_iff.1 owns with ⟨c', slot'⟩
        by_cases own' : e = st.endpoint
        · subst own'
          cases there.symm.trans endpoint
          refine .inl (isOwned_iff.2 (.inr (.inl ⟨_, _, .link k, aboard₁.endpoint,
            Endpoint.owns_iff.2 ⟨c', ?_⟩, rfl⟩)))
          have other : c' ≠ d := by
            rintro rfl
            cases slot.symm.trans slot'
          have slot' : slots.get c' = some (.link k) := slot'
          have kept : (slots.set d (some (.link (links d)))).get c' = some (.link k) := by
            rw [PerCategory.get_set, if_neg other, slot']
          exact kept
        · refine .inl (isOwned_iff.2 (.inr (.inl ⟨e, ep, .link k, ?_, owns, rfl⟩)))
          simp only [t, Table.get?_modify, if_neg (Ne.symm own'), there]
    · cases same
      by_cases chosen : y = x
      · subst chosen
        cases here.symm.trans there
        rcases owns with owns | owns | owns
        · cases next.symm.trans owns
          refine .inl (isOwned_iff.2 (.inr (.inl ⟨_, _, .link (links d), aboard₁.endpoint,
            Endpoint.owns_iff.2 ⟨d, ?_⟩, rfl⟩)))
          have given : (slots.set d (some (.link (links d)))).get d = some (.link (links d)) := by
            rw [PerCategory.get_set, if_pos rfl]
          exact given
        · exact .inr owns
        · cases unpromoted.symm.trans owns
      · refine .inl (isOwned_iff.2 (.inr (.inr ⟨y, st', k, ?_, owns, rfl⟩)))
        simp only [t, Table.get?_set_of here, if_neg (Ne.symm chosen), there]
  · rw [layout]
    exact Function.update_of_ne other _ _

end Stage

/-! ## Links that are closed -/

/-- A party owns the links of its lanes. -/
theorem isOwned_aboard (aboard : Aboard o p q s.layout o.plan.lanes loc rem slots links)
    (hd : d ∈ o.plan.lanes) : s.isOwned (.link (links d)) = true := by
  have lane := aboard.lanes d hd
  generalize hs : slots.get d = slot at lane
  generalize hl : links d = l at lane
  cases lane with
  | linked _ free course =>
    exact isOwned_iff.2 (.inr (.inl ⟨_, _, .link l, aboard.endpoint,
      Endpoint.owns_iff.2 ⟨d, hs⟩, rfl⟩))
  | waiting x st _ paired stub own category next =>
    rcases Option.map_eq_some_iff.1 stub with ⟨st', here, rfl⟩
    exact isOwned_iff.2 (.inr (.inr ⟨x, st', l, here, .inl next, rfl⟩))

/-- A link that nothing owns is none of the lanes of a party. -/
theorem Unharmed.of_erase {a : LinkId} (free : s.isOwned (.link a) = false)
    (course : ∀ l, l ≠ a → t.layout.course l = s.layout.course l)
    (stub : t.layout.stub = s.layout.stub) (endpoint : t.layout.endpoint = s.layout.endpoint)
    (worker : t.layout.worker = s.layout.worker) : Unharmed o p q s.layout t.layout := by
  intro loc rem slots links aboard
  refine ⟨worker ▸ aboard.worker, endpoint ▸ aboard.endpoint, fun d hd => ?_, aboard.others,
    aboard.apart⟩
  have other : links d ≠ a := by
    rintro rfl
    rw [isOwned_aboard aboard hd] at free
    cases free
  have same := course (links d) other
  have lane := aboard.lanes d hd
  generalize links d = l at lane same
  generalize slots.get d = slot at lane
  cases lane with
  | linked _ free here => exact .linked _ free (same.trans here)
  | waiting x st _ paired here own category next sole marks here' =>
    exact .waiting x st _ paired (stub ▸ here) own category next sole marks (same.trans here')

/-- A link that is no longer needed is closed, unless somebody still owns it. -/
theorem closes {aux : Option LinkId} (scene : Scene o ps t) (bears : Bears c t)
    (owned : ∀ k, t.links.contains k = true → t.isOwned (.link k) = true ∨ aux = some k)
    (empty : ∀ k, t.isOwned (.link k) = false → c.queue k = []) {rest : List Job}
    (unheld : ∀ k, aux = some k → .release (.link k) ∉ rest) :
    ∃ u, Reaches rest t (releaseLink? aux) 1 u ∧ Stage o ps c u ∧
      (∀ p q, Unharmed o p q t.layout u.layout) ∧ u.layout.stub = t.layout.stub ∧
      u.links.next = t.links.next := by
  cases aux with
  | none =>
    refine ⟨t, (Reaches.refl rest t).mono (Nat.zero_le 1), ⟨scene, fun k live => ?_, bears⟩,
      fun _ _ => .refl _ _ _ _, rfl, rfl⟩
    exact (owned k live).resolve_right (by simp)
  | some a =>
    cases own : t.isOwned (.link a) with
    | true =>
      have firm : t.Firm (.link a) := .inr own
      refine ⟨t, firm.released scene.calm rest, ⟨scene, fun k live => ?_, bears⟩,
        fun _ _ => .refl _ _ _ _, rfl, rfl⟩
      rcases owned k live with owns | same
      · exact owns
      · cases same
        exact own
    | false =>
      let u : Network := { t with links := t.links.erase a }
      have free : isHeld { t with agenda := rest } (.link a) = false := by
        rw [Bool.eq_false_iff]
        intro held
        rcases isHeld_iff.1 held with held | held | held
        · exact scene.unheld a held
        · exact unheld a rfl held
        · have held : t.isOwned (.link a) = true := held
          rw [own] at held
          cases held
      have done : perform { t with agenda := rest } (.release (.link a)) =
          { u with agenda := rest } := by
        simp only [perform, release, free, Bool.false_eq_true, if_false, retire, retireLink, u]
        cases here : t.links.get? a with
        | none => simp only [Table.erase_of_none here]
        | some lk =>
          have queue : lk.queue = [] := (bears.links a lk here).2.trans (empty a own)
          simp only [queue, List.foldl_nil]
      refine ⟨u, .one scene.calm done, ⟨scene.next rfl rfl (fun _ => rfl) (fun _ _ => .inl) id
        (fun _ => id) fun _ => id, fun k live => ?_, ?_⟩, fun p q => ?_, rfl, ?_⟩
      · have live : (t.links.erase a).contains k = true := live
        rw [Table.contains_erase, Bool.and_eq_true, decide_eq_true_eq] at live
        rcases owned k live.2 with owns | same
        · exact owns
        · exact absurd (Option.some.inj same) live.1
      · refine bears.carry (fun i f here => ⟨f, here, rfl⟩) (fun l lk here => .inr ?_)
          (fun x st here => .inr ⟨st, here, rfl⟩) rfl rfl ⟨?_, le_rfl⟩
        · exact ⟨lk, Table.get?_of_erase here, rfl, rfl, rfl⟩
        · exact (Table.next_erase ..).ge
      · refine Unharmed.of_erase own (fun l other => ?_) rfl rfl rfl
        simp only [Network.layout, u, Table.get?_erase, if_neg (Ne.symm other)]
      · exact Table.next_erase ..

namespace Stage

/-! ## Switching over -/

/-- After a switchover what was parked is handed over, and the things in use stay. -/
theorem crosses (h : Stage o ps c s) (fair : o.Fair size) (strangers : Strangers o p q)
    (aboard : Aboard o p q s.layout o.plan.lanes loc rem slots links) (hd : d ∈ o.plan.lanes)
    (slot : slots.get d = some (.stub x)) (ready : (loc d && rem d) = true)
    (served : c.parked x = [] ∨
      c.runners p.registry = some [(.stub x, (c.parked x).length)])
    (claimed : c.Claimed o p q s.layout links)
    (hands : ∀ t, Stage o ps (c.unpark x p.registry) t →
      Aboard o p q t.layout o.plan.lanes loc rem (slots.set d (some (.link (links d)))) links →
      Unharmed o q p s.layout t.layout → Crossed p links d x t (c.unpark x p.registry) →
      (∀ y, y ≠ x → t.layout.stub y = s.layout.stub y) → t.links.next = s.links.next → ∃ u, Works t
        ((c.parked x).flatMap fun r => [.add (.link (links d)) r, .replayed p.worker]) n u ∧ Q u)
    (stays : ∀ t, Q t → t.violation = none ∧ t.Firm (.link (links d)) ∧
      t.Firm (.worker p.worker) ∧ t.Firm (.endpoint p.endpoint)) :
    Brings s [.switchover x] (n + 5) Q := by
  rcases h.turns fair strangers aboard hd slot ready served with
    ⟨t, aux, done, sole, scene, bears, owned, aboard', unharmed, crossed, others, same⟩
  intro rest loose
  let more : List Job := (c.parked x).flatMap
    fun r => [.add (.link (links d)) r, .replayed p.worker]
  let last : List Job := [.release (.link (links d)), .release (.worker p.worker),
    .release (.endpoint p.endpoint)]
  have empty (k : LinkId) (free : t.isOwned (.link k) = false) :
      (c.unpark x p.registry).queue k = [] := by
    rcases claimed.later unharmed k with empty | rfl | ⟨loc, rem, slots, links', other, rfl⟩
    · exact empty
    · rw [isOwned_aboard aboard' fair.messages] at free
      cases free
    · rw [isOwned_aboard other fair.messages] at free
      cases free
  have unheld (k : LinkId) (chosen : aux = some k) :
      .release (.link k) ∉ more ++ (last ++ rest) := by
    intro mem
    rcases List.mem_append.1 mem with mem | mem
    · rcases List.mem_flatMap.1 mem with ⟨r, -, mem⟩
      simp at mem
    · rcases List.mem_append.1 mem with mem | mem
      · simp only [last, List.mem_cons, Job.release.injEq, Ref.link.injEq, reduceCtorEq,
          List.not_mem_nil, or_false] at mem
        exact sole (chosen.trans (congrArg some mem))
      · exact loose k mem
  rcases closes scene bears owned empty unheld with
    ⟨u, closed, stage, spared, stub, next⟩
  have crossed' : Crossed p links d x u (c.unpark x p.registry) := ⟨crossed.empty, by
    rw [stub]
    exact crossed.stub⟩
  rcases hands u stage (spared p q _ _ _ _ aboard') (unharmed.trans (spared q p)) crossed'
    (fun y other => by rw [stub, others y other]) (by rw [next, same]) with ⟨v, handed, holds⟩
  rcases stays v holds with ⟨calm, link, worker, endpoint⟩
  have ended : Works v last 3 v :=
    (link.released calm).cons ((worker.released calm).cons (endpoint.released calm))
  refine ⟨v, ?_, holds⟩
  rw [← List.append_assoc] at closed
  have all : Reaches rest t (releaseLink? aux ++ (more ++ last)) (1 + (n + 3)) v :=
    closed.trans ((handed.trans ended) rest)
  refine (all.into h.scene.calm ?_).mono (by omega)
  rw [done, ← List.append_assoc (releaseLink? aux)]

/-- What serves a lane of a party, its worker and its endpoint stay. -/
theorem firmly (h : Stage o ps c s) (hp : p ∈ ps)
    (aboard : Aboard o p q s.layout o.plan.lanes loc rem slots links) {carrier : Carrier}
    (slot : slots.get d = some carrier) :
    s.Firm carrier.ref ∧ s.Firm (.worker p.worker) ∧ s.Firm (.endpoint p.endpoint) := by
  rcases Option.map_eq_some_iff.1 aboard.worker with ⟨wk, books, seat⟩
  have directory : wk.directory = [(q.uuid, p.endpoint)] := (congrArg Worker.directory seat :)
  refine ⟨firm_of_slot aboard.endpoint slot, .inl (h.scene.attended p hp),
    .inr (isOwned_iff.2 (.inl ⟨p.worker, wk, books, .inr ⟨(q.uuid, p.endpoint), ?_, rfl⟩⟩))⟩
  rw [directory]
  exact List.mem_cons_self

/-- A stub on which nothing is parked is switched over, and the cargo stays where it is. -/
theorem switches (h : Stage o ps c s) (fair : o.Fair size) (strangers : Strangers o p q)
    (hp : p ∈ ps) (aboard : Aboard o p q s.layout o.plan.lanes loc rem slots links)
    (hd : d ∈ o.plan.lanes) (slot : slots.get d = some (.stub x)) (ready : (loc d && rem d) = true)
    (empty : c.parked x = []) (claimed : c.Claimed o p q s.layout links) :
    Brings s [.switchover x] 5 fun t => Stage o ps c t ∧
      Aboard o p q t.layout o.plan.lanes loc rem (slots.set d (some (.link (links d)))) links ∧
      Unharmed o q p s.layout t.layout ∧ Crossed p links d x t c ∧
      (∀ y, y ≠ x → t.layout.stub y = s.layout.stub y) ∧ t.links.next = s.links.next := by
  have same := c.unpark_nothing empty p.registry
  refine h.crosses (n := 0) fair strangers aboard hd slot ready (.inl empty) claimed
    (fun t stage aboard' unharmed crossed others next => ⟨t, ?_, ?_⟩) fun t holds => ?_
  · rw [empty]
    exact .refl t
  · rw [same] at stage crossed
    exact ⟨stage, aboard', unharmed, crossed, others, next⟩
  · rcases holds with ⟨stage, aboard', -⟩
    have given : (slots.set d (some (.link (links d)))).get d = some (.link (links d)) := by
      rw [PerCategory.get_set, if_pos rfl]
    exact ⟨stage.scene.calm, stage.firmly hp aboard' given⟩

/-- The stub of the messages was switched over, and the numbers that were parked on it have gone out
as long as there were credits. -/
structure Passed (o : Outfit) (ps : List Party) (p q : Party) (c : Cargo) (s : Network)
    (loc rem : Category → Bool) (slots : PerCategory Slot) (links : Category → LinkId) (x : StubId)
    (new : List Message) (t : Network) : Prop where
  few : new.length = min ((o.settings (o.serves .messages)).credits - c.used (links .messages))
    (c.parked x).length
  numbers : ∀ msg ∈ new, msg.IsNumber (links .messages)
  stage : Stage o ps (c.pass x p.registry (q.at (o.meets .messages)) (links .messages) new) t
  aboard : Aboard o p q t.layout o.plan.lanes loc rem
    (slots.set .messages (some (.link (links .messages)))) links
  unharmed : Unharmed o q p s.layout t.layout
  next : t.links.next = s.links.next

/-- When the stub of the messages is switched over, the numbers that were parked on it go out over
its link as long as there are credits, and the others wait in the queue. -/
theorem switches_messages (h : Stage o ps c s) (fair : o.Fair size) (strangers : Strangers o p q)
    (hp : p ∈ ps) (hq : q ∈ ps)
    (aboard : Aboard o p q s.layout o.plan.lanes loc rem slots links)
    (slot : slots.messages = some (.stub x)) (ready : (loc .messages && rem .messages) = true)
    (numbers : ∀ r ∈ c.parked x, r.IsNumber p.endpoint)
    (served : c.parked x = [] ∨ c.runners p.registry = some [(.stub x, (c.parked x).length)])
    (quiet : ∀ k, c.queue k = []) :
    Brings s [.switchover x] (5 * (c.parked x).length + 5) fun t => ∃ new : List Message,
      Passed o ps p q c s loc rem slots links x new t ∧ Crossed p links .messages x t
        (c.pass x p.registry (q.at (o.meets .messages)) (links .messages) new) := by
  refine h.crosses fair strangers aboard fair.messages slot ready served
    (fun k => .inl (quiet k)) (fun t stage aboard' unharmed crossed _ next => ?_) fun t holds => ?_
  · rcases stage.replays fair hq aboard' rfl (quiet _) p.worker numbers with
      ⟨u, new, trades, few, numbers', shipped, works⟩
    refine ⟨u, works, new, ⟨few, numbers', shipped, ?_, ?_, trades.given.1.trans next⟩,
      ⟨crossed.empty, ?_⟩⟩
    · rw [trades.layout]
      exact aboard'
    · rw [trades.layout]
      exact unharmed
    · rw [trades.layout]
      exact crossed.stub
  · rcases holds with ⟨new, passed, -⟩
    exact ⟨passed.stage.scene.calm, passed.stage.firmly hp passed.aboard (d := .messages) rfl⟩

end Stage

end Network

end Wiring
