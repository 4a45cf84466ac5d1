import Mathlib
import Wiring.Proofs.Crossing

/-!
# Stubs that go

A stub that is switched over leaves nothing behind when it goes. When an endpoint progresses, its
stubs are switched over and go, or stay where they are until both sides are connected; a registry
that runs a stub does the same with it, and with what was parked on it.
-/
namespace Wiring

namespace Network

variable {o : Outfit} {ps : List Party} {p q : Party} {s t u : Network} {size n m a b k : Nat}
  {loc rem : Category → Bool} {slots : PerCategory Slot} {links : Category → LinkId} {v l : LinkId}
  {c c' : Cargo} {d : Category} {x : StubId} {st : Stub} {P Q : Network → Prop}

/-! ## What is left behind -/


/-- A stub that nothing owns serves no lane of a party. -/
theorem Unharmed.of_eraseStub (free : s.isOwned (.stub x) = false)
    (stub : ∀ y, y ≠ x → t.layout.stub y = s.layout.stub y)
    (course : t.layout.course = s.layout.course) (endpoint : t.layout.endpoint = s.layout.endpoint)
    (worker : t.layout.worker = s.layout.worker) : Unharmed o p q s.layout t.layout := by
  intro loc rem slots links aboard
  refine ⟨worker ▸ aboard.worker, endpoint ▸ aboard.endpoint, fun d hd => ?_, aboard.others,
    aboard.apart⟩
  have lane := aboard.lanes d hd
  generalize links d = l at lane
  generalize hs : slots.get d = slot at lane
  cases lane with
  | linked _ unpaired here => exact .linked _ unpaired (course ▸ here)
  | waiting y st _ paired here own category next sole marks here' =>
    have other : y ≠ x := by
      rintro rfl
      have owned : s.isOwned (.stub y) = true := isOwned_iff.2 (.inr (.inl ⟨_, _, .stub y,
        aboard.endpoint, Endpoint.owns_iff.2 ⟨d, hs⟩, rfl⟩))
      rw [free] at owned
      cases owned
    exact .waiting y st _ paired ((stub y other).trans here) own category next sole marks
      (course ▸ here')

/-- A stub that was switched over leaves nothing behind when it goes. -/
theorem Stage.departs (h : Stage o ps c s)
    (aboard : Aboard o p q s.layout o.plan.lanes loc rem slots links)
    (slot : slots.get d = some (.link (links d))) (crossed : Stage.Crossed p links d x s c) :
    Brings s [.release (.stub x)] 2 fun t => Stage o ps c t ∧
      (∀ p q, Unharmed o p q s.layout t.layout) ∧
      (∀ y, y ≠ x → t.layout.stub y = s.layout.stub y) ∧ t.links = s.links := by
  rcases crossed.stub with ⟨st', stub, own, next, auxiliary, promoted⟩
  rcases Option.map_eq_some_iff.1 stub with ⟨st, here, rfl⟩
  have next : st.next = none := next
  have auxiliary : st.auxiliary = none := auxiliary
  have promoted : st.promoted = some (links d) := promoted
  have parked : st.parked = [] := (h.bears.parked x st here).trans crossed.empty
  intro rest loose
  cases held : isHeld { s with agenda := rest } (.stub x) with
  | true =>
    refine ⟨s, (Reaches.one h.scene.calm ?_).mono (Nat.le_succ 1), h, fun _ _ => .refl _ _ _ _,
      fun _ _ => rfl, rfl⟩
    simp only [perform, release, held, if_true]
  | false =>
    let t : Network := { s with stubs := s.stubs.erase x }
    have free : s.isOwned (.stub x) = false := by
      rw [Bool.eq_false_iff]
      intro owned
      have held' : isHeld { s with agenda := rest } (.stub x) = true := isHeld_of_owned owned
      rw [held] at held'
      cases held'
    have stubs (y : StubId) (other : y ≠ x) : t.layout.stub y = s.layout.stub y := by
      simp only [Network.layout, t, Table.get?_erase, if_neg (Ne.symm other)]
    have unharmed (p q : Party) : Unharmed o p q s.layout t.layout :=
      Unharmed.of_eraseStub free stubs rfl rfl rfl
    have link : t.Firm (.link (links d)) := firm_of_slot (unharmed p q _ _ _ _ aboard).endpoint slot
    have done : perform { s with agenda := rest } (.release (.stub x)) =
        { t with agenda := [.release (.link (links d))] ++ rest } := by
      simp only [perform, release, held, Bool.false_eq_true, if_false, retire, retireStub, here,
        parked, List.isEmpty_nil, if_true, next, auxiliary, promoted]
      rfl
    refine ⟨t, (link.released h.scene.calm rest).into h.scene.calm done, ⟨h.scene.next rfl rfl
      (fun _ => rfl) (fun _ _ => .inl) id (fun _ => id) fun _ => id, fun k live => ?_, ?_⟩, unharmed,
      stubs, rfl⟩
    · rcases isOwned_iff.1 (h.housed k live) with ⟨w, wk, there, owns⟩ |
        ⟨e, ep, carrier, there, owns, same⟩ | ⟨y, st', l, there, owns, same⟩
      · exact isOwned_iff.2 (.inl ⟨w, wk, there, owns⟩)
      · exact isOwned_iff.2 (.inr (.inl ⟨e, ep, carrier, there, owns, same⟩))
      · cases same
        by_cases chosen : y = x
        · subst chosen
          cases here.symm.trans there
          rcases owns with owns | owns | owns
          · cases next.symm.trans owns
          · cases auxiliary.symm.trans owns
          · cases promoted.symm.trans owns
            have hd : d ∈ o.plan.lanes := by
              by_contra others
              rw [aboard.others d others] at slot
              cases slot
            exact isOwned_aboard (unharmed p q _ _ _ _ aboard) hd
        · refine isOwned_iff.2 (.inr (.inr ⟨y, st', k, ?_, owns, rfl⟩))
          simp only [t, Table.get?_erase, if_neg (Ne.symm chosen), there]
    · exact h.bears.carry (fun i f here => ⟨f, here, rfl⟩)
        (fun l lk here => .inr ⟨lk, here, rfl, rfl, rfl⟩)
        (fun y st here => .inr ⟨st, Table.get?_of_erase here, rfl⟩) rfl rfl
        ⟨le_rfl, (Table.next_erase ..).ge⟩

namespace Stage

/-! ## Endpoints that progress -/

/-- The lanes of a party have their links. -/
def Through (o : Outfit) (slots : PerCategory Slot) (links : Category → LinkId) : Prop :=
  ∀ d ∈ o.plan.lanes, slots.get d = some (.link (links d))

/-- Stubs of lanes that are ready are switched over one after another. -/
theorem switchesAll (fair : o.Fair size) (strangers : Strangers o p q) (hp : p ∈ ps)
    (ready : ∀ d ∈ o.plan.lanes, (loc d && rem d) = true)
    (xs : List StubId) : ∀ {s slots}, Stage o ps c s →
    Aboard o p q s.layout o.plan.lanes loc rem slots links → c.Claimed o p q s.layout links →
    xs.Nodup → (∀ x ∈ xs, c.parked x = [] ∧ ∃ d ∈ o.plan.lanes, slots.get d = some (.stub x)) →
    Brings s (xs.map .switchover) (5 * xs.length) fun t => ∃ slots', Stage o ps c t ∧
      Aboard o p q t.layout o.plan.lanes loc rem slots' links ∧
      Unharmed o q p s.layout t.layout ∧
      (∀ d ∈ o.plan.lanes, slots'.get d = some (.link (links d)) ∨
        slots'.get d = slots.get d ∧ ∀ x ∈ xs, slots.get d ≠ some (.stub x)) ∧
      (∀ x ∈ xs, ∃ d, slots'.get d = some (.link (links d)) ∧ Crossed p links d x t c) ∧
      (∀ y, y ∉ xs → t.layout.stub y = s.layout.stub y) ∧ t.links.next = s.links.next := by
  induction xs with
  | nil =>
    intro s slots h aboard _ _ _
    exact .nothing ⟨slots, h, aboard, .refl _ _ _ _, fun d _ => .inr ⟨rfl, by simp⟩, by simp,
      fun _ _ => rfl, rfl⟩
  | cons x xs ih =>
    intro s slots h aboard claimed once waiting
    rcases waiting x List.mem_cons_self with ⟨empty, d, hd, slot⟩
    rw [List.nodup_cons] at once
    refine .mono ((h.switches fair strangers hp aboard hd slot (ready d hd) empty claimed).cons
      (n := 5 * xs.length) (fun l mem => ?_) fun t ht => ?_) ?_ fun _ holds => holds
    · simp at mem
    · rcases ht with ⟨stage, aboard', unharmed, crossed, others, next⟩
      refine .mono (ih stage aboard' (claimed.later unharmed) once.2 fun y hy => ?_) le_rfl fun u hu => ?_
      · rcases waiting y (List.mem_cons_of_mem _ hy) with ⟨empty', d', hd', slot'⟩
        refine ⟨empty', d', hd', ?_⟩
        have other : d' ≠ d := by
          rintro rfl
          cases slot.symm.trans slot'
          exact once.1 hy
        rw [PerCategory.get_set, if_neg other]
        exact slot'
      · rcases hu with ⟨slots', stage', aboard'', unharmed', lanes, crossed', others', next'⟩
        refine ⟨slots', stage', aboard'', unharmed.trans unharmed', fun d' hd' => ?_,
          fun y hy => ?_, fun y hy => ?_, next'.trans next⟩
        · rcases lanes d' hd' with through | ⟨same, away⟩
          · exact .inl through
          · rw [PerCategory.get_set] at same away
            by_cases chosen : d' = d
            · rw [if_pos chosen] at same
              exact .inl (chosen ▸ same)
            · rw [if_neg chosen] at same
              refine .inr ⟨same, fun y hy => ?_⟩
              rcases List.mem_cons.1 hy with rfl | hy
              · intro slot'
                exact chosen (aboard.stub_inj hd' hd slot' slot rfl)
              · have away := away y hy
                rw [if_neg chosen] at away
                exact away
        · rcases List.mem_cons.1 hy with rfl | hy
          · refine ⟨d, ?_, crossed.empty, ?_⟩
            · rcases lanes d hd with through | ⟨same, -⟩
              · exact through
              · rw [same, PerCategory.get_set, if_pos rfl]
            · rw [others' _ once.1]
              exact crossed.stub
          · exact crossed' y hy
        · rw [List.mem_cons, not_or] at hy
          exact (others' y hy.2).trans (others y hy.1)
    · rw [List.length_cons]
      omega

/-- Then they go. -/
theorem departsAll (xs : List StubId) : ∀ {s}, Stage o ps c s →
    Aboard o p q s.layout o.plan.lanes loc rem slots links → xs.Nodup →
    (∀ x ∈ xs, ∃ d, slots.get d = some (.link (links d)) ∧ Crossed p links d x s c) →
    Brings s (xs.map fun x => .release (.stub x)) (2 * xs.length) fun t => Stage o ps c t ∧
      (∀ p q, Unharmed o p q s.layout t.layout) ∧ t.links = s.links := by
  induction xs with
  | nil =>
    intro s h _ _ _
    exact .nothing ⟨h, fun _ _ => .refl _ _ _ _, rfl⟩
  | cons x xs ih =>
    intro s h aboard once crossed
    rcases crossed x List.mem_cons_self with ⟨d, slot, left⟩
    rw [List.nodup_cons] at once
    refine .mono ((h.departs aboard slot left).cons (n := 2 * xs.length) (fun l mem => ?_)
      fun t ht => ?_) ?_ fun _ holds => holds
    · simp at mem
    · rcases ht with ⟨stage, unharmed, others, same⟩
      refine .mono (ih stage (unharmed p q _ _ _ _ aboard) once.2 fun y hy => ?_) le_rfl
        fun u hu => ⟨hu.1, fun p q => (unharmed p q).trans (hu.2.1 p q), hu.2.2.trans same⟩
      rcases crossed y (List.mem_cons_of_mem _ hy) with ⟨d', slot', left'⟩
      refine ⟨d', slot', left'.empty, ?_⟩
      rw [others y fun same => once.1 (same ▸ hy)]
      exact left'.stub
    · rw [List.length_cons]
      omega

/-- The stubs in the slots of an endpoint. -/
def stubsIn (slots : PerCategory Slot) : List StubId :=
  (slots.toList.filterMap fun
    | some (.stub t) => some t
    | _ => none).eraseDups

theorem mem_stubsIn : x ∈ stubsIn slots ↔ ∃ d, slots.get d = some (.stub x) := by
  rw [stubsIn, List.mem_eraseDups, List.mem_filterMap, PerCategory.toList_eq_map]
  constructor
  · rintro ⟨slot, mem, chosen⟩
    rcases List.mem_map.1 mem with ⟨d, -, rfl⟩
    refine ⟨d, ?_⟩
    split at chosen
    · rename_i y same
      rw [same, Option.some.inj chosen]
    · cases chosen
  · rintro ⟨d, slot⟩
    exact ⟨_, List.mem_map_of_mem (Category.mem_all d), by simp [slot]⟩

theorem stubsIn_length_le (slots : PerCategory Slot) : (stubsIn slots).length ≤ 3 :=
  (length_eraseDups_le _).trans (List.length_filterMap_le _ _)

theorem nodup_eraseDups {α : Type} [BEq α] [LawfulBEq α] (as : List α) : as.eraseDups.Nodup := by
  induction bound : as.length using Nat.strong_induction_on generalizing as with
  | _ bound ih =>
    subst bound
    cases as with
    | nil => exact .nil
    | cons a as =>
      have fewer := List.length_filter_le (fun b => !b == a) as
      rw [List.eraseDups_cons, List.nodup_cons]
      refine ⟨fun mem => ?_, ih _ (Nat.lt_succ_of_le fewer) _ rfl⟩
      have kept := (List.mem_filter.1 (List.mem_eraseDups.1 mem)).2
      simp at kept

theorem nodup_stubsIn (slots : PerCategory Slot) : (stubsIn slots).Nodup := nodup_eraseDups _

theorem progressEndpoint_eq (aboard : Aboard o p q s.layout o.plan.lanes loc rem slots links) :
    s.progressEndpoint p.endpoint = s.carryOut ((stubsIn slots).map .switchover
      ++ (stubsIn slots).map fun x => .release (.stub x)) tally := by
  have here : s.endpoints.get? p.endpoint = some (o.endpoint p q slots) := aboard.endpoint
  simp only [progressEndpoint, here, ← List.map_eq_flatMap]
  rfl

/-- What is counted does not matter. -/
theorem counted (h : Stage o ps c s) (tally : Nat) : Stage o ps c { s with tally } :=
  ⟨{ h.scene with }, h.housed, { h.bears with }⟩

/-- Stubs that are not connected on both sides stay where they are. -/
theorem waits (h : Stage o ps c s) (idle : s.agenda = [])
    (aboard : Aboard o p q s.layout o.plan.lanes loc rem slots links)
    (unready : ∀ d ∈ o.plan.lanes, (loc d && rem d) = false) :
    ∃ n, s.progressEndpoint p.endpoint = ({ s with tally := 0 }, .ok n) := by
  have aboard' : Aboard o p q { s with tally := 0 }.layout o.plan.lanes loc rem slots links := aboard
  have three := stubsIn_length_le slots
  have lane {x} (hx : x ∈ stubsIn slots) : ∃ d ∈ o.plan.lanes, slots.get d = some (.stub x) := by
    rcases mem_stubsIn.1 hx with ⟨d, slot⟩
    refine ⟨d, ?_, slot⟩
    by_contra others
    rw [aboard.others d others] at slot
    cases slot
  have declined (xs : List StubId) (known : ∀ x ∈ xs, x ∈ stubsIn slots) :
      Works { s with tally := 0 } (xs.map .switchover) xs.length { s with tally := 0 } := by
    induction xs with
    | nil => exact .refl _
    | cons x xs ih =>
      rcases lane (known x List.mem_cons_self) with ⟨d, hd, slot⟩
      refine .mono (((h.counted 0).declines aboard' hd slot (unready d hd)).cons
        (ih fun y hy => known y (List.mem_cons_of_mem _ hy))) ?_
      rw [List.length_cons, Nat.add_comm]
  have released (xs : List StubId) (known : ∀ x ∈ xs, x ∈ stubsIn slots) :
      Works { s with tally := 0 } (xs.map fun x => .release (.stub x)) xs.length
        { s with tally := 0 } := by
    induction xs with
    | nil => exact .refl _
    | cons x xs ih =>
      rcases lane (known x List.mem_cons_self) with ⟨d, hd, slot⟩
      have firm : Firm { s with tally := 0 } (.stub x) := firm_of_slot aboard'.endpoint slot
      refine .mono ((firm.released h.scene.calm).cons
        (ih fun y hy => known y (List.mem_cons_of_mem _ hy))) ?_
      rw [List.length_cons, Nat.add_comm]
  have works := (declined _ fun _ hx => hx).trans (released _ fun _ hx => hx)
  have few := (push { s with tally := 0 } ((stubsIn slots).map .switchover
      ++ (stubsIn slots).map fun x => .release (.stub x))).extent_le_fuel
  refine ⟨0, ?_⟩
  rw [progressEndpoint_eq aboard, works.answers idle (by omega) h.scene.calm tally]
  simp only [← idle]

/-- When all lanes are connected on both sides they get their links. -/
theorem proceeds (h : Stage o ps c s) (idle : s.agenda = []) (fair : o.Fair size)
    (strangers : Strangers o p q) (hp : p ∈ ps)
    (aboard : Aboard o p q s.layout o.plan.lanes loc rem slots links)
    (ready : ∀ d ∈ o.plan.lanes, (loc d && rem d) = true)
    (empty : ∀ x, c.parked x = []) (claimed : c.Claimed o p q s.layout links) :
    ∃ t n slots', s.progressEndpoint p.endpoint = (t, .ok n) ∧ Stage o ps c t ∧ t.agenda = [] ∧
      Aboard o p q t.layout o.plan.lanes loc rem slots' links ∧ Through o slots' links ∧
      Unharmed o q p s.layout t.layout ∧ t.links.next = s.links.next := by
  have aboard' : Aboard o p q { s with tally := 0 }.layout o.plan.lanes loc rem slots links := aboard
  have three := stubsIn_length_le slots
  have switched := switchesAll fair strangers hp ready (stubsIn slots) (h.counted 0) aboard' claimed
    (nodup_stubsIn slots) fun x hx => by
      rcases mem_stubsIn.1 hx with ⟨d, slot⟩
      refine ⟨empty x, d, ?_, slot⟩
      by_contra others
      rw [aboard.others d others] at slot
      cases slot
  have loose : Loose ((stubsIn slots).map fun x => .release (.stub x)) := fun l mem => by
    simp at mem
  have brings := switched.trans (n := 2 * 3) (Q := fun t => ∃ slots', Stage o ps c t ∧
      Aboard o p q t.layout o.plan.lanes loc rem slots' links ∧ Through o slots' links ∧
      Unharmed o q p s.layout t.layout ∧ t.links.next = s.links.next) loose
    fun t ht => by
      rcases ht with ⟨slots', stage, aboard₁, unharmed, lanes, crossed, -, next⟩
      refine .mono (departsAll (stubsIn slots) stage aboard₁ (nodup_stubsIn slots) crossed)
        (by omega) fun u hu => ⟨slots', hu.1, hu.2.1 p q _ _ _ _ aboard₁, fun d hd => ?_,
          unharmed.trans (hu.2.1 q p), ?_⟩
      · rcases lanes d hd with through | ⟨same, away⟩
        · exact through
        · -- a lane without a stub has its link
          have lane := aboard.lanes d hd
          generalize hs : slots.get d = slot at lane
          generalize hl : links d = l at lane
          cases lane with
          | linked _ _ _ => rw [same, hs]
          | waiting x _ _ => exact absurd hs (away x (mem_stubsIn.2 ⟨d, hs⟩))
      · rw [hu.2.2]
        exact next
  have few := (push { s with tally := 0 } ((stubsIn slots).map .switchover
      ++ (stubsIn slots).map fun x => .release (.stub x))).extent_le_fuel
  rcases brings.answers idle (by omega) (fun t ht => by
    rcases ht with ⟨_, stage, -⟩
    exact stage.scene.calm) tally with ⟨t, ⟨slots', stage, aboard₁, through, unharmed, next⟩, done⟩
  refine ⟨_, _, slots', (progressEndpoint_eq aboard).trans done, stage.withAgenda [], rfl, aboard₁,
    through, unharmed, next⟩

/-! ## Registries that run -/

/-- A registry with one runner runs it once. -/
theorem runRegistry_one (h : Stage o ps c s) {id : RegistryId}
    (runners : c.runners id = some [(.stub x, k)]) (live : s.stubs.contains x = true)
    (agenda : List Job) : perform { s with agenda } (.runRegistry id) = { s with
      tally := s.tally + 1, agenda := [.run (.stub x), .release (.stub x)] ++ agenda } := by
  have here := (h.bears.runners id).trans runners
  have pruned : prune { s with agenda } id = { s with agenda } := by
    have kept : List.filter (fun entry => isLive { s with agenda } (Prod.fst entry).ref)
        [((.stub x : Runner), k)] = [(.stub x, k)] := List.filter_cons_of_pos live
    simp only [prune, Table.modify_eq_set here, kept, Table.set_get? here]
  have one : registry { s with agenda } id = [(.stub x, k)] := by
    simp only [registry, here, Option.getD_some]
  simp only [perform, runRegistry, pruned, one]
  rfl

/-- A stub that is not connected on both sides is run in vain. -/
theorem awaits (h : Stage o ps c s)
    (aboard : Aboard o p q s.layout o.plan.lanes loc rem slots links) (hd : d ∈ o.plan.lanes)
    (slot : slots.get d = some (.stub x)) (unready : (loc d && rem d) = false) {id : RegistryId}
    (runners : c.runners id = some [(.stub x, k)]) :
    Works s [.runRegistry id] 5 { s with tally := s.tally + 1 } := by
  let t : Network := { s with tally := s.tally + 1 }
  have aboard' : Aboard o p q t.layout o.plan.lanes loc rem slots links := aboard
  rcases aboard.ready hd slot with ⟨st, stub, -⟩
  rcases Option.map_eq_some_iff.1 stub with ⟨st', here, -⟩
  have firm : t.Firm (.stub x) := firm_of_slot aboard'.endpoint slot
  have recounted : Works t [.recount t.tally] 1 t := .one h.scene.calm fun _ => rfl
  have tried : Works t [.switchover x, .recount t.tally] 2 t :=
    ((h.counted _).declines aboard' hd slot unready).cons recounted
  have ran : Works t [.run (.stub x)] 3 t := tried.into h.scene.calm fun _ => rfl
  exact (ran.cons (firm.released h.scene.calm)).into h.scene.calm
    (h.runRegistry_one runners (Table.contains_of_get? here))

/-- A stub that is connected on both sides is switched over and goes, and the numbers that were
parked on it go out over its link as long as there are credits. -/
theorem hurries (h : Stage o ps c s) (fair : o.Fair size) (strangers : Strangers o p q)
    (hp : p ∈ ps) (hq : q ∈ ps)
    (aboard : Aboard o p q s.layout o.plan.lanes loc rem slots links)
    (slot : slots.messages = some (.stub x)) (ready : (loc .messages && rem .messages) = true)
    (numbers : ∀ r ∈ c.parked x, r.IsNumber p.endpoint)
    (runners : c.runners p.registry = some [(.stub x, (c.parked x).length)])
    (quiet : ∀ k, c.queue k = []) :
    Brings s [.runRegistry p.registry] (5 * (c.parked x).length + 10) fun t =>
      ∃ new, Passed o ps p q c s loc rem slots links x new t := by
  let s' : Network := { s with tally := s.tally + 1 }
  have aboard' : Aboard o p q s'.layout o.plan.lanes loc rem slots links := aboard
  rcases aboard.ready fair.messages slot with ⟨st, stub, -⟩
  rcases Option.map_eq_some_iff.1 stub with ⟨st', here, -⟩
  have switched := (h.counted (s.tally + 1)).switches_messages fair strangers hp hq aboard' slot
    ready numbers (.inr runners) quiet
  have recount : Loose [.recount s'.tally] := .one fun _ => by simp
  have recounted := switched.cons recount fun t ht => by
      rcases ht with ⟨new, passed, crossed⟩
      exact (Works.one (t := { t with tally := s'.tally }) passed.stage.scene.calm
        fun _ => rfl).brings (Q := fun t => ∃ new, Passed o ps p q c s loc rem slots links x new t ∧
          Crossed p links .messages x t
            (c.pass x p.registry (q.at (o.meets .messages)) (links .messages) new))
        ⟨new, { passed with stage := passed.stage.counted _ }, ⟨crossed.empty, crossed.stub⟩⟩
  have ran : Brings s' [.run (.stub x)] _ _ := .into h.scene.calm fun rest _ =>
    ⟨s', [.switchover x, .recount s'.tally], rfl, recounted⟩
  have release : Loose [.release (.stub x)] := .one fun _ => by simp
  have gone := ran.cons (n := 2) release fun t ht => by
      rcases ht with ⟨new, passed, crossed⟩
      refine (passed.stage.departs passed.aboard (d := .messages) rfl crossed).mono
        (Q := fun t => ∃ new, Passed o ps p q c s loc rem slots links x new t) le_rfl fun u hu =>
        ⟨new, passed.few, passed.numbers, hu.1, hu.2.1 p q _ _ _ _ passed.aboard,
          passed.unharmed.trans (hu.2.1 q p), ?_⟩
      rw [hu.2.2.2]
      exact passed.next
  exact .mono (.into h.scene.calm fun rest _ => ⟨s', _,
    h.runRegistry_one runners (Table.contains_of_get? here) rest, gone⟩) (by omega)
    fun _ holds => holds

end Stage

end Network

end Wiring
