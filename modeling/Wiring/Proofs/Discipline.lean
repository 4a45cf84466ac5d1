import Mathlib
import Wiring.Proofs.Discretion
import Wiring.Proofs.Lifetime
import Wiring.Proofs.Opening
import Wiring.Proofs.Roster
import Wiring.Proofs.Slots

/-!
# The discipline of slots

A plan is made by choosing resources and aliases, in any order. An endpoint whose lanes were opened
has something in the slot of a category exactly if the plan gives the category a resource; a lane
shares its carrier with its aliases and with nobody else. From then on, until the endpoint is
destroyed, slots change only by switchovers.
-/
namespace Wiring

/-! ## Plans -/

namespace Plan

/-- The plan was made from the empty one by choosing resources and aliases. -/
inductive Built : Plan → Prop
  | new : Built {}
  | withResource {p : Plan} (c : Category) (r : ResourceIndex) (h : Built p) :
      Built (p.withResource c r)
  | withAlias {p : Plan} (c target : Category) (h : Built p) : Built (p.withAlias c target)

variable {p : Plan} {lane c : Category}

/-- An alias has no resource of its own. -/
theorem Built.alias_bare (h : p.Built) {target : Category} (aliased : p.aliases.get c = some target) :
    p.resources.get c = none := by
  induction h with
  | new => simp at aliased
  | withResource d r h ih =>
    simp only [Plan.withResource, PerCategory.get_set] at aliased ⊢
    split at aliased
    · cases aliased
    · rename_i other
      rw [if_neg other]
      exact ih aliased
  | withAlias d target h ih =>
    unfold Plan.withAlias at aliased ⊢
    split at aliased
    · rename_i same
      rw [if_pos same]
      exact ih aliased
    · rename_i other
      rw [if_neg other]
      simp only [PerCategory.get_set] at aliased ⊢
      split at aliased
      · rename_i same
        rw [if_pos same]
      · rename_i apart
        rw [if_neg apart]
        exact ih aliased

theorem mem_slotsOf_iff : c ∈ p.slotsOf lane ↔ p.shares lane c = true := by
  simp [slotsOf, Category.mem_all]

/-- No category is served by two lanes. -/
theorem slotsOf_unique {lane' : Category} (h : lane ∈ p.lanes) (h' : lane' ∈ p.lanes)
    (mem : c ∈ p.slotsOf lane) (mem' : c ∈ p.slotsOf lane') : lane = lane' := by
  simp only [mem_lanes, isLane, Bool.and_eq_true, Option.isNone_iff_eq_none] at h h'
  rcases mem_slotsOf.1 mem with rfl | aliased
  · rcases mem_slotsOf.1 mem' with rfl | aliased
    · rfl
    · cases h.1.symm.trans aliased
  · rcases mem_slotsOf.1 mem' with rfl | aliased'
    · cases h'.1.symm.trans aliased
    · cases aliased.symm.trans aliased'
      rfl

/-- A category has a resource exactly if some lane serves it. -/
theorem Built.resource_iff (h : p.Built) :
    p.resource c ≠ none ↔ ∃ lane ∈ p.lanes, c ∈ p.slotsOf lane := by
  simp only [mem_lanes, mem_slotsOf, isLane, Bool.and_eq_true, Option.isNone_iff_eq_none,
    Option.isSome_iff_ne_none]
  unfold resource
  cases aliased : p.aliases.get c with
  | none =>
    constructor
    · exact fun own => ⟨c, ⟨aliased, own⟩, .inl rfl⟩
    · rintro ⟨lane, ⟨-, own⟩, rfl | other⟩
      · exact own
      · cases other
  | some target =>
    constructor
    · intro own
      refine ⟨target, ⟨?_, own⟩, .inr rfl⟩
      cases further : p.aliases.get target with
      | none => rfl
      | some _ => exact absurd (h.alias_bare further) own
    · rintro ⟨lane, ⟨unaliased, own⟩, rfl | same⟩
      · rw [aliased] at unaliased
        cases unaliased
      · cases same
        exact own

end Plan

/-! ## Lanes in their slots -/

namespace Network

open Layout (link?)

variable {s t u : Network} {e : EndpointId} {ep : Endpoint} {lanes : List Category} {wild : Prop}

/-- Each of the lanes has a carrier with a link of its own, shared by its aliases; slots that no
lane serves are empty. -/
structure Manages (s : Network) (ep : Endpoint) (lanes : List Category) : Prop where
  carried : ∀ lane ∈ lanes, ∃ l, s.layout.link? (ep.slots.get lane) = some l
  shared : ∀ lane ∈ lanes, ∀ c ∈ ep.plan.slotsOf lane, ep.slots.get c = ep.slots.get lane
  apart : ∀ lane ∈ lanes, ∀ lane' ∈ lanes,
    s.layout.link? (ep.slots.get lane) = s.layout.link? (ep.slots.get lane') → lane = lane'
  empty : ∀ c, (∀ lane ∈ lanes, c ∉ ep.plan.slotsOf lane) → ep.slots.get c = none

/-- What the slots lead to stays as it is. -/
theorem Manages.same (h : Manages s ep lanes)
    (same : ∀ c, t.layout.link? (ep.slots.get c) = s.layout.link? (ep.slots.get c)) :
    Manages t ep lanes where
  carried lane hl := by
    rw [same]
    exact h.carried lane hl
  shared := h.shared
  apart lane hl lane' hl' := by
    rw [same, same]
    exact h.apart lane hl lane' hl'
  empty := h.empty

/-- One more lane is put into its slots. -/
theorem Manages.install (h : Manages s ep lanes) {lane : Category} (isLane : lane ∈ ep.plan.lanes)
    (all : ∀ lane' ∈ lanes, lane' ∈ ep.plan.lanes) (new : lane ∉ lanes) {c : Carrier} {l : LinkId}
    (leads : s.layout.link? (some c) = some l)
    (fresh : ∀ lane' ∈ lanes, s.layout.link? (ep.slots.get lane') ≠ some l) :
    Manages s { ep with slots := installLane ep lane c } (lane :: lanes) := by
  have own : (installLane ep lane c).get lane = some c := by
    rw [installLane, PerCategory.get_mapWith,
      if_pos (Plan.mem_slotsOf_iff.1 (ep.plan.lane_mem_slotsOf lane))]
  have kept {lane' c' : Category} (hl : lane' ∈ lanes) (mem : c' ∈ ep.plan.slotsOf lane') :
      (installLane ep lane c).get c' = ep.slots.get c' := by
    rw [installLane, PerCategory.get_mapWith, if_neg fun shares => new ?_]
    exact Plan.slotsOf_unique (all lane' hl) isLane mem (Plan.mem_slotsOf_iff.2 shares) ▸ hl
  have keptLane {lane' : Category} (hl : lane' ∈ lanes) :
      (installLane ep lane c).get lane' = ep.slots.get lane' :=
    kept hl (ep.plan.lane_mem_slotsOf lane')
  refine ⟨fun lane' hl => ?_, fun lane' hl c' mem => ?_, fun lane' hl lane'' hl' same => ?_,
    fun c' out => ?_⟩
  · rcases List.mem_cons.1 hl with rfl | hl
    · exact ⟨l, own ▸ leads⟩
    · exact keptLane hl ▸ h.carried lane' hl
  · rcases List.mem_cons.1 hl with rfl | hl
    · rw [own, installLane, PerCategory.get_mapWith, if_pos (Plan.mem_slotsOf_iff.1 mem)]
    · rw [kept hl mem, keptLane hl]
      exact h.shared lane' hl c' mem
  · simp only at same
    rcases List.mem_cons.1 hl with rfl | old <;> rcases List.mem_cons.1 hl' with rfl | old'
    · rfl
    · rw [own, leads, keptLane old'] at same
      exact absurd same.symm (fresh _ old')
    · rw [own, leads, keptLane old] at same
      exact absurd same (fresh _ old)
    · rw [keptLane old, keptLane old'] at same
      exact h.apart _ old _ old' same
  · have unshared : ¬ep.plan.shares lane c' = true := fun shares =>
      out lane List.mem_cons_self (Plan.mem_slotsOf_iff.2 shares)
    show (installLane ep lane c).get c' = none
    rw [installLane, PerCategory.get_mapWith, if_neg unshared]
    exact h.empty c' fun lane' hl => out lane' (List.mem_cons_of_mem _ hl)

/-- The lanes that were opened serve their slots, if opening them succeeded. -/
theorem openLanes_manages (hs : Sound wild s) {wk : Worker}
    (here : s.endpoints.get? e = some ep) (worker : s.workers.get? ep.worker = some wk)
    (planned : ep.plan = wk.plan) {todo : List Category} (isLane : ∀ lane ∈ todo, lane ∈ ep.plan.lanes)
    (distinct : todo.Nodup) (apart : todo.Disjoint lanes) (all : ∀ lane ∈ lanes, lane ∈ ep.plan.lanes)
    (h : Manages s ep lanes) (entries : List AddressEntry)
    (unsent : ∀ h messageId payload, .sent h e messageId payload ∉ s.trace)
    (laid : s.openLanes e entries todo = (t, .ok ())) :
    ∃ slots, t.endpoints.get? e = some { ep with slots } ∧
      Manages t { ep with slots } (todo.reverse ++ lanes) := by
  induction todo generalizing s ep wk lanes with
  | nil =>
    cases laid
    exact ⟨ep.slots, here, h⟩
  | cons lane todo ih =>
    unfold openLanes at laid
    simp only [here, worker] at laid
    rcases openLane_built hs e planned lane entries with
      ⟨u, why, opened, -⟩ | ⟨u, c, l, opened, builds, fits, new⟩
    · rw [opened] at laid
      cases laid
    · rcases openLane_furnished hs ep wk lane entries (Table.contains_of_get? here) with
        ⟨furnished, done⟩
      have roster := openLane_roster s e ep wk lane entries
      rw [opened] at laid furnished done roster
      rcases done c rfl with ⟨live, own⟩
      have here' : u.endpoints.get? e = some ep := furnished.endpoints ▸ here
      have unsent' := furnished.trace.symm ▸ unsent
      have installed : Moves wild s (u.setSlots e (installLane ep lane c)) :=
        furnished.moves.trans (Moves.wire (.install e ep lane c here' live own unsent'))
      have office : (u.workers.get? ep.worker).map Worker.office = some wk.office :=
        (congrFun (congrArg Roster.offices roster) ep.worker).trans
          (congrArg (Option.map Worker.office) worker)
      rcases Option.map_eq_some_iff.1 office with ⟨wk', worker', sameOffice⟩
      have fresh : ∀ lane' ∈ lanes, u.layout.link? (ep.slots.get lane') ≠ some l := by
        intro lane' _ leads
        rw [builds.shifts.link? here'] at leads
        have live := hs.live _ (isHeld_of_serves here leads)
        exact absurd (live.symm.trans new) (by simp)
      have managed := (h.same (builds.shifts.link? here')).install
        (isLane lane List.mem_cons_self) all (List.disjoint_cons_left.1 apart).1 fits.link? fresh
      have there : (u.setSlots e (installLane ep lane c)).endpoints.get? e =
          some { ep with slots := installLane ep lane c } := by
        simp only [setSlots, Table.get?_modify, here', if_true, Option.map_some]
      have laned : Manages (u.setSlots e (installLane ep lane c))
          { ep with slots := installLane ep lane c } (lane :: lanes) := managed.same fun _ => rfl
      rw [List.nodup_cons] at distinct
      rcases ih (hs.moves installed) there worker'
        (planned.trans (congrArg Worker.plan sameOffice).symm)
        (fun lane' hl => isLane lane' (List.mem_cons_of_mem _ hl)) distinct.2
        (List.disjoint_cons_right.2 ⟨distinct.1, (List.disjoint_cons_left.1 apart).2⟩)
        (fun lane' hl => (List.mem_cons.1 hl).elim (fun same => same ▸ isLane lane List.mem_cons_self)
          (all lane')) laned unsent' laid with ⟨slots, final, manages⟩
      refine ⟨slots, final, ?_⟩
      rw [List.reverse_cons, List.append_assoc]
      exact manages

/-! ## Stubs grow old -/

/-- Stubs come with new numbers, go, and give up their links; otherwise they keep what they are. -/
structure Ages (s t : Network) : Prop where
  given : s.stubs.next ≤ t.stubs.next
  stub : ∀ x st', t.stubs.get? x = some st' → s.stubs.next ≤ x ∨
    ∃ st, s.stubs.get? x = some st ∧ (st'.next = st.next ∨ st'.next = none)

namespace Ages

theorem refl (s : Network) : Ages s s := ⟨le_rfl, fun _ st here => .inr ⟨st, here, .inl rfl⟩⟩

theorem trans (h : Ages s t) (g : Ages t u) : Ages s u := by
  refine ⟨h.given.trans g.given, fun x st'' there => ?_⟩
  rcases g.stub x st'' there with new | ⟨st', there, next'⟩
  · exact .inl (h.given.trans new)
  · rcases h.stub x st' there with new | ⟨st, here, next⟩
    · exact .inl new
    · refine .inr ⟨st, here, ?_⟩
      rcases next' with same | none
      · exact same ▸ next
      · exact .inr none

theorem of_eq (same : t.stubs = s.stubs) : Ages s t :=
  ⟨same ▸ le_rfl, fun _ st here => .inr ⟨st, same ▸ here, .inl rfl⟩⟩

/-- A stub changes, or nothing does. -/
theorem modify {x : StubId} {f : Stub → Stub}
    (next : ∀ st, (f st).next = st.next ∨ (f st).next = none)
    (same : t.stubs = s.stubs.modify x f) : Ages s t := by
  refine ⟨by rw [same, Table.next_modify], fun y st' there => .inr ?_⟩
  rw [same] at there
  rcases Table.get?_of_modify there with ⟨st, here, rfl | rfl⟩
  · exact ⟨_, here, .inl rfl⟩
  · exact ⟨st, here, next st⟩

theorem set {x : StubId} {st st' : Stub} (here : s.stubs.get? x = some st)
    (next : st'.next = st.next ∨ st'.next = none) (same : t.stubs = s.stubs.set x st') :
    Ages s t := by
  refine ⟨by rw [same, Table.next_set], fun y sy there => .inr ?_⟩
  rw [same, Table.get?_set_of here] at there
  split at there
  · rename_i hxy
    cases there
    exact ⟨st, hxy ▸ here, next⟩
  · exact ⟨sy, there, .inl rfl⟩

end Ages

theorem Move.ages (h : Move wild s t) : Ages s t := by
  cases h with
  | aside h => exact .of_eq h.stubs
  | hold h => exact .of_eq (by rw [h.frame])
  | wire h =>
    cases h with
    | closeStub id st here =>
      refine ⟨(Table.next_erase _ _).ge, fun x st' there => .inr ?_⟩
      exact ⟨st', Table.get?_of_erase there, .inl rfl⟩
    | openStub st =>
      refine ⟨(Table.next_push _ _).ge.trans' (Nat.le_succ _), fun x st' there => ?_⟩
      rcases Table.get?_of_push there with ⟨same, -⟩ | here
      · exact .inl same.ge
      · exact .inr ⟨st', here, .inl rfl⟩
    | markLocal id here =>
      exact .modify (x := id) (f := fun st => { st with localConnected := true })
        (fun _ => .inl rfl) rfl
    | markRemote id here =>
      exact .modify (x := id) (f := fun st => { st with remoteConnected := true })
        (fun _ => .inl rfl) rfl
    | _ => exact .of_eq rfl
  | pass h =>
    cases h with
    | park id st w wk r rest top here =>
      refine .set here ?_ rfl
      exact .inl rfl
    | switch id st w wk next here =>
      refine .set here ?_ rfl
      exact .inr rfl
    | _ => exact .of_eq rfl

theorem Moves.ages (h : Moves wild s t) : Ages s t := by
  induction h with
  | refl => exact .refl s
  | tail _ h ih => exact ih.trans h.ages

/-- A carrier that was in a slot and is in one still leads where it led. -/
theorem Ages.link? (h : Ages s t) (before : Fitted s) (after : Fitted t) {e' : EndpointId}
    {ep' : Endpoint} (here : s.endpoints.get? e = some ep) (there : t.endpoints.get? e' = some ep')
    {c c' : Category} (same : ep'.slots.get c' = ep.slots.get c) :
    t.layout.link? (ep'.slots.get c') = s.layout.link? (ep.slots.get c) := by
  rw [same]
  cases slot : ep.slots.get c with
  | none => rfl
  | some k =>
    cases k with
    | link l => rfl
    | stub x =>
      rcases before e ep c x here slot with ⟨st, stub, -⟩
      rcases after e' ep' c' x there (same.trans slot) with ⟨st', stub', -, -, unswitched⟩
      rcases h.stub x st' stub' with new | ⟨st'', stub'', next | none⟩
      · exact absurd (Table.lt_next_of_get? stub) new.not_gt
      · cases stub.symm.trans stub''
        simp only [Layout.link?, layout, stub, stub', Option.map_some, Option.bind_some]
        exact next
      · exact absurd none unswitched

end Network

end Wiring
