import Mathlib
import Wiring.Proofs.Raising
import Wiring.Proofs.Replay

/-!
# Taking down what was raised

Work that only releases, purges and flushes what was raised beside a network takes it down. What
was raised is idle, so that purging and flushing do nothing; what is released is closed as soon as
nothing else that was raised holds it. When the work is done nothing is left of it, and everything
is as it was before, except for numbers that were given.
-/
namespace Wiring

/-- A job that lets go of, purges or flushes what is new, or lets go of what the application
holds. -/
def Job.TakesDown (b : Network) : Job → Prop
  | .release ref => b.IsNew ref ∨ ref ∈ b.holds
  | .purge c => b.IsNew c.ref
  | .flush l _ _ => b.links.next ≤ l
  | _ => False

/-- A sum over a table that counts everything alike. -/
theorem Table.sum_const {α : Type} (t : Table α) (c : Nat) :
    (t.sum fun _ _ => c) = c * t.values.length := by
  rcases t with ⟨⟨cells⟩⟩
  induction cells using List.reverseRecOn with
  | nil => rfl
  | append_singleton cells cell ih =>
    have before : ∀ k ∈ Finset.range cells.length,
        ((Table.mk ⟨cells ++ [cell]⟩).get? k).elim 0 (fun _ => c) =
          ((Table.mk ⟨cells⟩).get? k).elim 0 fun _ => c := by
      intro k hk
      simp [Table.get?, List.getElem?_append_left (Finset.mem_range.1 hk)]
    simp only [Table.sum, Table.next, Table.values, List.size_toArray] at ih ⊢
    rw [List.length_append, List.length_singleton, Finset.sum_range_succ,
      Finset.sum_congr rfl before, ih]
    cases cell <;> simp [Table.get?, Nat.mul_succ]

theorem length_le_total {α : Type} (measure : α → Nat) (as : List α) :
    as.length ≤ total (fun a => 1 + measure a) as := by
  induction as with
  | nil => exact le_rfl
  | cons a as ih =>
    rw [total, List.length_cons]
    omega

namespace Network

variable {b s t : Network} {ref : Ref} {rest : List Job}

/-- What was raised beside a network is being taken down. -/
structure Razing (b t : Network) : Prop extends Raised b t where
  jobs : ∀ j ∈ t.agenda, j.TakesDown b
  calm : t.violation = none

/-- How many steps it takes at most to release everything: a stub and an endpoint leave up to three
releases behind. -/
def toil (s : Network) : Nat :=
  s.agenda.length + (s.stubs.sum fun _ _ => 3) + s.endpoints.sum fun _ _ => 3

theorem toil_le (s : Network) : s.toil ≤ 3 * s.extent := by
  have stubs : s.stubs.values.length ≤ tableExtent s.stubs fun t => requestsExtent t.parked :=
    length_le_total ..
  have endpoints : s.endpoints.values.length ≤ tableExtent s.endpoints fun e => e.flushAttempts :=
    length_le_total ..
  unfold toil extent
  rw [Table.sum_const, Table.sum_const]
  omega

theorem toil_lt_fuel (s : Network) : s.toil + 20 ≤ s.fuel := by
  have toil := s.toil_le
  have once : 1 + s.extent ≤ Nat.pow (1 + s.extent) 3 := Nat.le_self_pow (by decide) _
  unfold fuel
  omega

/-! ## Steps -/

/-- What was raised is still held by something when one thing of it is released: what the thing
owned is left to be released. -/
theorem Razing.secured_after (h : Razing b s) {closed : Ref} {jobs : List Job}
    (top : s.agenda = .release closed :: rest) (holds : t.holds = s.holds)
    (agenda : t.agenda = jobs ++ rest)
    (gone : t.isLive closed = true → IsNew b closed → t.isHeld closed = true)
    (live : ∀ ref, t.isLive ref = true → s.isLive ref = true)
    (owned : ∀ ref, s.isOwned ref = true → .release ref ∈ jobs ∨ t.isOwned ref = true) :
    ∀ ref, IsNew b ref → t.isLive ref = true → t.isHeld ref = true := by
  intro ref new alive
  rcases isHeld_iff.1 (h.secured ref new (live ref alive)) with held | planned | owned'
  · exact isHeld_of_holds (holds.symm ▸ held)
  · rw [top] at planned
    rcases List.mem_cons.1 planned with same | later
    · cases same
      exact gone alive new
    · apply isHeld_of_release
      rw [agenda]
      exact List.mem_append_right _ later
  · rcases owned ref owned' with planned | kept
    · apply isHeld_of_release
      rw [agenda]
      exact List.mem_append_left _ planned
    · exact isHeld_of_owned kept

/-- A job that leaves everything as it is. -/
theorem Razing.pop (h : Razing b t) {j : Job} (top : t.agenda = j :: rest)
    (loose : ∀ ref, j = .release ref → t.isLive ref = true →
      isHeld { t with agenda := rest } ref = true) : Razing b { t with agenda := rest } :=
  { h with
    secured := by
      intro ref new live
      have live : t.isLive ref = true := by cases ref <;> exact live
      rcases isHeld_iff.1 (h.secured ref new live) with held | planned | owned
      · exact isHeld_of_holds held
      · rw [top] at planned
        rcases List.mem_cons.1 planned with same | later
        · exact loose ref same.symm live
        · exact isHeld_of_release later
      · exact isHeld_of_owned (by cases ref <;> exact owned)
    jobs := fun j' hj => h.jobs j' (top ▸ List.mem_cons_of_mem _ hj) }

/-- A step of the work leaves less to do, and no end of a send changes. -/
structure Eases (b s t : Network) : Prop where
  razing : Razing b t
  handles : t.handles = s.handles
  less : t.toil < s.toil

theorem Razing.pop_eases (h : Razing b t) {j : Job} (top : t.agenda = j :: rest)
    (loose : ∀ ref, j = .release ref → t.isLive ref = true →
      isHeld { t with agenda := rest } ref = true) : Eases b t { t with agenda := rest } := by
  refine ⟨h.pop top loose, rfl, ?_⟩
  simp only [toil, top, List.length_cons]
  omega

/-- An idle link that nothing holds any more is closed. -/
theorem Razing.retireLink (h : Razing b t) {l : LinkId}
    (top : t.agenda = .release (.link l) :: rest) (new : b.links.next ≤ l) :
    Eases b t (Network.retireLink { t with agenda := rest } l) := by
  unfold Network.retireLink
  cases here : t.links.get? l with
  | none =>
    apply h.pop_eases top
    rintro ref ⟨⟩ live
    simp [isLive, Table.contains, here] at live
  | some lk =>
    simp only [(h.idle l lk new here).2, List.foldl_nil]
    have razing : Razing b { t with agenda := rest, links := t.links.erase l } :=
      { h with
        links := h.links.erase new
        idle := fun k lk' new' hk => h.idle k lk' new' (Table.get?_of_erase hk)
        jobs := fun j hj => h.jobs j (top ▸ List.mem_cons_of_mem _ hj)
        secured := by
          refine h.secured_after top rfl (List.nil_append rest).symm ?_ ?_ ?_
          · intro live
            simp [isLive, Table.contains_erase] at live
          · intro ref live
            cases ref with
            | link k =>
              have live : (t.links.erase l).contains k = true := live
              rw [Table.contains_erase, Bool.and_eq_true] at live
              exact live.2
            | _ => exact live
          · intro ref owned
            exact .inr (by cases ref <;> exact owned) }
    refine ⟨razing, rfl, ?_⟩
    simp only [toil, top, List.length_cons]
    omega

theorem releaseLink?_length (l : Option LinkId) : (releaseLink? l).length ≤ 1 := by
  cases l <;> simp [releaseLink?]

/-- A stub that nothing holds any more is closed, and its links are left to be released. -/
theorem Razing.retireStub (h : Razing b t) {x : StubId}
    (top : t.agenda = .release (.stub x) :: rest) (new : b.stubs.next ≤ x) :
    Eases b t (Network.retireStub { t with agenda := rest } x) := by
  unfold Network.retireStub
  cases here : t.stubs.get? x with
  | none =>
    apply h.pop_eases top
    rintro ref ⟨⟩ live
    simp [isLive, Table.contains, here] at live
  | some st =>
    rcases h.empty x st new here with ⟨parked, own⟩
    simp only [parked, List.isEmpty_nil, if_true, List.map_nil, List.append_nil, push]
    have razing : Razing b { t with
        stubs := t.stubs.erase x
        agenda := releaseLink? st.next ++ releaseLink? st.auxiliary ++ releaseLink? st.promoted
          ++ rest } :=
      { h with
        stubs := h.stubs.erase new
        empty := fun y st' new' hy => h.empty y st' new' (Table.get?_of_erase hy)
        unmarked := fun y st' new' hy => h.unmarked y st' new' (Table.get?_of_erase hy)
        jobs := by
          intro j hj
          rcases List.mem_append.1 hj with released | later
          · simp only [List.mem_append, mem_releaseLink?] at released
            rcases released with (⟨l, hl, rfl⟩ | ⟨l, hl, rfl⟩) | ⟨l, hl, rfl⟩
            · exact .inl (own l (.inl hl))
            · exact .inl (own l (.inr (.inl hl)))
            · exact .inl (own l (.inr (.inr hl)))
          · exact h.jobs j (top ▸ List.mem_cons_of_mem _ later)
        secured := by
          refine h.secured_after top rfl rfl ?_ ?_ ?_
          · intro live
            simp [isLive, Table.contains_erase] at live
          · intro ref live
            cases ref with
            | stub y =>
              have live : (t.stubs.erase x).contains y = true := live
              rw [Table.contains_erase, Bool.and_eq_true] at live
              exact live.2
            | _ => exact live
          · intro ref owned
            rcases isOwned_iff.1 owned with worker | endpoint | ⟨y, st', l, hy, hl, rfl⟩
            · exact .inr (isOwned_iff.2 (.inl worker))
            · exact .inr (isOwned_iff.2 (.inr (.inl endpoint)))
            · by_cases same : x = y
              · subst y
                cases here.symm.trans hy
                simp only [List.mem_append, mem_releaseLink?]
                rcases hl with hl | hl | hl
                · exact .inl (.inl (.inl ⟨l, hl, rfl⟩))
                · exact .inl (.inl (.inr ⟨l, hl, rfl⟩))
                · exact .inl (.inr ⟨l, hl, rfl⟩)
              · refine .inr (isOwned_iff.2 (.inr (.inr ⟨y, st', l, ?_, hl, rfl⟩)))
                rw [Table.get?_erase, if_neg same]
                exact hy }
    refine ⟨razing, rfl, ?_⟩
    have erased := Table.sum_erase (fun _ _ => 3) here
    have one := releaseLink?_length st.next
    have two := releaseLink?_length st.auxiliary
    have three := releaseLink?_length st.promoted
    simp only [toil, top, List.length_append, List.length_cons]
    omega

theorem releaseSlots_length (slots : PerCategory Slot) : (releaseSlots slots).length ≤ 3 := by
  unfold releaseSlots
  rw [List.length_map]
  exact List.length_filterMap_le _ _

/-- An endpoint that nothing holds any more is closed, and its carriers are left to be
released. -/
theorem Razing.retireEndpoint (h : Razing b t) {e : EndpointId}
    (top : t.agenda = .release (.endpoint e) :: rest) (new : b.endpoints.next ≤ e) :
    Eases b t (Network.retireEndpoint { t with agenda := rest } e) := by
  unfold Network.retireEndpoint
  cases here : t.endpoints.get? e with
  | none =>
    apply h.pop_eases top
    rintro ref ⟨⟩ live
    simp [isLive, Table.contains, here] at live
  | some ep =>
    simp only [push]
    have razing : Razing b { t with
        endpoints := t.endpoints.erase e, agenda := releaseSlots ep.slots ++ rest } :=
      { h with
        endpoints := h.endpoints.erase new
        carries := fun e' ep' new' he => h.carries e' ep' new' (Table.get?_of_erase he)
        jobs := by
          intro j hj
          rcases List.mem_append.1 hj with released | later
          · rcases mem_releaseSlots.1 released with ⟨c, hc, rfl⟩
            exact .inl (h.carries e ep new here c hc)
          · exact h.jobs j (top ▸ List.mem_cons_of_mem _ later)
        secured := by
          refine h.secured_after top rfl rfl ?_ ?_ ?_
          · intro live
            simp [isLive, Table.contains_erase] at live
          · intro ref live
            cases ref with
            | endpoint e' =>
              have live : (t.endpoints.erase e).contains e' = true := live
              rw [Table.contains_erase, Bool.and_eq_true] at live
              exact live.2
            | _ => exact live
          · intro ref owned
            rcases isOwned_iff.1 owned with worker | ⟨e', ep', c, he, hc, rfl⟩ | stub
            · exact .inr (isOwned_iff.2 (.inl worker))
            · by_cases same : e = e'
              · subst e'
                cases here.symm.trans he
                exact .inl (mem_releaseSlots.2 ⟨c, hc, rfl⟩)
              · refine .inr (isOwned_iff.2 (.inr (.inl ⟨e', ep', c, ?_, hc, rfl⟩)))
                rw [Table.get?_erase, if_neg same]
                exact he
            · exact .inr (isOwned_iff.2 (.inr (.inr stub))) }
    refine ⟨razing, rfl, ?_⟩
    have erased := Table.sum_erase (fun _ _ => 3) here
    have three := releaseSlots_length ep.slots
    simp only [toil, top, List.length_append, List.length_cons]
    omega

/-- Nothing is to be purged. -/
theorem Raised.purge (h : Raised b t) {c : Carrier} (new : IsNew b c.ref) : t.purge c = t := by
  unfold Network.purge
  cases c with
  | link l =>
    have drained : t.drain l = (t, []) := by
      unfold drain
      cases here : t.links.get? l with
      | none => rfl
      | some lk =>
        have queue := (h.idle l lk new here).2
        have same : t.links.set l { lk with queue := [] } = t.links := by
          rw [← queue]
          exact Table.set_get? here
        simp only [same, queue]
    simp only [drained, List.foldl_nil]
  | stub x =>
    simp only
    cases here : t.stubs.get? x with
    | none => rfl
    | some st =>
      simp only [(h.empty x st new here).1, List.isEmpty_nil, if_true]

/-- Nothing is in flight. -/
theorem Raised.flush (h : Raised b t) {l : LinkId} (new : b.links.next ≤ l)
    (w : Option WorkerId) (rounds : Nat) : t.flush l w rounds = t := by
  have idle : t.linkIsIdle l = true := by
    unfold linkIsIdle
    cases here : t.links.get? l with
    | none => rfl
    | some lk =>
      rcases h.idle l lk new here with ⟨credits, queue⟩
      simp [credits, queue]
  unfold Network.flush
  rw [if_pos idle]

/-- Every step takes something down. -/
theorem Razing.step (h : Razing b t) {j : Job} (top : t.agenda = j :: rest) :
    Eases b t t.step := by
  have takes := h.jobs j (top ▸ List.mem_cons_self)
  rw [step_eq top h.calm]
  cases j with
  | release ref =>
    simp only [perform, release]
    by_cases held : isHeld { t with agenda := rest } ref = true
    · rw [if_pos held]
      apply h.pop_eases top
      rintro ref' ⟨⟩ -
      exact held
    · rw [if_neg held]
      rcases takes with new | kept
      · cases ref with
        | link l => exact h.retireLink top new
        | stub x => exact h.retireStub top new
        | endpoint e => exact h.retireEndpoint top new
        | _ => cases new
      · exact absurd (isHeld_of_holds (h.holds.symm ▸ kept)) held
  | purge c =>
    have popped := h.pop_eases top (by simp)
    have same : Network.purge { t with agenda := rest } c = _ := popped.razing.purge takes
    rw [perform, same]
    exact popped
  | flush l w rounds =>
    have popped := h.pop_eases top (by simp)
    have same : Network.flush { t with agenda := rest } l w rounds = _ :=
      popped.razing.flush takes w rounds
    rw [perform, same]
    exact popped
  | _ => cases takes

/-- The work of taking down comes to an end. -/
theorem Razing.done (h : Razing b t) : ∃ n ≤ t.toil, (work n t).agenda = [] ∧
    Razing b (work n t) ∧ (work n t).handles = t.handles := by
  induction bound : t.toil using Nat.strong_induction_on generalizing t with
  | _ bound ih =>
    subst bound
    cases top : t.agenda with
    | nil => exact ⟨0, Nat.zero_le _, top, h, rfl⟩
    | cons j rest =>
      have eases := h.step top
      rcases ih t.step.toil eases.less eases.razing rfl with ⟨n, steps, idle, razing, handles⟩
      have less := eases.less
      refine ⟨n + 1, by omega, ?_⟩
      rw [work_succ top]
      exact ⟨idle, razing, handles.trans eases.handles⟩

/-! ## The end -/

/-- What has come and lives belongs to what has come with it, if nothing else holds it. -/
theorem Raised.owner (h : Raised b t) (new : IsNew b ref) (live : t.isLive ref = true)
    (free : b.isHeld ref = false) (unplanned : .release ref ∉ t.agenda) :
    (∃ e ep c, b.endpoints.next ≤ e ∧ t.endpoints.get? e = some ep ∧ ep.owns c ∧ ref = c.ref) ∨
    ∃ x st l, b.stubs.next ≤ x ∧ t.stubs.get? x = some st ∧ st.owns l ∧ ref = .link l := by
  have loose := Bool.eq_false_iff.1 free
  rcases isHeld_iff.1 (h.secured ref new live) with held | planned | owned
  · exact absurd (isHeld_of_holds (h.holds ▸ held)) loose
  · exact absurd planned unplanned
  · rcases isOwned_iff.1 owned with ⟨w, wk, hw, own⟩ | ⟨e, ep, c, he, hc, rfl⟩ |
      ⟨x, st, l, hx, hl, rfl⟩
    · rw [h.workers] at hw
      exact absurd (isHeld_of_owned (isOwned_iff.2 (.inl ⟨w, wk, hw, own⟩))) loose
    · rcases Nat.lt_or_ge e b.endpoints.next with old | later
      · rw [h.endpoints.same e old] at he
        exact absurd (isHeld_of_owned (isOwned_iff.2 (.inr (.inl ⟨e, ep, c, he, hc, rfl⟩)))) loose
      · exact .inl ⟨e, ep, c, later, he, hc, rfl⟩
    · rcases Nat.lt_or_ge x b.stubs.next with old | later
      · rw [h.stubs.same x old] at hx
        exact absurd (isHeld_of_owned (isOwned_iff.2 (.inr (.inr ⟨x, st, l, hx, hl, rfl⟩)))) loose
      · exact .inr ⟨x, st, l, later, hx, hl, rfl⟩

/-- When nothing is left to do nothing new lives: stubs and links are owned by what is new itself,
and a new endpoint by nothing. -/
theorem Razing.gone (h : Razing b t) (idle : t.agenda = [])
    (free : ∀ ref, IsNew b ref → b.isHeld ref = false) :
    ∀ ref, IsNew b ref → t.isLive ref = false := by
  have owner (ref : Ref) (new : IsNew b ref) (live : t.isLive ref = true) :=
    h.toRaised.owner new live (free ref new) (by simp [idle])
  have endpoints (e : EndpointId) (new : b.endpoints.next ≤ e) :
      t.isLive (.endpoint e) = false := by
    by_contra live
    rcases owner (.endpoint e) new (by simpa using live) with ⟨_, _, c, -, -, -, same⟩ | ⟨_, _, l, -, -, -, same⟩
    · cases c <;> cases same
    · cases same
  have stubs (x : StubId) (new : b.stubs.next ≤ x) : t.isLive (.stub x) = false := by
    by_contra live
    rcases owner (.stub x) new (by simpa using live) with ⟨e, ep, c, later, he, -, -⟩ |
      ⟨_, _, l, -, -, -, same⟩
    · have none := endpoints e later
      simp [isLive, Table.contains, he] at none
    · cases same
  intro ref new
  cases ref with
  | endpoint e => exact endpoints e new
  | stub x => exact stubs x new
  | link l =>
    by_contra live
    rcases owner (.link l) new (by simpa using live) with ⟨e, ep, c, later, he, -, -⟩ |
      ⟨x, st, l, later, hx, -⟩
    · have none := endpoints e later
      simp [isLive, Table.contains, he] at none
    · have none := stubs x later
      simp [isLive, Table.contains, hx] at none
  | _ => cases new

end Network

end Wiring
