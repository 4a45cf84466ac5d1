import Mathlib
import Wiring.Proofs.Creation

/-!
# Taking down in the middle of other work

What is raised while other work lies below in the agenda is taken down as if there were no other
work: all that matters of it is what it will release, and that might as well be held by the
application.
-/
namespace Wiring.Network

variable {b s t : Network} {ref : Ref} {rest : List Job}

/-- There is nothing left to do, and what was to be released is held by the application. -/
def shelve (s : Network) : Network :=
  { s with agenda := [], holds := s.holds ++ s.agenda.filterMap Job.hold? }

/-- The work of another network comes below, and its application holds what it held. -/
def onto (t b : Network) : Network := { t with agenda := t.agenda ++ b.agenda, holds := b.holds }

theorem mem_shelve_holds : ref ∈ s.shelve.holds ↔ ref ∈ s.holds ∨ .release ref ∈ s.agenda := by
  have planned : ref ∈ s.agenda.filterMap Job.hold? ↔ .release ref ∈ s.agenda := by
    rw [List.mem_filterMap]
    constructor
    · rintro ⟨j, hj, h⟩
      cases j <;> simp only [Job.hold?, Option.some.injEq, reduceCtorEq] at h
      exact h ▸ hj
    · exact fun h => ⟨_, h, rfl⟩
  rw [shelve, List.mem_append, planned]

theorem isHeld_shelve (s : Network) (ref : Ref) : s.shelve.isHeld ref = s.isHeld ref := by
  have owned : s.shelve.isOwned ref = s.isOwned ref := by cases ref <;> rfl
  rw [Bool.eq_iff_iff, isHeld_iff, isHeld_iff, mem_shelve_holds, owned]
  simp [shelve, or_assoc]

theorem isHeld_onto (holds : t.holds = b.shelve.holds) (ref : Ref) :
    (t.onto b).isHeld ref = t.isHeld ref := by
  have owned : (t.onto b).isOwned ref = t.isOwned ref := by cases ref <;> rfl
  rw [Bool.eq_iff_iff, isHeld_iff, isHeld_iff, holds, mem_shelve_holds, owned]
  simp only [onto, List.mem_append]
  tauto

theorem Live.shelve (hs : Live s) : Live s.shelve := fun ref held => by
  have live := hs ref (isHeld_shelve s ref ▸ held)
  cases ref <;> exact live

theorem isNew_shelve : IsNew s.shelve ref ↔ IsNew s ref := by cases ref <;> exact Iff.rfl

/-- A step that takes something down does not see the work below. -/
theorem Razing.step_onto (h : Razing b.shelve t) {j : Job} (top : t.agenda = j :: rest) :
    (t.onto b).step = t.step.onto b := by
  have takes := h.jobs j (top ▸ List.mem_cons_self)
  have top' : (t.onto b).agenda = j :: (rest ++ b.agenda) := by simp [onto, top]
  have below : { t.onto b with agenda := rest ++ b.agenda } = onto { t with agenda := rest } b := rfl
  have holds : ({ t with agenda := rest } : Network).holds = b.shelve.holds := h.holds
  rw [step_eq top h.calm, step_eq top' h.calm, below]
  cases j with
  | release ref =>
    simp only [perform, release, isHeld_onto holds]
    split
    · rfl
    · rename_i loose
      rcases takes with new | kept
      · cases ref with
        | link l =>
          simp only [retire, Network.retireLink]
          cases here : t.links.get? l with
          | none => simp only [onto, here]
          | some lk => simp only [onto, here, (h.idle l lk new here).2, List.foldl_nil]
        | stub x =>
          simp only [retire, Network.retireStub]
          cases here : t.stubs.get? x with
          | none => simp only [onto, here]
          | some st =>
            simp only [onto, here, (h.empty x st new here).1, List.isEmpty_nil, if_true, push,
              List.append_assoc]
        | endpoint e =>
          simp only [retire, Network.retireEndpoint]
          cases here : t.endpoints.get? e with
          | none => simp only [onto, here]
          | some ep => simp only [onto, here, push, List.append_assoc]
        | _ => cases new
      · exact absurd (isHeld_of_holds (h.holds.symm ▸ kept)) loose
  | purge c =>
    cases c with
    | link l =>
      simp only [perform, Network.purge, drain]
      cases here : t.links.get? l with
      | none => simp only [onto, here, List.foldl_nil]
      | some lk => simp only [onto, here, (h.idle l lk takes here).2, List.foldl_nil]
    | stub x =>
      simp only [perform, Network.purge]
      cases here : t.stubs.get? x with
      | none => simp only [onto, here]
      | some st =>
        simp only [onto, here, (h.empty x st takes here).1, List.isEmpty_nil, if_true]
  | flush l w rounds =>
    have idle : t.linkIsIdle l = true := by
      unfold linkIsIdle
      cases here : t.links.get? l with
      | none => rfl
      | some lk =>
        rcases h.idle l lk takes here with ⟨credits, queue⟩
        simp [credits, queue]
    have idle' : linkIsIdle (onto { t with agenda := rest } b) l = true := idle
    have idle'' : linkIsIdle { t with agenda := rest } l = true := idle
    simp only [perform, Network.flush, idle', idle'', if_true]
  | _ => cases takes

/-- What was raised is taken down to its end before the work below goes on. -/
theorem Razing.done_onto (h : Razing b.shelve t) : ∃ u : Network,
    WorksAbove b.agenda (t.onto b) (u.onto b) ∧ u.agenda = [] ∧ Razing b.shelve u := by
  induction bound : t.toil using Nat.strong_induction_on generalizing t with
  | _ bound ih =>
    subst bound
    cases top : t.agenda with
    | nil => exact ⟨t, .refl _ _, top, h⟩
    | cons j rest =>
      have eases := h.step top
      rcases ih _ eases.less eases.razing rfl with ⟨u, works, idle, razed⟩
      have top' : (t.onto b).agenda = j :: rest ++ b.agenda := by simp [onto, top]
      refine ⟨u, .step top' ?_, idle, razed⟩
      rw [h.step_onto top]
      exact works

/-- When nothing new lives any more everything is as it was before the work above. -/
theorem AsBefore.onto (h : AsBefore s.shelve t) : AsBefore s (t.onto s) :=
  { h with
    linksOf := h.linksOf
    holds := rfl
    agenda := by simp [Network.onto, h.agenda, Network.shelve] }

variable {w : WorkerId} {wk : Worker} {dest : UInt64} {e : EndpointId}

/-- What stands beside a network stands beside it as well when its work is shelved. -/
theorem Founded.shelved (h : Founded b w wk dest e (t.onto b)) (holds : t.holds = b.shelve.holds) :
    Founded b.shelve w wk dest e t :=
  { h with
    raised := { h.raised with
      frame := calc
        t.ground = { (t.onto b).ground with holds := t.holds } := rfl
        _ = { (b.enlist w wk dest e).ground with holds := b.shelve.holds } := by
          rw [h.raised.frame, holds]
        _ = (b.shelve.enlist w wk dest e).ground := rfl
      secured := fun ref new live => by
        have new' : IsNew (b.enlist w wk dest e) ref := by cases ref <;> exact new
        have live' : (t.onto b).isLive ref = true := by cases ref <;> exact live
        rw [← isHeld_onto holds]
        exact h.raised.secured ref new' live' } }

end Wiring.Network
