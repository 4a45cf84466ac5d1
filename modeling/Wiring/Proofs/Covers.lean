import Mathlib
import Wiring.Proofs.Discretion
import Wiring.Proofs.Heed

/-!
# What gates count, and what a switchover leaves behind

The gate of a stub counts the covers that the stub has put around unfinished requests, level by
level and wherever they lie. A covered request is attempted up to its first answer that is no lack
of resources, and not any more after its end. As long as the links of the stub carry anything the
gate is not empty, so that a switchover finds them empty and cancels nothing.
-/
namespace Wiring.Network

open Traffic (Once)

variable {s t u : Network} {r : Request} {rest : List Job} {fits : Network → Call → Prop}

/-! ## What a run keeps in mind -/

/-- Every handle that was given is in the table. -/
def Known (s : Network) : Prop := ∀ h < s.handles.next, s.handles.contains h = true

theorem Known.push (hs : s.Known) (handles : t.handles = s.handles.push none) : t.Known := by
  intro h hh
  rw [handles, Table.next_push] at hh
  rw [handles, Table.contains_push]
  rcases Nat.lt_succ_iff_lt_or_eq.1 hh with hh | rfl
  · rw [hs h hh, Bool.or_true]
  · simp

theorem Known.move {wild : Prop} (hs : s.Known) (lent : Lent wild s) (g : Move wild s t) :
    t.Known := by
  have same (handles : t.handles = s.handles) : t.Known := by
    unfold Known
    rwa [handles]
  cases g with
  | aside g => exact same g.handles
  | hold g => exact same (by rw [g.frame])
  | wire g => exact same g.handles
  | pass g =>
    cases g.transfer lent with
    | kept _ _ handles | covered _ _ _ _ _ _ handles | letGo _ _ _ _ handles => exact same handles
    | sent _ _ _ _ handles => exact hs.push handles
    | ended _ _ _ _ handles | back _ _ _ _ _ _ handles =>
      intro h hh
      rw [handles, endHandle_next] at hh
      rw [handles, contains_endHandle]
      exact hs h hh

theorem Carries.weighs (h : s.Carries r) {k : Key} (key : r.key? = some k) :
    1 ≤ s.traffic.load (.every k) := by
  have one : (Scale.every k).busy r = 1 := Scale.has_of key
  rw [← one]
  cases h with
  | queued l lk here mem => exact Traffic.Underway.le_load (.queued l lk here mem)
  | parked x st here mem => exact Traffic.Underway.le_load (.parked x st here mem)
  | held h here => exact Traffic.kept_le_load (σ := .every k) here
  | inHand j mem hand => exact Traffic.Underway.le_load (.inHand j mem hand)

theorem carries_of_underway (h : s.traffic.Underway r) : s.Carries r := by
  cases h with
  | queued l lk here mem => exact .queued l lk here mem
  | parked x st here mem => exact .parked x st here mem
  | inHand j mem hand => exact .inHand j mem hand

/-- The handle of a send that the network carries is in the table. -/
theorem Carries.known (h : s.Carries r) (once : Once s.traffic) (known : s.Known) {k : Key}
    (key : r.key? = some k) (i : HandleId) (same : k = .handle i) : s.handles.contains i = true := by
  subst same
  refine known i (Nat.lt_of_not_le fun beyond => ?_)
  have none := once.given i beyond
  have weighs := h.weighs key
  omega

/-- A covered request is not over, wherever it lies. -/
theorem Carries.alive (h : s.Carries r) (once : Once s.traffic) (covered : r.gates ≠ []) :
    ∃ k, r.key? = some k ∧ ¬s.traffic.Over k := by
  have keyed : r.key? ≠ none := fun none => by
    have light : s.traffic.load .stray = 0 := once.keyed
    have heavy : 1 ≤ s.traffic.load .stray := by
      have busy : Scale.stray.busy r = 1 := if_pos none
      have kept : Scale.stray.kept r = 1 := if_pos ⟨none, covered⟩
      cases h with
      | queued l lk here mem => exact busy ▸ Traffic.Underway.le_load (.queued l lk here mem)
      | parked x st here mem => exact busy ▸ Traffic.Underway.le_load (.parked x st here mem)
      | held h here => exact kept ▸ Traffic.kept_le_load (σ := .stray) here
      | inHand j mem hand => exact busy ▸ Traffic.Underway.le_load (.inHand j mem hand)
    omega
  rcases Option.ne_none_iff_exists'.1 keyed with ⟨k, key⟩
  refine ⟨k, key, ?_⟩
  cases h with
  | queued l lk here mem => exact once.alive (.queued l lk here mem) key
  | parked x st here mem => exact once.alive (.parked x st here mem) key
  | inHand j mem hand => exact once.alive (.inHand j mem hand) key
  | held h here =>
    refine once.alive_of_le (le_trans ?_ (Traffic.kept_le_load here))
    cases r with
    | counted g inner =>
      have one : Scale.has k (.counted g inner) = 1 := Scale.has_of key
      exact one.ge
    | scripted | send | spent => exact absurd rfl covered

/-- The step at hand switches a stub over. -/
structure Switching (s : Network) (x : StubId) (st : Stub) : Prop where
  top : ∃ rest, s.agenda = .switchover x :: rest
  here : s.stubs.get? x = some st
  unswitched : st.next ≠ none
  switched : ∃ st', s.step.stubs.get? x = some st' ∧ st'.next = none

/-- A step that switches a stub over finds its gate empty. -/
theorem Switching.ready {x : StubId} {st : Stub} (h : Switching s x st)
    (calm : s.violation = none) : s.gate st.gate = 0 ∧
      ∃ (u : Network) (st' : Stub) (w : WorkerId) (next : LinkId), s.step = u.switch x st' w next ∧
        st'.auxiliary = st.auxiliary ∧ u.links = s.links ∧ u.violation = none := by
  rcases h.top with ⟨rest, top⟩
  rcases h.switched with ⟨st', there, none⟩
  have stepped : s.step = switchover { s with agenda := rest } x := step_eq top calm
  have marked := caughtUp_marked { s with agenda := rest } x
  have quiet := caughtUp_quiet { s with agenda := rest } x
  rcases marked.stubs x with ⟨b, caught⟩
  rw [show ({ s with agenda := rest } : Network).stubs.get? x = some st from h.here,
    Option.map_some] at caught
  have idle (same : s.step = caughtUp { s with agenda := rest } x) : False := by
    rw [same, caught] at there
    cases there
    exact h.unswitched none
  rw [switchover_eq, caught] at stepped
  split at stepped
  · exact (idle stepped).elim
  · rename_i w _
    split at stepped
    · cases ‹some _ = Option.none›
    · rename_i same
      cases same
      split at stepped
      · rename_i next _
        split at stepped
        · rename_i switchable
          refine ⟨?_, _, _, w, next, stepped, rfl, ?_, quiet.violation.trans calm⟩
          · rw [isSwitchable, Bool.and_eq_true, beq_iff_eq] at switchable
            have gate := switchable.2
            rw [marked.frame] at gate
            exact gate
          · rw [marked.frame]
        · exact (idle stepped).elim
      · exact (idle stepped).elim

end Wiring.Network
