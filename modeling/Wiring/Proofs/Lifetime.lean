import Mathlib
import Wiring.Proofs.Visits

/-!
# The life of an endpoint

From the opening of its lanes on, an endpoint lives through a run state by state: jobs are done,
operations are started, and the application holds things more, until the endpoint is destroyed.
-/
namespace Wiring

variable {fits : Network → Call → Prop} {e : EndpointId} {s t u : Network}

open Network

/-! ## States that follow each other -/

/-- The next state that a run visits. The endpoint is not destroyed in between. -/
inductive Next (fits : Network → Call → Prop) (e : EndpointId) (s : Network) : Network → Prop
  | step (visited : Visited fits s.step) (spared : s.agenda.head? ≠ some (.destroy e)) :
      Next fits e s s.step
  | start (c : Call) (journey : Journey fits s) (fit : fits s c) (permitted : c.Permitted s)
      (calm : (c.start s).violation = none) : Next fits e s (c.start s)
  | keep (ref : Ref) (idle : s.agenda = []) (visited : Visited fits (s.keep ref)) :
      Next fits e s (s.keep ref)

/-- What a run visits later, as long as the endpoint is not destroyed. -/
abbrev Later (fits : Network → Call → Prop) (e : EndpointId) : Network → Network → Prop :=
  Relation.ReflTransGen (Next fits e)

theorem Next.visited (h : Next fits e s t) : Visited fits t := by
  cases h with
  | step visited => exact visited
  | start c journey fit permitted calm => exact .within c 0 journey fit permitted calm
  | keep ref idle visited => exact visited

theorem Later.visited (h : Later fits e s t) (hs : Visited fits s) : Visited fits t := by
  cases h with
  | refl => exact hs
  | tail _ h => exact h.visited

theorem work_then_step (s : Network) (n : Nat) : work (n + 1) s = (work n s).step := by
  rw [work_add]
  generalize work n s = t
  simp only [work]
  split
  · rename_i idle
    exact (step_nil (List.isEmpty_iff.1 idle)).symm
  · rfl

theorem Network.work_step (n : Nat) (s : Network) : work n s.step = work (n + 1) s := by
  rw [work]
  split
  · rename_i idle
    rw [step_nil (List.isEmpty_iff.1 idle), work_nil (List.isEmpty_iff.1 idle)]
  · rfl

/-- Every state that an operation visits is later than its start, as long as it does not destroy the
endpoint. -/
theorem Later.works {c : Call} (journey : Journey fits s) (fit : fits s c)
    (permitted : c.Permitted s) {n : Nat}
    (spared : ∀ m < n, (work m (c.start s)).agenda.head? ≠ some (.destroy e))
    (calm : (work n (c.start s)).violation = none) : Later fits e (c.start s) (work n (c.start s)) := by
  induction n with
  | zero => exact .refl
  | succ n ih =>
    rw [work_then_step] at calm ⊢
    refine (ih (fun m hm => spared m (hm.trans n.lt_succ_self)) (step_violation calm)).tail
      (.step ?_ (spared n n.lt_succ_self))
    rw [← work_then_step] at calm ⊢
    exact .within c (n + 1) journey fit permitted calm

/-- So is the state that it ends in. -/
theorem Later.ends {c : Call} (journey : Journey fits s) (fit : fits s c)
    (permitted : c.Permitted s) (ran : c.run s = (t, .ok ()))
    (spared : ∀ m, (work m (c.start s)).agenda.head? ≠ some (.destroy e)) :
    Later fits e (c.start s) t := by
  have ended : Journey fits t := .call c journey fit permitted ran
  rcases Call.run_start ran ended.rested.idle ended.rested.calm with ⟨n, ends⟩
  have worked := Later.works (e := e) journey fit permitted (fun m _ => spared m) ends.calm
  rcases ends.held with rfl | ⟨ref, rfl⟩
  · exact worked
  · exact worked.tail (.keep ref ends.idle (.between ended))

/-- An operation that meets no violation meets none when it starts. -/
theorem Journey.start_calm {c : Call} (journey : Journey fits s) (fit : fits s c)
    (permitted : c.Permitted s) (ran : c.run s = (t, .ok ())) : (c.start s).violation = none := by
  have ended : Journey fits t := .call c journey fit permitted ran
  rcases Call.run_start ran ended.rested.idle ended.rested.calm with ⟨n, ends⟩
  exact work_violation ends.calm

/-- And the start comes after what the operation found. -/
theorem Later.call {c : Call} (journey : Journey fits s) (fit : fits s c)
    (permitted : c.Permitted s) (ran : c.run s = (t, .ok ()))
    (spared : ∀ m, (work m (c.start s)).agenda.head? ≠ some (.destroy e)) : Later fits e s t :=
  Relation.ReflTransGen.head
    (.start c journey fit permitted (journey.start_calm fit permitted ran))
    (Later.ends journey fit permitted ran spared)

/-! ## Runs that destroy no endpoint -/

/-- The work comes to its end and does not destroy the endpoint. -/
def Network.spares (e : EndpointId) : (fuel : Nat) → Network → Bool
  | 0, s => s.agenda.isEmpty
  | fuel + 1, s =>
    match s.agenda with
    | [] => true
    | .destroy f :: _ => f != e && spares e fuel s.step
    | _ :: _ => spares e fuel s.step

theorem spared_of_spares {fuel : Nat} (h : s.spares e fuel = true) (m : Nat) :
    (work m s).agenda.head? ≠ some (.destroy e) := by
  induction fuel generalizing s m with
  | zero =>
    have idle := List.isEmpty_iff.1 h
    rw [work_nil idle, idle]
    simp
  | succ fuel ih =>
    cases top : s.agenda with
    | nil =>
      rw [work_nil top, top]
      simp
    | cons j rest =>
      have spared : j ≠ .destroy e ∧ s.step.spares e fuel = true := by
        unfold spares at h
        rw [top] at h
        split at h
        · contradiction
        · rename_i same
          cases same
          simp only [Bool.and_eq_true, bne_iff_ne] at h
          exact ⟨fun same => h.1 (Job.destroy.inj same), h.2⟩
        · rename_i other same
          cases same
          exact ⟨other e, h⟩
      cases m with
      | zero => simp [work, top, spared.1]
      | succ m =>
        rw [work, if_neg (by simp [top])]
        exact ih spared.2 m

/-- Runs operations one after another, as long as they are permitted, meet no violation and do not
destroy the endpoint. -/
def Call.runSparing (e : EndpointId) : Network → List Call → Option Network
  | s, [] => some s
  | s, c :: cs =>
    if c.Permitted s ∧ (c.start s).spares e (c.start s).fuel = true then
      match c.run s with
      | (t, .ok ()) => runSparing e t cs
      | (_, .error _) => none
    else none

theorem Later.of_runSparing {cs : List Call} (journey : Journey fits s)
    (fit : ∀ c ∈ cs, ∀ s, fits s c) (ran : Call.runSparing e s cs = some t) :
    Journey fits t ∧ Later fits e s t := by
  induction cs generalizing s with
  | nil =>
    cases ran
    exact ⟨journey, .refl⟩
  | cons c cs ih =>
    unfold Call.runSparing at ran
    split at ran
    · rename_i ok
      split at ran
      · rename_i u ended
        have fits := fit c List.mem_cons_self s
        rcases ih (.call c journey fits ok.1 ended)
          (fun c hc => fit c (List.mem_cons_of_mem _ hc)) ran with ⟨journey', later⟩
        exact ⟨journey',
          (Later.call journey fits ok.1 ended (spared_of_spares ok.2)).trans later⟩
      · cases ran
    · cases ran

end Wiring
