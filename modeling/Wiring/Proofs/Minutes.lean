import Mathlib
import Wiring.Proofs.Lifetime

/-!
# The minutes of a run

A clerk puts something down for each step of work and for what each operation does at once. The
minutes of a run are all that he has put down, in order, up to a state that the run visits.
-/
namespace Wiring

open Network

/-- What is put down for a step of work, and for what an operation does at once. -/
structure Clerk (α : Type) where
  step : Network → List α
  start : Network → Call → List α

variable {α : Type} {clerk : Clerk α} {fits : Network → Call → Prop} {s t : Network}
  {notes : List α} {c : Call}

/-- What is put down in the course of a run, up to a state that it visits. -/
inductive Minutes (fits : Network → Call → Prop) (clerk : Clerk α) : List α → Network → Prop
  | initial (process : UInt32) : Minutes fits clerk [] { process }
  | step {notes : List α} {s : Network} (before : Minutes fits clerk notes s)
      (visited : Visited fits s.step) : Minutes fits clerk (notes ++ clerk.step s) s.step
  | start {notes : List α} {s : Network} (c : Call) (before : Minutes fits clerk notes s)
      (journey : Journey fits s) (fit : fits s c) (permitted : c.Permitted s)
      (calm : (c.start s).violation = none) :
      Minutes fits clerk (notes ++ clerk.start s c) (c.start s)
  | keep {notes : List α} {s : Network} (ref : Ref) (before : Minutes fits clerk notes s)
      (idle : s.agenda = []) (visited : Visited fits (s.keep ref)) :
      Minutes fits clerk notes (s.keep ref)

/-- What is put down for some steps of work, one after another. -/
def Clerk.within (clerk : Clerk α) : (fuel : Nat) → Network → List α
  | 0, _ => []
  | fuel + 1, s => clerk.step s ++ clerk.within fuel s.step

theorem Clerk.within_snoc (clerk : Clerk α) (n : Nat) (s : Network) :
    clerk.within (n + 1) s = clerk.within n s ++ clerk.step (work n s) := by
  induction n generalizing s with
  | zero => simp [within, Network.work]
  | succ n ih => rw [within, ih, work_step, within, List.append_assoc]

namespace Minutes

theorem visited (h : Minutes fits clerk notes s) : Visited fits s := by
  cases h with
  | initial process => exact .between (.start process)
  | step before visited => exact visited
  | start c before journey fit permitted calm => exact .within c 0 journey fit permitted calm
  | keep ref before idle visited => exact visited

/-- Work is put down step by step. -/
theorem work (h : Minutes fits clerk notes (c.start s)) (journey : Journey fits s) (fit : fits s c)
    (permitted : c.Permitted s) {n : Nat} (calm : (Network.work n (c.start s)).violation = none) :
    Minutes fits clerk (notes ++ clerk.within n (c.start s)) (Network.work n (c.start s)) := by
  induction n with
  | zero => exact (List.append_nil notes).symm ▸ h
  | succ n ih =>
    rw [work_then_step] at calm ⊢
    rw [clerk.within_snoc, ← List.append_assoc]
    refine (ih (step_violation calm)).step ?_
    rw [← work_then_step] at calm ⊢
    exact .within c (n + 1) journey fit permitted calm

/-- So is a whole operation. -/
theorem call (h : Minutes fits clerk notes s) (journey : Journey fits s) (fit : fits s c)
    (permitted : c.Permitted s) (ran : c.run s = (t, .ok ())) : ∃ n,
    (Network.work n (c.start s)).agenda = [] ∧
      Minutes fits clerk (notes ++ clerk.start s c ++ clerk.within n (c.start s)) t := by
  have ended : Journey fits t := .call c journey fit permitted ran
  rcases Call.run_start ran ended.rested.idle ended.rested.calm with ⟨n, ends⟩
  have worked := (Minutes.start c h journey fit permitted (work_violation ends.calm)).work
    journey fit permitted ends.calm
  rcases ends.held with rfl | ⟨ref, rfl⟩
  · exact ⟨n, ends.idle, worked⟩
  · exact ⟨n, ends.idle, worked.keep ref ends.idle (.between ended)⟩

end Minutes

/-- There are minutes up to every state between two operations. -/
theorem Journey.minutes (h : Journey fits s) (clerk : Clerk α) :
    ∃ notes, Minutes fits clerk notes s := by
  induction h with
  | start process => exact ⟨[], .initial process⟩
  | call c before fit permitted ran ih =>
    rcases ih with ⟨notes, told⟩
    rcases told.call before fit permitted ran with ⟨n, -, minutes⟩
    exact ⟨_, minutes⟩

/-- And up to every state in the middle of one. -/
theorem Visited.minutes (h : Visited fits s) (clerk : Clerk α) :
    ∃ notes, Minutes fits clerk notes s := by
  cases h with
  | between h => exact h.minutes clerk
  | within c n before fit permitted calm =>
    rcases before.minutes clerk with ⟨notes, told⟩
    have started := Minutes.start c told before fit permitted (work_violation calm)
    exact ⟨_, started.work before fit permitted calm⟩

/-- Once work has come to its end nothing more is put down. -/
theorem Clerk.within_done (idle : ∀ s : Network, s.agenda = [] → clerk.step s = []) {m n : Nat}
    (done : (work m s).agenda = []) (enough : m ≤ n) : clerk.within n s = clerk.within m s := by
  induction n, enough using Nat.le_induction with
  | base => rfl
  | succ n enough ih =>
    have same : work n s = work m s := by
      rw [← Nat.add_sub_cancel' enough, work_add, work_nil done]
    rw [within_snoc, ih, idle _ (same ▸ done), List.append_nil]

/-- Runs operations one after another, as long as they fit, are permitted, meet no violation and come
to their ends with the given fuel, and puts down what there is to be told. -/
def Clerk.narrate (clerk : Clerk α) (fits : Network → Call → Bool) (fuel : Nat) :
    Network → List Call → Option (Network × List α)
  | s, [] => some (s, [])
  | s, c :: cs =>
    if fits s c = true ∧ c.Permitted s ∧ (work fuel (c.start s)).agenda.isEmpty = true then
      match c.run s with
      | (t, .ok ()) => (clerk.narrate fits fuel t cs).map fun x =>
        (x.1, clerk.start s c ++ clerk.within fuel (c.start s) ++ x.2)
      | (_, .error _) => none
    else none

/-- What is put down of such a run are its minutes. -/
theorem Minutes.of_narrate (idle : ∀ s : Network, s.agenda = [] → clerk.step s = [])
    {fits : Network → Call → Bool} {cs : List Call} {fuel : Nat} {x : Network × List α}
    (journey : Journey (fun s c => fits s c = true) s)
    (told : Minutes (fun s c => fits s c = true) clerk notes s)
    (narrates : clerk.narrate fits fuel s cs = some x) :
    Journey (fun s c => fits s c = true) x.1 ∧
      Minutes (fun s c => fits s c = true) clerk (notes ++ x.2) x.1 := by
  induction cs generalizing s notes x with
  | nil =>
    cases narrates
    exact ⟨journey, (List.append_nil notes).symm ▸ told⟩
  | cons c cs ih =>
    unfold Clerk.narrate at narrates
    split at narrates
    · rename_i ok
      rcases ok with ⟨fit, permitted, done⟩
      split at narrates
      · rename_i t ran
        rcases Option.map_eq_some_iff.1 narrates with ⟨y, later, rfl⟩
        have ended : Journey (fun s c => fits s c = true) t := .call c journey fit permitted ran
        rcases told.call journey fit permitted ran with ⟨n, rests, minutes⟩
        -- the fuel puts down the whole work, as much as it takes does
        have same : clerk.within n (c.start s) = clerk.within fuel (c.start s) := by
          rcases Nat.le_total n fuel with few | many
          · exact (Clerk.within_done idle rests few).symm
          · exact Clerk.within_done idle (List.isEmpty_iff.1 done) many
        rw [same] at minutes
        have rest := ih ended minutes later
        simp only [List.append_assoc] at rest ⊢
        exact rest
      · cases narrates
    · cases narrates

end Wiring
