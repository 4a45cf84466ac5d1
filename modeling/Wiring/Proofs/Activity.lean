import Mathlib
import Wiring.Proofs.Growth
import Wiring.Proofs.Jobs

/-!
# Activities

An operation that sets work off is done by moves, if it meets no violation, and what it leaves is
fit for the next one. Once something is counted by an activity its tally stays above zero.
-/
namespace Wiring.Network

variable {s t : Network} {wild : Prop} {rest : List Job}

/-- What work relies on. -/
structure Fit (wild : Prop) (s : Network) : Prop where
  sound : Sound wild s
  told : wild ∨ Told s

theorem Grows.told (h : Grows s t) (calm : t.violation = none) (hs : Told s) : Told t := by
  intro r hr
  obtain ⟨jobs, ha, waits⟩ := h.agenda calm
  rw [ha] at hr
  obtain hr | hr := List.mem_append.1 hr
  · exact waits _ hr
  · exact hs r hr

/-! ## Steps -/

theorem step_violation (h : s.step.violation = none) : s.violation = none := by
  unfold step at h
  cases top : s.agenda with
  | nil => simpa only [top] using h
  | cons j rest =>
    simp only [top] at h
    cases hv : s.violation with
    | none => rfl
    | some v =>
      exfalso
      simp only [hv, Option.isSome_some, if_true] at h
      unfold unwind at h
      have released (ref : Ref) :=
        (release_grows { s with agenda := rest } ref).violation
      have discarded (r : Request) := (discard_quiet { s with agenda := rest } r).violation
      simp only [hv] at released discarded
      split at h
      · exact absurd (released _ h) (by simp)
      · split at h
        · exact absurd ((discarded _).symm.trans h) (by simp)
        · cases h

theorem work_violation {fuel : Nat} (h : (work fuel s).violation = none) :
    s.violation = none := by
  induction fuel generalizing s with
  | zero => exact h
  | succ fuel ih =>
    unfold work at h
    split at h
    · exact h
    · exact step_violation (ih h)

/-- What every step that meets no violation keeps is kept by all such work. -/
theorem work_invariant {I : Network → Prop}
    (step : ∀ s, I s → s.step.violation = none → I s.step) {fuel : Nat} (hs : I s)
    (calm : (work fuel s).violation = none) : I (work fuel s) := by
  induction fuel generalizing s with
  | zero => exact hs
  | succ fuel ih =>
    unfold work at calm ⊢
    split at calm
    · rename_i idle
      rwa [if_pos idle]
    · rename_i busy
      rw [if_neg busy]
      exact ih (step s hs (work_violation calm)) calm

theorem step_eq {j : Job} (top : s.agenda = j :: rest) (before : s.violation = none) :
    s.step = perform { s with agenda := rest } j := by
  unfold step
  simp only [top]
  rw [if_neg (by simp [before])]

/-- A step pops a job, and puts work on top of what is left or an earlier count back. -/
theorem step_cases (before : s.violation = none) :
    (s.agenda = [] ∧ s.step = s) ∨ ∃ j rest, s.agenda = j :: rest ∧
      (Grows { s with agenda := rest } s.step ∨
        ∃ n, j = .recount n ∧ s.step = { s with agenda := rest, tally := n }) := by
  cases top : s.agenda with
  | nil => exact .inl ⟨rfl, step_nil top⟩
  | cons j rest =>
    refine .inr ⟨j, rest, rfl, ?_⟩
    rw [step_eq top before]
    by_cases count : ∃ n, j = .recount n
    · obtain ⟨n, rfl⟩ := count
      exact .inr ⟨n, rfl, rfl⟩
    · exact .inl (perform_grows _ j fun n hn => count ⟨n, hn⟩)

theorem Told.step (hs : Told s) (calm : s.step.violation = none) : Told s.step := by
  obtain ⟨-, h⟩ | ⟨j, rest, top, h | ⟨n, -, h⟩⟩ := step_cases (step_violation calm)
  · rw [h]
    exact hs
  · exact h.told calm fun r hr => hs r (top ▸ List.mem_cons_of_mem _ hr)
  · rw [h]
    exact fun r hr => hs r (top ▸ List.mem_cons_of_mem _ hr)

theorem Fit.step (h : Fit wild s) (calm : s.step.violation = none) :
    Moves wild s s.step ∧ Fit wild s.step := by
  have moves : Moves wild s s.step := step_moves h.sound h.told (step_violation calm) calm
  exact ⟨moves, h.sound.moves moves, h.told.imp_right fun told => told.step calm⟩

theorem Fit.work (h : Fit wild s) {fuel : Nat} (calm : (work fuel s).violation = none) :
    Moves wild s (work fuel s) ∧ Fit wild (work fuel s) := by
  refine work_invariant (I := fun t => Moves wild s t ∧ Fit wild t) (fun t ht calm => ?_)
    ⟨.refl, h⟩ calm
  obtain ⟨moves, fit⟩ := ht.2.step calm
  exact ⟨ht.1.trans moves, fit⟩

/-- An activity puts work on an empty agenda. -/
theorem Fit.start {u : Network} (h : Fit wild s) (g : Moves wild s t) (idle : u.agenda = [])
    (grows : Grows u t) (calm : t.violation = none) : Fit wild t := by
  refine ⟨h.sound.moves g, .inr (grows.told calm fun r hr => ?_)⟩
  rw [idle] at hr
  cases hr

/-! ## Activities -/

/-- An activity that meets no violation worked the agenda off. -/
theorem settle_ok {α : Type} {result : Network → α} {a : α} (h : s.settle result = (t, .ok a)) :
    t = work s.fuel s ∧ t.violation = none ∧ t.agenda = [] ∧ a = result t := by
  unfold settle at h
  simp only at h
  split at h
  · cases h
  · rename_i calm
    split at h
    · rename_i idle
      cases h
      exact ⟨rfl, calm, List.isEmpty_iff.1 idle, rfl⟩
    · cases h

/-- An activity that works the agenda off without a violation answers. -/
theorem settle_done {α : Type} (result : Network → α) (worked : work s.fuel s = t)
    (calm : t.violation = none) (idle : t.agenda = []) : s.settle result = (t, .ok (result t)) := by
  unfold settle
  rw [worked]
  simp only [calm, idle, List.isEmpty_nil, if_true]

theorem Fit.settle {α : Type} (h : Fit wild s) {result : Network → α} {a : α}
    (ran : s.settle result = (t, .ok a)) :
    Moves wild s t ∧ Fit wild t ∧ t.violation = none ∧ t.agenda = [] := by
  obtain ⟨rfl, calm, idle, -⟩ := settle_ok ran
  obtain ⟨moves, fit⟩ := h.work calm
  exact ⟨moves, fit, calm, idle⟩

/-! ## The tally -/

/-- Something was counted, and will not be forgotten. -/
structure Counted (s : Network) : Prop where
  tally : 0 < s.tally
  counts : ∀ n, .recount n ∈ s.agenda → 0 < n

theorem Counted.grows (hs : Counted s) (h : Grows s t) (calm : t.violation = none) :
    Counted t := by
  obtain ⟨jobs, ha, waits⟩ := h.agenda calm
  refine ⟨hs.tally.trans_le h.tally, fun n hn => ?_⟩
  rw [ha] at hn
  obtain hn | hn := List.mem_append.1 hn
  · exact hs.tally.trans_le (waits _ hn)
  · exact hs.counts n hn

theorem Counted.step (hs : Counted s) (calm : s.step.violation = none) : Counted s.step := by
  obtain ⟨-, h⟩ | ⟨j, rest, top, h | ⟨n, rfl, h⟩⟩ := step_cases (step_violation calm)
  · rw [h]
    exact hs
  · have popped : Counted { s with agenda := rest } :=
      ⟨hs.tally, fun n hn => hs.counts n (top ▸ List.mem_cons_of_mem _ hn)⟩
    exact popped.grows h calm
  · rw [h]
    refine ⟨hs.counts n (by simp [top]), fun m hm => ?_⟩
    exact hs.counts m (top ▸ List.mem_cons_of_mem _ hm)

theorem Counted.work (hs : Counted s) {fuel : Nat} (calm : (work fuel s).violation = none) :
    Counted (work fuel s) := work_invariant (fun _ h => h.step) hs calm

end Wiring.Network
