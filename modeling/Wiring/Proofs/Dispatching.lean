import Mathlib
import Wiring.Proofs.Alone
import Wiring.Proofs.Attendance
import Wiring.Proofs.Bounded

/-!
# Running a registry

When a registry is run, the runners that live are held and then run one after another. What a stub
does when it is run is minor work, and a callback does nothing but ask registries and let go of
other callbacks. So the runs follow each other in the order of the registry, whoever is registered
or unregistered meanwhile, and nothing else is counted than their number.
-/
namespace Wiring

open Network

/-! ## Counts that are put back -/

/-- However the tally stands before the switchovers among the jobs, it is `total` after all of them. -/
inductive Levels (total : Nat) : Nat → List Job → Prop
  | done : Levels total total []
  | switchover {n : Nat} {x : StubId} {jobs : List Job} (after : ∀ m, Levels total m jobs) :
      Levels total n (.switchover x :: jobs)
  | recount {n m : Nat} {jobs : List Job} (after : Levels total m jobs) :
      Levels total n (.recount m :: jobs)
  | slight {n : Nat} {j : Job} {jobs : List Job} (slight : j.isSlight = true)
      (after : Levels total n jobs) : Levels total n (j :: jobs)

namespace Levels

variable {total n : Nat} {jobs more : List Job}

theorem append (h : Levels total n more) (slight : ∀ j ∈ jobs, j.isSlight = true) :
    Levels total n (jobs ++ more) := by
  induction jobs with
  | nil => exact h
  | cons j jobs ih =>
    exact .slight (slight j List.mem_cons_self) (ih fun k hk => slight k (List.mem_cons_of_mem _ hk))

theorem detour (h : Levels total n more) (detour : Detour n jobs) : Levels total n (jobs ++ more) := by
  rcases detour with ⟨slight, all, rfl | ⟨x, rfl⟩⟩
  · exact h.append all
  · exact .switchover fun _ => .recount (h.append all)

theorem concat (h : Levels total n jobs) (slight : ∀ j ∈ more, j.isSlight = true) :
    Levels total n (jobs ++ more) := by
  induction h with
  | done =>
    rw [List.nil_append, ← List.append_nil more]
    exact .append .done slight
  | switchover after ih => exact .switchover ih
  | recount after ih => exact .recount ih
  | slight one after ih => exact .slight one ih

/-- So the tally is what it is to be once there is nothing more to do. -/
theorem eq_of_nil (h : Levels total n []) : n = total := by
  cases h
  rfl

end Levels

namespace Network

variable {s t : Network} {k : RegistryId} {total : Nat} {rest small : List Job} {j : Job}

/-! ## What slight work counts -/

theorem retire_tally (s : Network) (ref : Ref) : (s.retire ref).tally = s.tally := by
  cases ref with
  | interface i => exact (retireInterface_quiet s i).tally
  | link l => exact (retireLink_quiet s l).tally
  | callback c => rfl
  | endpoint e =>
    simp only [retire, retireEndpoint]
    split <;> rfl
  | worker w =>
    simp only [retire, retireWorker]
    split <;> rfl
  | stub x =>
    simp only [retire, retireStub]
    split
    · rfl
    · split
      · rfl
      · simp only [push, violate]
        split <;> rfl

theorem conclude_tally (s : Network) (r : Request) (o : Outcome) {w : Waiter}
    (other : ∀ l, w ≠ .queue l) : (s.conclude r o w).tally = s.tally := by
  have noted := (recordAttempt_quiet s r o).tally
  unfold conclude
  simp only
  generalize s.recordAttempt r o = t at noted ⊢
  rw [← noted]
  split
  · cases w with
    | queue l => exact absurd rfl (other l)
    | retry c | application h => rfl
    | endpoint e =>
      simp only [giveUp]
      split
      · rfl
      · exact (cancel_quiet t _).tally
  · cases w with
    | queue l => exact absurd rfl (other l)
    | retry c | endpoint e => exact (discard_quiet t _).tally
    | application h => rfl

/-- Slight work counts nothing. -/
theorem slight_tally (slight : j.isSlight = true) (s : Network) :
    (s.perform j).tally = s.tally := by
  cases j with
  | release ref =>
    simp only [perform, release]
    split
    · rfl
    · exact retire_tally s ref
  | discard r => exact (discard_quiet s r).tally
  | attempt r w =>
    rcases attempt_leaves s r w with ⟨jobs, o, -, count, -⟩
    exact count
  | conclude r o w =>
    refine conclude_tally s r o fun l same => ?_
    subst same
    cases slight
  | add c r =>
    have quiet := (offer_quiet s c r).tally
    simp only [perform]
    generalize s.offer c r = out at quiet ⊢
    rcases out with ⟨u, back | back⟩ <;> exact quiet
  | replayed w => rfl
  | _ => cases slight

/-- Minor work leaves jobs to do that put counts back again. -/
theorem perform_levels (h : Levels total s.tally (j :: small))
    (calm : (s.perform j).violation = none) : ∃ jobs,
      (s.perform j).agenda = jobs ++ s.agenda ∧
        Levels total (s.perform j).tally (jobs ++ small) := by
  have slightly (slight : j.isSlight = true) (after : Levels total s.tally small)
      (leaves : Leaves Job.isSlight s (s.perform j)) : ∃ jobs,
      (s.perform j).agenda = jobs ++ s.agenda ∧
        Levels total (s.perform j).tally (jobs ++ small) := by
    rcases leaves with ⟨jobs, ha, slights⟩
    refine ⟨jobs, ha, ?_⟩
    rw [slight_tally slight]
    exact after.append slights
  cases h with
  | switchover after =>
    rcases switchover_leaves s _ with ⟨jobs, ha, slight⟩
    exact ⟨jobs, ha, (after _).append slight⟩
  | recount after => exact ⟨[], rfl, after⟩
  | slight slight after =>
    cases j with
    | attempt r w =>
      rcases attempt_leaves s r w with ⟨jobs, o, ha, count, detour⟩
      refine ⟨jobs ++ [.conclude r.taken o w], by simp [perform, ha], ?_⟩
      have last : Levels total s.tally (.conclude r.taken o w :: small) := by
        refine .slight ?_ after
        cases w <;> first | rfl | cases slight
      rw [slight_tally slight, List.append_assoc]
      exact last.detour detour
    | release ref => exact slightly slight after (release_leaves s ref calm)
    | discard r => exact slightly slight after (.of_eq (discard_quiet s r).agenda)
    | conclude r o w =>
      refine slightly slight after (conclude_leaves s r o w fun l same => ?_)
      subst same
      cases slight
    | add c r => exact slightly slight after (add_leaves s c r)
    | replayed w => exact slightly slight after (.of_eq rfl)
    | _ => cases slight

/-! ## One runner after another -/

/-- The runner that is run next, if it lives. -/
def runs (s : Network) : List Runner :=
  match s.agenda with
  | .run x :: _ => if s.isLive x.ref then [x] else []
  | _ => []

end Network

/-- Who is run by work. -/
def Runner.clerk : Clerk Runner where
  step := Network.runs
  start _ _ := []

namespace Network

variable {s t : Network} {k : RegistryId} {total : Nat} {rest small : List Job} {j : Job}

/-- A registry is being run: some of its runners were run, and it is up to the next one, or all of
them were, and what is left to do is to let go of them. -/
inductive Running (all : List Runner) (total : Nat) (rest : List Job) :
    List Runner → Network → Prop
  | calling {s : Network} {called todo : List Runner} {x : Runner} {small : List Job}
      (agenda : s.agenda =
        small ++ (x :: todo).map .run ++ all.map (fun x => .release x.ref) ++ rest)
      (levels : Levels total s.tally small) (order : all = called ++ x :: todo) :
      Running all total rest called s
  | closing {s : Network} {small : List Job} (agenda : s.agenda = small ++ rest)
      (levels : Levels total s.tally small) : Running all total rest all s

namespace Running

variable {all called : List Runner}

theorem sublist (h : Running all total rest called s) : called <+: all := by
  cases h with
  | calling agenda levels order => exact ⟨_, order.symm⟩
  | closing agenda levels => exact List.prefix_rfl

/-- What runners are left to be called, or to be let go of. -/
theorem of_todo {todo : List Runner}
    (agenda : s.agenda =
      small ++ todo.map .run ++ all.map (fun x => .release x.ref) ++ rest)
    (levels : Levels total s.tally small) (order : all = called ++ todo) :
    Running all total rest called s := by
  cases todo with
  | nil =>
    rw [List.append_nil] at order
    subst order
    have released := levels.concat (slight_releases all Runner.ref)
    refine .closing ?_ released
    rw [agenda, List.map_nil, List.append_nil]
  | cons x todo => exact .calling agenda levels order

end Running

/-! ## One run after another -/

theorem act_leaves (s : Network) (i : RegistryId) (a : Action) :
    Leaves Job.isSlight s (s.act i a) ∧ (s.act i a).tally = s.tally := by
  cases a with
  | register label | unregister label =>
    simp only [act]
    split <;> exact ⟨.of_eq rfl, rfl⟩
  | drop label =>
    simp only [act]
    split
    · unfold letGo
      split
      · exact ⟨.push rfl (by simp [Job.isSlight, Job.isMinor]), rfl⟩
      · exact ⟨.of_eq rfl, rfl⟩
    · exact ⟨.of_eq rfl, rfl⟩

theorem Leaves.trans {kind : Job → Bool} {u : Network} (h : Leaves kind s t)
    (g : Leaves kind t u) : Leaves kind s u := by
  rcases h with ⟨jobs, ha, all⟩
  rcases g with ⟨jobs', ha', all'⟩
  exact ⟨jobs' ++ jobs, by rw [ha', ha, List.append_assoc], kind_append all' all⟩

theorem foldl_act_leaves (i : RegistryId) (as : List Action) (s : Network) :
    Leaves Job.isSlight s (as.foldl (fun s a => s.act i a) s) ∧
      (as.foldl (fun s a => s.act i a) s).tally = s.tally := by
  induction as generalizing s with
  | nil => exact ⟨.of_eq rfl, rfl⟩
  | cons a as ih =>
    rcases act_leaves s i a with ⟨first, count⟩
    rcases ih (s.act i a) with ⟨later, count'⟩
    exact ⟨first.trans later, count'.trans count⟩

/-- A runner that is run leaves jobs to do that put the tally back to what it is. -/
theorem run_levels (s : Network) (x : Runner) : ∃ jobs, (s.run x).agenda = jobs ++ s.agenda ∧
    Levels s.tally (s.run x).tally jobs := by
  cases x with
  | stub x => exact ⟨[.switchover x, .recount s.tally], rfl, .switchover fun _ => .recount .done⟩
  | callback c =>
    simp only [run, runCallback]
    split
    · exact ⟨[], rfl, .done⟩
    · rename_i cb here
      rcases foldl_act_leaves cb.registry (cb.script.headD []) (note { s with
        callbacks := s.callbacks.set c { cb with script := cb.script.tail } } (.called cb.name)) with
        ⟨⟨jobs, ha, slight⟩, count⟩
      have level : Levels s.tally s.tally (jobs ++ []) := Levels.done.append slight
      rw [List.append_nil] at level
      refine ⟨jobs, ha, ?_⟩
      rw [count]
      exact level

theorem runs_of_levels {n : Nat} (top : s.agenda = j :: rest) (h : Levels total n (j :: small)) :
    s.runs = [] := by
  unfold runs
  rw [top]
  cases h with
  | switchover | recount => rfl
  | slight slight after =>
    cases j with
    | run x => cases slight
    | _ => rfl

/-- While a registry is run, each step is one for the runner that was called, or it calls the next
one, which still lives. -/
theorem Running.step {all called : List Runner} (h : Running all total rest called s)
    (sound : Sound True s) (calm : s.step.violation = none) :
    (s.agenda = rest ∧ called = all ∧ s.tally = total) ∨
      Running all total rest (called ++ s.runs) s.step := by
  have before := step_violation calm
  -- work that puts counts back is done before all else
  have worked {j : Job} {small below : List Job} (agenda : s.agenda = j :: (small ++ below))
      (levels : Levels total s.tally (j :: small)) : ∃ small', s.step.agenda = small' ++ below ∧
        Levels total s.step.tally small' ∧ called ++ s.runs = called := by
    rw [runs_of_levels agenda levels, List.append_nil]
    have calm' := calm
    rw [step_eq agenda before] at calm' ⊢
    rcases perform_levels (s := { s with agenda := small ++ below }) levels calm' with
      ⟨jobs, ha, after⟩
    exact ⟨jobs ++ small, by rw [ha, List.append_assoc], after, rfl⟩
  cases h with
  | @calling _ _ todo x small agenda levels order =>
    refine .inr ?_
    cases small with
    | cons j small =>
      simp only [List.cons_append, List.append_assoc] at agenda
      rcases worked agenda levels with ⟨small', ha, after, same⟩
      rw [same]
      refine .calling ?_ after order
      simp only [ha, List.append_assoc]
    | nil =>
      cases levels.eq_of_nil
      have top : s.agenda = .run x :: (todo.map .run ++ all.map (fun x => .release x.ref) ++ rest) := by
        simpa using agenda
      have live : s.isLive x.ref = true := by
        refine sound.live _ (isHeld_of_release ?_)
        rw [agenda, order]
        simp
      have called' : s.runs = [x] := by
        unfold runs
        rw [top]
        exact if_pos live
      rcases run_levels { s with
        agenda := todo.map .run ++ all.map (fun x => .release x.ref) ++ rest } x with
        ⟨jobs, ha, level⟩
      rw [called', step_eq top before]
      refine .of_todo ?_ level (by rw [order, List.append_assoc]; rfl)
      rw [perform, ha]
      simp only [List.append_assoc]
  | @closing _ small agenda levels =>
    cases small with
    | nil => exact .inl ⟨agenda, rfl, levels.eq_of_nil⟩
    | cons j small =>
      rcases worked agenda levels with ⟨small', ha, after, same⟩
      rw [same]
      exact .inr (.closing ha after)

/-- A registry was run: of the runners that it was to run, exactly those were run, and counted; or
this is still going on. -/
def Ran (s : Network) (all : List Runner) (total : Nat) (rest : List Job) (called : List Runner)
    (n : Nat) : Prop :=
  (∃ m ≤ n, (work m s).agenda = rest ∧ called ++ Runner.clerk.within m s = all ∧
      (work m s).tally = total) ∨
    Running all total rest (called ++ Runner.clerk.within n s) (work n s)

theorem Running.work {all called : List Runner} (h : Running all total rest called s)
    (fit : Fit True s) {n : Nat} (calm : (Network.work n s).violation = none) :
    Ran s all total rest called n := by
  induction n generalizing s called with
  | zero => exact .inr ((List.append_nil called).symm ▸ h)
  | succ n ih =>
    rw [← work_step] at calm
    have calm' := work_violation calm
    rcases h.step fit.sound calm' with ⟨agenda, rfl, count⟩ | later
    · exact .inl ⟨0, Nat.zero_le _, agenda, List.append_nil _, count⟩
    · have first : Runner.clerk.step s = s.runs := rfl
      rcases ih later (fit.step calm').2 calm with ⟨m, few, done, same, count⟩ | going
      · refine .inl ⟨m + 1, Nat.succ_le_succ few, ?_, ?_, ?_⟩
        · rw [← work_step, done]
        · rw [Clerk.within, first, ← List.append_assoc, same]
        · rw [← work_step, count]
      · refine .inr ?_
        rw [Clerk.within, first, ← List.append_assoc, ← work_step]
        exact going

/-- The runners that live are held and are to be run. -/
theorem step_runRegistry (top : s.agenda = .runRegistry k :: rest) (calm : s.violation = none) :
    s.step.agenda = (s.ready k).map .run ++ (s.ready k).map (fun x => .release x.ref) ++ rest ∧
      s.step.tally = s.tally + (s.ready k).length ∧ s.step.holds = s.holds ∧
      s.step.violation = none := by
  have live : ((prune { s with agenda := rest } k).registry k).map Prod.fst = s.ready k :=
    prune_runners { s with agenda := rest } k
  rw [step_eq top calm, perform, runRegistry]
  simp only [live]
  exact ⟨rfl, rfl, rfl, calm⟩

/-- At first nobody was run. -/
theorem Running.first (top : s.agenda = .runRegistry k :: rest) (calm : s.violation = none) :
    Running (s.ready k) (s.tally + (s.ready k).length) rest [] s.step := by
  rcases step_runRegistry top calm with ⟨agenda, count, -, -⟩
  have levels : Levels (s.tally + (s.ready k).length) s.step.tally [] := count ▸ .done
  exact .of_todo agenda levels (List.nil_append _).symm

/-- When a registry is run, those of its runners that live then are run, each once and in the order of
the registry, and their number is counted. -/
theorem runRegistry_runs (fit : Fit True s) (top : s.agenda = .runRegistry k :: rest) {n : Nat}
    (calm : (work n s).violation = none) :
    (∃ m ≤ n, (work m s).agenda = rest ∧ Runner.clerk.within m s = s.ready k ∧
        (work m s).tally = s.tally + (s.ready k).length) ∨
      Runner.clerk.within n s <+: s.ready k ∧
        ∃ j jobs, (work n s).agenda = j :: jobs ++ rest := by
  cases n with
  | zero => exact .inr ⟨List.nil_prefix, .runRegistry k, [], top⟩
  | succ n =>
    have none : Runner.clerk.step s = [] := by simp [Runner.clerk, runs, top]
    have within (m : Nat) : Runner.clerk.within (m + 1) s = Runner.clerk.within m s.step := by
      rw [Clerk.within, none, List.nil_append]
    rw [← work_step] at calm
    have calm' := work_violation calm
    have first := Running.first top (step_violation calm')
    have finished {m : Nat} (few : m ≤ n) (done : (work m s.step).agenda = rest)
        (same : Runner.clerk.within m s.step = s.ready k)
        (count : (work m s.step).tally = s.tally + (s.ready k).length) :
        ∃ m ≤ n + 1, (work m s).agenda = rest ∧ Runner.clerk.within m s = s.ready k ∧
          (work m s).tally = s.tally + (s.ready k).length :=
      ⟨m + 1, Nat.succ_le_succ few, by rw [← work_step, done], by rw [within, same],
        by rw [← work_step, count]⟩
    rcases first.work (fit.step calm').2 calm with ⟨m, few, done, same, count⟩ | going
    · exact .inl (finished few done same count)
    · rw [List.nil_append] at going
      generalize called : Runner.clerk.within n s.step = all at going
      generalize reached : work n s.step = u at going
      cases going with
      | @calling _ _ todo x small agenda levels order =>
        refine .inr ⟨by rw [within, called, order]; exact List.prefix_append _ _, ?_⟩
        rw [← work_step, reached, agenda]
        cases small with
        | nil => exact ⟨_, _, rfl⟩
        | cons j small => exact ⟨_, _, rfl⟩
      | @closing _ small agenda levels =>
        cases small with
        | nil =>
          subst reached
          exact .inl (finished le_rfl agenda called levels.eq_of_nil)
        | cons j small =>
          refine .inr ⟨by rw [within, called], j, small, ?_⟩
          rw [← work_step, reached, agenda]

/-! ## Callbacks that come to their ends -/

end Network

/-- What callbacks do when they are run, and when nothing holds them any more. -/
def Job.isBrisk : Job → Bool
  | .run (.callback _) | .release (.callback _) => true
  | _ => false

namespace Network

variable {s : Network} {k : RegistryId} {n : Nat}

/-- Callbacks are to be run and to be let go of, which takes that many steps at most: the application
can let go of what it holds, and that is all it can add. -/
structure Brisk (n : Nat) (s : Network) : Prop where
  calm : s.violation = none
  jobs : ∀ j ∈ s.agenda, j.isBrisk = true
  few : s.agenda.length + s.holds.length ≤ n

namespace Brisk

theorem act (h : Brisk n s) (i : RegistryId) (a : Action) : Brisk n (s.act i a) := by
  cases a with
  | register label | unregister label =>
    simp only [Network.act]
    split <;> exact ⟨h.calm, h.jobs, h.few⟩
  | drop label =>
    simp only [Network.act]
    split
    · rename_i c _
      unfold letGo
      split
      · rename_i held
        have there : Ref.callback c ∈ s.holds := List.contains_iff_mem.1 held
        refine ⟨h.calm, fun j hj => ?_, ?_⟩
        · rcases List.mem_cons.1 hj with rfl | old
          · rfl
          · exact h.jobs j old
        · have fewer := List.length_erase_of_mem there
          have some := List.length_pos_of_mem there
          have few := h.few
          simp only [push, List.length_append, List.length_cons, List.length_nil, fewer]
          omega
      · exact h
    · exact h

theorem foldl_act (i : RegistryId) (as : List Action) (h : Brisk n s) :
    Brisk n (as.foldl (fun s a => s.act i a) s) := by
  induction as generalizing s with
  | nil => exact h
  | cons a as ih => exact ih (h.act i a)

theorem step {j : Job} {rest : List Job} (h : Brisk (n + 1) s) (top : s.agenda = j :: rest) :
    Brisk n s.step := by
  have popped : Brisk n { s with agenda := rest } := by
    refine ⟨h.calm, fun k hk => h.jobs k (top ▸ List.mem_cons_of_mem _ hk), ?_⟩
    have few := h.few
    rw [top, List.length_cons] at few
    simp only
    omega
  have brisk := h.jobs j (top ▸ List.mem_cons_self)
  rw [step_eq top h.calm]
  cases j with
  | run x =>
    cases x with
    | stub x => cases brisk
    | callback c =>
      simp only [perform, run, runCallback]
      split
      · exact popped
      · rename_i cb here
        have called : Brisk n (note { s with
            callbacks := s.callbacks.set c { cb with script := cb.script.tail }, agenda := rest }
            (.called cb.name)) := ⟨popped.calm, popped.jobs, popped.few⟩
        exact called.foldl_act cb.registry (cb.script.headD [])
  | release ref =>
    cases ref with
    | callback c =>
      simp only [perform, release]
      split
      · exact popped
      · exact ⟨popped.calm, popped.jobs, popped.few⟩
    | _ => cases brisk
  | _ => cases brisk

/-- They come to their ends. -/
theorem ends (h : Brisk n s) :
    ∃ m ≤ n, (Network.work m s).agenda = [] ∧ (Network.work m s).violation = none := by
  induction n generalizing s with
  | zero =>
    have few := h.few
    have idle : s.agenda = [] := List.length_eq_zero_iff.1 (by omega)
    exact ⟨0, le_rfl, idle, h.calm⟩
  | succ n ih =>
    cases top : s.agenda with
    | nil => exact ⟨0, Nat.zero_le _, top, h.calm⟩
    | cons j rest =>
      rcases ih (h.step top) with ⟨m, few, done, calm⟩
      rw [work_step] at done calm
      exact ⟨m + 1, Nat.succ_le_succ few, done, calm⟩

end Brisk

/-! ## Dispatching -/

theorem ready_length_le (s : Network) (k : RegistryId) :
    (s.ready k).length + s.holds.length ≤ s.extent := by
  have listed : (s.ready k).length ≤ (s.registry k).length := by
    have filtered := List.length_filter_le (fun x : Runner => s.isLive x.ref) (s.registry k).runners
    rwa [Registry.runners, List.length_map] at filtered
  have counted : (s.registry k).length ≤ tableExtent s.registries List.length := by
    unfold registry
    cases here : s.registries.get? k with
    | none => exact Nat.zero_le _
    | some r => exact le_tableExtent here List.length
  unfold extent
  omega

theorem begin_fit (rested : Rested True s) :
    Fit True (s.begin [.runRegistry k]) ∧ (s.begin [.runRegistry k]).agenda = .runRegistry k :: [] := by
  have started := Call.start_moves rested (c := .dispatchRegistry k) trivial
  refine ⟨⟨rested.fit.sound.moves started, .inl trivial⟩, ?_⟩
  rw [begin, push, rested.idle]
  rfl

/-- A dispatch that answers has run the runners that lived, and answers with their number. -/
theorem dispatchRegistry_runs (rested : Rested True s) {t : Network}
    (ran : s.dispatchRegistry k = (t, .ok n)) : n = (s.ready k).length ∧
      ∃ m, t = work m (s.begin [.runRegistry k]) ∧
        Runner.clerk.within m (s.begin [.runRegistry k]) = s.ready k := by
  rcases settle_ok ran with ⟨worked, calm, done, rfl⟩
  rcases begin_fit rested with ⟨fit, top⟩
  rw [worked] at calm done
  rcases runRegistry_runs fit top calm with ⟨m, few, idle, same, count⟩ | ⟨-, j, jobs, busy⟩
  · have reached : t = work m (s.begin [.runRegistry k]) := by
      rw [worked, ← Nat.add_sub_cancel' few, work_add]
      exact work_nil idle _
    refine ⟨?_, m, reached, same⟩
    rw [reached, count]
    exact Nat.zero_add _
  · exact absurd (done.symm.trans busy) (by simp)

/-- A dispatch answers if it runs nothing but callbacks. -/
theorem dispatchRegistry_answers (rested : Rested True s)
    (callbacks : ∀ x ∈ s.ready k, ∃ c, x = .callback c) :
    ∃ t, s.dispatchRegistry k = (t, .ok (s.ready k).length) := by
  rcases begin_fit rested with ⟨-, top⟩
  have ready : (s.begin [.runRegistry k]).ready k = s.ready k := rfl
  have room := (s.begin [.runRegistry k]).ready_length_le k
  have enough := (s.begin [.runRegistry k]).extent_le_fuel
  have holds : (s.begin [.runRegistry k]).holds = s.holds := rfl
  rcases step_runRegistry top rested.calm with ⟨agenda, -, held, calm⟩
  rw [ready] at agenda room
  have brisk : Brisk (2 * (s.ready k).length + s.holds.length)
      (s.begin [.runRegistry k]).step := by
    refine ⟨calm, fun j hj => ?_, ?_⟩
    · rw [agenda, List.append_nil] at hj
      rcases List.mem_append.1 hj with hj | hj
      · rcases List.mem_map.1 hj with ⟨x, hx, rfl⟩
        rcases callbacks x hx with ⟨c, rfl⟩
        rfl
      · rcases List.mem_map.1 hj with ⟨x, hx, rfl⟩
        rcases callbacks x hx with ⟨c, rfl⟩
        rfl
    · rw [agenda, held, holds]
      simp only [List.append_nil, List.length_append, List.length_map]
      omega
  rcases brisk.ends with ⟨m, few, done, calm'⟩
  rw [work_step] at done calm'
  have within : m + 1 ≤ (s.begin [.runRegistry k]).fuel := by
    rw [holds] at room
    omega
  have answered := settle_within tally within done calm'
  have ran : s.dispatchRegistry k = (_, .ok _) := answered
  have counted := (dispatchRegistry_runs rested ran).1
  exact ⟨_, counted ▸ ran⟩

end Network
end Wiring
