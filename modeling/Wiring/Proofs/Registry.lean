import Mathlib
import Wiring.Proofs.Dispatching

/-!
# Registries in the course of a run

Whatever an application does, and whatever callbacks do while they are run, a registry keeps one
entry for each runner that is registered more often than it was unregistered. When the registry is
run, exactly those that live are run, in the order in which their entries came.
-/
namespace Wiring

open Registry (Query Log)

/-- What a registry was asked and has answered, in a run in which nobody registers a callback that
was not opened. -/
abbrev Registry.Logged (k : RegistryId) (log : Log) (s : Network) : Prop :=
  Minutes (fun s c => c.Registrable s) (Registry.clerk k) log s

namespace Network

variable {s : Network} {k : RegistryId}

theorem foldl_act_trace (i : RegistryId) (as : List Action) (s : Network) :
    (as.foldl (fun s a => s.act i a) s).trace = s.trace := by
  have one (s : Network) (a : Action) : (s.act i a).trace = s.trace := by
    cases a <;> simp only [act] <;> split <;> first | rfl | (unfold letGo; split <;> rfl)
  induction as generalizing s with
  | nil => rfl
  | cons a as ih => exact (ih _).trans (one s a)

/-- A callback that is run is called. -/
theorem runs_called (calm : s.violation = none) {c : CallbackId} (next : s.runs = [.callback c]) :
    ∃ cb, s.callbacks.get? c = some cb ∧ s.step.trace = s.trace.push (.called cb.name) := by
  unfold runs at next
  split at next
  · rename_i x rest top
    split at next
    · rename_i live
      cases next
      rcases Table.contains_iff.1 live with ⟨cb, here⟩
      refine ⟨cb, here, ?_⟩
      rw [step_eq top calm]
      simp only [perform, run, runCallback, here, foldl_act_trace]
      rfl
    · cases next
  · cases next

/-- How a registry keeps its runners and runs them, in a state that a run visits. -/
structure Presides (k : RegistryId) (s : Network) : Prop where
  /-- What the registry was asked up to now can be told. -/
  told : ∃ log, Registry.Logged k log s
  /-- Whatever it is asked next, each runner has one entry at most, and that counts one registration
  at least. -/
  proper : ∀ qs, ((s.registry k).asks qs).1.Proper
  /-- So a registration is taken back exactly if there is one, and the count stays above zero. -/
  takes : ∀ qs x, let r := ((s.registry k).asks qs).1
    (r.remove x).2 = if r.count x = 0 then none else some (r.count x - 1)
  /-- A runner that lives is counted as often as it was registered and not unregistered. -/
  counts : ∀ log : Log, Registry.Logged k log s →
    ∀ x, s.isLive x.ref = true → s.registrations k x + log.withdrawals x = log.registrations x
  /-- All answers about it are true: none, if no registration stood, or else how many then did. -/
  answers : ∀ log : Log, Registry.Logged k log s →
    ∀ before after q a, log = before ++ (q, a) :: after →
      q.Answered (fun x => s.isLive x.ref = true) before a
  /-- Runners that live stand in the order in which what stands of them was first registered. -/
  order : ∀ log : Log, Registry.Logged k log s →
    (∀ x ∈ s.ready k, ∃ i, log.Entered x i) ∧ (s.ready k).Nodup ∧ (s.ready k).Pairwise log.Before
  /-- When the registry is run, exactly the runners that live then are run, each once and in order,
  and what is counted is their number; or this is still going on, and some of them were run. -/
  runs : ∀ rest, s.agenda = .runRegistry k :: rest → ∀ n, (work n s).violation = none →
    (∃ m ≤ n, (work m s).agenda = rest ∧ Runner.clerk.within m s = s.ready k ∧
        (work m s).tally = s.tally + (s.ready k).length) ∨
      Runner.clerk.within n s <+: s.ready k ∧ ∃ j jobs, (work n s).agenda = j :: jobs ++ rest
  /-- A callback that is run is called. -/
  called : ∀ c, s.runs = [.callback c] →
    ∃ cb, s.callbacks.get? c = some cb ∧ s.step.trace = s.trace.push (.called cb.name)
  /-- A dispatch that answers does so with the number of the runners that it has run. -/
  returns : s.agenda = [] → ∀ t n, s.dispatchRegistry k = (t, .ok n) → n = (s.ready k).length ∧
    ∃ m, t = work m (s.begin [.runRegistry k]) ∧
      Runner.clerk.within m (s.begin [.runRegistry k]) = s.ready k
  /-- And it answers if there are callbacks only. -/
  answered : s.agenda = [] → (∀ x ∈ s.ready k, ∃ c, x = .callback c) →
    ∃ t, s.dispatchRegistry k = (t, .ok (s.ready k).length)

/-- Wherever a run comes by, a registry has one entry for each runner that lives and was registered
more often than unregistered, and it runs those runners in the order in which they entered. -/
theorem registry_presides (h : Visited (fun s c => c.Registrable s) s) (k : RegistryId) :
    Presides k s := by
  rcases h.minutes (Registry.clerk k) with ⟨log, told⟩
  have proper := told.minds.law.toProper
  rcases h.moves with ⟨process, -, fit⟩
  have rested (idle : s.agenda = []) : Rested True s := ⟨fit, idle, h.calm⟩
  -- who lives is not gone
  have alive {log : Log} (told : Registry.Logged k log s) :
      Registry.Law (fun x => s.isLive x.ref = true) log (s.registry k) :=
    told.minds.law.mono fun x live gone => by simp [gone.2] at live
  have single : (s.ready k).Nodup := proper.single.filter _
  exact {
    told := ⟨log, told⟩
    proper := proper.asks
    takes := fun qs x => (proper.asks qs).remove_eq x
    counts := fun log told x live => (alive told).counts x live
    answers := fun log told => (alive told).answers
    order := fun log told => by
      have law := alive told
      refine ⟨fun x ready => ?_, single, ?_⟩
      · rcases List.mem_filter.1 ready with ⟨there, live⟩
        exact law.entered x there live
      · refine (law.order.sublist List.filter_sublist).imp_of_mem fun {x y} hx hy before => ?_
        exact before (List.mem_filter.1 hx).2 (List.mem_filter.1 hy).2
    runs := fun rest top n calm => runRegistry_runs fit top calm
    called := fun c next => runs_called h.calm next
    returns := fun idle t n ran => dispatchRegistry_runs (rested idle) ran
    answered := fun idle => dispatchRegistry_answers (rested idle) }

/-! ## Callbacks that ask the registry while it is run -/

/-- The first callback, registered twice, is run before the second one: it unregisters and drops the
second one, which is run all the same, and registers the third one. Later the first one leaves and
comes back, and the second one, which is gone by then, is registered once more. -/
def rehearsal : List Call :=
  [.openRegistry,
    .openCallback "first" 0 [[.unregister "second", .register "third", .drop "second"]],
    .openCallback "second" 0 [[.unregister "second"]], .openCallback "third" 0 [],
    .register 0 0, .register 0 1, .register 0 0, .dispatchRegistry 0,
    .unregister 0 0, .unregister 0 0, .register 0 0, .register 0 1]

/-- What the registry answers. -/
def rehearsalLog : Log :=
  let callback (c : Fin 3) : Runner := .callback c
  [(.register (callback 0) true, some 1), (.register (callback 1) true, some 1),
    (.register (callback 0) true, some 2), (.prune [callback 0, callback 1], none),
    (.unregister (callback 1), some 0), (.register (callback 2) true, some 1),
    (.unregister (callback 1), none), (.unregister (callback 0), some 1),
    (.unregister (callback 0), some 0), (.register (callback 0) true, some 1),
    (.register (callback 1) false, some 1)]

/-- Then the third callback stands before the first, and a dispatch runs the two of them. -/
theorem registry_presides_rehearsal : ∃ s : Network,
    (Registry.clerk 0).narrate (fun s c => decide (c.Registrable s)) 16 { process := 1 } rehearsal =
      some (s, rehearsalLog) ∧
    Presides 0 s ∧ s.ready 0 = [.callback 2, .callback 0] ∧
    ∃ t, s.dispatchRegistry 0 = (t, .ok 2) := by
  have known : ((Registry.clerk 0).narrate (fun s c => decide (c.Registrable s)) 16
      { process := 1 } rehearsal).map (fun x => decide (x.2 = rehearsalLog ∧
        x.1.ready 0 = [.callback 2, .callback 0])) = some true := by
    decide +kernel
  rcases Option.map_eq_some_iff.1 known with ⟨⟨s, log⟩, narrated, known⟩
  rcases of_decide_eq_true known with ⟨rfl, ready⟩
  have quiet (s : Network) (idle : s.agenda = []) : (Registry.clerk 0).step s = [] := by
    simp only [Registry.clerk, heard, idle]
  rcases Minutes.of_narrate quiet (.start 1) (.initial 1) narrated with ⟨journey, -⟩
  have run : Journey (fun s c => c.Registrable s) s :=
    journey.mono fun _ _ fit => of_decide_eq_true fit
  have presides : Presides 0 s := registry_presides (.between run) 0
  have answered := presides.answered run.rested.idle fun x there => by
    rw [ready] at there
    simp only [List.mem_cons, List.not_mem_nil, or_false] at there
    rcases there with rfl | rfl <;> exact ⟨_, rfl⟩
  rw [ready] at answered
  exact ⟨s, narrated, presides, ready, answered⟩

end Network
end Wiring
