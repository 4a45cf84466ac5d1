import Mathlib
import Wiring.Proofs.Calls

/-!
# Networks in the middle of operations

An operation starts with what it does at once and with work on the agenda. What the work leads to,
step by step, is visited on the way to its end.
-/
namespace Wiring

variable {α : Type} {s t : Network}

namespace Network

/-- Work is put on the agenda, and counted from zero. -/
def begin (s : Network) (jobs : List Job) : Network := push { s with tally := 0 } jobs

end Network

namespace Call

open Network

/-- What an operation does at once, and the work that it leaves to do. -/
def start (s : Network) : Call → Network
  | .drop ref => s.letGo ref
  | .progress i => s.begin [.progressInterface i]
  | .operate (.stub t) (.bulk messageId payload) =>
    if messageId ≠ Signal.messageId then s.begin [.switchover t]
    else (s.operate (.stub t) (.bulk messageId payload)).1
  | .operate (.stub t) _ => s.begin [.switchover t]
  | .purgeQueue (.stub t) _ => s.begin [.purge (.stub t)]
  | .attemptHeld h =>
    match s.held.get? h with
    | none => s
    | some r => begin { s with held := s.held.erase h } [.attempt r (.application h)]
  | .dispatchRegistry r => s.begin [.runRegistry r]
  | .progressOf w => s.begin [.progressWorker w]
  | .createEndpoint w address =>
    match s.findEndpoint? w address.uuid with
    | some e => s.keep (.endpoint e)
    | none =>
      let (t, e) := s.openEndpoint w address.uuid address.name
      let lanes := ((t.workers.get? w).map fun w => w.plan.lanes).getD []
      match t.openLanes e address.entries lanes with
      | (u, .error _) => u.begin [.destroy e, .release (.endpoint e)]
      | (u, .ok ()) =>
        match u.newSignal e .request with
        | (v, .error _) => v.begin [.destroy e, .release (.endpoint e)]
        | (v, .ok (h, job)) => v.begin [job, .confirm e h, .release (.endpoint e)]
  | .close w =>
    s.begin ((((s.workers.get? w).map fun w => w.directory.map Prod.snd).getD []).flatMap
      fun e => [.destroy e, .release (.endpoint e)])
  | .sendMessage e messageId payload =>
    let (t, _, job) := s.newSend e messageId payload
    t.begin [job]
  | .addPending c source =>
    match s.takeRequest source with
    | (t, none) => t
    | (t, some r) => t.begin [.add c r]
  | .progressEndpoint e =>
    match s.endpoints.get? e with
    | none => s
    | some e =>
      let stubs := (e.slots.toList.filterMap fun
        | some (.stub t) => some t
        | _ => none).eraseDups
      s.begin (stubs.flatMap (fun t => [.switchover t]) ++ stubs.map fun t => .release (.stub t))
  | .destroyEndpoint e => s.begin [.destroy e]
  | .progressStub t => s.begin [.switchover t]
  | c => (c.run s).1

/-- The work is done, and the application may hold one thing more. -/
structure Ends (u t : Network) : Prop where
  calm : u.violation = none
  idle : u.agenda = []
  held : t = u ∨ ∃ ref, t = u.keep ref

theorem Ends.rests {u : Network} (h : Ends u t) : t.agenda = [] ∧ t.violation = none := by
  rcases h.held with rfl | ⟨ref, rfl⟩
  · exact ⟨h.idle, h.calm⟩
  · unfold Network.keep
    split
    · exact ⟨h.idle, h.calm⟩
    · exact ⟨h.idle, h.calm⟩

/-- An operation that sets no work off has ended when it starts. -/
theorem ends_at_once (idle : t.agenda = []) (calm : t.violation = none) :
    ∃ n, Ends (work n t) t :=
  ⟨0, calm, idle, .inl rfl⟩

/-- Work that is settled has ended. -/
theorem ends_of_settle {u : Network} {result : Network → α} {a : α}
    (ran : s.settle result = (u, .ok a)) : ∃ n, Ends (work n s) u := by
  rcases settle_ok ran with ⟨rfl, calm, idle, -⟩
  exact ⟨s.fuel, calm, idle, .inl rfl⟩

theorem ends_of_carryOut {u : Network} {jobs : List Job} {result : Network → α} {a : α}
    (ran : s.carryOut jobs result = (u, .ok a)) : ∃ n, Ends (work n (s.begin jobs)) u :=
  ends_of_settle ran

theorem createEndpoint_start {w : WorkerId} {address : WorkerAddress}
    {a : Except WireupError EndpointId} (ran : s.createEndpoint w address = (t, .ok a))
    (idle : t.agenda = []) (calm : t.violation = none) :
    ∃ n, Ends (work n (start s (.createEndpoint w address))) t := by
  unfold Network.createEndpoint at ran
  simp only [start]
  cases found : s.findEndpoint? w address.uuid with
  | some e =>
    simp only [found] at ran
    cases ran
    exact ends_at_once idle calm
  | none =>
    simp only [found] at ran
    simp only
    generalize s.openEndpoint w address.uuid address.name = opened at ran
    rcases opened with ⟨u, e⟩
    simp only at ran ⊢
    cases lanes : u.openLanes e address.entries
      (((u.workers.get? w).map fun w => w.plan.lanes).getD []) with
    | mk v laid =>
      simp only [lanes] at ran ⊢
      cases laid with
      | error why => exact ends_of_carryOut ran
      | ok _ =>
        cases signal : v.newSignal e .request with
        | mk v' asked =>
          simp only [signal] at ran ⊢
          cases asked with
          | error why => exact ends_of_carryOut ran
          | ok sent =>
            simp only at ran
            split at ran
            · cases ran
            · rename_i x why settled
              cases ran
              exact ends_of_carryOut settled
            · rename_i x b _ settled
              cases ran
              rcases settle_ok settled with ⟨rfl, calm', idle', -⟩
              exact ⟨_, calm', idle', .inr ⟨_, rfl⟩⟩

/-- What an operation leaves is what its start leads to. -/
theorem run_start {c : Call} (ran : c.run s = (t, .ok ())) (idle : t.agenda = [])
    (calm : t.violation = none) : ∃ n, Ends (work n (c.start s)) t := by
  have plainly (h : c.start s = (c.run s).1) : ∃ n, Ends (work n (c.start s)) t := by
    rw [h, ran]
    exact ends_at_once idle calm
  unfold run at ran
  cases c with
  | drop ref =>
    rcases unanswered_ok ran with ⟨a, ran⟩
    exact ends_of_settle ran
  | progress i =>
    rcases unanswered_ok ran with ⟨a, ran⟩
    exact ends_of_carryOut ran
  | operate c operation =>
    cases c with
    | link l => exact plainly (by cases operation <;> rfl)
    | stub x =>
      rcases unanswered_ok ran with ⟨a, ran⟩
      cases operation with
      | short messageId header payload =>
        simp only [Network.operate] at ran
        exact ends_of_carryOut ran
      | other name =>
        simp only [Network.operate] at ran
        exact ends_of_carryOut ran
      | bulk messageId payload =>
        by_cases data : messageId ≠ Signal.messageId
        · have held : s.sendOver (.stub x) messageId payload none = (s, none) := if_pos data
          simp only [Network.operate, held] at ran
          simp only [start, if_pos data]
          exact ends_of_carryOut ran
        · simp only [start, if_neg data, ran]
          exact ends_at_once idle calm
  | purgeQueue c kept =>
    cases c with
    | link l => exact plainly rfl
    | stub x =>
      rcases unanswered_ok ran with ⟨a, ran⟩
      simp only [Network.purgeQueue] at ran
      exact ends_of_carryOut ran
  | attemptHeld h =>
    rcases unanswered_ok ran with ⟨a, ran⟩
    unfold Network.attemptHeld at ran
    cases here : s.held.get? h with
    | none =>
      simp only [here] at ran
      cases ran
      simp only [start, here]
      exact ends_at_once idle calm
    | some r =>
      simp only [here] at ran
      simp only [start, here]
      exact ends_of_carryOut ran
  | dispatchRegistry r =>
    rcases unanswered_ok ran with ⟨a, ran⟩
    exact ends_of_carryOut ran
  | progressOf w =>
    rcases unanswered_ok ran with ⟨a, ran⟩
    exact ends_of_carryOut ran
  | createEndpoint w address =>
    rcases unanswered_ok ran with ⟨a, ran⟩
    exact createEndpoint_start ran idle calm
  | close w =>
    rcases unanswered_ok ran with ⟨a, ran⟩
    exact ends_of_carryOut ran
  | sendMessage e messageId payload =>
    rcases unanswered_ok ran with ⟨a, ran⟩
    exact ends_of_carryOut ran
  | addPending c source =>
    rcases unanswered_ok ran with ⟨a, ran⟩
    unfold Network.addPending at ran
    cases taken : s.takeRequest source with
    | mk u r =>
      rw [taken] at ran
      simp only [start, taken]
      cases r with
      | none =>
        cases ran
        exact ends_at_once idle calm
      | some r => exact ends_of_carryOut ran
  | progressEndpoint e =>
    rcases unanswered_ok ran with ⟨a, ran⟩
    unfold Network.progressEndpoint at ran
    cases here : s.endpoints.get? e with
    | none =>
      simp only [here] at ran
      cases ran
      simp only [start, here]
      exact ends_at_once idle calm
    | some ep =>
      simp only [here] at ran
      simp only [start, here]
      exact ends_of_carryOut ran
  | destroyEndpoint e =>
    rcases unanswered_ok ran with ⟨a, ran⟩
    exact ends_of_carryOut ran
  | progressStub x =>
    rcases unanswered_ok ran with ⟨a, ran⟩
    exact ends_of_carryOut ran
  | _ => exact plainly rfl

/-- What an operation does at once is done by moves. -/
theorem start_moves (h : Rested True s) {c : Call} (permitted : c.Permitted s) :
    Moves True s (c.start s) := by
  have reset {s t : Network} {jobs : List Job} (moves : Moves True s (t.push jobs)) :
      Moves True s (t.begin jobs) := by
    refine moves.trans (Moves.aside (?_ : Aside (t.push jobs) (t.begin jobs)))
    exact { Aside.refl (t.push jobs) with }
  have planned {jobs : List Job} (plans : Plannable s jobs) : Moves True s (s.begin jobs) :=
    reset plans.moves
  have one {j : Job} (idle : j.isIdle = true) (turn : j.turn? = none) (count : ∀ n, j ≠ .recount n) :
      Moves True s (s.begin [j]) := by
    refine planned fun k hk => ?_
    cases List.mem_singleton.1 hk
    exact .inl ⟨idle, turn, count⟩
  have atOnce (ran : c.run s = (c.start s, .ok ())) : Moves True s (c.start s) :=
    (h.call (.inl trivial) permitted ran).moves
  cases c with
  | drop ref => exact letGo_moves s ref
  | progress i => exact one rfl rfl (by simp)
  | operate c op =>
    cases c with
    | link l => cases op <;> exact atOnce rfl
    | stub x =>
      cases op with
      | short messageId header payload => exact one rfl rfl (by simp)
      | other name => exact one rfl rfl (by simp)
      | bulk messageId payload =>
        simp only [start]
        split
        · exact one rfl rfl (by simp)
        · rename_i signal
          cases sent : s.sendOver (.stub x) messageId payload none with
          | mk u o =>
            rcases h.sendOver _ messageId payload sent with ⟨led, -⟩
            simp only [Network.operate, sent]
            cases o with
            | some o => exact led.moves
            | none =>
              rcases s.sendOver_cases (.stub x) messageId payload none with
                ⟨data, -⟩ | ⟨why, off⟩ | ⟨l, dest, v, -, -, off⟩
              · exact absurd data signal
              · cases off.symm.trans sent
              · cases off.symm.trans sent
  | purgeQueue c kept =>
    cases c with
    | link l =>
      refine atOnce ?_
      cases kept <;> rfl
    | stub x => exact one rfl rfl (by simp)
  | attemptHeld id =>
    simp only [start]
    cases here : s.held.get? id with
    | none => exact .refl
    | some r =>
      refine reset ((h.takeHeld here).moves.trans
        (Moves.pass (.lend r id s.agenda rfl ?_ ?_ (fun j hj => ?_) (.inl trivial))))
      · simpa [push] using Table.lt_next_of_get? here
      · simp [push, Table.get?_erase]
      · rw [h.idle] at hj
        cases hj
  | dispatchRegistry r => exact one rfl rfl (by simp)
  | progressOf w => exact one rfl rfl (by simp)
  | createEndpoint w address =>
    simp only [start]
    cases found : s.findEndpoint? w address.uuid with
    | some e => exact keep_moves s _
    | none =>
      simp only
      cases opened : s.openEndpoint w address.uuid address.name with
      | mk t e =>
        simp only
        cases lanes : t.openLanes e address.entries
            (((t.workers.get? w).map fun w => w.plan.lanes).getD []) with
        | mk v done =>
          obtain ⟨led, live⟩ := h.begun permitted ⟨found, t, opened, lanes⟩
          cases done with
          | error why => exact led.moves.trans (reset (abandon_moves v live))
          | ok _ =>
            simp only
            cases made : v.newSignal e .request with
            | mk u sent =>
              cases sent with
              | error why =>
                rcases v.newSignal_cases e .request with ⟨why', refused⟩ | ⟨payload, -, asked⟩
                · cases refused.symm.trans made
                  exact led.moves.trans (reset (abandon_moves v live))
                · cases asked.symm.trans made
              | ok sent => exact led.moves.trans (reset (request_moves live made))
  | close w => exact planned (plannable_close h.fit.sound.live w)
  | sendMessage e messageId payload =>
    have sent : Moves True s _ := newSend_moves permitted messageId payload fun _ => h.idle
    exact reset (t := (s.newSend e messageId payload).1) sent
  | addPending c source =>
    simp only [start]
    rcases h.takeRequest source with ht | ⟨t, r, ht, taken⟩
    · simp only [ht]
      exact .refl
    · simp only [ht]
      exact reset (taken.offer c)
  | progressEndpoint e =>
    simp only [start]
    split
    · exact .refl
    · rename_i ep here
      exact planned (plannable_switchovers (stubJobs_cases h.fit.sound.live here))
  | destroyEndpoint e => exact one rfl rfl (by simp)
  | progressStub x => exact one rfl rfl (by simp)
  | remoteConnected slot =>
    cases slot with
    | none => exact .refl
    | some c =>
      cases c with
      | link l => exact .refl
      | stub x => exact atOnce rfl
  | _ => exact atOnce rfl

end Call

/-! ## Runs -/

/-- What runs lead to whose operations fit the networks that they meet. -/
inductive Journey (fits : Network → Call → Prop) : Network → Prop
  | start (process : UInt32) : Journey fits { process }
  | call {s t : Network} (c : Call) (before : Journey fits s) (fit : fits s c)
      (permitted : c.Permitted s) (ran : c.run s = (t, .ok ())) : Journey fits t

/-- What such runs visit, between two operations and in the middle of one, as long as nothing is
violated. -/
inductive Visited (fits : Network → Call → Prop) : Network → Prop
  | between {s : Network} (h : Journey fits s) : Visited fits s
  | within {s : Network} (c : Call) (n : Nat) (before : Journey fits s) (fit : fits s c)
      (permitted : c.Permitted s) (calm : (Network.work n (c.start s)).violation = none) :
      Visited fits (Network.work n (c.start s))

namespace Journey

variable {fits : Network → Call → Prop}

/-- A run stays one where more operations fit. -/
theorem mono {fits' : Network → Call → Prop} (h : Journey fits s)
    (more : ∀ s c, fits s c → fits' s c) : Journey fits' s := by
  induction h with
  | start process => exact .start process
  | call c _ fit permitted ran ih => exact .call c ih (more _ c fit) permitted ran

theorem reachable (h : Journey fits s) : Reachable (fun _ => True) s := by
  induction h with
  | start process => exact ⟨process, .refl _⟩
  | call c _ _ permitted ran ih => exact ih.trans (.call c (.refl _) trivial permitted ran)

theorem rested (h : Journey fits s) : Network.Rested True s := by
  rcases Network.leads_of_reachable (fun _ _ => .inl trivial) h.reachable with ⟨process, leads⟩
  exact leads.rested

/-- What every start keeps, and every step of work, and what does not depend on what is held, is
kept between operations. -/
theorem keeps {I : Network → Prop} (h : Journey fits s) (initial : ∀ process, I { process })
    (start : ∀ s c, Journey fits s → I s → fits s c → c.Permitted s → I (c.start s))
    (work : ∀ s n, I s → (Network.work n s).violation = none → I (Network.work n s))
    (keep : ∀ s ref, I s → I (s.keep ref)) : I s := by
  induction h with
  | start process => exact initial process
  | call c before fit permitted ran ih =>
    have rested := (Journey.call c before fit permitted ran).rested
    rcases Call.run_start ran rested.idle rested.calm with ⟨n, ends⟩
    have worked := work _ n (start _ c before ih fit permitted) ends.calm
    rcases ends.held with rfl | ⟨ref, rfl⟩
    · exact worked
    · exact keep _ ref worked

end Journey

/-- Runs operations one after another, as long as they fit, are permitted and meet no violation. -/
def Call.runFitting (fits : Network → Call → Bool) : Network → List Call → Option Network
  | s, [] => some s
  | s, c :: cs =>
    if fits s c = true ∧ c.Permitted s then
      match c.run s with
      | (t, .ok ()) => runFitting fits t cs
      | (_, .error _) => none
    else none

theorem Journey.of_runFitting {fits : Network → Call → Bool} {cs : List Call}
    (h : Journey (fun s c => fits s c = true) s) (ran : Call.runFitting fits s cs = some t) :
    Journey (fun s c => fits s c = true) t := by
  induction cs generalizing s with
  | nil =>
    cases ran
    exact h
  | cons c cs ih =>
    unfold Call.runFitting at ran
    split at ran
    · rename_i ok
      split at ran
      · rename_i u ended
        exact ih (.call c h ok.1 ok.2 ended) ran
      · cases ran
    · cases ran

theorem Journey.of_runAll {cs : List Call} (h : Journey (fun _ _ => True) s)
    (ran : Call.runAll s cs = some t) : Journey (fun _ _ => True) t := by
  induction cs generalizing s with
  | nil =>
    cases ran
    exact h
  | cons c cs ih =>
    unfold Call.runAll at ran
    split at ran
    · rename_i permitted
      split at ran
      · rename_i u ended
        exact ih (.call c h trivial permitted ended) ran
      · cases ran
    · cases ran

theorem Visited.calm {fits : Network → Call → Prop} (h : Visited fits s) : s.violation = none := by
  cases h with
  | between h => exact h.rested.calm
  | within c n before fit permitted calm => exact calm

/-- What a run visits is led to by moves, and fit to go on. -/
theorem Visited.moves {fits : Network → Call → Prop} (h : Visited fits s) :
    ∃ process, Network.Moves True { process } s ∧ Network.Fit True s := by
  cases h with
  | between h =>
    rcases Network.leads_of_reachable (fun _ _ => .inl trivial) h.reachable with ⟨process, leads⟩
    exact ⟨process, leads.moves, leads.rested.fit⟩
  | within c n before fit permitted calm =>
    rcases Network.leads_of_reachable (fun _ _ => .inl trivial) before.reachable with
      ⟨process, leads⟩
    have started := Call.start_moves leads.rested permitted
    have ready : Network.Fit True (c.start _) :=
      ⟨leads.rested.fit.sound.moves started, .inl trivial⟩
    rcases ready.work calm with ⟨worked, fit⟩
    exact ⟨process, (leads.moves.trans started).trans worked, fit⟩

/-- What holds between operations, and is kept by every start and every step of work, holds
wherever a run comes by. -/
theorem Visited.keeps {fits : Network → Call → Prop} {I : Network → Prop} (h : Visited fits s)
    (initial : ∀ process, I { process })
    (start : ∀ s c, Journey fits s → I s → fits s c → c.Permitted s → I (c.start s))
    (work : ∀ s n, I s → (Network.work n s).violation = none → I (Network.work n s))
    (keep : ∀ s ref, I s → I (s.keep ref)) : I s := by
  cases h with
  | between h => exact h.keeps initial start work keep
  | within c n before fit permitted calm =>
    exact work _ n (start _ c before (before.keeps initial start work keep) fit permitted) calm

end Wiring
