import Mathlib
import Wiring.Proofs.Calls
import Wiring.Proofs.Gate
import Wiring.Proofs.History

/-!
# When a stub switches over

A stub switches over exactly if its endpoint and its worker live, it never has before, both sides
have connected and no control traffic that was given to it is unfinished. An attempt that does not
switch it over leaves everything as it was, but for the posted events of its worker.
-/
namespace Wiring.Network

variable {s t u : Network} {x : StubId} {wild : Prop}

/-- The network once the worker of a stub has applied its posted events. -/
def caughtUp (s : Network) (x : StubId) : Network :=
  match (s.stubs.get? x).bind fun st => s.workerOf? st.endpoint with
  | none => s
  | some w => (s.applyPosted w).1

/-- A stub waits for nothing but its switchover, as its history tells. -/
structure Due (s : Network) (x : StubId) : Prop where
  alive : ∃ st w, s.stubs.get? x = some st ∧ s.workerOf? st.endpoint = some w
  unswitched : ∀ l, .switched x l ∉ s.trace
  connected : .connected x ∈ s.trace
  marked : .marked x ∈ s.trace
  finished : ∀ st, s.stubs.get? x = some st → ∀ r, s.Carries r → st.gate ∉ r.gates

/-- Nothing has changed but that the worker of a stub has no posted events left and that stubs have
been marked as connected from the remote side. -/
structure OnlyMarked (s : Network) (x : StubId) (t : Network) : Prop where
  frame : t = { s with stubs := t.stubs, workers := t.workers, trace := t.trace }
  stubs : ∀ y, ∃ b, t.stubs.get? y =
    (s.stubs.get? y).map fun st => { st with remoteConnected := st.remoteConnected || b }
  posted : ∀ w wk, s.workers.get? w = some wk → t.workers.get? w =
    some (if (s.stubs.get? x).bind (fun st => s.workerOf? st.endpoint) = some w
      then { wk with posted := [] } else wk)
  gone : ∀ w, s.workers.get? w = none → t.workers.get? w = none
  trace : ∃ marks : List StubId, t.trace = s.trace ++ (marks.map Happening.marked).toArray

/-! ## What is kept in mind -/

/-- What is known of every network that moves lead to. -/
structure Recorded (wild : Prop) (s : Network) : Prop where
  sound : Sound wild s
  gated : Gated s
  chronicled : Chronicled s

theorem Recorded.initial (process : UInt32) : Recorded wild { process } :=
  ⟨.initial process, .initial process, .initial process⟩

theorem Recorded.moves (hs : Recorded wild s) (h : Moves wild s t) : Recorded wild t := by
  induction h with
  | refl => exact hs
  | tail _ h ih =>
    exact ⟨ih.sound.move h, ih.gated.move ih.sound.lent h, ih.chronicled.move h⟩

/-- What happens comes after what has happened. -/
theorem Move.lengthens (h : Move wild s t) : s.trace.toList <+: t.trace.toList := by
  have one (x : Happening) : s.trace.toList <+: (s.trace.push x).toList :=
    ⟨[x], Array.toList_push.symm⟩
  cases h with
  | aside h =>
    obtain ⟨marks, ht, -⟩ := h.trace
    rw [ht]
    exact ⟨marks, by simp⟩
  | hold h =>
    rw [h.frame]
  | wire h =>
    cases h with
    | openEndpoint | markLocal | markRemote => exact one _
    | _ => exact List.prefix_rfl
  | pass h =>
    cases h with
    | send | accept | park | switch => exact one _
    | _ => exact List.prefix_rfl

theorem Moves.lengthens (h : Moves wild s t) : s.trace.toList <+: t.trace.toList := by
  induction h with
  | refl => exact List.prefix_rfl
  | tail _ h ih => exact ih.trans h.lengthens

/-- What has happened is not forgotten. -/
theorem Move.remembers (h : Move wild s t) {e : Happening} (he : e ∈ s.trace) : e ∈ t.trace :=
  Array.mem_toList_iff.1 (h.lengthens.subset (Array.mem_toList_iff.2 he))

theorem Moves.remembers (h : Moves wild s t) {e : Happening} (he : e ∈ s.trace) : e ∈ t.trace :=
  Array.mem_toList_iff.1 (h.lengthens.subset (Array.mem_toList_iff.2 he))

/-! ## Catching up -/

theorem caughtUp_moves (hs : Sound wild s) (x : StubId) : Moves wild s (s.caughtUp x) := by
  unfold caughtUp
  split
  · exact .refl
  · exact applyPosted_moves hs _

theorem caughtUp_quiet (s : Network) (x : StubId) : Quiet s (s.caughtUp x) := by
  unfold caughtUp
  split
  · exact .refl s
  · exact applyPosted_quiet s _

theorem caughtUp_marked (s : Network) (x : StubId) : OnlyMarked s x (s.caughtUp x) := by
  unfold caughtUp
  cases hw : (s.stubs.get? x).bind fun st => s.workerOf? st.endpoint with
  | none =>
    refine ⟨rfl, fun y => ⟨false, by simp⟩, fun w wk h => ?_, fun w h => h, [], by simp⟩
    simpa [hw] using h
  | some v =>
    have marked := applyPosted_marked s v
    have workers : (s.applyPosted v).1.workers =
        s.workers.modify v fun w => { w with posted := [] } := by
      rw [marked.frame]
    refine ⟨?_, marked.stubs, fun w wk h => ?_, fun w h => ?_, marked.trace⟩
    · exact marked.frame.trans (by rw [workers])
    · simp only [workers, Table.get?_modify, h, Option.map_some, hw, Option.some.injEq]
      split <;> rfl
    · simp only [workers, Table.get?_modify, h]
      simp

/-- The posted events are applied before the stub is looked at. -/
theorem switchover_eq (s : Network) (x : StubId) : s.switchover x =
    match (s.stubs.get? x).bind fun st => s.workerOf? st.endpoint with
    | none => s.caughtUp x
    | some w =>
      match (s.caughtUp x).stubs.get? x with
      | none => s.caughtUp x
      | some st =>
        match st.next with
        | some next =>
          if (s.caughtUp x).isSwitchable st then (s.caughtUp x).switch x st w next
          else s.caughtUp x
        | none => s.caughtUp x := by
  unfold switchover caughtUp
  cases hw : (s.stubs.get? x).bind fun st => s.workerOf? st.endpoint <;> rfl

/-- Catching up kills nobody and brings nobody to life. -/
theorem caughtUp_workerOf? (s : Network) (x : StubId) (e : EndpointId) :
    (s.caughtUp x).workerOf? e = s.workerOf? e := by
  unfold caughtUp
  split
  · rfl
  · exact applyPosted_workerOf? s _ e

theorem caughtUp_alive (s : Network) (x : StubId) :
    ((s.caughtUp x).stubs.get? x).bind (fun st => (s.caughtUp x).workerOf? st.endpoint) =
      (s.stubs.get? x).bind fun st => s.workerOf? st.endpoint := by
  obtain ⟨b, hb⟩ := (caughtUp_marked s x).stubs x
  rw [hb]
  simp only [caughtUp_workerOf?]
  cases s.stubs.get? x <;> rfl

/-! ## The condition -/

/-- A stub can be switched over exactly if it is due. -/
theorem due_iff (hs : Recorded wild s) : Due s x ↔ ∃ st w next, s.stubs.get? x = some st ∧
    s.workerOf? st.endpoint = some w ∧ st.next = some next ∧ s.isSwitchable st = true := by
  unfold isSwitchable Stub.isConnected
  simp only [Bool.and_eq_true, beq_iff_eq, hs.gated.gate_eq_zero]
  constructor
  · rintro ⟨⟨st, w, here, worker⟩, unswitched, connected, marked, finished⟩
    have agrees := hs.chronicled.stub x st here
    have : st.next ≠ none := fun h => by
      obtain ⟨l, hl⟩ := agrees.switched.1 h
      exact unswitched l hl
    obtain ⟨next, hn⟩ := Option.ne_none_iff_exists'.1 this
    exact ⟨st, w, next, here, worker, hn, ⟨agrees.connected.2 connected, agrees.marked.2 marked⟩,
      finished st here⟩
  · rintro ⟨st, w, next, here, worker, hn, ⟨connected, marked⟩, finished⟩
    have agrees := hs.chronicled.stub x st here
    refine ⟨⟨st, w, here, worker⟩, fun l hl => ?_, agrees.connected.1 connected,
      agrees.marked.1 marked, fun st' here' => ?_⟩
    · rw [agrees.switched.2 ⟨l, hl⟩] at hn
      cases hn
    · cases here.symm.trans here'
      exact finished

/-- A stub that is due switches over. -/
theorem switchover_of_due (hs : Recorded wild s) (due : Due (s.caughtUp x) x) :
    ∃ st w next, (s.caughtUp x).stubs.get? x = some st ∧
      (s.caughtUp x).workerOf? st.endpoint = some w ∧ st.next = some next ∧
      s.switchover x = (s.caughtUp x).switch x st w next := by
  have caught : Recorded wild (s.caughtUp x) :=
    hs.moves (caughtUp_moves hs.sound x : Moves wild s _)
  obtain ⟨st, w, next, here, worker, hn, ready⟩ := (due_iff caught).1 due
  have alive := caughtUp_alive s x
  rw [here, Option.bind_some, worker] at alive
  refine ⟨st, w, next, here, worker, hn, ?_⟩
  rw [switchover_eq, ← alive, here]
  simp only [hn, ready, if_true]

/-- One that is not due does nothing but catch up. -/
theorem switchover_of_not_due (hs : Recorded wild s) (due : ¬Due (s.caughtUp x) x) :
    s.switchover x = s.caughtUp x := by
  have caught : Recorded wild (s.caughtUp x) :=
    hs.moves (caughtUp_moves hs.sound x : Moves wild s _)
  rw [due_iff caught] at due
  have alive := caughtUp_alive s x
  rw [switchover_eq, ← alive]
  cases here : (s.caughtUp x).stubs.get? x with
  | none => rfl
  | some st =>
    rw [Option.bind_some]
    cases worker : (s.caughtUp x).workerOf? st.endpoint with
    | none => rfl
    | some w =>
      simp only
      cases hn : st.next with
      | none => rfl
      | some next =>
        simp only
        rw [if_neg]
        exact fun ready => due ⟨st, w, next, here, worker, hn, ready⟩

/-! ## The answer -/

/-- The tally does not matter to events. -/
theorem applyEvents_tally (directory : List (UInt64 × EndpointId)) (events : List RemoteConnected)
    (s : Network) (n : Nat) : events.foldl (applyEvent directory) { s with tally := n } =
      { events.foldl (applyEvent directory) s with tally := n } := by
  induction events generalizing s with
  | nil => rfl
  | cons event events ih =>
    have one : applyEvent directory { s with tally := n } event =
        { applyEvent directory s event with tally := n } := by
      unfold applyEvent
      cases (directory.lookup event.peer).bind s.endpoints.get? with
      | none => rfl
      | some e =>
        simp only [markSlot]
        split <;> rfl
    rw [List.foldl_cons, List.foldl_cons, one, ih]

theorem caughtUp_tally (s : Network) (x : StubId) (n : Nat) :
    caughtUp { s with tally := n } x = { s.caughtUp x with tally := n } := by
  unfold caughtUp
  cases hw : (s.stubs.get? x).bind fun st => s.workerOf? st.endpoint with
  | none => simp only [workerOf?] at hw ⊢; simp only [hw]
  | some w =>
    simp only [workerOf?] at hw ⊢
    simp only [hw]
    unfold applyPosted
    cases s.workers.get? w with
    | none => rfl
    | some wk =>
      exact applyEvents_tally wk.directory wk.posted
        { s with workers := s.workers.set w { wk with posted := [] } } n

theorem due_tally (s : Network) (x : StubId) (n : Nat) : Due { s with tally := n } x ↔ Due s x := by
  have carries (r : Request) : Carries { s with tally := n } r ↔ s.Carries r := by
    constructor
    · rintro (⟨l, lk, here, mem⟩ | ⟨y, st, here, mem⟩ | ⟨h, here⟩ | ⟨j, mem, hand⟩)
      exacts [.queued l lk here mem, .parked y st here mem, .held h here, .inHand j mem hand]
    · rintro (⟨l, lk, here, mem⟩ | ⟨y, st, here, mem⟩ | ⟨h, here⟩ | ⟨j, mem, hand⟩)
      exacts [.queued l lk here mem, .parked y st here mem, .held h here, .inHand j mem hand]
  constructor
  · rintro ⟨alive, unswitched, connected, marked, finished⟩
    exact ⟨alive, unswitched, connected, marked,
      fun st here r hr => finished st here r ((carries r).2 hr)⟩
  · rintro ⟨alive, unswitched, connected, marked, finished⟩
    exact ⟨alive, unswitched, connected, marked,
      fun st here r hr => finished st here r ((carries r).1 hr)⟩

/-- The work of trying to switch a stub over. -/
def tried (s : Network) (x : StubId) : Network := push { s with tally := 0 } [.switchover x]

theorem tried_moves (s : Network) (x : StubId) : Moves wild s (s.tried x) := by
  have planned : Moves wild s (s.push [.switchover x]) := Moves.push fun j hj => by
    cases List.mem_singleton.1 hj
    exact .inl ⟨rfl, rfl⟩
  exact planned.trans (Moves.aside { Aside.refl _ with })

theorem tried_fit (h : Rested wild s) (x : StubId) : Fit wild (s.tried x) := by
  refine h.fit.start (tried_moves s x) (u := { s with tally := 0 }) h.idle ?_ h.calm
  refine .push fun j hj => ?_
  cases List.mem_singleton.1 hj
  trivial

theorem tried_step (h : Rested wild s) (x : StubId) :
    (s.tried x).step = switchover { s with tally := 0 } x := by
  have top : (s.tried x).agenda = .switchover x :: s.agenda := rfl
  rw [step_eq top h.calm]
  rfl

theorem tried_work (h : Rested wild s) (x : StubId) :
    ∃ n, (s.tried x).fuel = n + 1 ∧
      work (s.tried x).fuel (s.tried x) = work n (switchover { s with tally := 0 } x) := by
  obtain ⟨n, hn⟩ := Nat.exists_eq_add_of_lt (fuel_pos (s.tried x))
  refine ⟨n, by omega, ?_⟩
  rw [show (s.tried x).fuel = n + 1 by omega, ← tried_step h x]
  rfl

/-- Nothing is left to do if the stub is not due. -/
theorem progressStub_of_not_due (hs : Recorded wild s) (h : Rested wild s)
    (due : ¬Due (s.caughtUp x) x) :
    s.progressStub x = ({ s.caughtUp x with tally := 0 }, .ok false) := by
  have hs' : Recorded wild { s with tally := 0 } :=
    hs.moves (Moves.aside { Aside.refl s with })
  have idle : switchover { s with tally := 0 } x = { s.caughtUp x with tally := 0 } := by
    rw [switchover_of_not_due hs', caughtUp_tally]
    rwa [caughtUp_tally, due_tally]
  have quiet := caughtUp_quiet s x
  have rests : (s.caughtUp x).agenda = [] := quiet.agenda.trans h.idle
  obtain ⟨n, -, worked⟩ := tried_work h x
  have rests' : ({ s.caughtUp x with tally := 0 } : Network).agenda = [] := rests
  rw [idle, work_nil rests'] at worked
  have calm : (s.caughtUp x).violation = none := quiet.violation.trans h.calm
  exact settle_done (fun s => s.tally != 0) worked calm rests

/-- What is counted by the switchover of a stub that is due is not forgotten in its replay. -/
theorem progressStub_of_due (hs : Recorded wild s) (h : Rested wild s)
    (due : Due (s.caughtUp x) x) {b : Bool} (ran : s.progressStub x = (t, .ok b)) :
    b = true ∧ ∃ l, .switched x l ∈ t.trace := by
  have hs' : Recorded wild { s with tally := 0 } :=
    hs.moves (Moves.aside { Aside.refl s with })
  have due' : Due (caughtUp { s with tally := 0 } x) x := by rwa [caughtUp_tally, due_tally]
  obtain ⟨st, w, next, here, worker, hn, switched⟩ := switchover_of_due hs' due'
  obtain ⟨ep, -, -, live⟩ := workerOf?_eq_some.1 worker
  obtain ⟨wk, books⟩ := Table.contains_iff.1 live
  rw [switch_eq x st books next] at switched
  obtain ⟨n, hn, worked⟩ := tried_work h x
  have settled : (s.tried x).settle (fun s => s.tally != 0) = (t, .ok b) := ran
  obtain ⟨ht, calm, -, hb⟩ := settle_ok settled
  have ht' : t = work n (switchover { s with tally := 0 } x) := by
    rw [← worked]
    exact ht
  have counted : Counted (switchover { s with tally := 0 } x) := by
    rw [switched]
    refine ⟨Nat.succ_pos _, fun m hm => ?_⟩
    have none : (caughtUp { s with tally := 0 } x).agenda = [] := by
      rw [caughtUp_tally]
      exact (caughtUp_quiet s x).agenda.trans h.idle
    simp only [none, List.append_nil, replay, List.mem_append, List.mem_flatMap] at hm
    obtain (hm | ⟨r, -, hm⟩) | hm := hm
    · obtain ⟨l, -, hm⟩ := mem_releaseLink?.1 hm
      cases hm
    · simp at hm
    · simp at hm
  rw [ht'] at calm
  refine ⟨?_, next, ?_⟩
  · rw [hb, ht']
    exact bne_iff_ne.2 (counted.work calm).tally.ne'
  · have fit : Fit wild (switchover { s with tally := 0 } x) := by
      rw [← tried_step h x]
      refine ((tried_fit h x).step ?_).2
      rw [tried_step h x]
      exact work_violation calm
    obtain ⟨moves, -⟩ := fit.work calm
    rw [ht']
    refine moves.remembers ?_
    rw [switched]
    exact Array.mem_push_self

end Wiring.Network
