import Mathlib
import Wiring.Proofs.Release

/-!
# Attempts and their ends

An attempt at a request, its end, and offering a request to a carrier are moves.
-/
namespace Wiring.Network

variable {s t : Network} {wild : Prop} {rest : List Job}

/-- Nothing is left to be let go untold. -/
def Told (s : Network) : Prop := ∀ r, .discard r ∉ s.agenda

/-- A link at its turn lives. -/
theorem Sound.turn (hs : Sound wild s) {j : Job} (top : s.agenda = j :: rest) {l : LinkId}
    (turn : j.turn? = some l) :
    .release (.link l) ∈ rest ∧ ∃ lk, s.links.get? l = some lk := by
  have he := hs.escorted
  rw [top] at he
  have hr := he.1 l turn
  refine ⟨hr, Table.contains_iff.1 (hs.live (.link l) (isHeld_of_release ?_))⟩
  rw [top]
  exact List.mem_cons_of_mem _ hr

/-! ## The end of an attempt -/

theorem isNoResource_ne_ok {o : Outcome} (h : o.isNoResource = true) : o ≠ .ok () := by
  rintro rfl
  cases h

theorem giveUp_moves (hs : Sound wild s) {r : Request} {o : Outcome}
    {w : Waiter} (top : s.agenda = .conclude r o w :: rest) (ho : o.isNoResource = true) :
    Moves wild s (giveUp { s with agenda := rest } r.unfinished w) := by
  have unsent := isNoResource_ne_ok ho
  cases w with
  | queue l =>
    obtain ⟨-, lk, here⟩ := hs.turn top (l := l) rfl
    simp only [giveUp, requeue]
    rw [Table.modify_eq_set here]
    exact Moves.pass (.requeue l lk r o rest top here unsent)
  | retry c => exact Moves.pass (.again r o c rest top unsent)
  | endpoint e =>
    simp only [giveUp]
    cases hc : slot { s with agenda := rest } e .messages with
    | some c => exact Moves.pass (.first r o e c rest top unsent hc)
    | none =>
      refine cancel_moves top rfl (by simp) (by simp) rfl fun r' o' w' h => ?_
      cases h
      exact unsent
  | application h =>
    simp only [giveUp]
    refine (Moves.pass (.backHeld r o h rest top)).trans (Moves.aside ?_)
    exact { Aside.refl _ with }

theorem finish_moves (hs : Sound wild s) {r : Request} {o : Outcome} {w : Waiter}
    (top : s.agenda = .conclude r o w :: rest) :
    Moves wild s (finish { s with
      handles := endHandle s.handles r o, gates := leaveGates s.gates r, agenda := rest }
      r.finished o w) := by
  have closed (lent : (Job.conclude r o w).lending? = none) :
      Pass wild s { s with
        handles := endHandle s.handles r o, gates := leaveGates s.gates r, agenda := rest } :=
    .close _ r o rest top rfl lent (fun _ r' o' w' h => by cases h; exact Iff.rfl)
      (fun _ h => absurd rfl (h r o w))
  cases w with
  | queue l =>
    obtain ⟨escort, -⟩ := hs.turn top (l := l) rfl
    simp only [finish, discard_finished]
    refine (Moves.pass (closed rfl)).trans ?_
    refine (Moves.aside ?_ : Moves wild _ { s with
        handles := endHandle s.handles r o, gates := leaveGates s.gates r, agenda := rest
        tally := s.tally + 1 }).trans ?_
    · exact { Aside.refl _ with }
    · refine Moves.hold (.plan (.dispatch l) rfl fun k hk => ?_)
      cases hk
      exact escort
  | retry c | endpoint e =>
    simp only [finish, discard_finished]
    exact Moves.pass (closed rfl)
  | application h =>
    simp only [finish]
    refine (Moves.pass (.endHeld r o h rest top)).trans (Moves.aside ?_)
    exact { Aside.refl _ with }

theorem conclude_moves (hs : Sound wild s) {r : Request} {o : Outcome}
    {w : Waiter} (top : s.agenda = .conclude r o w :: rest) :
    Moves wild s (conclude { s with agenda := rest } r o w) := by
  unfold conclude
  by_cases ho : o.isNoResource = true
  · obtain ⟨marks, plain, h⟩ := recordAttempt_noResource { s with agenda := rest } r ho
    simp only [h, ho, if_true]
    have noted := Aside.noteAll s plain
    exact (Moves.aside noted).trans (giveUp_moves (hs.aside noted) top ho)
  · have ho := Bool.eq_false_iff.2 ho
    obtain ⟨marks, plain, h⟩ := recordAttempt_eq { s with agenda := rest } r ho
    simp only [h, ho, Bool.false_eq_true, if_false]
    have noted := Aside.noteAll s plain
    exact (Moves.aside noted).trans (finish_moves (hs.aside noted) top)

/-! ## Attempts -/

theorem answered_script {r : Request} {c : Script} (h : r.inner? = some (.scripted c))
    (c' : Script) (o : Outcome) : Answered r (Request.withInner (.scripted c') r) o := by
  have none : r.send? = none := by simp [Request.send?, h]
  refine ⟨Request.gates_withInner h, ?_, fun hn => absurd none hn⟩
  rw [none]
  simp [Request.send?, Request.inner?_withInner h]

theorem answered_error {r : Request} (why : Refusal) : Answered r r (.error why) :=
  ⟨rfl, rfl, fun _ => ⟨rfl, by simp⟩⟩

/-- A stub holds an attempt off, and tries to switch over meanwhile. -/
theorem heldOff_moves {r r' : Request} {w : Waiter} (id : StubId) (holding : List Ref)
    (top : s.agenda = .attempt r w :: rest)
    (answered : Answered r r' (.error .noResource))
    (live : ∀ ref ∈ holding, s.isLive ref = true) :
    Moves wild s (push { s with agenda := rest } ([.switchover id, .recount s.tally]
      ++ holding.map Job.release ++ [.conclude r' (.error .noResource) w])) := by
  refine (Moves.pass (.answer r r' _ w rest top answered)).trans ?_
  have planned (u : Network) (hu : ∀ ref ∈ holding, u.isLive ref = true) :
      Moves wild u (u.push ([.switchover id, .recount s.tally] ++ holding.map Job.release)) := by
    refine Moves.push fun j hj => ?_
    simp only [List.cons_append, List.nil_append, List.mem_cons, List.mem_map] at hj
    obtain rfl | rfl | ⟨ref, hr, rfl⟩ := hj
    · exact .inl ⟨rfl, rfl⟩
    · exact .inl ⟨rfl, rfl⟩
    · exact .inr ⟨ref, rfl, hu ref hr⟩
  have := planned { s with agenda := .conclude r' (.error .noResource) w :: rest } fun ref hr => by
    have := live ref hr
    cases ref <;> exact this
  simpa [push] using this

/-- A script that sends something of its own. -/
theorem attemptScript_moves {r : Request} {c c' : Script} {w : Waiter} {send : ScriptedSend}
    (top : s.agenda = .attempt r w :: rest) (inner : r.inner? = some (.scripted c))
    (live : s.isLive send.carrier.ref = true) :
    Moves wild s (attemptOver { s with agenda := rest } (Request.withInner (.scripted c') r) w
      send.carrier send.messageId send.payload none [send.carrier.ref]) := by
  unfold attemptOver
  obtain ⟨-, ⟨id, hc⟩, h⟩ | ⟨why, h⟩ | ⟨l, dest, u, hu, -, h⟩ :=
    sendOver_cases { s with agenda := rest } send.carrier send.messageId send.payload none
  · simp only [h]
    have off : Moves wild s _ := heldOff_moves id [send.carrier.ref] top
      (answered_script inner c' _) (by simpa using live)
    rw [hc] at off ⊢
    exact off
  · simp only [h]
    exact Moves.pass (.answer r _ _ w rest top (answered_script inner c' _))
  · simp only [h]
    have ha : Aside s { u.note (.accepted l dest send.messageId send.payload none) with
        agenda := s.agenda } :=
      (hu.trans (.note u rfl)).withAgenda s.agenda
    refine (Moves.aside ha).trans ?_
    have hr : u.agenda = rest := hu.agenda
    have this : Pass wild { u.note (.accepted l dest send.messageId send.payload none) with
        agenda := s.agenda } _ := .answer r _ (.ok ()) w rest top (answered_script inner c' _)
    refine Moves.pass ?_
    simpa [push, note, hr] using this

/-- A send of an endpoint. -/
theorem attemptSend_moves (hs : Sound wild s) {r : Request} {m : Send}
    {w : Waiter} {e : Endpoint} {c : Carrier} (top : s.agenda = .attempt r w :: rest)
    (inner : r.inner? = some (.send m)) (here : s.endpoints.get? m.endpoint = some e)
    (slot : e.slots.messages = some c) :
    Moves wild s (attemptOver { s with agenda := rest } r w c m.messageId m.payload
      (some m.handle) [c.ref, .endpoint m.endpoint]) := by
  have slot' : s.slot m.endpoint .messages = some c := by simp [Network.slot, here, PerCategory.get, slot]
  unfold attemptOver
  obtain ⟨-, ⟨id, rfl⟩, h⟩ | ⟨why, h⟩ | ⟨l, dest, u, hu, -, h⟩ :=
    sendOver_cases { s with agenda := rest } c m.messageId m.payload (some m.handle)
  · simp only [h]
    refine heldOff_moves id _ top (answered_error _) fun ref hr => ?_
    obtain rfl | hr := List.mem_cons.1 hr
    · exact isLive_of_slot hs.live slot'
    · cases List.mem_singleton.1 hr
      exact Table.contains_of_get? here
  · simp only [h]
    exact Moves.pass (.answer r r _ w rest top (answered_error why))
  · simp only [h]
    have ha : Aside s { u with agenda := s.agenda } := hu.withAgenda s.agenda
    have hr : u.agenda = rest := hu.agenda
    refine (Moves.aside ha).trans (Moves.pass ?_)
    have this : Pass wild { u with agenda := s.agenda } _ :=
      .accept r m w l dest rest top inner
    simpa [push, note, hr] using this

theorem attempt_moves (hs : Sound wild s) {r : Request} {w : Waiter}
    (top : s.agenda = .attempt r w :: rest) :
    Moves wild s (attempt { s with agenda := rest } r w) := by
  unfold attempt
  obtain ⟨c, h⟩ | ⟨m, h⟩ | h := r.inner?_cases
  · simp only [h]
    split
    · exact Moves.pass (.answer r _ _ w rest top (answered_script h _ _))
    · exact Moves.pass (.answer r _ _ w rest top (answered_script h _ _))
    · rename_i send hans hsend
      split
      · rename_i live
        exact attemptScript_moves top h (by revert live; cases send.carrier.ref <;> exact id)
      · exact Moves.pass (.answer r _ _ w rest top (answered_script h _ _))
  · simp only [h]
    split
    · exact Moves.pass (.answer r r _ w rest top (answered_error _))
    · rename_i e here
      split
      · exact Moves.pass (.answer r r _ w rest top (answered_error _))
      · rename_i c slot
        exact attemptSend_moves hs top h here slot
  · have none : r.send? = none := by simp [Request.send?, h]
    simp only [h]
    exact Moves.pass (.answer r r _ w rest top ⟨rfl, rfl, fun hn => absurd none hn⟩)

/-! ## Offers -/

/-- What became of a request on top of the agenda that was offered to a carrier: it was queued, or
it is handed back. -/
def Passed (wild : Prop) (s : Network) (c : Carrier) (r : Request) :
    Network × Option Request → Prop
  | (t, none) => Moves wild s t
  | (t, some back) => Moves wild s (t.push [.add c back]) ∧ back.send? = r.send?

theorem Passed.after {c : Carrier} {r r' : Request} {x : Network × Option Request}
    (h : Passed wild t c r' x) (g : Moves wild s t) (send : r'.send? = r.send?) :
    Passed wild s c r x := by
  obtain ⟨u, back⟩ := x
  cases back with
  | none => exact g.trans h
  | some back => exact ⟨g.trans h.1, h.2.trans send⟩

/-- A request that nothing was done with is handed back. -/
theorem back_passed {c : Carrier} {r : Request} (top : s.agenda = .add c r :: rest) :
    Passed wild s c r ({ s with agenda := rest }, some r) := by
  have same : push { s with agenda := rest } [.add c r] = s := by
    rw [push, List.singleton_append, ← top]
  refine ⟨?_, rfl⟩
  rw [same]

/-- A link queues what it is given, or hands it back. -/
theorem enqueue_passed {c : Carrier} {l : LinkId} {r : Request}
    (top : s.agenda = .add c r :: rest) :
    Passed wild s c r (enqueue { s with agenda := rest } l r) := by
  unfold enqueue
  cases here : s.links.get? l with
  | none => exact back_passed top
  | some lk =>
    simp only
    split
    · exact back_passed top
    · exact Moves.pass (.queue c l lk r rest top here)

theorem offer_passed {c : Carrier} {r : Request} (top : s.agenda = .add c r :: rest) :
    Passed wild s c r (offer { s with agenda := rest } c r) := by
  unfold offer
  cases c with
  | link l => exact enqueue_passed top
  | stub id =>
    cases here : s.stubs.get? id with
    | none =>
      simp only [here]
      exact back_passed top
    | some t =>
      simp only [here]
      by_cases signal : r.isSignal = true
      · simp only [signal, if_true]
        cases hl : t.signalLink with
        | none => exact back_passed top
        | some l =>
          have covered : Moves wild s { s with
              gates := s.gates.modify t.gate (· + 1)
              agenda := .add (.stub id) (.counted t.gate r) :: rest } :=
            Moves.pass (.cover id t r rest top here signal)
          exact (enqueue_passed (s := { s with
            gates := s.gates.modify t.gate (· + 1)
            agenda := .add (.stub id) (.counted t.gate r) :: rest }) (l := l) rfl).after covered rfl
      · have data := Bool.eq_false_iff.2 signal
        simp only [data, Bool.false_eq_true, if_false]
        cases hw : workerOf? { s with agenda := rest } t.endpoint with
        | none => exact back_passed top
        | some w =>
          cases hn : t.next with
          | some next =>
            obtain ⟨-, -, -, hc⟩ := workerOf?_eq_some.1 hw
            obtain ⟨wk, hk⟩ := Table.contains_iff.1 hc
            simp only
            rw [park_eq (s := { s with agenda := rest }) here hk]
            exact Moves.pass (.park id t w wk r rest top here data hw hk (by simp [hn]))
          | none =>
            cases hp : t.promoted with
            | some l => exact enqueue_passed top
            | none => exact back_passed top

/-- Offers a request and plans the attempt at what is handed back. -/
def offerOrAttempt (s : Network) (c : Carrier) (r : Request) : Network :=
  match s.offer c r with
  | (s, none) => s
  | (s, some back) => s.push [.attempt back (.retry c)]

theorem offer_moves {c : Carrier} {r : Request} (top : s.agenda = .add c r :: rest) :
    Moves wild s (offerOrAttempt { s with agenda := rest } c r) := by
  unfold offerOrAttempt
  have h : Passed wild s c r _ := offer_passed top
  split
  · rename_i t ht
    rw [ht] at h
    exact h
  · rename_i t back ht
    rw [ht] at h
    exact h.1.trans (Moves.pass (.handBack c back t.agenda rfl))

/-! ## Queues -/

/-- The request at the front of a queue has its turn. -/
theorem dispatch_moves (hs : Sound wild s) {l : LinkId}
    (top : s.agenda = .dispatch l :: rest) :
    Moves wild s (dispatch { s with agenda := rest } l) := by
  obtain ⟨escort, lk, here⟩ := hs.turn top (l := l) rfl
  have popped : Moves wild s { s with agenda := rest } := Moves.done top rfl
  unfold dispatch dequeue
  simp only [here]
  cases hc : lk.credits with
  | zero => exact popped
  | succ n =>
    cases hq : lk.queue with
    | nil => exact popped
    | cons r queue =>
      refine popped.trans (Moves.pass ?_)
      simp only
      rw [← hc]
      exact Pass.dequeue (s := { s with agenda := rest }) l lk r queue here hq escort

end Wiring.Network
