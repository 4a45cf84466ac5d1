import Mathlib
import Wiring.Proofs.Aside

/-!
# Planning and releasing

Planning work and letting go of a hold are moves. A thing that nothing holds any more is retired
by moves: its requests are cancelled, it is closed, and what it owned is left to be released.
-/
namespace Wiring.Network

variable {s t : Network} {wild : Prop} {rest : List Job}

namespace Moves

theorem aside (h : Aside s t) : Moves wild s t := .single (.aside h)

theorem hold (h : Hold s t) : Moves wild s t := .single (.hold h)

theorem wire (h : Wire s t) : Moves wild s t := .single (.wire h)

theorem pass (h : Pass wild s t) : Moves wild s t := .single (.pass h)

/-- Idle work and releases of things that live can be planned at any time. -/
theorem push {jobs : List Job}
    (h : ∀ j ∈ jobs, (j.isIdle = true ∧ j.turn? = none) ∨
      ∃ ref, j = .release ref ∧ s.isLive ref = true) : Moves wild s (s.push jobs) := by
  induction jobs with
  | nil => exact .refl
  | cons j jobs ih =>
    refine (ih fun j hj => h j (List.mem_cons_of_mem _ hj)).trans (Moves.hold ?_)
    obtain ⟨idle, turn⟩ | ⟨ref, rfl, live⟩ := h j List.mem_cons_self
    · exact .plan j idle fun l hl => absurd (turn.symm.trans hl) (by simp)
    · exact .hold ref (by cases ref <;> exact live)

theorem done {j : Job} (top : s.agenda = j :: rest) (idle : j.isIdle = true) :
    Moves wild s { s with agenda := rest } := hold (.done j rest top idle)

end Moves

/-! ## Cancelling what is queued -/

theorem foldl_cancel_eq (s : Network) (rs : List Request) :
    ∃ (marks : List Happening) (handles : Table (Option Outcome)) (gates : Table Nat),
      rs.foldl cancel s = noteAll { s with handles, gates } marks := by
  induction rs generalizing s with
  | nil => exact ⟨[], s.handles, s.gates, by simp⟩
  | cons r rs ih =>
    obtain ⟨marks, -, h⟩ := s.cancel_eq r
    obtain ⟨marks', handles, gates, h'⟩ := ih (s.cancel r)
    exact ⟨marks ++ marks', handles, gates, by
      rw [List.foldl_cons, h', h]; simp [noteAll, Array.append_assoc]⟩

/-- A request on top of the agenda that has not gone out can be cancelled. -/
theorem cancel_moves {j : Job} {r r' : Request} (top : s.agenda = j :: rest)
    (hand : j.request? = some r) (send : r'.send? = r.send?) (gates : r'.gates = r.gates)
    (lent : j.lending? = none) (unsent : ∀ r' o w, j = .conclude r' o w → o ≠ .ok ()) :
    Moves wild s (cancel { s with agenda := rest } r') := by
  obtain ⟨marks, plain, h⟩ := cancel_eq { s with agenda := rest } r'
  rw [h]
  simp only [endHandle, leaveGates, send, gates]
  refine (Moves.aside (Aside.noteAll s plain)).trans (Moves.pass ?_)
  exact .close j r (.error .canceled) rest top hand lent
    (fun _ r' o w hj => ⟨fun h => (by cases h), fun h => absurd h (unsent r' o w hj)⟩)
    (fun _ _ h => (by cases h))

/-- Every request of a link's queue is cancelled from the front. -/
theorem cancelQueue_moves {l : LinkId} {lk : Link} (here : s.links.get? l = some lk) :
    Moves wild s (lk.queue.foldl cancel
      { s with links := s.links.set l { lk with queue := [] } }) := by
  generalize hq : lk.queue = queue
  induction queue generalizing s lk with
  | nil =>
    have : s.links.set l { lk with queue := [] } = s.links := by
      rw [← hq]
      exact Table.set_get? here
    rw [this]
    exact .refl
  | cons r queue ih =>
    have hl := Table.lt_next_of_get? here
    let s₁ : Network := { s with links := s.links.set l { lk with queue } }
    have here₁ : (s₁.cancel r).links.get? l = some { lk with queue } := by
      obtain ⟨marks, -, h⟩ := s₁.cancel_eq r
      simp [h, noteAll, s₁, Table.get?_set, hl]
    have cancelled : Moves wild s (s₁.cancel r) :=
      (Moves.pass (.take l lk r queue here hq)).trans
        (cancel_moves rfl rfl rfl rfl rfl fun _ _ _ h => by cases h)
    refine cancelled.trans ?_
    have := ih here₁ rfl
    have hset : (s₁.cancel r).links.set l { lk with queue := [] } =
        s.links.set l { lk with queue := [] } := by
      obtain ⟨marks, -, h⟩ := s₁.cancel_eq r
      simp [h, noteAll, s₁, Table.set_set]
    rw [hset, ← cancel_links] at this
    exact this

/-! ## Retiring -/

theorem retireLink_moves {l : LinkId} (free : s.isHeld (.link l) = false) :
    Moves wild s (s.retireLink l) := by
  unfold retireLink
  cases here : s.links.get? l with
  | none => exact .refl
  | some lk =>
    have hl := Table.lt_next_of_get? here
    have cancelled : Moves wild s _ := cancelQueue_moves here
    obtain ⟨marks, handles, gates, h⟩ :=
      foldl_cancel_eq { s with links := s.links.set l { lk with queue := [] } } lk.queue
    have h' := foldl_cancel_links { s with links := s.links.set l { lk with queue := [] } }
      lk.queue (s.links.erase l)
    rw [h] at cancelled h'
    dsimp only at h' ⊢
    rw [h']
    refine cancelled.trans ?_
    have := Wire.closeLink (s := noteAll { s with
        links := s.links.set l { lk with queue := [] }, handles, gates } marks)
      l { lk with queue := [] } (by simp [noteAll, Table.get?_set, hl]) rfl free
    simp only [noteAll, Table.erase_set] at this ⊢
    exact Moves.wire this

theorem loose_moves {ref : Ref} (top : s.agenda = .release ref :: rest)
    (hr : ref.isAnchor = false) : Moves wild s { s with agenda := rest } :=
  Moves.hold (.loose ref rest top fun h => absurd (hr.symm.trans h) (by simp))

theorem retireInterface_moves {i : InterfaceId} (free : s.isHeld (.interface i) = false) :
    Moves wild s (s.retireInterface i) := by
  unfold retireInterface
  cases here : s.interfaces.get? i with
  | none => exact .refl
  | some x =>
    dsimp only
    refine (Moves.wire (.closeInterface i free)).trans ?_
    generalize { s with interfaces := s.interfaces.erase i } = u
    induction x.inbox generalizing u with
    | nil => exact .refl
    | cons m inbox ih => exact (Moves.aside (Aside.note u rfl)).trans (ih _)

theorem retireStub_moves {id : StubId} (free : s.isHeld (.stub id) = false)
    (calm : (s.retireStub id).violation = none) : Moves wild s (s.retireStub id) := by
  unfold retireStub at calm ⊢
  cases here : s.stubs.get? id with
  | none => exact .refl
  | some st =>
    simp only [here] at calm ⊢
    cases hp : st.parked with
    | nil =>
      refine Moves.wire ?_
      have := Wire.closeStub id st here hp free
      simpa [push, hp] using this
    | cons r parked =>
      simp only [hp, List.isEmpty_cons, Bool.false_eq_true, if_false, push, violate] at calm
      split at calm
      · cases calm
      · rename_i v hv
        have hv : s.violation = some v := hv
        have calm : s.violation = none := calm
        rw [hv] at calm
        cases calm

/-- Releasing a hold is done by moves, if it breaks no promise. -/
theorem release_moves {ref : Ref} (top : s.agenda = .release ref :: rest)
    (calm : (release { s with agenda := rest } ref).violation = none) :
    Moves wild s (release { s with agenda := rest } ref) := by
  unfold release at calm ⊢
  split at calm
  · rename_i held
    rw [if_pos held]
    exact Moves.hold (.loose ref rest top fun _ _ => held)
  · rename_i free
    rw [if_neg free]
    have free := Bool.eq_false_iff.2 free
    cases ref with
    | interface i => exact (loose_moves top rfl).trans (retireInterface_moves free)
    | link l => exact (loose_moves top rfl).trans (retireLink_moves free)
    | stub id => exact (loose_moves top rfl).trans (retireStub_moves free calm)
    | callback c => exact (loose_moves top rfl).trans (Moves.wire (.closeCallback c free))
    | endpoint id =>
      simp only [retire, retireEndpoint]
      cases here : s.endpoints.get? id with
      | none =>
        refine Moves.hold (.loose _ rest top fun _ live => ?_)
        simp [isLive, Table.contains, here] at live
      | some e => exact Moves.wire (.closeEndpoint id e rest top here free)
    | worker id =>
      simp only [retire, retireWorker]
      cases here : s.workers.get? id with
      | none =>
        refine Moves.hold (.loose _ rest top fun _ live => ?_)
        simp [isLive, Table.contains, here] at live
      | some w => exact Moves.wire (.closeWorker id w rest top here free)

end Wiring.Network
