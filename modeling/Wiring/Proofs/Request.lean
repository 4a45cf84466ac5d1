import Mathlib
import Wiring.Network.Work

/-!
# Requests and what ends them

A request is covered by gates, and a send inside it names the handle that its end completes. An
attempt that runs out of resources leaves both as they were; every other end takes the request out
of its gates, and unless it is let go untold it completes the handle.
-/
namespace Wiring

namespace Request

/-- The send inside all covers, if there is one. -/
def send? (r : Request) : Option Send :=
  match r.inner? with
  | some (.send m) => some m
  | _ => none

@[simp] theorem send?_scripted (c : Script) : (scripted c).send? = none := rfl

@[simp] theorem send?_send (m : Send) : (send m).send? = some m := rfl

@[simp] theorem send?_counted (g : GateId) (r : Request) : (counted g r).send? = r.send? := rfl

@[simp] theorem send?_spent (g : GateId) : (spent g).send? = none := rfl

@[simp] theorem gates_scripted (c : Script) : (scripted c).gates = [] := rfl

@[simp] theorem gates_send (m : Send) : (send m).gates = [] := rfl

@[simp] theorem gates_counted (g : GateId) (r : Request) : (counted g r).gates = g :: r.gates := rfl

@[simp] theorem gates_spent (g : GateId) : (spent g).gates = [] := rfl

theorem send?_of_inner? {r : Request} {m : Send} (h : r.inner? = some (.send m)) :
    r.send? = some m := by simp [send?, h]

theorem inner?_of_send? {r : Request} {m : Send} (h : r.send? = some m) :
    r.inner? = some (.send m) := by
  unfold send? at h
  split at h
  · simp_all
  · cases h

/-- Only a send stands inside covers beside a scripted request. -/
theorem inner?_cases (r : Request) :
    (∃ c, r.inner? = some (.scripted c)) ∨ (∃ m, r.inner? = some (.send m)) ∨ r.inner? = none := by
  induction r with
  | scripted c => exact .inl ⟨c, rfl⟩
  | send m => exact .inr (.inl ⟨m, rfl⟩)
  | counted g r ih => exact ih
  | spent g => exact .inr (.inr rfl)

@[simp] theorem gates_unfinished (r : Request) : r.unfinished.gates = r.gates := by
  induction r with
  | counted g r ih => simp [unfinished, ih]
  | _ => rfl

@[simp] theorem send?_unfinished (r : Request) : r.unfinished.send? = r.send? := by
  induction r with
  | counted g r ih => simpa [unfinished] using ih
  | _ => rfl

@[simp] theorem gates_finished (r : Request) : r.finished.gates = [] := by cases r <;> rfl

/-- A finished request that still shows a send was not covered. -/
theorem send?_finished {r : Request} {m : Send} (h : r.finished.send? = some m) :
    r.send? = some m := by
  cases r with
  | send m' => exact h
  | _ => cases h

theorem gates_withInner {r : Request} {c c' : Script} (h : r.inner? = some (.scripted c)) :
    (withInner (.scripted c') r).gates = r.gates := by
  induction r with
  | scripted => rfl
  | send m => cases h
  | counted g r ih => simp only [withInner, gates_counted, ih h]
  | spent g => cases h

theorem inner?_withInner {r : Request} {c c' : Script} (h : r.inner? = some (.scripted c)) :
    (withInner (.scripted c') r).inner? = some (.scripted c') := by
  induction r with
  | scripted => rfl
  | send m => cases h
  | counted g r ih => exact ih h
  | spent g => cases h

/-- Covers are for control traffic only. -/
theorem isSignal_of_gates {r : Request} (h : r.gates ≠ []) : r.isSignal = true := by
  cases r <;> simp_all [isSignal]

end Request

/-- Happenings that tell nothing about sends and stubs. -/
def Happening.isPlain : Happening → Bool
  | .delivered _ _ | .lost _ _ | .recorded _ _ _ | .forwarded _ _ | .attempted _ _ => true
  | .cancelled _ | .dropped _ | .called _ => true
  | .accepted _ _ _ _ source => source.isNone
  | _ => false

namespace Network

/-- The handles after a request has ended in the given way. -/
def endHandle (handles : Table (Option Outcome)) (r : Request) (o : Outcome) :
    Table (Option Outcome) :=
  match r.send? with
  | some m => handles.modify m.handle fun old => some (old.getD o)
  | none => handles

@[simp] theorem endHandle_next (handles : Table (Option Outcome)) (r : Request) (o : Outcome) :
    (endHandle handles r o).next = handles.next := by
  unfold endHandle
  split <;> simp [Table.next, Table.modify]

/-- The gates after a request has left them. -/
def leaveGates (gates : Table Nat) (r : Request) : Table Nat :=
  r.gates.foldl (fun t g => t.modify g (· - 1)) gates

/-- The network after the given happenings. -/
def noteAll (s : Network) (marks : List Happening) : Network :=
  { s with trace := s.trace ++ marks.toArray }

@[simp] theorem noteAll_nil (s : Network) : s.noteAll [] = s := by simp [noteAll]

theorem note_eq (s : Network) (h : Happening) : s.note h = s.noteAll [h] := by
  simp [note, noteAll]

/-- Cancelling takes a request out of its gates and completes its handle. -/
theorem cancel_eq (s : Network) (r : Request) :
    ∃ marks : List Happening, (∀ h ∈ marks, h.isPlain) ∧ s.cancel r =
      noteAll { s with
        handles := endHandle s.handles r (.error .canceled), gates := leaveGates s.gates r }
        marks := by
  induction r generalizing s with
  | scripted c => exact ⟨[.cancelled c.name], by simp [Happening.isPlain], by
      simp [cancel, note_eq, endHandle, leaveGates]⟩
  | send m => exact ⟨[], by simp, by simp [cancel, complete, endHandle, leaveGates]⟩
  | counted g r ih =>
    obtain ⟨marks, hp, he⟩ := ih (s.leaveGate g)
    exact ⟨marks, hp, by simpa [cancel, leaveGate, leaveGates, endHandle] using he⟩
  | spent g => exact ⟨[], by simp, by simp [cancel, endHandle, leaveGates]⟩

/-- A request that is let go leaves its gates. -/
theorem discard_eq (s : Network) (r : Request) :
    ∃ marks : List Happening, (∀ h ∈ marks, h.isPlain) ∧ s.discard r =
      noteAll { s with gates := leaveGates s.gates r } marks := by
  induction r generalizing s with
  | scripted c =>
    by_cases h : c.finished
    · exact ⟨[], by simp, by simp [discard, h, leaveGates]⟩
    · exact ⟨[.dropped c.name], by simp [Happening.isPlain], by
        simp [discard, h, note_eq, leaveGates]⟩
  | send m => exact ⟨[], by simp, by simp [discard, leaveGates]⟩
  | counted g r ih =>
    obtain ⟨marks, hp, he⟩ := ih (s.leaveGate g)
    exact ⟨marks, hp, by simpa [discard, leaveGate, leaveGates] using he⟩
  | spent g => exact ⟨[], by simp, by simp [discard, leaveGates]⟩

/-- Nothing is left to let go of a finished request. -/
theorem discard_finished (s : Network) (r : Request) : s.discard r.finished = s := by
  cases r <;> simp [Request.finished, discard]

theorem foldl_leaveGate (s : Network) (gates : List GateId) :
    gates.foldl leaveGate s =
      { s with gates := gates.foldl (fun t g => t.modify g (· - 1)) s.gates } := by
  induction gates generalizing s with
  | nil => rfl
  | cons g gates ih => simp [ih, leaveGate]

/-- An attempt that ran out of resources only leaves a mark. -/
theorem recordAttempt_noResource (s : Network) (r : Request) {o : Outcome}
    (ho : o.isNoResource = true) :
    ∃ marks : List Happening, (∀ h ∈ marks, h.isPlain) ∧ s.recordAttempt r o = s.noteAll marks := by
  obtain ⟨c, h⟩ | ⟨m, h⟩ | h := r.inner?_cases
  · exact ⟨[.attempted c.name o], by simp [Happening.isPlain], by
      simp [recordAttempt, h, ho, note_eq]⟩
  · exact ⟨[], by simp, by simp [recordAttempt, h, ho]⟩
  · exact ⟨[], by simp, by simp [recordAttempt, h, ho]⟩

/-- Any other attempt ends the request. -/
theorem recordAttempt_eq (s : Network) (r : Request) {o : Outcome}
    (ho : o.isNoResource = false) :
    ∃ marks : List Happening, (∀ h ∈ marks, h.isPlain) ∧ s.recordAttempt r o =
      noteAll { s with
        handles := endHandle s.handles r o, gates := leaveGates s.gates r } marks := by
  obtain ⟨c, h⟩ | ⟨m, h⟩ | h := r.inner?_cases
  · exact ⟨[.attempted c.name o], by simp [Happening.isPlain], by
      simp [recordAttempt, h, ho, foldl_leaveGate, note_eq, noteAll, endHandle, leaveGates,
        Request.send?]⟩
  · exact ⟨[], by simp, by
      simp [recordAttempt, h, ho, foldl_leaveGate, complete, endHandle, leaveGates,
        Request.send?]⟩
  · exact ⟨[], by simp, by
      simp [recordAttempt, h, ho, foldl_leaveGate, endHandle, leaveGates, Request.send?]⟩

/-- Cancelling does not look at links. -/
theorem cancel_links (s : Network) (r : Request) (links : Table Link) :
    cancel { s with links } r = { s.cancel r with links } := by
  induction r generalizing s with
  | counted g r ih => exact ih (s.leaveGate g)
  | _ => rfl

theorem foldl_cancel_links (s : Network) (rs : List Request) (links : Table Link) :
    rs.foldl cancel { s with links } = { rs.foldl cancel s with links } := by
  induction rs generalizing s with
  | nil => rfl
  | cons r rs ih => simp only [List.foldl_cons, cancel_links, ih]

end Network

end Wiring
