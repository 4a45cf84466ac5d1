import Mathlib
import Wiring.Proofs.Replay

/-!
# The balance of the books

Of a request that is parked there are three records: it is in the queue of its stub, its stub is
registered once more with its worker, and the worker counts it. Parking, switching over and
replaying enter it at different moments; between operations, when nothing is being replayed, the
three records agree.
-/
namespace Wiring.Network

variable {s t : Network} {wild : Prop} {w : WorkerId}

/-! ## Whose stub it is -/

/-- Every endpoint that was ever given a number was opened by a worker. -/
def Ascribed (s : Network) : Prop := ∀ e < s.endpoints.next, ∃ w, s.serves w e = true

theorem Ascribed.initial (process : UInt32) : Ascribed { process } :=
  fun e he => absurd he (Nat.not_lt_zero e)

/-- What was opened stays opened, and no number is given but to what is opened. -/
theorem Ascribed.of_grows (hs : Ascribed s) (h : Move wild s t)
    (new : ∀ e < t.endpoints.next, e < s.endpoints.next ∨ ∃ w, t.serves w e = true) :
    Ascribed t := by
  intro e he
  rcases new e he with old | opened
  · rcases hs e old with ⟨w, hw⟩
    exact ⟨w, serves_iff.2 (h.remembers (serves_iff.1 hw))⟩
  · exact opened

theorem Ascribed.move (hs : Ascribed s) (h : Move wild s t) : Ascribed t := by
  apply hs.of_grows h
  intro e he
  cases h with
  | aside h =>
    rw [h.endpoints] at he
    exact .inl he
  | hold h =>
    rw [h.frame] at he
    exact .inl he
  | wire h =>
    cases h with
    | openEndpoint id wk ep here fresh worker empty =>
      rw [Table.next_push] at he
      rcases Nat.lt_succ_iff_lt_or_eq.1 he with old | rfl
      · exact .inl old
      · exact .inr ⟨id, serves_iff.2 Array.mem_push_self⟩
    | markLocal | markRemote => exact .inl he
    | _ => exact .inl (by simpa [setSlots] using he)
  | pass h => cases h <;> exact .inl (by simpa using he)

theorem Ascribed.moves (hs : Ascribed s) (h : Moves wild s t) : Ascribed t := by
  induction h with
  | refl => exact hs
  | tail _ h ih => exact ih.move h

/-- A stub belongs to the worker that has opened its endpoint, even when the endpoint is gone. -/
theorem Minded.owner (hs : Minded s) (ascribed : Ascribed s) {x : StubId} {st : Stub}
    (here : s.stubs.get? x = some st) : ∃! w, s.serves w st.endpoint = true := by
  rcases ascribed _ (hs.recorded.sound.keyed.stubs x st here) with ⟨w, hw⟩
  exact ⟨w, hw, fun w' hw' => hs.served.single w' w _ hw' hw⟩

/-! ## The three records -/

end Wiring.Network
