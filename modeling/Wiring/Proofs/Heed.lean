import Mathlib
import Wiring.Proofs.Endings

/-!
# Applications that heed what they have in hand

Whoever is told that a request is finished must not attempt it again. An application that brings
each script once, and takes up no request that it was told to be finished, finds every request told
once: until its end it lies in one place, and after it nowhere but with the application.
-/
namespace Wiring

/-- Whether the name of a script was heard, or a request goes by it. -/
def Network.hears (s : Network) (name : String) : Bool :=
  !(s.traffic.tale name).isEmpty || s.traffic.load (.every (.name name)) != 0

namespace Traffic

variable {s t u : Traffic} {μ : Means} {r : Request}

/-- What the application brings is new, and what it takes up is unfinished. -/
structure Means.Heeds (μ : Means) (s : Traffic) : Prop where
  unheard : ∀ c ∈ μ.scripts, s.tale c.name = []
  unseen : ∀ c ∈ μ.scripts, s.load (.every (.name c.name)) = 0
  unfinished : ∀ h ∈ μ.requests, ∀ r, s.held.get? h = some r → r.isOpen s.handles = true

theorem Means.Heeds.none (s : Traffic) : Means.Heeds {} s := ⟨by simp, by simp, by simp⟩

namespace Once

theorem initial (process : UInt32) : Once (Network.traffic { process }) where
  sole k := by simp [load, Network.traffic]
  ended k h := by simp [load, Network.traffic]
  given h _ := by simp [load, Network.traffic]
  keyed := by simp [load, Network.traffic]
  order name := List.Pairwise.nil

/-! ## What operations do at once -/

/-- The application takes a request in hand that is new or unfinished. -/
theorem takes (hs : Once s) (heeds : μ.Heeds s) (h : Takes μ s r t) : Once (t.grasp r) := by
  cases h with
  | fresh c script brought names =>
    subst script
    exact hs.bring (heeds.unheard c brought) (heeds.unseen c brought)
      (fun σ _ => (load_grasp s _).le) (fun _ => rfl) rfl
  | held h here used =>
    refine hs.takeUp here (heeds.unfinished h used r here) (fun σ _ => ?_) (fun _ => rfl) rfl
    have taken := load_eraseHeld (σ := σ) here
    have inHand := load_grasp (σ := σ) { s with held := s.held.erase h } r
    omega

/-- The request in hand comes to its end. -/
theorem letGo (hs : Once (s.grasp r)) {marks : List Happening} (noted : r.Noted marks)
    (load : ∀ σ : Scale, t.load σ = s.load σ) (trace : t.trace = s.trace ++ marks.toArray)
    (told : ∀ h, r.key? ≠ some (.handle h) → Network.told t.handles h = Network.told s.handles h)
    (next : t.handles.next = s.handles.next) : Once t := by
  refine hs.ends (inHand rfl rfl) noted (fun σ _ => ?_) trace told next
  have inHand := load_grasp (σ := σ) s r
  have same := load σ
  omega

/-- The application lets a request go that it has. -/
theorem discard (hs : Once s) {h : HeldId} (here : s.held.get? h = some r) :
    Once { s with held := s.held.erase h, trace := s.trace ++ r.dropNotes.toArray } := by
  generalize ht : ({ s with
    held := s.held.erase h, trace := s.trace ++ r.dropNotes.toArray } : Traffic) = t
  have load (σ : Scale) : t.load σ + σ.kept r = s.load σ := ht ▸ load_eraseHeld here
  have less (σ : Scale) : t.load σ ≤ s.load σ := Nat.le.intro (load σ)
  have trace : t.trace = s.trace ++ r.dropNotes.toArray := ht ▸ rfl
  have handles : t.handles = s.handles := ht ▸ rfl
  by_cases silent : r.dropNotes = []
  · rw [silent] at trace
    exact hs.moved (fun σ _ => less σ) (by simpa using trace) handles
  · -- What is told to be dropped was not finished, so that it would have gone on.
    have lives : r.mayRest = false := by
      cases r with
      | scripted c =>
        by_contra finished
        rw [Bool.not_eq_false] at finished
        exact silent (if_pos finished)
      | send m => exact absurd rfl silent
      | counted | spent => rfl
    have going {k : Key} (key : r.key? = some k) : (Scale.going k).kept r = 1 := by
      simp [Scale.going, lives, Scale.has_of key]
    have part {k : Key} (key : r.key? = some k) : 1 ≤ s.load (.going k) :=
      (going key).ge.trans (kept_le_load here)
    refine hs.noted r.noted_drop (fun k key => hs.alive_of_le (part key)) (fun k key _ => ?_)
      (fun k => less _) (fun k => less _) (less _) trace (fun _ _ => by rw [handles])
      (by rw [handles])
    have all := hs.going_le k
    have left := load (.going k)
    rw [going key] at left
    omega

theorem act (hs : Once s) (heeds : μ.Heeds s) (h : Act μ s t) : Once t := by
  cases h with
  | rig t rigged => exact hs.rig rigged
  | work jobs bare => exact hs.push bare
  | ask m handle => exact hs.ask handle
  | openInterface | install => exact hs.moved (fun σ _ => le_rfl) rfl rfl
  | lead l lk dest here =>
    refine hs.moved (fun σ _ => ?_) rfl rfl
    have same := load_links (σ := σ) here { lk with dest := some dest }
    exact (Nat.add_right_cancel same).le
  | send c l messageId payload t name carries sent => exact hs.transmits sent
  | bring c brought names =>
    refine hs.bring (heeds.unheard c brought) (heeds.unseen c brought) (fun σ fair => ?_)
      (fun _ => rfl) rfl
    rw [load_pushHeld]
    exact Nat.add_le_add_left (fair.kept _) _
  | rehold h r here =>
    refine hs.moved (fun σ _ => ?_) rfl rfl
    have taken := load_eraseHeld (σ := σ) here
    have put := load_pushHeld (σ := σ) { s with held := s.held.erase h } r
    simp only at put
    omega
  | cancelHeld h r here used =>
    exact (hs.takes heeds (.held h here used)).letGo r.noted_cancel (fun _ => rfl) rfl
      (fun k => Request.told_endHandle_other _) (Network.endHandle_next ..)
  | discardHeld h r here => exact hs.discard here
  | attempt h r here used =>
    exact (hs.takes heeds (.held h here used)).swap rfl rfl rfl fun _ _ => rfl
  | add c r u name taken => exact (hs.takes heeds taken).swap rfl rfl rfl fun _ _ => rfl
  | offer c r u t name taken offered => exact (hs.takes heeds taken).accepted offered
  | offerBack c r r' u t name taken offered =>
    refine ((hs.takes heeds taken).handedBack offered).moved (fun σ fair => ?_) rfl rfl
    rw [load_pushHeld, load_grasp]
    exact Nat.add_le_add_left (fair.kept r') _
  | offerDrop c r r' u t name taken offered =>
    exact ((hs.takes heeds taken).handedBack offered).letGo r'.noted_drop (fun _ => rfl) rfl
      (fun _ _ => rfl) rfl
  | purge l lk here =>
    refine hs.moved (fun σ fair => ?_) rfl rfl
    have emptied := load_links (σ := σ) here { lk with queue := [] }
    have kept := load_pushAll (σ := σ)
      { s with links := s.links.set l { lk with queue := [] } } lk.queue
    have lighter := weight_mono fair.kept lk.queue
    simp only [Network.weight_nil] at emptied kept
    omega

end Once

end Traffic

namespace Network

open Traffic (Once)

variable {s t u : Network}

end Network

end Wiring
