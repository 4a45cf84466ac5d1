import Mathlib
import Wiring.Proofs.Handshake

/-!
# What leaves the work to do alone

Sending, connecting, marking, opening and letting requests go change neither the agenda nor the
tally, and break no promise.
-/
namespace Wiring.Network

variable {s t u : Network}

/-- A change that leaves the work to do as it is. -/
structure Quiet (s t : Network) : Prop where
  agenda : t.agenda = s.agenda
  tally : t.tally = s.tally
  violation : t.violation = s.violation

namespace Quiet

theorem refl (s : Network) : Quiet s s := ⟨rfl, rfl, rfl⟩

theorem trans (h : Quiet s t) (g : Quiet t u) : Quiet s u :=
  ⟨g.agenda.trans h.agenda, g.tally.trans h.tally, g.violation.trans h.violation⟩

theorem foldl {α : Type} {f : Network → α → Network} (h : ∀ s a, Quiet s (f s a)) (as : List α)
    (s : Network) : Quiet s (as.foldl f s) := by
  induction as generalizing s with
  | nil => exact refl s
  | cons a as ih => exact (h s a).trans (ih _)

end Quiet

/-! ## Requests -/

theorem cancel_quiet (s : Network) (r : Request) : Quiet s (s.cancel r) := by
  obtain ⟨marks, -, h⟩ := s.cancel_eq r
  rw [h]
  exact ⟨rfl, rfl, rfl⟩

theorem discard_quiet (s : Network) (r : Request) : Quiet s (s.discard r) := by
  obtain ⟨marks, -, h⟩ := s.discard_eq r
  rw [h]
  exact ⟨rfl, rfl, rfl⟩

theorem recordAttempt_quiet (s : Network) (r : Request) (o : Outcome) :
    Quiet s (s.recordAttempt r o) := by
  by_cases ho : o.isNoResource = true
  · obtain ⟨marks, -, h⟩ := s.recordAttempt_noResource r ho
    rw [h]
    exact ⟨rfl, rfl, rfl⟩
  · obtain ⟨marks, -, h⟩ := s.recordAttempt_eq r (Bool.eq_false_iff.2 ho)
    rw [h]
    exact ⟨rfl, rfl, rfl⟩

/-! ## Sending and connecting -/

theorem transmit_quiet (s : Network) (l : LinkId) (messageId : UInt8) (payload : Bytes)
    (source : Option HandleId) : Quiet s (s.transmit l messageId payload source).1 := by
  unfold transmit
  split
  · exact .refl s
  · split
    · exact .refl s
    · split <;> exact ⟨rfl, rfl, rfl⟩

theorem sendWithin_quiet (s : Network) (l : LinkId) (check : Outcome) (limit : Nat)
    (messageId : UInt8) (payload : Bytes) (source : Option HandleId) :
    Quiet s (s.sendWithin l check limit messageId payload source).1 := by
  unfold sendWithin
  split
  · exact .refl s
  · split
    · exact .refl s
    · exact transmit_quiet s l messageId payload source

theorem sendBulk_quiet (s : Network) (l : LinkId) (messageId : UInt8) (payload : Bytes)
    (source : Option HandleId) : Quiet s (s.sendBulk l messageId payload source).1 := by
  unfold sendBulk
  split
  · exact .refl s
  · exact sendWithin_quiet s l _ _ messageId payload source

theorem sendOver_quiet (s : Network) (c : Carrier) (messageId : UInt8) (payload : Bytes)
    (source : Option HandleId) : Quiet s (s.sendOver c messageId payload source).1 := by
  unfold sendOver
  split
  · exact sendBulk_quiet s _ messageId payload source
  · split
    · exact .refl s
    · split
      · exact .refl s
      · exact sendBulk_quiet s _ messageId payload source

theorem connectLink_quiet (s : Network) (l : LinkId) (device address : Bytes) :
    Quiet s (s.connectLink l device address).1 := by
  unfold connectLink
  split <;> exact ⟨rfl, rfl, rfl⟩

theorem connect_quiet (s : Network) (c : Carrier) (device address : Bytes) :
    Quiet s (s.connect c device address).1 := by
  unfold connect
  split
  · exact connectLink_quiet s _ device address
  · split
    · exact .refl s
    · rename_i next hn
      have h := connectLink_quiet s next device address
      split
      · rename_i u hu
        rw [hu] at h
        exact h.trans ⟨rfl, rfl, rfl⟩
      · rename_i u why hu
        rw [hu] at h
        exact h

theorem connectLanes_quiet (s : Network) (e : EndpointId) (lanes : List LaneAddress) :
    Quiet s (s.connectLanes e lanes).1 := by
  induction lanes generalizing s with
  | nil => exact .refl s
  | cons lane lanes ih =>
    unfold connectLanes
    split
    · rename_i x hx
      have h := connect_quiet s (.stub x) lane.deviceAddress lane.linkAddress
      split
      · rename_i u hu
        rw [hu] at h
        exact h.trans (ih u)
      · rename_i u why hu
        rw [hu] at h
        exact h
    · exact ih s

/-! ## Marking -/

theorem markSlot_quiet (s : Network) (c : Slot) : Quiet s (s.markSlot c) := by
  unfold markSlot
  split <;> exact ⟨rfl, rfl, rfl⟩

theorem markLanes_quiet (s : Network) (e : EndpointId) : Quiet s (s.markLanes e) := by
  unfold markLanes
  split
  · exact .refl s
  · exact .foldl (fun s lane => markSlot_quiet s _) _ s

theorem applyPosted_quiet (s : Network) (w : WorkerId) : Quiet s (s.applyPosted w).1 := by
  unfold applyPosted
  split
  · exact .refl s
  · rename_i wk here
    have taken : Quiet s { s with workers := s.workers.set w { wk with posted := [] } } := ⟨rfl, rfl, rfl⟩
    refine taken.trans (.foldl (fun s event => ?_) _ _)
    unfold applyEvent
    split
    · exact markSlot_quiet s _
    · exact .refl s

/-! ## Opening -/

theorem newLink_quiet (s : Network) (owner : InterfaceId) (i : Interface)
    (dest : Option InterfaceId) : Quiet s (s.newLink owner i dest).1 := ⟨rfl, rfl, rfl⟩

theorem openLink_quiet (s : Network) (owner : InterfaceId) : Quiet s (s.openLink owner).1 := by
  unfold openLink
  split
  · exact .refl s
  · split
    · exact .refl s
    · exact newLink_quiet s owner _ none

theorem openConnectedLink_quiet (s : Network) (owner : InterfaceId) (device address : Bytes) :
    Quiet s (s.openConnectedLink owner device address).1 := by
  unfold openConnectedLink
  split
  · exact .refl s
  · split
    · exact .refl s
    · exact newLink_quiet s owner _ _

theorem openAuxiliary_quiet (s : Network) (w : Worker) (peer : String)
    (entries : List AddressEntry) (scorer : Scorer) :
    Quiet s (s.openAuxiliary w peer entries scorer).1 := by
  unfold openAuxiliary
  split
  · exact .refl s
  · split
    · rename_i r entry hr he
      have h := openConnectedLink_quiet s r.interface entry.deviceAddress entry.interfaceAddress
      split
      · rename_i u l hu
        rw [hu] at h
        exact h
      · rename_i u why hu
        rw [hu] at h
        exact h
    · exact .refl s

theorem retireLink_quiet (s : Network) (l : LinkId) : Quiet s (s.retireLink l) := by
  unfold retireLink
  split
  · exact .refl s
  · rename_i lk here
    have erased : Quiet s { s with links := s.links.erase l } := ⟨rfl, rfl, rfl⟩
    exact erased.trans (.foldl cancel_quiet _ _)

theorem openStub_quiet (s : Network) (endpoint : EndpointId) (e : Endpoint) (w : Worker)
    (lane : Category) (i : InterfaceId) (entries : List AddressEntry) :
    Quiet s (s.openStub endpoint e w lane i entries).1 := by
  unfold openStub
  have h := openLink_quiet s i
  split
  · rename_i u why hu
    rw [hu] at h
    exact h
  · rename_i u next hu
    rw [hu] at h
    split
    · have g := openAuxiliary_quiet u w e.peer entries .auxiliary
      split
      · rename_i v why hv
        rw [hv] at g
        exact (h.trans g).trans (retireLink_quiet v next)
      · rename_i v auxiliary hv
        rw [hv] at g
        exact (h.trans g).trans ⟨rfl, rfl, rfl⟩
    · exact h.trans ⟨rfl, rfl, rfl⟩

theorem openLane_quiet (s : Network) (endpoint : EndpointId) (e : Endpoint) (w : Worker)
    (lane : Category) (entries : List AddressEntry) :
    Quiet s (s.openLane endpoint e w lane entries).1 := by
  unfold openLane
  split
  · exact .refl s
  · rename_i r hr
    split
    · exact .refl s
    · split
      · have h := openStub_quiet s endpoint e w lane r.interface entries
        split
        · rename_i u x hu
          rw [hu] at h
          exact h
        · rename_i u why hu
          rw [hu] at h
          exact h
      · simp only
        split
        · exact .refl s
        · rename_i entry he
          have h := openConnectedLink_quiet s r.interface entry.deviceAddress
            entry.interfaceAddress
          split
          · rename_i u l hu
            rw [hu] at h
            exact h
          · rename_i u why hu
            rw [hu] at h
            exact h

theorem openLanes_quiet (s : Network) (endpoint : EndpointId) (entries : List AddressEntry)
    (lanes : List Category) : Quiet s (s.openLanes endpoint entries lanes).1 := by
  induction lanes generalizing s with
  | nil => exact .refl s
  | cons lane lanes ih =>
    unfold openLanes
    split
    · exact .refl s
    · rename_i e he
      split
      · exact .refl s
      · rename_i w hw
        have h := openLane_quiet s endpoint e w lane entries
        split
        · rename_i u why hu
          rw [hu] at h
          exact h
        · rename_i u c hu
          rw [hu] at h
          have installed : Quiet u (u.setSlots endpoint (installLane e lane c)) := ⟨rfl, rfl, rfl⟩
          exact (h.trans installed).trans (ih _)

theorem openEndpoint_quiet (s : Network) (w : WorkerId) (dest : UInt64) (peer : String) :
    Quiet s (s.openEndpoint w dest peer).1 := by
  unfold openEndpoint
  simp only
  split <;> exact ⟨rfl, rfl, rfl⟩

theorem newSignal_quiet (s : Network) (e : EndpointId) (kind : Signal.Kind) :
    Quiet s (s.newSignal e kind).1 := by
  obtain ⟨why, h⟩ | ⟨payload, -, h⟩ := s.newSignal_cases e kind
  · rw [h]
    exact .refl s
  · rw [h]
    exact ⟨rfl, rfl, rfl⟩

end Wiring.Network
