import Mathlib
import Wiring.Proofs.Load

/-!
# Gates

Each stub has a gate of its own, which counts the covers of control traffic that is not finished,
wherever it lies. A gate that counts nothing lets the switchover pass.
-/
namespace Wiring.Network

variable {s t : Network} {wild : Prop}

/-- Gates count the covers of the requests in the network, and stubs have different gates. -/
structure Gated (s : Network) : Prop where
  count : ∀ g, s.gate g = s.load fun r => r.gates.count g
  known : ∀ x st, s.stubs.get? x = some st → s.gates.contains st.gate = true
  own : ∀ x y st st', s.stubs.get? x = some st → s.stubs.get? y = some st' →
    st.gate = st'.gate → x = y

/-- A gate is open exactly if it covers nothing that the network carries. -/
theorem Gated.gate_eq_zero (hs : Gated s) (g : GateId) :
    s.gate g = 0 ↔ ∀ r, s.Carries r → g ∉ r.gates := by
  rw [hs.count, load_eq_zero]
  simp only [List.count_eq_zero]

theorem steady_gates (g : GateId) : Steady fun r => r.gates.count g where
  scripted c := rfl
  unfinished r := by rw [Request.gates_unfinished]
  answered r r' o h := by rw [h.gates]

/-! ## Counting -/

/-- What a table of gates counts at one of them. -/
def gateAt (gates : Table Nat) (g : GateId) : Nat := (gates.get? g).getD 0

theorem gateAt_modify (gates : Table Nat) (f : Nat → Nat) (k g : GateId)
    (known : gates.contains k = true) :
    gateAt (gates.modify k f) g = if k = g then f (gateAt gates g) else gateAt gates g := by
  obtain ⟨n, hn⟩ := Table.contains_iff.1 known
  unfold gateAt
  rw [Table.get?_modify]
  split
  · subst g
    simp [hn]
  · rfl

theorem gateAt_pred (gates : Table Nat) (k g : GateId) :
    gateAt (gates.modify k (· - 1)) g = gateAt gates g - if k = g then 1 else 0 := by
  unfold gateAt
  rw [Table.get?_modify]
  split
  · cases gates.get? g <;> simp
  · simp

/-- Leaving gates takes back as much as they count. -/
theorem gateAt_leaveGates (gates : Table Nat) (r : Request) (g : GateId) :
    gateAt (leaveGates gates r) g = gateAt gates g - r.gates.count g := by
  unfold leaveGates
  induction r.gates generalizing gates with
  | nil => simp
  | cons k ks ih =>
    rw [List.foldl_cons, ih, gateAt_pred, List.count_cons]
    simp only [beq_iff_eq]
    omega

theorem contains_leaveGates (gates : Table Nat) (r : Request) (g : GateId) :
    (leaveGates gates r).contains g = gates.contains g := by
  unfold leaveGates
  induction r.gates generalizing gates with
  | nil => rfl
  | cons k ks ih => rw [List.foldl_cons, ih, Table.contains_modify]

/-! ## Moves -/

/-- Stubs that are there keep their gates, and gates stay. -/
theorem Gated.of_stubs (hs : Gated s) (count : ∀ g, t.gate g = t.load fun r => r.gates.count g)
    (stubs : ∀ x st, t.stubs.get? x = some st →
      ∃ st', s.stubs.get? x = some st' ∧ st'.gate = st.gate)
    (gates : ∀ g, s.gates.contains g = true → t.gates.contains g = true) : Gated t := by
  refine ⟨count, fun x st hx => ?_, fun x y st st' hx hy h => ?_⟩
  · obtain ⟨st', hx', hg⟩ := stubs x st hx
    exact gates _ (hg ▸ hs.known x st' hx')
  · obtain ⟨sx, hx', hg⟩ := stubs x st hx
    obtain ⟨sy, hy', hg'⟩ := stubs y st' hy
    exact hs.own x y sx sy hx' hy' (by rw [hg, hg', h])

theorem Gated.aside (hs : Gated s) (h : Aside s t) : Gated t := by
  refine hs.of_stubs (fun g => ?_) (fun x st hx => ⟨st, h.stubs ▸ hx, rfl⟩) fun g hg => ?_
  · rw [h.load, ← hs.count g, gate, gate, h.gates]
  · rw [h.gates]
    exact hg

theorem Gated.hold (hs : Gated s) (h : Hold s t) : Gated t := by
  have load (f : Request → Nat) := h.load (f := f)
  rw [h.frame] at load ⊢
  exact ⟨fun g => (hs.count g).trans (load _).symm, hs.known, hs.own⟩

theorem Gated.wire (hs : Gated s) (h : Wire s t) : Gated t := by
  have load (g : GateId) := (hs.count g).trans (h.load (f := fun r => r.gates.count g)).symm
  cases h with
  | openStub st gate unparked unmarked unswitched next auxiliary endpoint =>
    have none : s.gates.contains s.gates.next = false := by simp [Table.contains]
    have old (x : StubId) (st' : Stub) (hx : s.stubs.get? x = some st') : st'.gate ≠ st.gate := by
      intro hg
      have := hs.known x st' hx
      rw [hg, gate, none] at this
      cases this
    refine ⟨fun g => ?_, fun x st' hx => ?_, fun x y sx sy hx hy hg => ?_⟩
    · rw [← load g]
      simp only [Network.gate, Table.get?_push]
      split
      · subst g
        simp
      · rfl
    · rw [Table.contains_push]
      obtain ⟨-, rfl⟩ | hx := Table.get?_of_push hx
      · simp [gate]
      · rw [hs.known x st' hx, Bool.or_true]
    · obtain ⟨rfl, rfl⟩ | hx' := Table.get?_of_push hx
      · obtain ⟨rfl, -⟩ | hy' := Table.get?_of_push hy
        · rfl
        · exact absurd hg.symm (old y sy hy')
      · obtain ⟨-, rfl⟩ | hy' := Table.get?_of_push hy
        · exact absurd hg (old x sx hx')
        · exact hs.own x y sx sy hx' hy' hg
  | closeStub id st here empty free =>
    exact hs.of_stubs load (fun x st' hx => ⟨st', Table.get?_of_erase hx, rfl⟩) fun g hg => hg
  | markLocal id here | markRemote id here =>
    refine hs.of_stubs load (fun x st hx => ?_) fun g hg => hg
    obtain ⟨st', hx', rfl | rfl⟩ := Table.get?_of_modify hx
    · exact ⟨st, hx', rfl⟩
    · exact ⟨st', hx', rfl⟩
  | _ => exact hs.of_stubs load (fun x st hx => ⟨st, hx, rfl⟩) fun g hg => hg

/-- Passing a request on leaves every stub its gate. -/
theorem Pass.gate (h : Pass wild s t) (x : StubId) (st : Stub)
    (hx : t.stubs.get? x = some st) : ∃ st', s.stubs.get? x = some st' ∧ st'.gate = st.gate := by
  cases h with
  | park id st' w wk r rest top here | switch id st' w wk next here =>
    rw [Table.get?_set_of here] at hx
    split at hx
    · subst x
      cases hx
      exact ⟨st', here, rfl⟩
    · exact ⟨st, hx, rfl⟩
  | _ => exact ⟨st, hx, rfl⟩

theorem Gated.pass (hs : Gated s) (lent : Lent wild s) (h : Pass wild s t) : Gated t := by
  have gate_eq (u : Network) (g : GateId) : u.gate g = gateAt u.gates g := rfl
  have count := hs.count
  simp only [gate_eq] at count
  have left (g : GateId) {r : Request} (n : Nat) (hn : n = 0)
      (load : (t.load fun r => r.gates.count g) + r.gates.count g =
        (s.load fun r => r.gates.count g) + n)
      (gates : t.gates = leaveGates s.gates r) : t.gate g = t.load fun r => r.gates.count g := by
    rw [gate_eq, gates, gateAt_leaveGates, count g]
    omega
  refine hs.of_stubs (fun g => ?_) h.gate fun g hg => ?_
  · cases h.transfer lent with
    | kept load gates => rw [load _ (steady_gates g), gate_eq, gates, count g]
    | sent m handle load gates =>
      rw [load _ (steady_gates g), gate_eq, gates, count g]
      rfl
    | covered x st r here load gates =>
      have load := load _ (steady_gates g)
      rw [gate_eq, gates, gateAt_modify _ _ _ _ (hs.known x st here), count g]
      rw [Request.gates_counted, List.count_cons] at load
      simp only [beq_iff_eq] at load
      split
      · simp_all
        omega
      · simp_all
    | ended r o load gates => exact left g 0 rfl (load _ (steady_gates g)) gates
    | back r o h lent load gates =>
      exact left g _ (by simp) (load _ (steady_gates g)) gates
    | letGo r sober load gates => exact left g 0 rfl (load _ (steady_gates g)) gates
  · cases h.transfer lent with
    | kept load gates | sent m handle load gates => rw [gates]; exact hg
    | covered x st r here load gates => rw [gates, Table.contains_modify]; exact hg
    | ended r o load gates | back r o h lent load gates | letGo r sober load gates =>
      rw [gates, contains_leaveGates]
      exact hg

theorem Gated.move (hs : Gated s) (lent : Lent wild s) (h : Move wild s t) : Gated t := by
  cases h with
  | aside h => exact hs.aside h
  | hold h => exact hs.hold h
  | wire h => exact hs.wire h
  | pass h => exact hs.pass lent h

theorem Gated.initial (process : UInt32) : Gated { process } where
  count g := by simp [gate, load, hands]
  known x st hx := by cases hx
  own x y st st' hx := by cases hx

end Wiring.Network
