import Mathlib
import Wiring.Proofs.Request
import Wiring.Proofs.Table

/-!
# Parking and switching over

What parking a request and switching a stub over change, field by field, and how registrations
are counted meanwhile.
-/
namespace Wiring

theorem lookup_entry {α β : Type} [DecidableEq α] (z y : α) (m : β) (r : List (α × β)) :
    List.lookup y ((z, m) :: r) = if y = z then some m else r.lookup y := by
  rw [List.lookup_cons]
  by_cases h : y = z
  · subst h
    simp
  · simp [beq_eq_false_iff_ne.2 h, h]

namespace Registry

@[simp] theorem count_nil (x : Runner) : count [] x = 0 := rfl

theorem lookup_replace (r : Registry) (x y : Runner) (n : Nat) :
    (r.replace x n).lookup y = if x = y then (r.lookup y).map fun _ => n else r.lookup y := by
  induction r with
  | nil => simp [replace]
  | cons entry r ih =>
    obtain ⟨z, m⟩ := entry
    have hc : replace ((z, m) :: r) x n = (if z = x then (x, n) else (z, m)) :: replace r x n := by
      by_cases hz : z = x <;> simp [replace, hz]
    rw [hc, lookup_entry]
    by_cases hz : z = x
    · subst hz
      rw [if_pos rfl, lookup_entry, ih]
      by_cases hy : y = z
      · simp [hy]
      · simp [hy, Ne.symm hy]
    · rw [if_neg hz, lookup_entry, ih]
      by_cases hy : y = z
      · subst hy
        simp [Ne.symm hz]
      · simp [hy]

/-- Pruning keeps the entries that satisfy its test and no others. -/
theorem lookup_filter (r : Registry) (p : Runner → Bool) (x : Runner) :
    (r.filter fun entry => p entry.1).lookup x = if p x = true then r.lookup x else none := by
  induction r with
  | nil => simp
  | cons entry r ih =>
    obtain ⟨z, m⟩ := entry
    rw [List.filter_cons, lookup_entry]
    by_cases hz : p z = true
    · rw [if_pos hz, lookup_entry, ih]
      by_cases hx : x = z
      · subst hx
        simp [hz]
      · simp [hx]
    · rw [if_neg hz, ih]
      by_cases hx : x = z
      · subst hx
        simp [hz]
      · simp [hx]

theorem lookup_without (r : Registry) (x y : Runner) :
    (r.filter fun entry => entry.1 != x).lookup y = if y = x then none else r.lookup y := by
  have := lookup_filter r (fun z => z != x) y
  rw [this]
  by_cases h : y = x <;> simp [h]

theorem count_add_self (r : Registry) (x : Runner) : (r.add x true).1.count x = r.count x + 1 := by
  unfold add count
  cases h : r.lookup x with
  | none => simp [List.lookup_append, h]
  | some n => simp [lookup_replace, h]

theorem count_add_ne (r : Registry) {x y : Runner} (alive : Bool) (h : x ≠ y) :
    (r.add x alive).1.count y = r.count y := by
  unfold add count
  cases hx : r.lookup x with
  | none => simp [List.lookup_append, lookup_entry, Ne.symm h]
  | some n => simp [lookup_replace, h]

theorem count_remove_self (r : Registry) (x : Runner) :
    (r.remove x).1.count x = r.count x - 1 := by
  unfold remove count
  cases h : r.lookup x with
  | none => simp [h]
  | some n =>
    by_cases hn : n ≤ 1
    · simp only [hn, if_true, lookup_without, Option.getD_none, Option.getD_some]
      omega
    · simp [hn, lookup_replace, h]

theorem count_remove_ne (r : Registry) {x y : Runner} (h : x ≠ y) :
    (r.remove x).1.count y = r.count y := by
  unfold remove count
  cases hx : r.lookup x with
  | none => rfl
  | some n =>
    by_cases hn : n ≤ 1
    · simp [hn, lookup_without, Ne.symm h]
    · simp [hn, lookup_replace, h]

end Registry

namespace Network

/-- The registries after a runner was unregistered from one of them the given number of times. -/
def withdraw (registries : Table Registry) (id : RegistryId) (x : Runner) : Nat → Table Registry
  | 0 => registries
  | n + 1 =>
    withdraw (registries.set id (((registries.get? id).getD []).remove x).1) id x n

/-- The registrations of a runner in one of the registries. -/
def registered (registries : Table Registry) (id : RegistryId) (x : Runner) : Nat :=
  Registry.count ((registries.get? id).getD []) x

theorem registrations_eq (s : Network) (id : RegistryId) (x : Runner) :
    s.registrations id x = registered s.registries id x := rfl

theorem registered_set {registries : Table Registry} {id : RegistryId}
    (h : id < registries.next) (r : Registry) (i : RegistryId) (x : Runner) :
    registered (registries.set id r) i x =
      if i = id then r.count x else registered registries i x := by
  unfold registered
  rw [Table.get?_set]
  by_cases hi : i = id
  · subst hi
    simp [h]
  · simp [hi, Ne.symm hi]

theorem registered_set_out {registries : Table Registry} {id : RegistryId}
    (h : ¬ id < registries.next) (r : Registry) : registries.set id r = registries := by
  unfold Table.set
  congr 1
  unfold Table.next at h
  simp only [Array.setIfInBounds, h, dite_false]

@[simp] theorem withdraw_next (registries : Table Registry) (id : RegistryId) (x : Runner)
    (n : Nat) : (withdraw registries id x n).next = registries.next := by
  induction n generalizing registries with
  | zero => rfl
  | succ n ih => simp [withdraw, ih]

theorem registered_withdraw_self (registries : Table Registry) (id : RegistryId) (x : Runner)
    (n : Nat) : registered (withdraw registries id x n) id x = registered registries id x - n := by
  induction n generalizing registries with
  | zero => simp [withdraw]
  | succ n ih =>
    rw [withdraw, ih]
    by_cases h : id < registries.next
    · rw [registered_set h, if_pos rfl, Registry.count_remove_self]
      unfold registered
      omega
    · have hn : registries.get? id = none := Table.get?_of_next_le (Nat.le_of_not_lt h)
      rw [registered_set_out h]
      simp [registered, hn]

theorem registered_withdraw_ne (registries : Table Registry) (id : RegistryId) (x : Runner)
    (n : Nat) {i : RegistryId} {y : Runner} (h : i ≠ id ∨ x ≠ y) :
    registered (withdraw registries id x n) i y = registered registries i y := by
  induction n generalizing registries with
  | zero => rfl
  | succ n ih =>
    rw [withdraw, ih]
    by_cases hid : id < registries.next
    · rw [registered_set hid]
      split
      · subst i
        exact Registry.count_remove_ne _ (h.resolve_left fun h => h rfl)
      · rfl
    · rw [registered_set_out hid]

theorem workerOf?_eq_some {s : Network} {e : EndpointId} {w : WorkerId} :
    s.workerOf? e = some w ↔
      ∃ ep, s.endpoints.get? e = some ep ∧ ep.worker = w ∧ s.workers.contains w = true := by
  unfold workerOf?
  cases h : s.endpoints.get? e with
  | none => simp
  | some ep =>
    by_cases hw : s.workers.contains ep.worker
    · simp only [hw, if_true, Option.some.injEq]
      constructor
      · rintro rfl
        exact ⟨ep, rfl, rfl, hw⟩
      · rintro ⟨_, rfl, h, _⟩
        exact h
    · simp only [hw, if_false, Bool.false_eq_true]
      constructor
      · intro h
        cases h
      · rintro ⟨ep', he, rfl, h⟩
        cases he
        exact absurd h hw

/-- Parking queues the request, counts it and registers the stub once more. -/
theorem park_eq {s : Network} {id : StubId} {t : Stub} {w : WorkerId} {wk : Worker}
    (here : s.stubs.get? id = some t) (worker : s.workers.get? w = some wk) (r : Request) :
    s.park id t w r = { s with
      stubs := s.stubs.set id { t with parked := t.parked ++ [r] }
      workers := s.workers.set w { wk with parkedCount := wk.parkedCount + 1 }
      trace := s.trace.push (.parked id r)
      registries := s.registries.set wk.registry
        ((s.registry wk.registry).add (.stub id) true).1 } := by
  have hk := Table.lt_next_of_get? worker
  simp only [park, note, Table.modify_eq_set worker, Table.get?_set, hk, and_self, if_true,
    register, registry, Runner.ref, isLive, Table.contains_set here, Table.contains_of_get? here]

theorem foldl_unregister (s : Network) (id : RegistryId) (x : Runner) (rs : List Request) :
    rs.foldl (fun s _ => (s.unregister id x).1) s =
      { s with registries := withdraw s.registries id x rs.length } := by
  induction rs generalizing s with
  | nil => rfl
  | cons r rs ih =>
    rw [List.foldl_cons, ih]
    rfl

/-- The work that a switchover leaves to do. -/
def replay (t : Stub) (w : WorkerId) (next : LinkId) : List Job :=
  releaseLink? t.auxiliary ++ t.parked.flatMap (fun r => [.add (.link next) r, .replayed w])
    ++ [.release (.link next), .release (.worker w), .release (.endpoint t.endpoint)]

/-- A switchover empties the stub, takes back its registrations and promotes its link. -/
theorem switch_eq {s : Network} (id : StubId) (t : Stub) {w : WorkerId} {wk : Worker}
    (worker : s.workers.get? w = some wk) (next : LinkId) :
    s.switch id t w next = { s with
      stubs := s.stubs.set id
        { t with next := none, auxiliary := none, parked := [], promoted := some next }
      tally := s.tally + 1
      trace := s.trace.push (.switched id next)
      registries := withdraw s.registries wk.registry (.stub id) t.parked.length
      endpoints := s.endpoints.modify t.endpoint fun e => promoteSlots e id t.category next
      agenda := replay t w next ++ s.agenda } := by
  simp only [switch, note, worker, Option.map_some, Option.getD_some, foldl_unregister, push,
    replay]

end Network

end Wiring
