import Mathlib
import Wiring.Table

/-!
# Sums over tables

What a table holds is summed up over the numbers given so far. Two tables that differ at one
number only have sums that differ by what they hold there, which covers every way to change a
table but adding to it.
-/
namespace Wiring.Table

variable {α : Type}

@[simp] theorem next_set (t : Table α) (k : Nat) (a : α) : (t.set k a).next = t.next := by
  simp [next, set]

@[simp] theorem next_erase (t : Table α) (k : Nat) : (t.erase k).next = t.next := by
  simp [next, erase]

@[simp] theorem next_modify (t : Table α) (k : Nat) (f : α → α) :
    (t.modify k f).next = t.next := by
  simp [next, modify]

@[simp] theorem get?_empty (k : Nat) : ({} : Table α).get? k = none := rfl

theorem lt_next_of_get? {t : Table α} {k : Nat} {a : α} (h : t.get? k = some a) : k < t.next := by
  by_contra hk
  have : t.cells[k]? = none := Array.getElem?_eq_none (Nat.le_of_not_lt hk)
  simp [get?, this] at h

theorem get?_of_next_le {t : Table α} {k : Nat} (h : t.next ≤ k) : t.get? k = none := by
  cases hk : t.get? k with
  | none => rfl
  | some a => exact absurd (lt_next_of_get? hk) (by omega)

@[simp] theorem get?_next (t : Table α) : t.get? t.next = none := get?_of_next_le le_rfl

theorem contains_iff {t : Table α} {k : Nat} : t.contains k = true ↔ ∃ a, t.get? k = some a :=
  Option.isSome_iff_exists

theorem contains_of_get? {t : Table α} {k : Nat} {a : α} (h : t.get? k = some a) :
    t.contains k = true := contains_iff.2 ⟨a, h⟩

@[simp] theorem contains_modify (t : Table α) (k : Nat) (f : α → α) (i : Nat) :
    (t.modify k f).contains i = t.contains i := by
  unfold contains
  rw [get?_modify]
  split <;> simp

theorem contains_push (t : Table α) (a : α) (i : Nat) :
    (t.push a).contains i = (decide (i = t.next) || t.contains i) := by
  unfold contains
  rw [get?_push]
  split <;> simp_all

theorem contains_erase (t : Table α) (k i : Nat) :
    (t.erase k).contains i = (decide (k ≠ i) && t.contains i) := by
  unfold contains
  rw [get?_erase]
  split <;> simp_all

theorem get?_set_of {t : Table α} {k : Nat} {a : α} (h : t.get? k = some a) (b : α) (i : Nat) :
    (t.set k b).get? i = if k = i then some b else t.get? i := by
  have hk := lt_next_of_get? h
  simp [get?_set, hk]

theorem contains_set {t : Table α} {k : Nat} {a : α} (h : t.get? k = some a) (b : α) (i : Nat) :
    (t.set k b).contains i = t.contains i := by
  unfold contains
  rw [get?_set_of h]
  split
  · subst i
    simp [h]
  · rfl

theorem set_set (t : Table α) (k : Nat) (a b : α) : (t.set k a).set k b = t.set k b := by
  unfold set
  congr 1
  apply Array.ext
  · simp
  · intro i h₁ h₂
    by_cases h : k = i <;> simp [h]

theorem set_get? {t : Table α} {k : Nat} {a : α} (h : t.get? k = some a) : t.set k a = t := by
  obtain ⟨hk, he⟩ := Array.getElem?_eq_some_iff.1 (Option.join_eq_some_iff.1 h)
  unfold set
  congr 1
  refine Array.ext_getElem? fun i => ?_
  rw [Array.getElem?_setIfInBounds]
  split
  · subst i
    simp [hk, he]
  · rfl

/-- Changing what is there is replacing it. -/
theorem modify_eq_set {t : Table α} {k : Nat} {a : α} (h : t.get? k = some a) (f : α → α) :
    t.modify k f = t.set k (f a) := by
  obtain ⟨hk, he⟩ := Array.getElem?_eq_some_iff.1 (Option.join_eq_some_iff.1 h)
  unfold modify set
  congr 1
  refine Array.ext_getElem? fun i => ?_
  rw [Array.getElem?_setIfInBounds, Array.getElem?_modify]
  split
  · subst i
    simp [hk, he]
  · rfl

theorem modify_of_none {t : Table α} {k : Nat} {f : α → α} (h : t.get? k = none) :
    t.modify k f = t := by
  unfold modify
  congr 1
  refine Array.ext_getElem? fun i => ?_
  rw [Array.getElem?_modify]
  split
  · subst i
    unfold get? at h
    cases hc : t.cells[k]? with
    | none => rfl
    | some cell =>
      rw [hc] at h
      cases (h : cell = none)
      rfl
  · rfl

theorem get?_of_erase {t : Table α} {k i : Nat} {a : α} (h : (t.erase k).get? i = some a) :
    t.get? i = some a := by
  rw [get?_erase] at h
  split at h
  · cases h
  · exact h

theorem get?_of_modify {t : Table α} {k i : Nat} {f : α → α} {b : α}
    (h : (t.modify k f).get? i = some b) :
    ∃ a, t.get? i = some a ∧ (b = a ∨ b = f a) := by
  rw [get?_modify] at h
  split at h
  · obtain ⟨a, ha, hb⟩ := Option.map_eq_some_iff.1 h
    exact ⟨a, ha, .inr hb.symm⟩
  · exact ⟨b, h, .inl rfl⟩

theorem get?_of_push {t : Table α} {i : Nat} {a b : α} (h : (t.push a).get? i = some b) :
    (i = t.next ∧ b = a) ∨ t.get? i = some b := by
  rw [get?_push] at h
  split at h
  · exact .inl ⟨by assumption, (Option.some.inj h).symm⟩
  · exact .inr h

theorem get?_of_set {t : Table α} {k i : Nat} {a b : α} (h : (t.set k a).get? i = some b) :
    (i = k ∧ b = a) ∨ t.get? i = some b := by
  rw [get?_set] at h
  split at h
  · rename_i hk
    exact .inl ⟨hk.1.symm, (Option.some.inj h).symm⟩
  · exact .inr h

theorem any_iff {t : Table α} {p : α → Bool} :
    t.any p = true ↔ ∃ k a, t.get? k = some a ∧ p a = true := by
  unfold any get?
  rw [Array.any_eq_true]
  constructor
  · rintro ⟨k, hk, h⟩
    cases hc : t.cells[k] with
    | none => simp [hc] at h
    | some a => exact ⟨k, a, by simp [hk, hc], by simpa [hc] using h⟩
  · rintro ⟨k, a, hk, h⟩
    obtain ⟨hlt, he⟩ := Array.getElem?_eq_some_iff.1 (Option.join_eq_some_iff.1 hk)
    exact ⟨k, hlt, by simpa [he] using h⟩

theorem mem_keysWhere {t : Table α} {p : α → Bool} {k : Nat} (h : k ∈ t.keysWhere p) :
    ∃ a, t.get? k = some a ∧ p a = true := by
  simp only [keysWhere, entries, List.mem_map, List.mem_filter, List.mem_filterMap,
    Option.map_eq_some_iff] at h
  obtain ⟨_, ⟨⟨⟨cell, i⟩, hm, a, ha, rfl⟩, hp⟩, rfl⟩ := h
  refine ⟨a, ?_, hp⟩
  have := List.mem_zipIdx_iff_getElem?.1 hm
  simp only [Array.getElem?_toList] at this
  simpa [get?, this] using ha

theorem mem_keysWhere_iff {t : Table α} {p : α → Bool} {k : Nat} :
    k ∈ t.keysWhere p ↔ ∃ a, t.get? k = some a ∧ p a = true := by
  refine ⟨mem_keysWhere, ?_⟩
  rintro ⟨a, here, ha⟩
  have cell : t.cells.toList[k]? = some (some a) := by
    rw [Array.getElem?_toList]
    exact Option.join_eq_some_iff.1 here
  have entry : (k, a) ∈ t.entries :=
    List.mem_filterMap.2 ⟨(some a, k), List.mem_zipIdx_iff_getElem?.2 cell, rfl⟩
  exact List.mem_map.2 ⟨(k, a), List.mem_filter.2 ⟨entry, ha⟩, rfl⟩

theorem keysWhere_sorted (t : Table α) (p : α → Bool) : (t.keysWhere p).Pairwise (· < ·) := by
  have numbered : t.cells.toList.zipIdx.Pairwise fun a b => a.2 < b.2 := by
    rw [← List.pairwise_map, List.zipIdx_map_snd]
    exact List.pairwise_lt_range'
  unfold keysWhere entries
  apply List.pairwise_map.2
  apply List.Pairwise.filter
  apply List.pairwise_filterMap.2
  apply numbered.imp
  intro a b before x hx y hy
  rcases Option.map_eq_some_iff.1 hx with ⟨_, -, rfl⟩
  rcases Option.map_eq_some_iff.1 hy with ⟨_, -, rfl⟩
  exact before

/-- What the numbers mean decides which of them satisfy a predicate, and in which order. -/
theorem keysWhere_congr {t u : Table α} (p : α → Bool) (h : ∀ k, u.get? k = t.get? k) :
    u.keysWhere p = t.keysWhere p := by
  apply (keysWhere_sorted u p).eq_of_mem_iff (keysWhere_sorted t p)
  intro k
  rw [mem_keysWhere_iff, mem_keysWhere_iff, h]

theorem any_congr {t u : Table α} {p : α → Bool}
    (h : ∀ k, (u.get? k).map p = (t.get? k).map p) : u.any p = t.any p := by
  rw [Bool.eq_iff_iff, any_iff, any_iff]
  constructor
  · rintro ⟨k, a, hk, hp⟩
    have := h k
    rw [hk] at this
    obtain ⟨b, hb, he⟩ := Option.map_eq_some_iff.1 this.symm
    exact ⟨k, b, hb, he.trans hp⟩
  · rintro ⟨k, a, hk, hp⟩
    have := h k
    rw [hk] at this
    obtain ⟨b, hb, he⟩ := Option.map_eq_some_iff.1 this
    exact ⟨k, b, hb, he.trans hp⟩

/-- What is found under a number, if there is something. -/
def listAt {α β : Type} (t : Table α) (f : α → List β) (k : Nat) : List β :=
  ((t.get? k).map f).getD []

section

variable {β : Type} {t : Table α} {f : α → List β} {k : Nat} {a : α}

theorem listAt_of (h : t.get? k = some a) : t.listAt f k = f a := by simp [listAt, h]

theorem listAt_set (h : t.get? k = some a) (b : α) (i : Nat) :
    (t.set k b).listAt f i = if k = i then f b else t.listAt f i := by
  unfold listAt
  rw [get?_set_of h]
  split <;> rfl

theorem listAt_set_same (h : t.get? k = some a) (same : f b = f a) (i : Nat) :
    (t.set k b).listAt f i = t.listAt f i := by
  rw [listAt_set h]
  split
  · rename_i hk
    rw [← hk, listAt_of h, same]
  · rfl

theorem listAt_modify {g : α → α} (same : ∀ a, f (g a) = f a) (i : Nat) :
    (t.modify k g).listAt f i = t.listAt f i := by
  unfold listAt
  rw [get?_modify]
  split
  · cases t.get? i <;> simp [same]
  · rfl

theorem listAt_push (none : f a = []) (i : Nat) : (t.push a).listAt f i = t.listAt f i := by
  unfold listAt
  rw [get?_push]
  split
  · rename_i hi
    simp [hi, none]
  · rfl

theorem listAt_erase_sublist (t : Table α) (f : α → List β) (k i : Nat) :
    ((t.erase k).listAt f i).Sublist (t.listAt f i) := by
  unfold listAt
  rw [get?_erase]
  split
  · exact List.nil_sublist _
  · exact List.Sublist.refl _

end

/-- The sum of what the things of a table weigh. -/
def sum (t : Table α) (f : Nat → α → Nat) : Nat :=
  ∑ k ∈ Finset.range t.next, (t.get? k).elim 0 (f k)

@[simp] theorem sum_empty (f : Nat → α → Nat) : ({} : Table α).sum f = 0 := rfl

theorem sum_push (t : Table α) (a : α) (f : Nat → α → Nat) :
    (t.push a).sum f = t.sum f + f t.next a := by
  unfold sum
  rw [next_push, Finset.sum_range_succ]
  congr 1
  · refine Finset.sum_congr rfl fun k hk => ?_
    have : k ≠ t.next := (Finset.mem_range.1 hk).ne
    simp [get?_push, this]
  · simp [get?_push]

/-- Tables that differ at one number only. -/
theorem sum_agree {t u : Table α} {k : Nat} (f : Nat → α → Nat) (hn : u.next = t.next)
    (h : ∀ i, i ≠ k → u.get? i = t.get? i) :
    u.sum f + (t.get? k).elim 0 (f k) = t.sum f + (u.get? k).elim 0 (f k) := by
  unfold sum
  rw [hn]
  by_cases hk : k < t.next
  · have hm : k ∈ Finset.range t.next := Finset.mem_range.2 hk
    rw [← Finset.add_sum_erase _ _ hm, ← Finset.add_sum_erase (Finset.range t.next)
      (fun i => (t.get? i).elim 0 (f i)) hm]
    have : ∀ i ∈ (Finset.range t.next).erase k,
        (u.get? i).elim 0 (f i) = (t.get? i).elim 0 (f i) := by
      intro i hi
      rw [h i (Finset.ne_of_mem_erase hi)]
    rw [Finset.sum_congr rfl this]
    omega
  · rw [get?_of_next_le (t := t) (by omega), get?_of_next_le (t := u) (by omega)]
    refine congrArg (· + 0) (Finset.sum_congr rfl fun i hi => ?_)
    rw [h i (by have := Finset.mem_range.1 hi; omega)]

theorem sum_set {t : Table α} {k : Nat} {a b : α} (f : Nat → α → Nat) (h : t.get? k = some a) :
    (t.set k b).sum f + f k a = t.sum f + f k b := by
  have hk := lt_next_of_get? h
  have := sum_agree (t := t) (u := t.set k b) (k := k) f (by simp)
    (fun i hi => by simp [get?_set, Ne.symm hi])
  simpa [h, get?_set, hk] using this

/-- Filling a gap. -/
theorem sum_set_none {t : Table α} {k : Nat} {b : α} (f : Nat → α → Nat) (h : t.get? k = none)
    (hk : k < t.next) : (t.set k b).sum f = t.sum f + f k b := by
  have := sum_agree (t := t) (u := t.set k b) (k := k) f (by simp)
    (fun i hi => by simp [get?_set, Ne.symm hi])
  simpa [h, get?_set, hk] using this

theorem sum_erase {t : Table α} {k : Nat} {a : α} (f : Nat → α → Nat) (h : t.get? k = some a) :
    (t.erase k).sum f + f k a = t.sum f := by
  have := sum_agree (t := t) (u := t.erase k) (k := k) f (by simp)
    (fun i hi => by simp [get?_erase, Ne.symm hi])
  simpa [h, get?_erase] using this

theorem sum_congr {t u : Table α} {f g : Nat → α → Nat} (hn : u.next = t.next)
    (h : ∀ k, (u.get? k).elim 0 (g k) = (t.get? k).elim 0 (f k)) : u.sum g = t.sum f := by
  unfold sum
  rw [hn]
  exact Finset.sum_congr rfl fun k _ => h k

/-- A change that keeps the weight of everything. -/
theorem sum_modify {t : Table α} {k : Nat} {g : α → α} {f : Nat → α → Nat}
    (h : ∀ a, t.get? k = some a → f k (g a) = f k a) : (t.modify k g).sum f = t.sum f := by
  refine sum_congr (by simp) fun i => ?_
  by_cases hi : k = i
  · subst hi
    cases ha : t.get? k with
    | none => simp [get?_modify, ha]
    | some a => simp [get?_modify, ha, h a ha]
  · simp [get?_modify, hi]

theorem sum_mono (t : Table α) {f g : Nat → α → Nat} (le : ∀ k a, f k a ≤ g k a) :
    t.sum f ≤ t.sum g := by
  refine Finset.sum_le_sum fun k _ => ?_
  cases t.get? k with
  | none => exact le_rfl
  | some a => exact le k a

theorem sum_set_same {t : Table α} {k : Nat} {a b : α} {f : Nat → α → Nat}
    (h : t.get? k = some a) (hw : f k b = f k a) : (t.set k b).sum f = t.sum f := by
  have := sum_set (b := b) f h
  omega

theorem le_sum {t : Table α} {k : Nat} {a : α} (f : Nat → α → Nat) (h : t.get? k = some a) :
    f k a ≤ t.sum f := by
  have := sum_erase f h
  omega

theorem sum_eq_zero_iff {t : Table α} {f : Nat → α → Nat} :
    t.sum f = 0 ↔ ∀ k a, t.get? k = some a → f k a = 0 := by
  constructor
  · intro h k a ha
    have := le_sum f ha
    omega
  · intro h
    refine Finset.sum_eq_zero fun k _ => ?_
    cases ha : t.get? k with
    | none => rfl
    | some a => exact h k a ha

theorem erase_of_none {t : Table α} {k : Nat} (h : t.get? k = none) : t.erase k = t := by
  unfold erase
  congr 1
  refine Array.ext_getElem? fun i => ?_
  rw [Array.getElem?_setIfInBounds]
  split
  · subst i
    unfold get? at h
    split
    · cases hc : t.cells[k]? with
      | none => simp_all
      | some cell =>
        rw [hc] at h
        cases (h : cell = none)
        rfl
    · rename_i hk
      exact (Array.getElem?_eq_none (Nat.le_of_not_lt hk)).symm
  · rfl

/-- What is set before it is erased does not matter. -/
theorem erase_set (t : Table α) (k : Nat) (a : α) : (t.set k a).erase k = t.erase k := by
  unfold set erase
  congr 1
  apply Array.ext
  · simp
  · intro i h₁ h₂
    by_cases h : k = i <;> simp [h]

/-! ## Tables that grow -/

/-- Every number that was given means what it meant, whatever the later ones mean. -/
structure Keeps (t u : Table α) : Prop where
  next : t.next ≤ u.next
  same : ∀ k < t.next, u.get? k = t.get? k

namespace Keeps

variable {t u v : Table α} {k : Nat}

theorem refl (t : Table α) : Keeps t t := ⟨le_rfl, fun _ _ => rfl⟩

theorem trans (h : Keeps t u) (g : Keeps u v) : Keeps t v :=
  ⟨h.next.trans g.next, fun k hk => (g.same k (hk.trans_le h.next)).trans (h.same k hk)⟩

theorem get? (h : Keeps t u) {a : α} (here : t.get? k = some a) : u.get? k = some a :=
  (h.same k (lt_next_of_get? here)).trans here

/-- When none of the later numbers means anything any more every number means what it meant. -/
theorem get?_eq (h : Keeps t u) (gone : ∀ k, t.next ≤ k → u.contains k = false) (k : Nat) :
    u.get? k = t.get? k := by
  rcases Nat.lt_or_ge k t.next with old | new
  · exact h.same k old
  · rw [get?_of_next_le new]
    exact Option.not_isSome_iff_eq_none.1 (Bool.eq_false_iff.1 (gone k new))

/-- A change beyond the numbers that were given. -/
theorem beyond (h : Keeps t u) (next : u.next ≤ v.next)
    (same : ∀ k < t.next, v.get? k = u.get? k) : Keeps t v :=
  ⟨h.next.trans next, fun k hk => (same k hk).trans (h.same k hk)⟩

theorem push (h : Keeps t u) (a : α) : Keeps t (u.push a) := by
  apply h.beyond
  · rw [next_push]
    exact Nat.le_succ _
  · intro k hk
    rw [get?_push, if_neg (hk.trans_le h.next).ne]

theorem erase (h : Keeps t u) (hk : t.next ≤ k) : Keeps t (u.erase k) := by
  apply h.beyond
  · rw [next_erase]
  · intro i hi
    rw [get?_erase, if_neg (hi.trans_le hk).ne']

theorem modify (h : Keeps t u) (hk : t.next ≤ k) (f : α → α) : Keeps t (u.modify k f) := by
  apply h.beyond
  · rw [next_modify]
  · intro i hi
    rw [get?_modify, if_neg (hi.trans_le hk).ne']

end Keeps

end Wiring.Table
