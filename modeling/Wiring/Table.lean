/-!
# Tables

A table keeps things under numbers that are never given twice. Adding takes the next number;
erasing leaves a gap, so that a number once given means that one thing or nothing.
-/
namespace Wiring

structure Table (α : Type) where
  cells : Array (Option α) := #[]

namespace Table

variable {α : Type}

/-- The number that the next thing added will have. -/
def next (t : Table α) : Nat := t.cells.size

def get? (t : Table α) (key : Nat) : Option α := (t.cells[key]?).join

def contains (t : Table α) (key : Nat) : Bool := (t.get? key).isSome

def push (t : Table α) (a : α) : Table α := ⟨t.cells.push (some a)⟩

/-- Replaces what `key` means; a number not yet given is left alone. -/
def set (t : Table α) (key : Nat) (a : α) : Table α := ⟨t.cells.setIfInBounds key (some a)⟩

def erase (t : Table α) (key : Nat) : Table α := ⟨t.cells.setIfInBounds key none⟩

/-- Changes what `key` means, if it means anything. -/
def modify (t : Table α) (key : Nat) (f : α → α) : Table α :=
  ⟨t.cells.modify key (Option.map f)⟩

/-- What is in the table with its numbers, in order of adding. -/
def entries (t : Table α) : List (Nat × α) :=
  t.cells.toList.zipIdx.filterMap fun (cell, key) => cell.map fun a => (key, a)

/-- What is in the table, in order of adding. -/
def values (t : Table α) : List α := t.cells.toList.filterMap id

def any (t : Table α) (p : α → Bool) : Bool :=
  t.cells.any fun
    | some a => p a
    | none => false

/-- The numbers of what satisfies `p`, in order of adding. -/
def keysWhere (t : Table α) (p : α → Bool) : List Nat :=
  (t.entries.filter fun entry => p entry.2).map Prod.fst

theorem next_push (t : Table α) (a : α) : (t.push a).next = t.next + 1 := by
  simp [next, push]

theorem get?_push (t : Table α) (a : α) (key : Nat) :
    (t.push a).get? key = if key = t.next then some a else t.get? key := by
  unfold get? push next
  rw [Array.getElem?_push]
  split <;> rfl

theorem get?_set (t : Table α) (k : Nat) (a : α) (key : Nat) :
    (t.set k a).get? key = if k = key ∧ k < t.next then some a else t.get? key := by
  unfold get? set next
  rw [Array.getElem?_setIfInBounds]
  by_cases h : k = key
  · subst h
    by_cases hb : k < t.cells.size <;> simp [hb]
  · simp [h]

theorem get?_erase (t : Table α) (k key : Nat) :
    (t.erase k).get? key = if k = key then none else t.get? key := by
  unfold get? erase
  rw [Array.getElem?_setIfInBounds]
  by_cases h : k = key
  · subst h
    by_cases hb : k < t.cells.size <;> simp [hb]
  · simp [h]

theorem get?_modify (t : Table α) (k : Nat) (f : α → α) (key : Nat) :
    (t.modify k f).get? key = if k = key then (t.get? key).map f else t.get? key := by
  unfold get? modify
  rw [Array.getElem?_modify]
  by_cases h : k = key
  · subst h
    cases t.cells[k]? <;> simp
  · simp [h]

end Table

end Wiring
