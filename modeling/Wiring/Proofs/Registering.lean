import Mathlib
import Wiring.Proofs.Jobs

/-!
# What a registry is asked

A registry is asked to register runners, to unregister them, and to let go of those that are gone.
Of a runner that is not gone it keeps, in one entry, the registrations that were not taken back,
and the entries stand in the order in which they were first registered.
-/
namespace Wiring

/-! ## Asking -/

namespace Registry

/-- What a registry is asked to do. -/
inductive Query
  | register (x : Runner) (alive : Bool)
  | unregister (x : Runner)
  /-- All but these runners are gone. -/
  | prune (live : List Runner)
  deriving DecidableEq

/-- What becomes of the registry, and what it answers. -/
def ask (r : Registry) : Query → Registry × Option Nat
  | .register x alive => ((r.add x alive).1, some (r.add x alive).2)
  | .unregister x => r.remove x
  | .prune live => (r.filter fun entry => decide (entry.1 ∈ live), none)

/-- What a registry was asked, each time with its answer. -/
abbrev Log := List (Query × Option Nat)

def asks (r : Registry) : List Query → Registry × Log
  | [] => (r, [])
  | q :: qs => (((r.ask q).1.asks qs).1, (q, (r.ask q).2) :: ((r.ask q).1.asks qs).2)

theorem asks_append (r : Registry) (qs qs' : List Query) :
    (r.asks (qs ++ qs')).1 = ((r.asks qs).1.asks qs').1 := by
  induction qs generalizing r with
  | nil => rfl
  | cons q qs ih => exact ih (r.ask q).1

/-- The runners of a registry. -/
def runners (r : Registry) : List Runner := r.map Prod.fst

/-- Each runner has one entry, which counts one registration at least. -/
structure Proper (r : Registry) : Prop where
  single : r.runners.Nodup
  positive : ∀ entry ∈ r, 0 < entry.2

variable {r : Registry} {x y : Runner}

theorem lookup_eq_none_iff : r.lookup x = none ↔ x ∉ r.runners := by
  simp only [List.lookup_eq_none_iff, runners, List.mem_map, not_exists, not_and]
  constructor
  · intro h entry mem same
    exact absurd same.symm (by simpa using h entry mem)
  · intro h entry mem
    simpa using fun same => h entry mem same.symm

theorem runners_replace (r : Registry) (x : Runner) (n : Nat) :
    (r.replace x n).runners = r.runners := by
  simp only [runners, replace, List.map_map]
  refine List.map_congr_left fun entry _ => ?_
  by_cases same : entry.1 = x
  · simp [same]
  · simp [same]

theorem runners_filter (r : Registry) (p : Runner → Bool) :
    runners (r.filter fun entry => p entry.1) = r.runners.filter p := List.filter_map.symm

/-- A runner that has no entry gets one, after all others. -/
theorem runners_add (r : Registry) (x : Runner) (alive : Bool) :
    (r.add x alive).1.runners = if x ∈ r.runners then r.runners else r.runners ++ [x] := by
  unfold add
  cases found : r.lookup x with
  | none =>
    rw [if_neg (lookup_eq_none_iff.1 found)]
    simp [runners]
  | some n =>
    have there : x ∈ r.runners := by
      by_contra absent
      cases found.symm.trans (lookup_eq_none_iff.2 absent)
    rw [if_pos there]
    exact runners_replace r x _

/-- Nobody but the one who is unregistered loses his entry, and he loses it with the last one of his
registrations. -/
theorem runners_remove (r : Registry) (x : Runner) : (r.remove x).1.runners =
    if r.count x ≤ 1 then r.runners.filter fun y => y != x else r.runners := by
  unfold remove count
  cases found : r.lookup x with
  | none =>
    have absent := lookup_eq_none_iff.1 found
    rw [if_pos (by simp)]
    refine (List.filter_eq_self.2 fun y there => ?_).symm
    simpa using fun same : y = x => absent (same ▸ there)
  | some n =>
    by_cases last : n ≤ 1
    · simp only [last, if_true, Option.getD_some]
      exact runners_filter r fun y => y != x
    · simp only [last, if_false, Option.getD_some]
      exact runners_replace r x _

theorem mem_replace {n : Nat} {entry : Runner × Nat} (h : entry ∈ r.replace x n) :
    entry ∈ r ∨ entry.2 = n := by
  rcases List.mem_map.1 h with ⟨old, there, rfl⟩
  split
  · exact .inr rfl
  · exact .inl there

namespace Proper

theorem filter (h : Proper r) (p : Runner → Bool) : Proper (r.filter fun entry => p entry.1) where
  single := by
    rw [runners_filter]
    exact h.single.filter p
  positive entry there := h.positive entry (List.mem_of_mem_filter there)

theorem replace (h : Proper r) (x : Runner) {n : Nat} (positive : 0 < n) :
    Proper (r.replace x n) where
  single := by
    rw [runners_replace]
    exact h.single
  positive entry there := by
    rcases mem_replace there with old | new
    · exact h.positive entry old
    · rw [new]
      exact positive

theorem add (h : Proper r) (x : Runner) (alive : Bool) : Proper (r.add x alive).1 := by
  unfold Registry.add
  cases found : r.lookup x with
  | none =>
    refine ⟨?_, fun entry there => ?_⟩
    · have absent := lookup_eq_none_iff.1 found
      simp only [runners, List.map_append, List.map_cons, List.map_nil]
      exact List.nodup_append.2 ⟨h.single, List.nodup_singleton x, fun a ha b hb same =>
        absent (List.mem_singleton.1 hb ▸ same ▸ ha)⟩
    · rcases List.mem_append.1 there with old | new
      · exact h.positive entry old
      · rw [List.mem_singleton.1 new]
        exact Nat.one_pos
  | some n =>
    refine h.replace x ?_
    split <;> omega

theorem remove (h : Proper r) (x : Runner) : Proper (r.remove x).1 := by
  unfold Registry.remove
  cases r.lookup x with
  | none => exact h
  | some n =>
    by_cases last : n ≤ 1
    · simp only [last, if_true]
      exact h.filter fun y => y != x
    · simp only [last, if_false]
      exact h.replace x (by omega)

theorem ask (h : Proper r) (q : Query) : Proper (r.ask q).1 := by
  cases q with
  | register x alive => exact h.add x alive
  | unregister x => exact h.remove x
  | prune live => exact h.filter fun y => decide (y ∈ live)

/-- Whatever a registry is asked, each runner has one entry with a count of its own. -/
theorem asks (h : Proper r) (qs : List Query) : Proper (r.asks qs).1 := by
  induction qs generalizing r with
  | nil => exact h
  | cons q qs ih => exact ih (h.ask q)

theorem count_of_mem (h : Proper r) {entry : Runner × Nat} (there : entry ∈ r) :
    r.count entry.1 = entry.2 := by
  have single : (List.map Prod.fst r).Nodup := h.single
  rw [count, Network.lookup_of_mem single there, Option.getD_some]

/-- Who has an entry is counted. -/
theorem count_pos_iff (h : Proper r) : 0 < r.count x ↔ x ∈ r.runners := by
  constructor
  · intro counted
    by_contra absent
    rw [count, lookup_eq_none_iff.2 absent] at counted
    exact absurd counted (Nat.lt_irrefl 0)
  · intro there
    rcases List.mem_map.1 there with ⟨entry, mem, rfl⟩
    rw [h.count_of_mem mem]
    exact h.positive entry mem

/-- A registration can be taken back exactly if there is one, so the count never falls below zero. -/
theorem remove_eq (h : Proper r) (x : Runner) :
    (r.remove x).2 = if r.count x = 0 then none else some (r.count x - 1) := by
  have counted := h.count_pos_iff (x := x)
  unfold Registry.remove
  cases found : r.lookup x with
  | none =>
    have none : r.count x = 0 := by rw [count, found]; rfl
    simp [none]
  | some n =>
    have same : r.count x = n := by rw [count, found]; rfl
    have some : 0 < n := by
      rw [← same, counted]
      by_contra absent
      cases found.symm.trans (lookup_eq_none_iff.2 absent)
    rw [same, if_neg some.ne']
    by_cases last : n ≤ 1
    · simp only [last, if_true]
      exact congrArg Option.some (by omega)
    · simp only [last, if_false]

end Proper

theorem count_add (r : Registry) (x y : Runner) :
    (r.add x true).1.count y = r.count y + if x = y then 1 else 0 := by
  by_cases same : x = y
  · rw [if_pos same, ← same, count_add_self]
  · rw [if_neg same, count_add_ne r true same, Nat.add_zero]

theorem count_remove (r : Registry) (x y : Runner) :
    (r.remove x).1.count y = r.count y - if x = y then 1 else 0 := by
  by_cases same : x = y
  · rw [if_pos same, ← same, count_remove_self]
  · rw [if_neg same, count_remove_ne r same, Nat.sub_zero]

theorem add_answer (r : Registry) (x : Runner) : (r.add x true).2 = r.count x + 1 := by
  unfold add count
  cases r.lookup x <;> rfl

/-! ## The log of a registry -/

def Query.registers (x : Runner) : Query → Bool
  | .register y _ => decide (y = x)
  | _ => false

namespace Log

variable {log : Log} {note : Query × Option Nat} {i : Nat}

/-- How often a runner was registered. -/
def registrations (log : Log) (x : Runner) : Nat := log.countP fun note => note.1.registers x

/-- How often a registration of it was taken back. -/
def withdrawals (log : Log) (x : Runner) : Nat :=
  log.countP fun note => decide (note.1 = .unregister x) && note.2.isSome

/-- The registrations of it that stand. -/
def standing (log : Log) (x : Runner) : Nat := registrations log x - withdrawals log x

/-- The first one of the registrations that stand is the one with this number: none stood before it,
and ever since there was one. -/
structure Entered (log : Log) (x : Runner) (i : Nat) : Prop where
  registered : ∃ note, log[i]? = some note ∧ note.1.registers x = true
  first : standing (log.take i) x = 0
  since : ∀ j, i < j → j ≤ log.length → 0 < standing (log.take j) x

/-- What stands of the one runner was first registered before what stands of the other. -/
def Before (log : Log) (x y : Runner) : Prop :=
  ∃ i j, Entered log x i ∧ Entered log y j ∧ i < j

theorem registrations_snoc (log : Log) (note : Query × Option Nat) (x : Runner) :
    registrations (log ++ [note]) x =
      registrations log x + if note.1.registers x = true then 1 else 0 := by
  simp only [registrations, List.countP_append, List.countP_singleton]

theorem withdrawals_snoc (log : Log) (note : Query × Option Nat) (x : Runner) :
    withdrawals (log ++ [note]) x =
      withdrawals log x + if note.1 = .unregister x ∧ note.2.isSome = true then 1 else 0 := by
  simp only [withdrawals, List.countP_append, List.countP_singleton, Bool.and_eq_true,
    decide_eq_true_eq]

theorem Entered.lt (h : Entered log x i) : i < log.length := by
  rcases h.registered with ⟨note, there, -⟩
  exact (List.getElem?_eq_some_iff.1 there).1

/-- There is only one such registration. -/
theorem Entered.unique {j : Nat} (h : Entered log x i) (g : Entered log x j) : i = j := by
  rcases Nat.lt_trichotomy i j with before | same | after
  · exact absurd g.first (h.since j before g.lt.le).ne'
  · exact same
  · exact absurd h.first (g.since i after h.lt.le).ne'

/-- It is the same as long as one registration stands. -/
theorem Entered.snoc (h : Entered log x i) (stands : 0 < standing (log ++ [note]) x) :
    Entered (log ++ [note]) x i where
  registered := by
    rw [List.getElem?_append_left h.lt]
    exact h.registered
  first := by
    rw [List.take_append_of_le_length h.lt.le]
    exact h.first
  since j later within := by
    rcases Nat.lt_or_ge log.length j with past | old
    · rw [List.take_of_length_le (by simpa using past)]
      exact stands
    · rw [List.take_append_of_le_length old]
      exact h.since j later old

/-- A registration where none stood is the first one. -/
theorem Entered.last (registers : note.1.registers x = true) (none : standing log x = 0)
    (stands : 0 < standing (log ++ [note]) x) : Entered (log ++ [note]) x log.length where
  registered := ⟨note, by simp, registers⟩
  first := by
    rw [List.take_left]
    exact none
  since j later within := by
    rw [List.take_of_length_le (by simpa using later)]
    exact stands

end Log

/-! ## The law of a registry -/

/-- Whoever has an entry had it before, or is registered now and stands at the end. -/
theorem ask_runners (r : Registry) (q : Query) : (r.ask q).1.runners.Sublist r.runners ∨
    ∃ x, x ∉ r.runners ∧ q.registers x = true ∧ (r.ask q).1.runners = r.runners ++ [x] := by
  cases q with
  | register x alive =>
    have added := runners_add r x alive
    by_cases there : x ∈ r.runners
    · rw [if_pos there] at added
      exact .inl (added ▸ List.Sublist.refl _)
    · rw [if_neg there] at added
      exact .inr ⟨x, there, by simp [Query.registers], added⟩
  | unregister x =>
    have left := runners_remove r x
    refine .inl ?_
    rw [ask, left]
    split
    · exact List.filter_sublist
    · exact List.Sublist.refl _
  | prune live =>
    refine .inl ?_
    rw [ask, runners_filter r fun y => decide (y ∈ live)]
    exact List.filter_sublist

/-- What is true to answer if some runners are not gone. -/
def Query.Answered (A : Runner → Prop) (before : Log) (a : Option Nat) : Query → Prop
  | .register x _ => A x → a = some (before.standing x + 1)
  | .unregister x =>
    A x → a = if before.standing x = 0 then none else some (before.standing x - 1)
  | .prune _ => True

/-- Nobody is taken to be gone who is not. -/
def Query.Fair (A : Runner → Prop) (r : Registry) : Query → Prop
  | .register x alive => A x → alive = true
  | .unregister _ => True
  | .prune live => ∀ x ∈ r.runners, A x → x ∈ live

/-- A registry keeps what its log tells of the runners that are not gone. -/
structure Law (A : Runner → Prop) (log : Log) (r : Registry) : Prop extends Proper r where
  counts : ∀ x, A x → r.count x + log.withdrawals x = log.registrations x
  entered : ∀ x ∈ r.runners, A x → ∃ i, log.Entered x i
  order : r.runners.Pairwise fun x y => A x → A y → log.Before x y
  answers : ∀ before after q a, log = before ++ (q, a) :: after → q.Answered A before a

namespace Law

variable {A B : Runner → Prop} {log : Log} {q : Query}

theorem empty (A : Runner → Prop) : Law A [] [] where
  single := List.nodup_nil
  positive _ there := by cases there
  counts _ _ := rfl
  entered _ there := by cases there
  order := .nil
  answers before after q a same := by simp at same

/-- More may be gone. -/
theorem mono (h : Law A log r) (fewer : ∀ x, B x → A x) : Law B log r where
  toProper := h.toProper
  counts x hx := h.counts x (fewer x hx)
  entered x there hx := h.entered x there (fewer x hx)
  order := h.order.imp fun before hx hy => before (fewer _ hx) (fewer _ hy)
  answers before after q a same := by
    have told := h.answers before after q a same
    cases q with
    | register x alive => exact fun hx => told (fewer x hx)
    | unregister x => exact fun hx => told (fewer x hx)
    | prune live => trivial

theorem standing (h : Law A log r) (hx : A x) : log.standing x = r.count x := by
  have counts := h.counts x hx
  unfold Log.standing
  omega

/-- It answers the truth. -/
theorem ask_answered (h : Law A log r) (fair : q.Fair A r) : q.Answered A log (r.ask q).2 := by
  cases q with
  | register x alive =>
    intro hx
    rw [h.standing hx, ask, fair hx, add_answer]
  | unregister x =>
    intro hx
    rw [h.standing hx, ask, h.remove_eq]
  | prune live => trivial

/-- And it goes on to count what stands. -/
theorem ask_counts (h : Law A log r) (fair : q.Fair A r) (hx : A x) :
    (r.ask q).1.count x + Log.withdrawals (log ++ [(q, (r.ask q).2)]) x =
      Log.registrations (log ++ [(q, (r.ask q).2)]) x := by
  have counts := h.counts x hx
  rw [Log.registrations_snoc, Log.withdrawals_snoc]
  cases q with
  | register y alive =>
    have added : (r.add y alive).1.count x = r.count x + if y = x then 1 else 0 := by
      by_cases same : y = x
      · subst same
        rw [fair hx, count_add]
      · rw [if_neg same, count_add_ne r alive same, Nat.add_zero]
    simp only [ask, added, Query.registers, decide_eq_true_eq, reduceCtorEq, false_and, if_false]
    omega
  | unregister y =>
    have taken := h.remove_eq y
    simp only [ask, count_remove, taken, Query.registers, Query.unregister.injEq,
      Bool.false_eq_true, if_false]
    by_cases same : y = x
    · subst same
      by_cases none : r.count y = 0
      · simp [none] at counts ⊢
        exact counts
      · simp [none]
        omega
    · simp [same]
      exact counts
  | prune live =>
    have kept : (r.ask (.prune live)).1.count x = r.count x := by
      simp only [ask, count, lookup_filter r (fun y => decide (y ∈ live)) x, decide_eq_true_eq]
      split
      · rfl
      · rename_i gone
        have absent : x ∉ r.runners := fun there => gone (fair x there hx)
        rw [lookup_eq_none_iff.2 absent]
    simp only [kept, Query.registers, reduceCtorEq, false_and, Bool.false_eq_true, if_false]
    exact counts

theorem ask (h : Law A log r) (fair : q.Fair A r) :
    Law A (log ++ [(q, (r.ask q).2)]) (r.ask q).1 := by
  have proper := h.toProper.ask q
  -- the registrations of whoever has an entry go on to stand
  have stands {x : Runner} (there : x ∈ (r.ask q).1.runners) (hx : A x) :
      0 < Log.standing (log ++ [(q, (r.ask q).2)]) x := by
    have counts := h.ask_counts fair hx
    have counted := proper.count_pos_iff.2 there
    unfold Log.standing
    omega
  have goesOn {x : Runner} {i : Nat} (there : x ∈ (r.ask q).1.runners) (hx : A x)
      (entered : log.Entered x i) : Log.Entered (log ++ [(q, (r.ask q).2)]) x i :=
    entered.snoc (stands there hx)
  have answers (before after : Log) (q' : Query) (a : Option Nat)
      (same : log ++ [(q, (r.ask q).2)] = before ++ (q', a) :: after) : q'.Answered A before a := by
    rcases List.eq_nil_or_concat after with rfl | ⟨after, last, rfl⟩
    · rcases List.append_inj' same rfl with ⟨rfl, last⟩
      cases last
      exact h.ask_answered fair
    · rw [List.concat_eq_append, ← List.cons_append, ← List.append_assoc] at same
      exact h.answers before after q' a (List.append_inj' same rfl).1
  rcases ask_runners r q with old | ⟨z, absent, registers, runners⟩
  · have order := (h.order.sublist old).imp_of_mem
      (S := fun x y => A x → A y → Log.Before (log ++ [(q, (r.ask q).2)]) x y)
      fun {x y} hx hy before ax ay => by
        rcases before ax ay with ⟨i, j, first, second, lt⟩
        exact ⟨i, j, goesOn hx ax first, goesOn hy ay second, lt⟩
    refine ⟨proper, fun x hx => h.ask_counts fair hx, fun x there hx => ?_, order, answers⟩
    rcases h.entered x (old.subset there) hx with ⟨i, entered⟩
    exact ⟨i, goesOn there hx entered⟩
  · have mem {x : Runner} : x ∈ (r.ask q).1.runners ↔ x ∈ r.runners ∨ x = z := by
      rw [runners, List.mem_append, List.mem_singleton]
    have fresh (hz : A z) : Log.Entered (log ++ [(q, (r.ask q).2)]) z log.length := by
      refine .last registers ?_ (stands (mem.2 (.inr rfl)) hz)
      rw [h.standing hz]
      exact Nat.eq_zero_of_not_pos fun counted => absent (h.count_pos_iff.1 counted)
    refine ⟨proper, fun x hx => h.ask_counts fair hx, fun x there hx => ?_, ?_, answers⟩
    · rcases mem.1 there with old | rfl
      · rcases h.entered x old hx with ⟨i, entered⟩
        exact ⟨i, goesOn there hx entered⟩
      · exact ⟨_, fresh hx⟩
    · rw [runners, List.pairwise_append]
      refine ⟨h.order.imp_of_mem fun {x y} hx hy before ax ay => ?_, List.pairwise_singleton _ _,
        fun x hx y hy ax ay => ?_⟩
      · rcases before ax ay with ⟨i, j, first, second, lt⟩
        exact ⟨i, j, goesOn (mem.2 (.inl hx)) ax first, goesOn (mem.2 (.inl hy)) ay second, lt⟩
      · cases List.mem_singleton.1 hy
        rcases h.entered x hx ax with ⟨i, entered⟩
        exact ⟨i, _, goesOn (mem.2 (.inl hx)) ax entered, fresh ay, entered.lt⟩

theorem asks (h : Law A log r) {qs : List Query} (fair : ∀ q ∈ qs, ∀ r, q.Fair A r) :
    Law A (log ++ (r.asks qs).2) (r.asks qs).1 := by
  induction qs generalizing log r with
  | nil => exact (List.append_nil log).symm ▸ h
  | cons q qs ih =>
    have first := h.ask (fair q List.mem_cons_self r)
    have rest := ih first fun q' later => fair q' (List.mem_cons_of_mem _ later)
    rw [List.append_assoc] at rest
    exact rest

end Law

/-- Nobody has an entry who had none before and was not registered. -/
theorem mem_asks {qs : List Query} (there : x ∈ (r.asks qs).1.runners) :
    x ∈ r.runners ∨ ∃ q ∈ qs, q.registers x = true := by
  induction qs generalizing r with
  | nil => exact .inl there
  | cons q qs ih =>
    rcases ih there with old | ⟨q', later, registers⟩
    · rcases ask_runners r q with kept | ⟨y, -, registers, runners⟩
      · exact .inl (kept.subset old)
      · rw [runners, List.mem_append, List.mem_singleton] at old
        rcases old with old | rfl
        · exact .inl old
        · exact .inr ⟨q, List.mem_cons_self, registers⟩
    · exact .inr ⟨q', List.mem_cons_of_mem _ later, registers⟩

end Registry

end Wiring
