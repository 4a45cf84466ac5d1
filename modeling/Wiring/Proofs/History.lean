import Mathlib
import Wiring.Proofs.Sound

/-!
# The history of a stub

What has happened to a stub that lives tells its state: it is connected locally and remotely if
that has happened, it has its next link until it was switched over, and until then it has parked
every request that was ever parked on it, in that order.
-/
namespace Wiring

namespace Happening

/-- The stub that a happening is about. -/
def stub? : Happening → Option StubId
  | .connected x | .marked x | .parked x _ | .switched x _ => some x
  | _ => none

/-- A stub was switched over. -/
def switches (x : StubId) : Happening → Bool
  | .switched y _ => y == x
  | _ => false

/-- The request that was parked on a stub. -/
def parkedOn (x : StubId) : Happening → Option Request
  | .parked y r => if y = x then some r else none
  | _ => none

theorem stub?_of_plain {h : Happening} (plain : h.isPlain = true) : h.stub? = none := by
  cases h <;> first | rfl | cases plain

theorem parkedOn_of_mute {h : Happening} (mute : h.stub? = none) (x : StubId) :
    h.parkedOn x = none := by
  cases h <;> first | rfl | cases mute

theorem stub?_of_switches {h : Happening} {x : StubId} (hs : h.switches x = true) :
    h.stub? = some x := by
  cases h with
  | switched y l =>
    have : y = x := by simpa [switches] using hs
    rw [this]
    rfl
  | _ => cases hs

theorem switches_iff {h : Happening} {x : StubId} :
    h.switches x = true ↔ ∃ l, h = .switched x l := by
  cases h <;> simp [switches]

theorem stub?_of_parkedOn {h : Happening} {x : StubId} {r : Request}
    (hr : h.parkedOn x = some r) : h.stub? = some x := by
  cases h with
  | parked y r' =>
    simp only [parkedOn] at hr
    split at hr
    · subst y
      rfl
    · cases hr
  | _ => cases hr

end Happening

namespace Network

variable {s t : Network} {wild : Prop}

/-- The requests that were ever parked on a stub, in the order of parking. -/
def parkedLog (trace : Array Happening) (x : StubId) : List Request :=
  trace.toList.filterMap (Happening.parkedOn x)

theorem parkedLog_push (trace : Array Happening) (h : Happening) (x : StubId) :
    parkedLog (trace.push h) x = parkedLog trace x ++ (h.parkedOn x).toList := by
  unfold parkedLog
  rw [Array.toList_push, List.filterMap_append]
  cases hp : h.parkedOn x <;> simp [hp]

theorem parkedLog_eq_nil {trace : Array Happening} {x : StubId}
    (h : ∀ e ∈ trace, e.stub? ≠ some x) : parkedLog trace x = [] := by
  refine List.filterMap_eq_nil_iff.2 fun e he => ?_
  cases hp : e.parkedOn x with
  | none => rfl
  | some r => exact absurd (Happening.stub?_of_parkedOn hp) (h e (by simpa using he))

/-- How often a stub was switched over. -/
def switchings (trace : Array Happening) (x : StubId) : Nat :=
  trace.toList.countP (Happening.switches x)

theorem switchings_push (trace : Array Happening) (h : Happening) (x : StubId) :
    switchings (trace.push h) x = switchings trace x + if h.switches x then 1 else 0 := by
  unfold switchings
  rw [Array.toList_push, List.countP_append, List.countP_singleton]

theorem switchings_append (trace : Array Happening) (marks : List Happening) (x : StubId) :
    switchings (trace ++ marks.toArray) x = switchings trace x + marks.countP (·.switches x) := by
  simp [switchings]

theorem switchings_eq_zero {trace : Array Happening} {x : StubId} :
    switchings trace x = 0 ↔ ∀ l, .switched x l ∉ trace := by
  unfold switchings
  rw [List.countP_eq_zero]
  constructor
  · intro h l hl
    exact h _ (by simpa using hl) (Happening.switches_iff.2 ⟨l, rfl⟩)
  · intro h e he hx
    obtain ⟨l, rfl⟩ := Happening.switches_iff.1 hx
    exact h l (by simpa using he)

/-- The state of a stub as its history tells it. -/
structure Agrees (trace : Array Happening) (x : StubId) (st : Stub) : Prop where
  connected : st.localConnected = true ↔ .connected x ∈ trace
  marked : st.remoteConnected = true ↔ .marked x ∈ trace
  switched : st.next = none ↔ ∃ l, .switched x l ∈ trace
  waiting : st.next ≠ none → st.parked = parkedLog trace x
  emptied : st.next = none → st.parked = []

theorem mem_push_of_ne {trace : Array Happening} {e d : Happening} (h : d ≠ e) :
    d ∈ trace.push e ↔ d ∈ trace := by
  rw [Array.mem_push]
  exact or_iff_left h

/-- What happens to others does not matter to a stub. -/
theorem Agrees.mute {trace : Array Happening} {x : StubId} {st : Stub} (h : Agrees trace x st)
    {e : Happening} (he : e.stub? ≠ some x) : Agrees (trace.push e) x st := by
  have old {d : Happening} (hd : d.stub? = some x) : d ∈ trace.push e ↔ d ∈ trace :=
    mem_push_of_ne fun heq => he (heq ▸ hd)
  have log : parkedLog (trace.push e) x = parkedLog trace x := by
    rw [parkedLog_push]
    cases hp : e.parkedOn x with
    | none => simp
    | some r => exact absurd (Happening.stub?_of_parkedOn hp) he
  refine ⟨?_, ?_, ?_, ?_, h.emptied⟩
  · rw [old rfl]
    exact h.connected
  · rw [old rfl]
    exact h.marked
  · simp only [old (d := .switched x _) rfl]
    exact h.switched
  · rw [log]
    exact h.waiting

theorem Agrees.mutes {trace : Array Happening} {x : StubId} {st : Stub} (h : Agrees trace x st)
    {marks : List Happening} (plain : ∀ e ∈ marks, e.isPlain = true) :
    Agrees (trace ++ marks.toArray) x st := by
  induction marks generalizing trace with
  | nil => simpa using h
  | cons e marks ih =>
    have mute : e.stub? = none := Happening.stub?_of_plain (plain e List.mem_cons_self)
    have := ih (h.mute (e := e) (by simp [mute])) fun e he => plain e (List.mem_cons_of_mem _ he)
    simpa using this

/-- Every stub is in the state that its history tells, none was switched over twice, and nothing
has happened to stubs to come. -/
structure Chronicled (s : Network) : Prop where
  stub : ∀ x st, s.stubs.get? x = some st → Agrees s.trace x st
  once : ∀ x, switchings s.trace x ≤ 1
  fresh : ∀ e ∈ s.trace, ∀ x, e.stub? = some x → x < s.stubs.next

theorem Chronicled.initial (process : UInt32) : Chronicled { process } where
  stub x st hx := by cases hx
  once x := Nat.zero_le 1
  fresh e he := by simp at he

theorem Chronicled.aside (hs : Chronicled s) (h : Aside s t) : Chronicled t := by
  obtain ⟨marks, ht, plain⟩ := h.trace
  refine ⟨fun x st hx => ?_, fun x => ?_, fun e he x hx => ?_⟩
  · rw [ht]
    exact (hs.stub x st (h.stubs ▸ hx)).mutes plain
  · rw [ht, switchings_append, List.countP_eq_zero.2]
    · exact hs.once x
    · intro e he hx
      have none := Happening.stub?_of_plain (plain e he)
      rw [Happening.stub?_of_switches hx] at none
      cases none
  · rw [h.stubs]
    rw [ht, Array.mem_append] at he
    obtain he | he := he
    · exact hs.fresh e he x hx
    · rw [Happening.stub?_of_plain (plain e (by simpa using he))] at hx
      cases hx

/-- Something happens that is about no stub. -/
theorem Chronicled.mute (hs : Chronicled s) {e : Happening} (he : e.stub? = none)
    (trace : t.trace = s.trace.push e) (stubs : t.stubs = s.stubs) : Chronicled t := by
  refine ⟨fun x st hx => ?_, fun x => ?_, fun e' he' x hx => ?_⟩
  · rw [trace]
    exact (hs.stub x st (stubs ▸ hx)).mute (by simp [he])
  · rw [trace, switchings_push, if_neg]
    · exact hs.once x
    · intro hx
      rw [Happening.stub?_of_switches hx] at he
      cases he
  · rw [stubs]
    rw [trace] at he'
    obtain he' | rfl := Array.mem_push.1 he'
    · exact hs.fresh e' he' x hx
    · rw [he] at hx
      cases hx

/-- Something happens to one stub. -/
theorem Chronicled.turn (hs : Chronicled s) {x : StubId} {st st' : Stub} {e : Happening}
    (here : s.stubs.get? x = some st) (he : e.stub? = some x)
    (agrees : Agrees s.trace x st → Agrees (s.trace.push e) x st')
    (once : e.switches x = true → st.next ≠ none)
    (trace : t.trace = s.trace.push e) (stubs : t.stubs = s.stubs.set x st') : Chronicled t := by
  refine ⟨fun y sy hy => ?_, fun y => ?_, fun e' he' y hy => ?_⟩
  · rw [trace]
    rw [stubs, Table.get?_set_of here] at hy
    split at hy
    · subst y
      cases hy
      exact agrees (hs.stub x st here)
    · rename_i hne
      exact (hs.stub y sy hy).mute (by simpa [he] using hne)
  · rw [trace, switchings_push]
    split
    · rename_i hy
      cases he.symm.trans (Happening.stub?_of_switches hy)
      have unswitched : switchings s.trace x = 0 := by
        rw [switchings_eq_zero]
        exact fun l hl => once hy ((hs.stub x st here).switched.2 ⟨l, hl⟩)
      omega
    · exact hs.once y
  · rw [stubs, Table.next_set]
    rw [trace] at he'
    obtain he' | rfl := Array.mem_push.1 he'
    · exact hs.fresh e' he' y hy
    · cases he.symm.trans hy
      exact Table.lt_next_of_get? here

theorem Chronicled.wire (hs : Chronicled s) (h : Wire s t) : Chronicled t := by
  cases h with
  | closeStub id st here empty free =>
    refine ⟨fun x st' hx => hs.stub x st' (Table.get?_of_erase hx), hs.once, fun e he x hx => ?_⟩
    simpa using hs.fresh e he x hx
  | openStub st gate unparked unmarked unswitched next auxiliary endpoint =>
    have unheard (e : Happening) (he : e ∈ s.trace) : e.stub? ≠ some s.stubs.next :=
      fun hx => absurd (hs.fresh e he _ hx) (Nat.lt_irrefl _)
    obtain ⟨l, hl, -⟩ := next
    refine ⟨fun x st' hx => ?_, hs.once, fun e he x hx => ?_⟩
    · obtain ⟨rfl, rfl⟩ | hx := Table.get?_of_push hx
      · refine ⟨?_, ?_, ?_, fun _ => ?_, fun _ => unparked⟩
        · simpa [unmarked.1] using fun h => unheard _ h rfl
        · simpa [unmarked.2] using fun h => unheard _ h rfl
        · simpa [hl] using fun l h => unheard _ h rfl
        · rw [unparked, parkedLog_eq_nil unheard]
      · exact hs.stub x st' hx
    · rw [Table.next_push]
      exact Nat.lt_succ_of_lt (hs.fresh e he x hx)
  | openEndpoint id w e => exact hs.mute rfl rfl rfl
  | markLocal id here =>
    obtain ⟨st, here⟩ := Table.contains_iff.1 here
    refine hs.turn (e := .connected id) here rfl (fun h => ?_) nofun rfl
      (Table.modify_eq_set here _)
    refine ⟨by simp, ?_, ?_, ?_, h.emptied⟩
    · rw [mem_push_of_ne (by simp)]
      exact h.marked
    · simp only [mem_push_of_ne (e := .connected id) (d := .switched id _) (by simp)]
      exact h.switched
    · rw [parkedLog_push]
      simpa [Happening.parkedOn] using h.waiting
  | markRemote id here =>
    obtain ⟨st, here⟩ := Table.contains_iff.1 here
    refine hs.turn (e := .marked id) here rfl (fun h => ?_) nofun rfl
      (Table.modify_eq_set here _)
    refine ⟨?_, by simp, ?_, ?_, h.emptied⟩
    · rw [mem_push_of_ne (by simp)]
      exact h.connected
    · simp only [mem_push_of_ne (e := .marked id) (d := .switched id _) (by simp)]
      exact h.switched
    · rw [parkedLog_push]
      simpa [Happening.parkedOn] using h.waiting
  | _ => exact ⟨hs.stub, hs.once, hs.fresh⟩

theorem Chronicled.pass (hs : Chronicled s) (h : Pass wild s t) : Chronicled t := by
  cases h with
  | send m | accept r m w l dest rest => exact hs.mute rfl rfl rfl
  | park id st w wk r rest top here data worker books unswitched =>
    refine hs.turn (e := .parked id r) here rfl (fun h => ?_) nofun rfl rfl
    refine ⟨?_, ?_, ?_, fun hn => ?_, fun hn => absurd hn unswitched⟩
    · rw [mem_push_of_ne (by simp)]
      exact h.connected
    · rw [mem_push_of_ne (by simp)]
      exact h.marked
    · simp only [mem_push_of_ne (e := .parked id r) (d := .switched id _) (by simp)]
      exact h.switched
    · rw [parkedLog_push, ← h.waiting hn]
      simp [Happening.parkedOn]
  | switch id st w wk next here worker books unswitched =>
    refine hs.turn (e := .switched id next) here rfl (fun h => ?_)
      (fun _ => by simp [unswitched]) rfl rfl
    refine ⟨?_, ?_, ?_, fun hn => absurd rfl hn, fun _ => rfl⟩
    · rw [mem_push_of_ne (by simp)]
      exact h.connected
    · rw [mem_push_of_ne (by simp)]
      exact h.marked
    · simp only [true_iff]
      exact ⟨next, Array.mem_push_self⟩
  | _ => exact ⟨hs.stub, hs.once, hs.fresh⟩

theorem Chronicled.move (hs : Chronicled s) (h : Move wild s t) : Chronicled t := by
  cases h with
  | aside h => exact hs.aside h
  | hold h =>
    rw [h.frame]
    exact ⟨hs.stub, hs.once, hs.fresh⟩
  | wire h => exact hs.wire h
  | pass h => exact hs.pass h

end Network

end Wiring
