import Mathlib
import Wiring.Proofs.Burden

/-!
# Every request ends once

A script is told from others by its name, and a send by its handle. What is noted of a request is a
tale of attempts that ran out of resources, and after these of one end at most: an answer, or that
it was given up or let go. As long as it is on its way, or covered, the tale is not over.

This rests on an application that heeds what it has in hand: it brings no script under a name that
was heard before, and takes up no request that is finished.
-/
namespace Wiring

/-- What a request is told from others by. -/
inductive Key where
  | name (name : String)
  | handle (h : HandleId)
  deriving DecidableEq

/-- The key of a request that is not spent. -/
def Request.key? (r : Request) : Option Key :=
  match r.inner? with
  | some (.scripted c) => some (.name c.name)
  | some (.send m) => some (.handle m.handle)
  | _ => none

/-- A request that runs out of resources is to be attempted again. -/
def Happening.IsWait (name : String) (x : Happening) : Prop :=
  x = .attempted name (.error .noResource)

/-- Whether a happening is told of the script with a name. -/
def Happening.concerns (name : String) : Happening → Bool
  | .attempted name' _ | .cancelled name' | .dropped name' => name' == name
  | _ => false

namespace Request

/-- The request may have come to its end where it lies: it is bare, and nothing says that it goes
on. -/
def mayRest : Request → Bool
  | .scripted c => c.finished
  | .send _ => true
  | _ => false

/-- The request is unfinished. -/
def isOpen (handles : Table (Option Outcome)) (r : Request) : Bool :=
  match r.inner? with
  | some (.scripted c) => !c.finished
  | some (.send m) => (Network.told handles m.handle).isNone
  | _ => false

end Request

namespace Traffic

/-- What has been noted of the script with a name. -/
def tale (s : Traffic) (name : String) : List Happening :=
  s.trace.toList.filter (Happening.concerns name)

/-- The request has come to its end. -/
def Over (s : Traffic) : Key → Prop
  | .name name => ∃ x ∈ s.tale name, ¬x.IsWait name
  | .handle h => Network.told s.handles h ≠ none

end Traffic

/-! ## What keys weigh -/

namespace Scale

def has (k : Key) (r : Request) : Nat := if r.key? = some k then 1 else 0

/-- The requests with a key. -/
def every (k : Key) : Scale := ⟨has k, has k⟩

/-- The requests with a key that are on their way, or would go on. -/
def going (k : Key) : Scale := ⟨has k, fun r => if r.mayRest = true then 0 else has k r⟩

/-- Spent requests that are on their way, or covered. -/
def stray : Scale where
  busy r := if r.key? = none then 1 else 0
  kept r := if r.key? = none ∧ r.gates ≠ [] then 1 else 0

end Scale

namespace Request

theorem key?_of_inner? {r r' : Request} (h : r'.inner? = r.inner?) : r'.key? = r.key? := by
  unfold key?
  rw [h]

@[simp] theorem key?_counted (g : GateId) (r : Request) : (counted g r).key? = r.key? := rfl

@[simp] theorem key?_scripted (c : Script) : (scripted c).key? = some (.name c.name) := rfl

@[simp] theorem key?_send (m : Send) : (send m).key? = some (.handle m.handle) := rfl

@[simp] theorem key?_spent (g : GateId) : (spent g).key? = none := rfl

@[simp] theorem key?_unfinished (r : Request) : r.unfinished.key? = r.key? := by
  induction r with
  | counted g r ih => exact ih
  | _ => rfl

theorem take_name (c : Script) : c.take.2.name = c.name := by
  unfold Script.take
  split <;> rfl

@[simp] theorem key?_taken (r : Request) : r.taken.key? = r.key? := by
  unfold taken
  rcases r.inner?_cases with ⟨c, h⟩ | ⟨m, h⟩ | h
  · simp only [h]
    unfold key?
    rw [inner?_withInner h, h]
    simp [take_name]
  · simp only [h]
  · simp only [h]

theorem key?_finished {r : Request} {k : Key} (h : r.finished.key? = some k) :
    r.key? = some k ∧ r.finished.mayRest = true := by
  cases r with
  | scripted c | send m => exact ⟨h, rfl⟩
  | counted g r | spent g => cases h

theorem key?_of_open {handles : Table (Option Outcome)} {r : Request}
    (h : r.isOpen handles = true) : r.key? ≠ none := by
  unfold isOpen at h
  unfold key?
  rcases r.inner?_cases with ⟨c, hc⟩ | ⟨m, hm⟩ | none
  · simp [hc]
  · simp [hm]
  · simp [none] at h

end Request

namespace Scale

theorem has_le (k : Key) (r : Request) : has k r ≤ 1 := by
  unfold has
  split <;> simp

theorem has_of {k : Key} {r : Request} (h : r.key? = some k) : has k r = 1 := if_pos h

theorem has_of_ne {k : Key} {r : Request} (h : r.key? ≠ some k) : has k r = 0 := if_neg h

theorem Fair.every (k : Key) : (Scale.every k).Fair where
  taken r := by simp [Scale.every, has]
  unfinished r := by simp [Scale.every, has]
  covered g r := rfl
  kept r := le_rfl

theorem Fair.going (k : Key) : (Scale.going k).Fair where
  taken r := by simp [Scale.going, has]
  unfinished r := by simp [Scale.going, has]
  covered g r := rfl
  kept r := by
    simp only [Scale.going]
    split <;> simp

theorem Fair.stray : Scale.stray.Fair where
  taken r := by simp [Scale.stray]
  unfinished r := by simp [Scale.stray]
  covered g r := rfl
  kept r := by
    simp only [Scale.stray]
    split
    · rename_i h
      simp [h.1]
    · simp

theorem going_finished (k : Key) (r : Request) : (going k).kept r.finished = 0 := by
  simp only [going]
  split
  · rfl
  · rename_i h
    exact has_of_ne fun key => h (Request.key?_finished key).2

theorem every_finished (k : Key) (r : Request) : (every k).kept r.finished ≤ (every k).busy r := by
  simp only [every, has]
  split
  · rename_i h
    simp [(Request.key?_finished h).1]
  · simp

theorem stray_finished (r : Request) : stray.kept r.finished = 0 := by
  simp [stray]

end Scale

/-! ## Tales -/

/-- What is noted of a request tells of nobody else, and of an end only at the last. -/
structure Request.Noted (r : Request) (marks : List Happening) : Prop where
  order : ∀ name, (marks.filter (Happening.concerns name)).Pairwise fun x _ => x.IsWait name
  own : ∀ name, r.key? ≠ some (.name name) → marks.filter (Happening.concerns name) = []

namespace Request

variable (r : Request) (o : Outcome)

/-- What is noted of a script. -/
theorem noted_script {c : Script} (inner : r.inner? = some (.scripted c)) {marks : List Happening}
    (all : ∀ x ∈ marks, ∀ name, x.concerns name = (c.name == name))
    (order : marks.Pairwise fun x _ => x.IsWait c.name) : r.Noted marks where
  order name := by
    by_cases same : c.name = name
    · subst same
      exact order.filter _
    · have none : marks.filter (Happening.concerns name) = [] :=
        List.filter_eq_nil_iff.2 fun x hx => by simp [all x hx, same]
      simp [none]
  own name other := by
    refine List.filter_eq_nil_iff.2 fun x hx concerned => other ?_
    rw [all x hx, beq_iff_eq] at concerned
    simp [key?, inner, concerned]

theorem noted_nil : r.Noted [] := ⟨by simp, by simp⟩

theorem noted_answer : r.Noted (r.answerNotes o) := by
  unfold answerNotes
  split
  · rename_i c inner
    exact r.noted_script inner (by simp [Happening.concerns]) (by simp)
  · exact r.noted_nil

theorem noted_cancel : r.Noted r.cancelNotes := by
  unfold cancelNotes
  split
  · rename_i c inner
    exact r.noted_script inner (by simp [Happening.concerns]) (by simp)
  · exact r.noted_nil

theorem noted_drop : r.Noted r.dropNotes := by
  unfold dropNotes
  split
  · rename_i c inner
    split
    · exact r.noted_nil
    · exact r.noted_script inner (by simp [Happening.concerns]) (by simp)
  · exact r.noted_nil

/-- A request may be given up once it has run out of resources. -/
theorem noted_answer_cancel : r.Noted (r.answerNotes (.error .noResource) ++ r.cancelNotes) := by
  unfold answerNotes cancelNotes
  split
  · rename_i c inner
    exact r.noted_script inner (by simp [Happening.concerns]) (by simp [Happening.IsWait])
  · exact r.noted_nil

theorem Ends.noted {r : Request} {handles handles' : Table (Option Outcome)} {j : Job}
    {marks : List Happening} (h : r.Ends handles j marks handles') : r.Noted marks := by
  cases h with
  | finish o w done => exact r.noted_answer o
  | cancel w => exact r.noted_answer_cancel
  | lose w => exact r.noted_answer _
  | drop => exact r.noted_drop

/-- Only the handle of the request tells of its end. -/
theorem told_endHandle_other {r : Request} {handles : Table (Option Outcome)} (o : Outcome)
    {h : HandleId} (other : r.key? ≠ some (.handle h)) :
    Network.told (Network.endHandle handles r o) h = Network.told handles h := by
  unfold Network.endHandle
  split
  · rename_i m send
    have ne : m.handle ≠ h := fun same => other (by simp [key?, inner?_of_send? send, same])
    simp [Network.told, Table.get?_modify, ne]
  · rfl

/-- What the end of a request does to the handles. -/
theorem Ends.told {r : Request} {handles handles' : Table (Option Outcome)} {j : Job}
    {marks : List Happening} (ends : r.Ends handles j marks handles') :
    (∀ h, r.key? ≠ some (.handle h) → Network.told handles' h = Network.told handles h) ∧
      handles'.next = handles.next := by
  cases ends with
  | finish o w done =>
    exact ⟨fun h => told_endHandle_other o, Network.endHandle_next handles r o⟩
  | cancel w =>
    exact ⟨fun h => told_endHandle_other _, Network.endHandle_next handles r _⟩
  | lose w => exact ⟨fun _ _ => rfl, rfl⟩
  | drop => exact ⟨fun _ _ => rfl, rfl⟩

end Request

namespace Traffic

variable {s t u : Traffic} {r : Request}

theorem tale_of_trace {marks : List Happening} (trace : t.trace = s.trace ++ marks.toArray)
    (name : String) : t.tale name = s.tale name ++ marks.filter (Happening.concerns name) := by
  simp [tale, trace]

theorem concerns_of_still {x : Happening} (still : x.isStill = true) (name : String) :
    x.concerns name = false := by
  cases x with
  | attempted | cancelled | dropped => cases still
  | _ => rfl

theorem tale_push {x : Happening} (none : ∀ name, x.concerns name = false)
    (trace : t.trace = s.trace.push x) (name : String) : t.tale name = s.tale name := by
  simp [tale, trace, none]

theorem Over.before {k : Key} (ended : t.Over k) (tale : ∀ name, t.tale name = s.tale name)
    (told : ∀ h, Network.told t.handles h = Network.told s.handles h) : s.Over k := by
  cases k with
  | name name =>
    rcases ended with ⟨x, hx, last⟩
    exact ⟨x, tale name ▸ hx, last⟩
  | handle h => exact fun none => ended ((told h).trans none)

/-! ## What lies where -/

/-- No request is in two places. One that is over is nowhere but with the application, where it
rests; and its end is the last that was noted of it. -/
structure Once (s : Traffic) : Prop where
  sole : ∀ k, s.load (.every k) ≤ 1
  ended : ∀ k, s.Over k → s.load (.going k) = 0
  given : ∀ h, s.handles.next ≤ h → s.load (.every (.handle h)) = 0
  keyed : s.load .stray = 0
  order : ∀ name, (s.tale name).Pairwise fun x _ => x.IsWait name

namespace Once

theorem alive_of_le (hs : Once s) {k : Key} (going : 1 ≤ s.load (.going k)) : ¬s.Over k :=
  fun ended => by
    have none := hs.ended k ended
    omega

/-- What is on its way is not over. -/
theorem alive (hs : Once s) (h : s.Underway r) {k : Key} (key : r.key? = some k) : ¬s.Over k :=
  hs.alive_of_le ((Scale.has_of key).ge.trans (h.le_load (σ := .going k)))

theorem going_le (hs : Once s) (k : Key) : s.load (.going k) ≤ 1 := by
  have less : s.load (.going k) ≤ s.load (.every k) :=
    load_mono (fun _ => le_rfl) (Scale.Fair.going k).kept
  exact less.trans (hs.sole k)

/-- What is noted of a request that is not over continues its tale. -/
theorem order_noted (hs : Once s) {marks : List Happening} (noted : r.Noted marks)
    (alive : ∀ k, r.key? = some k → ¬s.Over k) (trace : t.trace = s.trace ++ marks.toArray)
    (name : String) : (t.tale name).Pairwise fun x _ => x.IsWait name := by
  rw [tale_of_trace trace, List.pairwise_append]
  refine ⟨hs.order name, noted.order name, fun x hx y hy => ?_⟩
  by_cases key : r.key? = some (.name name)
  · by_contra ended
    exact alive _ key ⟨x, hx, ended⟩
  · rw [noted.own name key] at hy
    cases hy

/-- Something is noted of a request, or told by its handle. It is not over before, and if it is
over afterwards nothing of it would go on. -/
theorem noted (hs : Once s) {marks : List Happening} (noted : r.Noted marks)
    (alive : ∀ k, r.key? = some k → ¬s.Over k)
    (gone : ∀ k, r.key? = some k → t.Over k → t.load (.going k) = 0)
    (every : ∀ k, t.load (.every k) ≤ s.load (.every k))
    (going : ∀ k, t.load (.going k) ≤ s.load (.going k)) (stray : t.load .stray ≤ s.load .stray)
    (trace : t.trace = s.trace ++ marks.toArray)
    (told : ∀ h, r.key? ≠ some (.handle h) → Network.told t.handles h = Network.told s.handles h)
    (next : t.handles.next = s.handles.next) : Once t where
  sole k := (every k).trans (hs.sole k)
  ended k ended := by
    by_cases key : r.key? = some k
    · exact gone k key ended
    · have same : s.Over k := by
        cases k with
        | name name =>
          rcases ended with ⟨x, hx, last⟩
          rw [tale_of_trace trace, Request.Noted.own noted name key, List.append_nil] at hx
          exact ⟨x, hx, last⟩
        | handle h =>
          intro none
          exact ended ((told h key).trans none)
      exact Nat.le_zero.1 ((going k).trans (hs.ended k same).le)
  given h beyond := Nat.le_zero.1 ((every _).trans (hs.given h (next ▸ beyond)).le)
  keyed := Nat.le_zero.1 (stray.trans hs.keyed.le)
  order := hs.order_noted noted alive trace

/-- Nothing is made and nothing ends. -/
theorem quiet (hs : Once s) (load : ∀ σ : Scale, σ.Fair → t.load σ ≤ s.load σ)
    (tale : ∀ name, t.tale name = s.tale name) (handles : t.handles = s.handles) : Once t where
  sole k := (load _ (.every k)).trans (hs.sole k)
  ended k ended := by
    have same := ended.before tale fun _ => by rw [handles]
    exact Nat.le_zero.1 ((load _ (.going k)).trans (hs.ended k same).le)
  given h beyond := by
    rw [handles] at beyond
    exact Nat.le_zero.1 ((load _ (.every _)).trans (hs.given h beyond).le)
  keyed := Nat.le_zero.1 ((load _ .stray).trans hs.keyed.le)
  order name := by
    rw [tale name]
    exact hs.order name

/-- A request runs out of resources, and stays. -/
theorem waits (hs : Once s) (underway : s.Underway r)
    (load : ∀ σ : Scale, σ.Fair → t.load σ ≤ s.load σ)
    (trace : t.trace = s.trace ++ (r.answerNotes (.error .noResource)).toArray)
    (handles : t.handles = s.handles) : Once t := by
  have alive (k : Key) (key : r.key? = some k) := hs.alive underway key
  refine hs.noted (r.noted_answer _) alive (fun k key ended => ?_) (fun k => load _ (.every k))
    (fun k => load _ (.going k)) (load _ .stray) trace (fun h _ => by rw [handles])
    (by rw [handles])
  exfalso
  refine alive k key ?_
  cases k with
  | name name =>
    rcases ended with ⟨x, hx, last⟩
    rw [tale_of_trace trace, List.mem_append] at hx
    rcases hx with hx | hx
    · exact ⟨x, hx, last⟩
    · refine absurd ?_ last
      have old := (List.mem_filter.1 hx).1
      have own := (List.mem_filter.1 hx).2
      unfold Request.answerNotes at old
      split at old
      · cases List.mem_singleton.1 old
        exact congrArg (Happening.attempted · _) (beq_iff_eq.1 own)
      · cases old
  | handle h =>
    intro none
    exact ended (handles ▸ none)

/-- A request comes to its end. The application may get back what is left of it. -/
theorem ends (hs : Once s) {marks : List Happening} (underway : s.Underway r)
    (noted : r.Noted marks)
    (load : ∀ σ : Scale, σ.Fair → t.load σ + σ.busy r ≤ s.load σ + σ.kept r.finished)
    (trace : t.trace = s.trace ++ marks.toArray)
    (told : ∀ h, r.key? ≠ some (.handle h) → Network.told t.handles h = Network.told s.handles h)
    (next : t.handles.next = s.handles.next) : Once t := by
  refine hs.noted noted (fun k key => hs.alive underway key) (fun k key _ => ?_) (fun k => ?_)
    (fun k => ?_) ?_ trace told next
  · have less := load _ (.going k)
    have one : (Scale.going k).busy r = 1 := Scale.has_of key
    have all := hs.going_le k
    rw [Scale.going_finished] at less
    omega
  · have less := load _ (.every k)
    have kept := Scale.every_finished k r
    omega
  · have less := load _ (.going k)
    rw [Scale.going_finished] at less
    omega
  · have less := load _ .stray
    rw [Scale.stray_finished] at less
    omega

/-- An endpoint makes a send. -/
theorem ask (hs : Once s) {m : Send} (handle : m.handle = s.handles.next) :
    Once { s with
      handles := s.handles.push none
      agenda := .attempt (.send m) (.endpoint m.endpoint) :: s.agenda } := by
  generalize ht : ({ s with
    handles := s.handles.push none
    agenda := .attempt (.send m) (.endpoint m.endpoint) :: s.agenda } : Traffic) = t
  have load (σ : Scale) : t.load σ = s.load σ + σ.busy (.send m) := by
    rw [← ht]
    simp only [Traffic.load, Network.hands_cons, Job.request?, Option.toList_some, List.singleton_append,
      Network.weight_cons]
    omega
  have tale (name : String) : t.tale name = s.tale name := by rw [← ht]; rfl
  have told (h : HandleId) : Network.told t.handles h = Network.told s.handles h := by
    rw [← ht]
    exact Network.told_push s.handles h
  have fresh := hs.given m.handle handle.ge
  refine ⟨fun k => ?_, fun k ended => ?_, fun h beyond => ?_, ?_, fun name => ?_⟩
  · rw [load]
    by_cases key : (Request.send m).key? = some k
    · cases key
      rw [fresh, Nat.zero_add]
      exact Scale.has_le _ _
    · have none : (Scale.every k).busy (.send m) = 0 := Scale.has_of_ne key
      rw [none, Nat.add_zero]
      exact hs.sole k
  · have other : (Request.send m).key? ≠ some k := by
      rintro ⟨⟩
      refine ended ((told _).trans ?_)
      simp [Network.told, handle]
    have same := ended.before tale told
    have none : (Scale.going k).busy (.send m) = 0 := Scale.has_of_ne other
    rw [load, none, hs.ended k same]
  · have after : s.handles.next + 1 ≤ h := by
      rw [← ht] at beyond
      simpa only [Table.next_push] using beyond
    have none : (Scale.every (.handle h)).busy (.send m) = 0 :=
      Scale.has_of_ne fun key => by
        cases key
        rw [handle] at after
        exact Nat.not_succ_le_self _ after
    rw [load, none, hs.given h (Nat.le_of_succ_le after)]
  · rw [load, hs.keyed]
    rfl
  · rw [tale]
    exact hs.order name

/-- The application brings a script under a name that was not heard before. -/
theorem bring (hs : Once s) {c : Script} (unheard : s.tale c.name = [])
    (unseen : s.load (.every (.name c.name)) = 0)
    (load : ∀ σ : Scale, σ.Fair → t.load σ ≤ s.load σ + σ.busy (.scripted c))
    (tale : ∀ name, t.tale name = s.tale name) (handles : t.handles = s.handles) : Once t := by
  have other {k : Key} (ne : (Request.scripted c).key? ≠ some k) {σ : Scale}
      (busy : σ.busy = Scale.has k) (fair : σ.Fair) : t.load σ ≤ s.load σ := by
    have less := load σ fair
    rwa [busy, Scale.has_of_ne ne, Nat.add_zero] at less
  refine ⟨fun k => ?_, fun k ended => ?_, fun h beyond => ?_, ?_, fun name => ?_⟩
  · by_cases key : (Request.scripted c).key? = some k
    · cases key
      have less := load _ (.every (.name c.name))
      rw [unseen, Nat.zero_add] at less
      exact less.trans (Scale.has_le _ _)
    · exact (other key rfl (.every k)).trans (hs.sole k)
  · have ne : (Request.scripted c).key? ≠ some k := by
      rintro ⟨⟩
      rcases ended with ⟨x, hx, -⟩
      rw [tale, unheard] at hx
      cases hx
    have same := ended.before tale fun _ => by rw [handles]
    exact Nat.le_zero.1 ((other ne rfl (.going k)).trans (hs.ended k same).le)
  · rw [handles] at beyond
    exact Nat.le_zero.1 ((other (by simp) rfl (.every _)).trans (hs.given h beyond).le)
  · have less := load _ .stray
    rw [hs.keyed] at less
    exact Nat.le_zero.1 less
  · rw [tale]
    exact hs.order name

/-- An unfinished request that the application has is not over. -/
theorem alive_of_open (hs : Once s) {h : HeldId} (here : s.held.get? h = some r)
    (unfinished : r.isOpen s.handles = true) {k : Key} (key : r.key? = some k) : ¬s.Over k := by
  by_cases rests : r.mayRest = true
  · cases r with
    | scripted c =>
      have finished : c.finished = true := rests
      simp [Request.isOpen, Request.inner?, finished] at unfinished
    | send m =>
      cases key
      exact fun told => told (Option.isNone_iff_eq_none.1 unfinished)
    | counted | spent => cases rests
  · refine hs.alive_of_le (le_trans ?_ (kept_le_load here))
    simp only [Scale.going, if_neg rests, Scale.has_of key, le_refl]

/-- The application takes up an unfinished request that it has. -/
theorem takeUp (hs : Once s) {h : HeldId} (here : s.held.get? h = some r)
    (unfinished : r.isOpen s.handles = true)
    (load : ∀ σ : Scale, σ.Fair → t.load σ + σ.kept r ≤ s.load σ + σ.busy r)
    (tale : ∀ name, t.tale name = s.tale name) (handles : t.handles = s.handles) : Once t := by
  refine ⟨fun k => ?_, fun k ended => ?_, fun k beyond => ?_, ?_, fun name => ?_⟩
  · have less := load _ (.every k)
    have same : (Scale.every k).kept r = (Scale.every k).busy r := rfl
    have sole := hs.sole k
    omega
  · have same := ended.before tale fun _ => by rw [handles]
    have none : (Scale.going k).busy r = 0 :=
      Scale.has_of_ne fun key => hs.alive_of_open here unfinished key same
    have less := load _ (.going k)
    have before := hs.ended k same
    omega
  · rw [handles] at beyond
    have less := load _ (.every (.handle k))
    have same : (Scale.every (.handle k)).kept r = (Scale.every (.handle k)).busy r := rfl
    have before := hs.given k beyond
    omega
  · have less := load _ .stray
    have none : Scale.stray.busy r = 0 := if_neg (Request.key?_of_open unfinished)
    have before := hs.keyed
    omega
  · rw [tale]
    exact hs.order name

/-! ## What keeps every tale -/

/-- Nothing is made, and what is noted is told of no request. -/
theorem still (hs : Once s) {marks : List Happening}
    (load : ∀ σ : Scale, σ.Fair → t.load σ ≤ s.load σ)
    (trace : t.trace = s.trace ++ marks.toArray)
    (quiet : ∀ x ∈ marks, ∀ name, x.concerns name = false) (handles : t.handles = s.handles) :
    Once t :=
  hs.quiet load (fun name => by
    have none : marks.filter (Happening.concerns name) = [] :=
      List.filter_eq_nil_iff.2 fun x hx => by simp [quiet x hx name]
    rw [tale_of_trace trace, none, List.append_nil]) handles

/-- Nothing but the places of requests changes. -/
theorem moved (hs : Once s) (load : ∀ σ : Scale, σ.Fair → t.load σ ≤ s.load σ)
    (trace : t.trace = s.trace) (handles : t.handles = s.handles) : Once t :=
  hs.quiet load (fun name => by rw [tale, tale, trace]) handles

theorem rig (hs : Once s) (h : Rig s t) : Once t := by
  have kept (trace : t.trace = s.trace) (handles : t.handles = s.handles) : Once t :=
    hs.moved (fun σ _ => load_rig h) trace handles
  cases h with
  | note x still =>
    exact hs.quiet (fun σ _ => le_rfl) (tale_push (concerns_of_still still) rfl) rfl
  | cancelFront l lk r queue here front =>
    refine hs.ends (r := r) (.queued l lk here (by simp [front])) r.noted_cancel (fun σ _ => ?_) rfl
      (fun h => Request.told_endHandle_other _) (Network.endHandle_next ..)
    have taken := load_front (σ := σ) here front
    have same : load (cancel { s with links := s.links.set l { lk with queue } } r) σ =
        load { s with links := s.links.set l { lk with queue } } σ := rfl
    omega
  | closeInterface i f here =>
    refine hs.still (fun σ _ => le_rfl) rfl (fun x hx name => ?_) rfl
    rcases List.mem_map.1 hx with ⟨m, -, rfl⟩
    rfl
  | _ => exact kept rfl rfl

theorem rigs (hs : Once s) (h : Rigs s t) : Once t := by
  induction h with
  | refl => exact hs
  | tail _ g ih => exact ih.rig g

theorem transmits (hs : Once s) {l : LinkId} {messageId : UInt8} {payload : Bytes}
    {source : Option HandleId} (h : Transmits s l messageId payload source t) : Once t := by
  have load (σ : Scale) : t.load σ ≤ s.load σ := (load_transmits h).le
  cases h with
  | intro lk credits dest f here credit leads there =>
    exact hs.quiet (fun σ _ => load σ) (tale_push (fun _ => rfl) rfl) rfl

/-- A request in hand is offered to a carrier, which takes it over. -/
theorem accepted (hs : Once (s.grasp r)) {c : Carrier} (h : Offers s c r t none) : Once t := by
  have load (σ : Scale) (fair : σ.Fair) : t.load σ ≤ (s.grasp r).load σ := by
    have offered := load_offers fair h
    rw [load_grasp]
    exact Nat.le.intro offered
  cases h with
  | park r x st here data unswitched =>
    exact hs.quiet load (tale_push (fun _ => rfl) rfl) rfl
  | _ => exact hs.moved load rfl rfl

/-- A request in hand is offered to a carrier, which hands it back. -/
theorem handedBack (hs : Once (s.grasp r)) {r' : Request} {c : Carrier}
    (h : Offers s c r t (some r')) : Once (t.grasp r') := by
  have load (σ : Scale) (fair : σ.Fair) : (t.grasp r').load σ ≤ (s.grasp r).load σ := by
    have offered := load_offers fair h
    rw [load_grasp, load_grasp]
    simp only [Option.toList_some, Network.weight_cons, Network.weight_nil] at offered
    omega
  cases h with
  | back => exact hs.moved load rfl rfl

/-- The work on top is done without a request in hand. -/
theorem pop (hs : Once s) {j : Job} {rest : List Job} (top : s.agenda = j :: rest)
    (free : j.request? = none) : Once { s with agenda := rest } :=
  hs.moved (fun σ _ => by
    have left := load_agenda (σ := σ) s rest
    rw [top, Network.hands_none rest free] at left
    omega) rfl rfl

theorem push (hs : Once s) {jobs : List Job} (bare : ∀ k ∈ jobs, k.isBare = true) :
    Once { s with agenda := jobs ++ s.agenda } :=
  hs.moved (fun σ _ => by
    have planned := load_agenda (σ := σ) s (jobs ++ s.agenda)
    rw [Network.hands_append, hands_bare bare, List.nil_append] at planned
    omega) rfl rfl

/-- The request in hand passes to other work. -/
theorem swap (hs : Once s) {j k : Job} {rest : List Job} {r' : Request}
    (top : s.agenda = j :: rest) (hand : j.request? = some r) (hand' : k.request? = some r')
    (same : ∀ σ : Scale, σ.Fair → σ.busy r' = σ.busy r) : Once { s with agenda := k :: rest } :=
  hs.moved (fun σ fair => by
    have passed := load_agenda (σ := σ) s (k :: rest)
    rw [top, Network.hands_some rest hand, Network.hands_some rest hand', Network.weight_cons,
      Network.weight_cons, same σ fair] at passed
    omega) rfl rfl

theorem inHand {j : Job} {rest : List Job} (top : s.agenda = j :: rest)
    (hand : j.request? = some r) : s.Underway r :=
  .inHand j (by simp [top]) hand

theorem deed (hs : Once s) (h : Deed s t) : Once t := by
  cases h with
  | work j rest jobs u top light free rigged bare => exact ((hs.pop top free).rigs rigged).push bare
  | close j r rest jobs marks handles top ends bare =>
    have hand : j.request? = some r := by cases ends <;> rfl
    refine hs.ends (inHand top hand) ends.noted (fun σ _ => ?_) rfl ends.told.1 ends.told.2
    have done := load_agenda (σ := σ) s (jobs ++ rest)
    rw [top, Network.hands_some rest hand, Network.hands_append, hands_bare bare, List.nil_append,
      Network.weight_cons] at done
    simp only [load] at done ⊢
    omega
  | ask w message m rest jobs u top rigged bare signal handle =>
    exact (((hs.pop top rfl).rigs rigged).push bare).ask handle
  | deliver i f m inbox left rest top here front =>
    have free : Network.hands ((f.handlers.lookup m.id).toList.map (fun h => .handle h m)
        ++ [.giveBack m.sender, .deliver i left] ++ rest) = Network.hands rest := by
      rw [Network.hands_append, Network.hands_eq_nil, List.nil_append]
      intro k hk
      simp only [List.mem_append, List.mem_map, List.mem_cons, List.not_mem_nil, or_false] at hk
      rcases hk with ⟨h, -, rfl⟩ | rfl | rfl <;> rfl
    refine hs.quiet (fun σ _ => ?_) (tale_push (x := .delivered i m) (fun _ => rfl) rfl) rfl
    simp only [load, top, Network.hands_none rest (j := .deliver i (left + 1)) rfl, free, le_refl]
  | giveBack l rest top =>
    refine (hs.pop top rfl).moved (fun σ _ => ?_) rfl rfl
    have same := Table.sum_modify (k := l) (t := s.links)
      (g := fun lk => { lk with credits := lk.credits + 1 })
      (f := fun _ lk => Network.weight σ.busy lk.queue) fun _ _ => rfl
    simp only [load, same, le_refl]
  | record log forward decode m rest jobs marks top bare still =>
    have quiet : ∀ x ∈ .recorded log m.id (Network.content decode m.payload) :: marks,
        ∀ name, x.concerns name = false := by
      intro x hx name
      rcases List.mem_cons.1 hx with rfl | hx
      · rfl
      · exact concerns_of_still (still x hx) name
    exact ((hs.pop top rfl).push bare).still (fun σ _ => le_rfl) (by simp) quiet rfl
  | relay log c decode m l rest x t top carries sent still =>
    have seen : Once { s with
        trace := s.trace.push (.recorded log m.id (Network.content decode m.payload))
        agenda := rest } :=
      (hs.pop top rfl).quiet (fun σ _ => le_rfl) (tale_push (fun _ => rfl) rfl) rfl
    exact (seen.transmits sent).quiet (fun σ _ => le_rfl)
      (tale_push (concerns_of_still still) rfl) rfl
  | answer r o w rest top => exact hs.swap top rfl rfl fun σ fair => fair.taken r
  | accept r w rest c messageId payload source l t top sends carries sent =>
    exact (hs.swap top rfl rfl fun σ fair => fair.taken r).transmits sent
  | holdOff r w rest x messageId payload source jobs top sends data bare =>
    exact (hs.swap (k := .conclude r.taken (.error .noResource) w) top rfl rfl
      fun σ fair => fair.taken r).push bare
  | requeue r l lk rest top here =>
    refine hs.waits (inHand top rfl) (fun σ fair => ?_) rfl rfl
    have done := load_agenda (σ := σ) s rest
    have back := load_links (s := { s with agenda := rest }) (σ := σ) here
      { lk with queue := r.unfinished :: lk.queue }
    rw [top, Network.hands_some rest rfl, Network.weight_cons] at done
    simp only [Network.weight_cons, fair.unfinished] at back
    simp only [load] at done back ⊢
    omega
  | again r c rest top =>
    refine hs.waits (inHand top rfl) (fun σ fair => ?_) rfl rfl
    have passed := load_agenda (σ := σ) s (.add c r.unfinished :: rest)
    rw [top, Network.hands_some rest rfl, Network.hands_some rest rfl, Network.weight_cons,
      Network.weight_cons, fair.unfinished] at passed
    simp only [load] at passed ⊢
    omega
  | first r e ep c rest top here slot =>
    refine hs.waits (inHand top rfl) (fun σ fair => ?_) rfl rfl
    have passed := load_agenda (σ := σ) s (.add c r.unfinished :: .release c.ref :: rest)
    rw [top, Network.hands_some rest rfl, Network.hands_some _ rfl, Network.hands_none rest rfl,
      Network.weight_cons, Network.weight_cons, fair.unfinished] at passed
    simp only [load] at passed ⊢
    omega
  | returned r h rest top =>
    refine hs.waits (inHand top rfl) (fun σ fair => ?_) rfl rfl
    have done := load_agenda (σ := σ) s rest
    have back := load_setHeld (σ := σ) { s with agenda := rest } h r.unfinished
    have lighter := fair.kept r.unfinished
    rw [top, Network.hands_some rest rfl, Network.weight_cons] at done
    rw [fair.unfinished] at lighter
    simp only [load] at done back ⊢
    omega
  | completed r o h rest top done =>
    refine hs.ends (inHand top rfl) (r.noted_answer o) (fun σ _ => ?_) rfl
      (fun k => Request.told_endHandle_other o) (Network.endHandle_next ..)
    have done := load_agenda (σ := σ) s rest
    have back := load_setHeld (σ := σ) { s with agenda := rest } h r.finished
    rw [top, Network.hands_some rest rfl, Network.weight_cons] at done
    simp only [load] at done back ⊢
    omega
  | add r c rest t top taken =>
    refine Once.accepted (s := { s with agenda := rest }) (r := r) ?_ taken
    exact hs.swap top rfl rfl fun σ fair => rfl
  | handBack r r' c rest t top back =>
    have inHand : Once (grasp { s with agenda := rest } r) :=
      hs.swap top rfl rfl fun σ fair => rfl
    exact (inHand.handedBack back).swap (j := .discard r') rfl rfl rfl fun σ fair => rfl
  | dequeue r l lk queue rest top here front =>
    refine hs.moved (fun σ _ => ?_) rfl rfl
    have taken := load_front (σ := σ) here front
    have planned := load_agenda (σ := σ) { s with links := s.links.set l { lk with queue } }
      (.attempt r (.queue l) :: rest)
    have free : Network.hands s.agenda = Network.hands rest := by
      rw [top, Network.hands_none rest rfl]
    rw [Network.hands_some rest rfl, Network.weight_cons] at planned
    simp only [load, free] at taken planned ⊢
    omega
  | switch x st next w rest u top rigged here unswitched connected =>
    refine ((hs.pop top rfl).rigs rigged).quiet (fun σ _ => ?_)
      (tale_push (x := .switched x next) (fun _ => rfl) rfl) rfl
    have parked := load_stubs (σ := σ) here
      { st with next := none, auxiliary := none, parked := [], promoted := some next }
    have planned := load_agenda (σ := σ) u (Network.replay st w next ++ u.agenda)
    rw [Network.hands_append, Network.hands_replay, Network.weight_append] at planned
    simp only [load, Network.weight_nil] at parked planned ⊢
    omega

end Once

end Traffic

end Wiring
