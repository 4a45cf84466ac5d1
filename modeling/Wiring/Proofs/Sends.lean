import Mathlib
import Wiring.Proofs.Load
import Wiring.Proofs.Switchover

/-!
# What becomes of a send

Where the application leaves queued requests alone, no send is lost and none goes out twice. As
long as its handle tells nothing the send lies in one queue; when the handle is set it is gone, and
its message was put into one inbox, if the handle says so, or into none.
-/
namespace Wiring

/-- Whether a request is the send with a handle. -/
def Request.bears (h : HandleId) (r : Request) : Bool := r.send?.any fun m => m.handle == h

/-- Whether a send with a handle was made, and is told so. -/
def Job.concludes (h : HandleId) : Job → Bool
  | .conclude r (.ok ()) _ => r.bears h
  | _ => false

/-- A message that was put into an inbox over a link. -/
structure Arrival where
  link : LinkId
  dest : InterfaceId
  messageId : UInt8
  payload : Bytes
  deriving DecidableEq, Repr

/-- The arrival of the send with a handle. -/
def Happening.arrival? (h : HandleId) : Happening → Option Arrival
  | .accepted link dest messageId payload source =>
    if source = some h then some ⟨link, dest, messageId, payload⟩ else none
  | _ => none

namespace Request

theorem bears_of_send? {r : Request} (hr : r.send? = none) (h : HandleId) : r.bears h = false := by
  simp [bears, hr]

theorem bears_iff {r : Request} {h : HandleId} :
    r.bears h = true ↔ ∃ m, r.send? = some m ∧ m.handle = h := by
  unfold bears
  cases r.send? <;> simp

theorem bears_unfinished (r : Request) (h : HandleId) : r.unfinished.bears h = r.bears h := by
  unfold bears
  rw [send?_unfinished]

end Request

namespace Network

variable {s t u : Network} {h : HandleId}

/-- Where the arrivals of a send are told. -/
def arrivals (trace : Array Happening) (h : HandleId) : List Arrival :=
  trace.toList.filterMap (Happening.arrival? h)

theorem arrivals_push (trace : Array Happening) (e : Happening) (h : HandleId) :
    arrivals (trace.push e) h = arrivals trace h ++ (e.arrival? h).toList := by
  unfold arrivals
  rw [Array.toList_push, List.filterMap_append]
  cases ha : e.arrival? h <;> simp [ha]

theorem arrivals_plain (trace : Array Happening) {marks : List Happening}
    (plain : ∀ e ∈ marks, e.isPlain = true) (h : HandleId) :
    arrivals (trace ++ marks.toArray) h = arrivals trace h := by
  have none : marks.filterMap (Happening.arrival? h) = [] := by
    refine List.filterMap_eq_nil_iff.2 fun e he => ?_
    have := plain e he
    cases e with
    | accepted link dest messageId payload source =>
      cases source with
      | none => rfl
      | some h' => cases this
    | _ => rfl
  simp [arrivals, none]

/-- How often the send with a handle waits in the queues of links and on stubs. -/
def queued (s : Network) (h : HandleId) : Nat :=
  s.links.sum (fun _ l => l.queue.countP (·.bears h))
    + s.stubs.sum (fun _ t => t.parked.countP (·.bears h))

/-- What has become of a send: it waits, its message has arrived once, or it failed. -/
inductive Fate (s : Network) (h : HandleId) (messageId : UInt8) (payload : Bytes) : Prop
  | waiting (status : s.status h = none) (none : arrivals s.trace h = []) (queued : s.queued h = 1)
  | arrived (link : LinkId) (dest : InterfaceId) (status : s.status h = some (.ok ()))
      (once : arrivals s.trace h = [⟨link, dest, messageId, payload⟩]) (gone : s.queued h = 0)
  | failed (why : Refusal) (status : s.status h = some (.error why))
      (none : arrivals s.trace h = []) (gone : s.queued h = 0)

/-! ## Handles -/

/-- What a table of handles tells about one of them. -/
def told (handles : Table (Option Outcome)) (h : HandleId) : Option Outcome := (handles.get? h).join

theorem told_push (handles : Table (Option Outcome)) (h : HandleId) :
    told (handles.push none) h = told handles h := by
  unfold told
  rw [Table.get?_push]
  split
  · subst h
    rw [Table.get?_of_next_le (Nat.le_refl _)]
    rfl
  · rfl

/-- Only the first end of a send counts. -/
theorem told_endHandle {handles : Table (Option Outcome)} {r : Request} {o : Outcome}
    (known : ∀ m, r.send? = some m → handles.contains m.handle = true) (h : HandleId) :
    told (endHandle handles r o) h =
      if r.bears h = true then some ((told handles h).getD o) else told handles h := by
  unfold endHandle told Request.bears
  cases hm : r.send? with
  | none => simp
  | some m =>
    obtain ⟨old, hold⟩ := Table.contains_iff.1 (known m hm)
    simp only [Table.get?_modify, Option.any_some, beq_iff_eq]
    split
    · subst h
      simp [hold]
    · rfl

/-- A handle that is set tells the same after the end of any request. -/
theorem told_endHandle_of_told {handles : Table (Option Outcome)} {r : Request} {o o' : Outcome}
    (set : told handles h = some o') : told (endHandle handles r o) h = some o' := by
  unfold endHandle
  split
  · rename_i m hm
    unfold told at set ⊢
    rw [Table.get?_modify]
    split
    · cases hh : handles.get? h with
      | none => simp [hh] at set
      | some old =>
        rw [hh] at set
        cases old with
        | none => cases set
        | some old => simpa using set
    · exact set
  · exact set

theorem contains_endHandle (handles : Table (Option Outcome)) (r : Request) (o : Outcome) (k : Nat) :
    (endHandle handles r o).contains k = handles.contains k := by
  unfold endHandle
  split
  · exact Table.contains_modify ..
  · rfl

/-- What the sends with a handle weigh that the network carries. -/
abbrev bearing (h : HandleId) (r : Request) : Nat := (r.bears h).toNat

theorem steady_bearing (h : HandleId) : Steady (bearing h) where
  scripted c := rfl
  unfinished r := by simp only [bearing, Request.bears_unfinished]
  answered r r' o answered := by simp only [bearing, Request.bears, answered.send]

/-- A send is carried once until its handle is set, and then no longer. -/
structure Settled (s : Network) : Prop where
  known : ∀ h, h < s.handles.next → s.handles.contains h = true
  once : ∀ h, s.load (bearing h) + (told s.handles h).isSome.toNat =
    if h < s.handles.next then 1 else 0

theorem Settled.initial (process : UInt32) : Settled { process } where
  known h hh := absurd hh (Nat.not_lt_zero h)
  once h := by
    have none : ¬h < ({} : Table (Option Outcome)).next := Nat.not_lt_zero h
    simp [load, hands, told, none]

/-- A send that is carried is known, and its handle is not set. -/
theorem Settled.carried (hs : Settled s) (hl : 0 < s.load (bearing h)) :
    h < s.handles.next ∧ told s.handles h = none := by
  have once := hs.once h
  split at once
  · rename_i hh
    refine ⟨hh, Option.not_isSome_iff_eq_none.1 fun hi => ?_⟩
    rw [hi, Bool.toNat_true] at once
    omega
  · omega

theorem Settled.of_eq (hs : Settled s) (handles : t.handles = s.handles)
    (load : ∀ h, t.load (bearing h) = s.load (bearing h)) : Settled t := by
  refine ⟨fun h hh => ?_, fun h => ?_⟩
  · rw [handles] at hh ⊢
    exact hs.known h hh
  · rw [handles, load h]
    exact hs.once h

theorem Wire.handles (h : Wire s t) : t.handles = s.handles := by cases h <;> rfl

/-- A request in hand ends with its handle. -/
theorem Settled.ended (hs : Settled s) {r : Request} {o : Outcome}
    (load : ∀ h, t.load (bearing h) + bearing h r = s.load (bearing h))
    (handles : t.handles = endHandle s.handles r o) : Settled t := by
  have known (m : Send) (hm : r.send? = some m) : s.handles.contains m.handle = true := by
    refine hs.known _ (hs.carried (h := m.handle) ?_).1
    have gone := load m.handle
    have one : bearing m.handle r = 1 := by
      rw [bearing, Request.bears_iff.2 ⟨m, hm, rfl⟩, Bool.toNat_true]
    omega
  refine ⟨fun h hh => ?_, fun h => ?_⟩
  · rw [handles, endHandle_next] at hh
    rw [handles, contains_endHandle]
    exact hs.known h hh
  · have once := hs.once h
    have load := load h
    rw [handles, endHandle_next, told_endHandle known]
    unfold bearing at load once ⊢
    split
    · rename_i hb
      rw [hb, Bool.toNat_true] at load
      have unset := (hs.carried (h := h) (by unfold bearing; omega)).2
      rw [unset] at once ⊢
      simp only [Option.isSome_none, Option.isSome_some, Bool.toNat_true, Bool.toNat_false] at once ⊢
      omega
    · rename_i hb
      rw [Bool.not_eq_true] at hb
      rw [hb, Bool.toNat_false] at load
      rw [← once]
      omega

theorem Settled.pass (hs : Settled s) (lent : Lent False s) (g : Pass False s t) :
    Settled t := by
  cases g.transfer lent with
  | kept load gates handles => exact hs.of_eq handles fun h => load _ (steady_bearing h)
  | covered x st r here load gates handles =>
    refine hs.of_eq handles fun h => ?_
    have := load _ (steady_bearing h)
    simp only [bearing, Request.bears, Request.send?_counted] at this ⊢
    omega
  | sent m handle load gates handles =>
    refine ⟨fun h hh => ?_, fun h => ?_⟩
    · rw [handles, Table.contains_push]
      rw [handles, Table.next_push] at hh
      obtain hh | rfl := Nat.lt_succ_iff_lt_or_eq.1 hh
      · rw [hs.known h hh, Bool.or_true]
      · simp
    · have once := hs.once h
      have old (hn : h ≠ s.handles.next) : bearing h (.send m) = 0 := by
        simp only [bearing, Request.bears, Request.send?_send, Option.any_some, handle]
        rw [beq_false_of_ne hn.symm, Bool.toNat_false]
      rw [load _ (steady_bearing h), handles, Table.next_push, told_push]
      obtain hn | rfl | hn := Nat.lt_trichotomy h s.handles.next
      · rw [if_pos hn] at once
        rw [if_pos (Nat.lt_succ_of_lt hn), old hn.ne]
        omega
      · have new : bearing s.handles.next (.send m) = 1 := by
          rw [bearing, Request.bears_iff.2 ⟨m, rfl, handle⟩, Bool.toNat_true]
        rw [if_neg (Nat.lt_irrefl _)] at once
        rw [if_pos (Nat.lt_succ_self _), new]
        omega
      · rw [if_neg hn.not_gt] at once
        rw [if_neg (Nat.not_lt_of_le hn), old hn.ne']
        omega
  | ended r o load gates handles => exact hs.ended (fun h => load _ (steady_bearing h)) handles
  | back r o k lent' load gates handles =>
    have sober := (lent.sober.resolve_left id).2 (k, r) lent'
    refine hs.ended (r := r) (o := o) (fun h => ?_) handles
    have spent : bearing h r.finished = 0 := by
      cases hb : r.finished.bears h with
      | false => simp only [bearing, hb, Bool.toNat_false]
      | true =>
        obtain ⟨m, hm, -⟩ := Request.bears_iff.1 hb
        rw [Request.send?_finished hm] at sober
        cases sober
    rw [load _ (steady_bearing h), spent, Nat.add_zero]
  | letGo r sober load gates handles =>
    refine hs.of_eq handles fun h => ?_
    have := load _ (steady_bearing h)
    simp only [bearing, Request.bears_of_send? (sober.resolve_left id), Bool.toNat_false] at this ⊢
    omega

theorem Settled.move (hs : Settled s) (lent : Lent False s) (h : Move False s t) :
    Settled t := by
  cases h with
  | aside h => exact hs.of_eq h.handles fun _ => h.load
  | hold h =>
    refine hs.of_eq ?_ fun _ => h.load
    rw [h.frame]
  | wire h => exact hs.of_eq h.handles fun _ => h.load
  | pass h => exact hs.pass lent h

/-! ## Arrivals -/

/-- How many sends with a handle were made and are about to be told so. -/
def concluding (agenda : List Job) (h : HandleId) : Nat := agenda.countP (Job.concludes h)

theorem concluding_cons (j : Job) (rest : List Job) (h : HandleId) :
    concluding (j :: rest) h = concluding rest h + (j.concludes h).toNat := by
  unfold concluding
  rw [List.countP_cons, Bool.toNat, Bool.cond_eq_ite]

theorem concluding_append {jobs : List Job} (rest : List Job) (none : ∀ j ∈ jobs, j.concludes h = false) :
    concluding (jobs ++ rest) h = concluding rest h := by
  unfold concluding
  rw [List.countP_append, List.countP_eq_zero.2, Nat.zero_add]
  intro j hj
  simp [none j hj]

theorem concludes_idle {j : Job} (idle : j.isIdle = true) (h : HandleId) : j.concludes h = false := by
  cases j <;> first | rfl | cases idle

theorem concludes_unsent {r : Request} {o : Outcome} (unsent : o ≠ .ok ()) (w : Waiter)
    (h : HandleId) : (Job.conclude r o w).concludes h = false := by
  cases o with
  | ok u => exact absurd rfl unsent
  | error why => rfl

theorem concludes_of_send? {r : Request} (hr : r.send? = none) (o : Outcome) (w : Waiter)
    (h : HandleId) : (Job.conclude r o w).concludes h = false := by
  cases o with
  | ok u => exact Request.bears_of_send? hr h
  | error why => rfl

/-- Arrivals are told by handles, or are about to be. -/
def Counting (s : Network) : Prop := ∀ h, (arrivals s.trace h).length =
  (decide (told s.handles h = some (.ok ()))).toNat + concluding s.agenda h

theorem Counting.initial (process : UInt32) : Counting { process } := by
  intro h
  simp [arrivals, told, concluding]

theorem Counting.of_eq (hs : Counting s) (trace : ∀ h, arrivals t.trace h = arrivals s.trace h)
    (handles : t.handles = s.handles)
    (agenda : ∀ h, concluding t.agenda h = concluding s.agenda h) : Counting t := by
  intro h
  rw [trace, handles, agenda]
  exact hs h

theorem Hold.concluding (g : Hold s t) (h : HandleId) :
    Network.concluding t.agenda h = Network.concluding s.agenda h := by
  cases g with
  | keep => rfl
  | letGo ref held | hold ref live => exact concluding_cons _ _ h
  | loose ref rest top => rw [top, concluding_cons]; rfl
  | plan j idle => rw [concluding_cons, concludes_idle idle]; rfl
  | done j rest top idle => rw [top, concluding_cons, concludes_idle idle]; rfl

theorem Wire.concluding (g : Wire s t) (h : HandleId) :
    Network.concluding t.agenda h = Network.concluding s.agenda h := by
  cases g with
  | closeStub id st here empty free =>
    refine concluding_append _ fun j hj => ?_
    simp only [List.mem_append] at hj
    obtain (hj | hj) | hj := hj <;> obtain ⟨l, -, rfl⟩ := mem_releaseLink?.1 hj <;> rfl
  | closeEndpoint id e rest top =>
    rw [top, concluding_cons, concluding_append]
    · rfl
    · intro j hj
      obtain ⟨c, -, rfl⟩ := mem_releaseSlots.1 hj
      rfl
  | closeWorker id w rest top =>
    rw [top, concluding_cons, concluding_append]
    · rfl
    · intro j hj
      simp only [List.mem_append, List.mem_map] at hj
      obtain ⟨r, -, rfl⟩ | ⟨entry, -, rfl⟩ := hj <;> rfl
  | _ => rfl

theorem Wire.arrivals (g : Wire s t) (h : HandleId) :
    Network.arrivals t.trace h = Network.arrivals s.trace h := by
  cases g with
  | openEndpoint | markLocal | markRemote => exact (arrivals_push ..).trans (List.append_nil _)
  | _ => rfl

/-- A send in hand is known, and its handle is not set. -/
theorem Settled.inHand (hs : Settled s) {j : Job} {rest : List Job} (top : s.agenda = j :: rest)
    {r : Request} (hand : j.request? = some r) {m : Send} (hm : r.send? = some m) :
    s.handles.contains m.handle = true ∧ told s.handles m.handle = none := by
  have one : bearing m.handle r = 1 := by
    rw [bearing, Request.bears_iff.2 ⟨m, hm, rfl⟩, Bool.toNat_true]
  have load := load_pop (f := bearing m.handle) top hand
  obtain ⟨known, unset⟩ := hs.carried (h := m.handle) (by omega)
  exact ⟨hs.known _ known, unset⟩

theorem arrivals_silent (trace : Array Happening) {e : Happening} (he : e.arrival? h = none) :
    arrivals (trace.push e) h = arrivals trace h := by
  rw [arrivals_push, he]
  simp

/-- The end of a request tells its handle whether the send was made. -/
theorem Counting.close (hs : Counting s) (settled : Settled s) {j : Job} {r : Request} {o : Outcome}
    {rest : List Job} (top : s.agenda = j :: rest) (hand : j.request? = some r)
    (truth : r.send? ≠ none → ∀ r' o' w, j = .conclude r' o' w → (o = .ok () ↔ o' = .ok ()))
    (untruth : r.send? ≠ none → (∀ r' o' w, j ≠ .conclude r' o' w) → o ≠ .ok ())
    (trace : t.trace = s.trace) (handles : t.handles = endHandle s.handles r o)
    (agenda : t.agenda = rest) : Counting t := by
  intro h
  have before := hs h
  rw [top, concluding_cons] at before
  rw [trace, handles, agenda, told_endHandle fun m hm => (settled.inHand top hand hm).1]
  by_cases hb : r.bears h = true
  · obtain ⟨m, hm, rfl⟩ := Request.bears_iff.1 hb
    rw [(settled.inHand top hand hm).2] at before ⊢
    have told : j.concludes m.handle = decide (o = .ok ()) := by
      have sends : r.send? ≠ none := by simp [hm]
      cases j with
      | conclude r' o' w =>
        cases hand
        have := truth sends r o' w rfl
        cases o' with
        | ok u => simp [Job.concludes, hb, this]
        | error why => simp [Job.concludes, this]
      | _ => simp [Job.concludes, untruth sends (by simp)]
    rw [told] at before
    rw [if_pos hb, Option.getD_none, before]
    simp [Nat.add_comm]
  · have silent : j.concludes h = false := by
      rw [Bool.not_eq_true] at hb
      cases j with
      | conclude r' o' w =>
        cases hand
        cases o' with
        | ok u => exact hb
        | error why => rfl
      | _ => rfl
    rw [if_neg hb, before, silent]
    rfl

theorem Counting.pass (hs : Counting s) (settled : Settled s) (lent : Lent False s)
    (g : Pass False s t) : Counting t := by
  have borrowed {j : Job} {rest : List Job} (top : s.agenda = j :: rest) {r : Request} {k : HeldId}
      (hj : j.lending? = some (k, r)) : r.send? = none := by
    refine (lent.sober.resolve_left id).2 (k, r) ?_
    rw [top, lending_cons, hj]
    simp
  cases g with
  | bring c => exact hs.of_eq (fun _ => rfl) rfl fun h => concluding_cons _ _ h
  | takeHeld k r here => exact hs.of_eq (fun _ => rfl) rfl fun h => concluding_cons _ _ h
  | take l lk r queue here front => exact hs.of_eq (fun _ => rfl) rfl fun h => concluding_cons _ _ h
  | dequeue l lk r queue here front escort =>
    exact hs.of_eq (fun _ => rfl) rfl fun h => concluding_cons _ _ h
  | send m handle live alone =>
    intro h
    rw [told_push, arrivals_silent _ rfl, concluding_cons]
    exact hs h
  | putHeld r rest top | letGo r rest top | queue c l lk r rest top | replayed w rest top =>
    refine hs.of_eq (fun _ => rfl) rfl fun h => ?_
    rw [top, concluding_cons]
    rfl
  | offer c r rest top | refuse c r rest top | lend r k rest top | cover x st r rest top
  | handBack c r rest top =>
    refine hs.of_eq (fun _ => rfl) rfl fun h => ?_
    rw [top, concluding_cons, concluding_cons]
    rfl
  | backHeld r o k rest top =>
    refine hs.of_eq (fun _ => rfl) rfl fun h => ?_
    rw [top, concluding_cons, concludes_of_send? (borrowed top rfl)]
    rfl
  | endHeld r o k rest top =>
    have none := borrowed top rfl
    refine hs.of_eq (fun _ => rfl) ?_ fun h => ?_
    · simp only [endHandle, none]
    · rw [top, concluding_cons, concludes_of_send? none]
      rfl
  | requeue l lk r o rest top here unsent =>
    refine hs.of_eq (fun _ => rfl) rfl fun h => ?_
    rw [top, concluding_cons, concludes_unsent unsent]
    rfl
  | again r o c rest top unsent =>
    refine hs.of_eq (fun _ => rfl) rfl fun h => ?_
    rw [top, concluding_cons, concluding_cons, concludes_unsent unsent]
    rfl
  | first r o e c rest top unsent slot =>
    refine hs.of_eq (fun _ => rfl) rfl fun h => ?_
    rw [top, concluding_cons, concluding_cons, concluding_cons, concludes_unsent unsent]
    rfl
  | answer r r' o w rest top answered =>
    refine hs.of_eq (fun _ => rfl) rfl fun h => ?_
    have silent : (Job.conclude r' o w).concludes h = false := by
      by_cases none : r.send? = none
      · exact concludes_of_send? (answered.send.trans none) o w h
      · exact concludes_unsent (answered.unsent none).2 w h
    rw [top, concluding_cons, concluding_cons, silent]
    rfl
  | accept r m w l dest rest top inner =>
    intro h
    have before := hs h
    have bears : r.bears h = decide (m.handle = h) := by
      rw [Request.bears, Request.send?_of_inner? inner]
      rfl
    rw [top, concluding_cons] at before
    rw [arrivals_push, concluding_cons]
    simp only [Job.concludes, bears, Happening.arrival?, Option.some.injEq, List.length_append,
      before]
    by_cases hh : m.handle = h <;> simp [hh, Nat.add_assoc]
  | close j r o rest top hand alone truth untruth =>
    exact hs.close settled top hand truth untruth rfl rfl rfl
  | park x st w wk r rest top =>
    refine hs.of_eq (fun h => arrivals_silent _ rfl) rfl fun h => ?_
    rw [top, concluding_cons]
    rfl
  | switch x st w wk next =>
    refine hs.of_eq (fun h => arrivals_silent _ rfl) rfl fun h => ?_
    refine concluding_append _ fun j hj => ?_
    simp only [replay, List.mem_append, List.mem_flatMap] at hj
    obtain (hj | ⟨r, -, hj⟩) | hj := hj
    · obtain ⟨l, -, rfl⟩ := mem_releaseLink?.1 hj
      rfl
    · simp only [List.mem_cons, List.not_mem_nil, or_false] at hj
      obtain rfl | rfl := hj <;> rfl
    · simp only [List.mem_cons, List.not_mem_nil, or_false] at hj
      obtain rfl | rfl | rfl := hj <;> rfl

theorem Counting.move (hs : Counting s) (settled : Settled s) (lent : Lent False s)
    (g : Move False s t) : Counting t := by
  cases g with
  | aside g =>
    obtain ⟨marks, ht, plain⟩ := g.trace
    refine hs.of_eq (fun h => ?_) g.handles fun h => by rw [g.agenda]
    rw [ht, arrivals_plain _ plain]
  | hold g =>
    refine hs.of_eq (fun h => ?_) ?_ g.concluding
    · rw [g.frame]
    · rw [g.frame]
  | wire g => exact hs.of_eq g.arrivals g.handles g.concluding
  | pass g => exact hs.pass settled lent g

/-! ## What was sent -/

/-- What the requests weigh that are one send. -/
abbrev naming (m : Send) (r : Request) : Nat := if r.send? = some m then 1 else 0

theorem steady_naming (m : Send) : Steady (naming m) where
  scripted c := rfl
  unfinished r := by simp only [naming, Request.send?_unfinished]
  answered r r' o answered := by simp only [naming, answered.send]

/-- Sends in the network were made, every handle is that of one send, and what has arrived was
sent. -/
structure Traced (s : Network) : Prop where
  made : ∀ m, 0 < s.load (naming m) →
    .sent m.handle m.endpoint m.messageId m.payload ∈ s.trace
  single : ∀ h e messageId payload e' messageId' payload',
    .sent h e messageId payload ∈ s.trace → .sent h e' messageId' payload' ∈ s.trace →
      messageId = messageId' ∧ payload = payload'
  arrived : ∀ h, ∀ a ∈ arrivals s.trace h, ∃ e, .sent h e a.messageId a.payload ∈ s.trace

theorem Traced.initial (process : UInt32) : Traced { process } where
  made m hm := by simp [load, hands] at hm
  single h e messageId payload e' messageId' payload' hm := by simp at hm
  arrived h a ha := by simp [arrivals] at ha

/-- No send happens. -/
theorem Traced.of_silent (hs : Traced s) (load : ∀ m, t.load (naming m) ≤ s.load (naming m))
    (sent : ∀ h e messageId payload,
      .sent h e messageId payload ∈ t.trace ↔ .sent h e messageId payload ∈ s.trace)
    (arrived : ∀ h, ∀ a ∈ arrivals t.trace h,
      a ∈ arrivals s.trace h ∨ ∃ e, .sent h e a.messageId a.payload ∈ s.trace) : Traced t := by
  refine ⟨fun m hm => ?_, fun h e messageId payload e' messageId' payload' => ?_, fun h a ha => ?_⟩
  · rw [sent]
    exact hs.made m (hm.trans_le (load m))
  · rw [sent, sent]
    exact hs.single h e messageId payload e' messageId' payload'
  · simp only [sent]
    obtain ha | ha := arrived h a ha
    · exact hs.arrived h a ha
    · exact ha

theorem mem_push_sent (trace : Array Happening) {x : Happening} (h : HandleId) (e : EndpointId)
    (messageId : UInt8) (payload : Bytes) (hx : x ≠ .sent h e messageId payload) :
    .sent h e messageId payload ∈ trace.push x ↔ .sent h e messageId payload ∈ trace :=
  mem_push_of_ne hx.symm

theorem Traced.wire (hs : Traced s) (g : Wire s t) : Traced t := by
  refine hs.of_silent (fun m => g.load.le) (fun h e messageId payload => ?_) fun h a ha => .inl ?_
  · cases g with
    | openEndpoint | markLocal | markRemote => exact mem_push_of_ne (by simp)
    | _ => exact Iff.rfl
  · rwa [g.arrivals h] at ha

theorem Pass.load_naming (g : Pass False s t) (lent : Lent False s) (m : Send) :
    t.load (naming m) ≤ s.load (naming m) ∨
      t.trace = s.trace.push (.sent m.handle m.endpoint m.messageId m.payload) := by
  cases g.transfer lent with
  | kept load => exact .inl (load _ (steady_naming m)).le
  | sent m' handle load gates handles trace =>
    have load := load _ (steady_naming m)
    by_cases hm : m' = m
    · subst hm
      exact .inr trace
    · left
      rw [load, naming, if_neg (by simpa using hm), Nat.add_zero]
  | covered x st r here load =>
    have load := load _ (steady_naming m)
    have same : naming m (.counted st.gate r) = naming m r := rfl
    rw [same] at load
    exact .inl (Nat.add_right_cancel load).le
  | ended r o load | letGo r sober load =>
    have := load _ (steady_naming m)
    omega
  | back r o k lent load =>
    have load := load _ (steady_naming m)
    have less : naming m r.finished ≤ naming m r := by
      unfold naming
      split
      · rename_i hf
        rw [if_pos (Request.send?_finished hf)]
      · exact Nat.zero_le _
    omega

theorem Traced.pass (hs : Traced s) (keyed : Keyed s) (lent : Lent False s)
    (g : Pass False s t) : Traced t := by
  have made (m : Send) (hm : 0 < t.load (naming m)) :
      .sent m.handle m.endpoint m.messageId m.payload ∈ t.trace := by
    obtain less | new := g.load_naming lent m
    · exact (Move.pass g).remembers (hs.made m (hm.trans_le less))
    · rw [new]
      exact Array.mem_push_self
  cases g with
  | send m handle live alone =>
    refine ⟨made, fun h e messageId payload e' messageId' payload' hm hm' => ?_, fun h a ha => ?_⟩
    · have old {e : EndpointId} {messageId : UInt8} {payload : Bytes}
          (hm : .sent m.handle e messageId payload ∈ s.trace) : False := by
        have := (keyed.sent _ _ _ _ hm).2
        rw [handle] at this
        exact Nat.lt_irrefl _ this
      obtain hm | hm := Array.mem_push.1 hm
      · obtain hm' | hm' := Array.mem_push.1 hm'
        · exact hs.single h e messageId payload e' messageId' payload' hm hm'
        · cases hm'
          exact absurd hm old
      · cases hm
        obtain hm' | hm' := Array.mem_push.1 hm'
        · exact absurd hm' old
        · cases hm'
          exact ⟨rfl, rfl⟩
    · rw [arrivals_silent _ rfl] at ha
      obtain ⟨e, he⟩ := hs.arrived h a ha
      exact ⟨e, Array.mem_push.2 (.inl he)⟩
  | accept r m w l dest rest top inner =>
    have send := Request.send?_of_inner? inner
    have here : .sent m.handle m.endpoint m.messageId m.payload ∈ s.trace := by
      refine hs.made m ?_
      have load := load_pop (f := naming m) top rfl
      rw [naming, if_pos send] at load
      omega
    refine ⟨made, fun h e messageId payload e' messageId' payload' hm hm' => ?_, fun h a ha => ?_⟩
    · exact hs.single h e messageId payload e' messageId' payload' (mem_push_ne hm (by simp))
        (mem_push_ne hm' (by simp))
    · rw [arrivals_push] at ha
      obtain old | new := List.mem_append.1 ha
      · obtain ⟨e, he⟩ := hs.arrived h a old
        exact ⟨e, Array.mem_push.2 (.inl he)⟩
      · by_cases hh : m.handle = h
        · subst hh
          have : a = ⟨l, dest, m.messageId, m.payload⟩ := by simpa [Happening.arrival?] using new
          subst this
          exact ⟨m.endpoint, Array.mem_push.2 (.inl here)⟩
        · simp [Happening.arrival?, hh] at new
  | park x st w wk r rest top | switch x st w wk next =>
    refine ⟨made, fun h e messageId payload e' messageId' payload' hm hm' => ?_, fun h a ha => ?_⟩
    · exact hs.single h e messageId payload e' messageId' payload' (mem_push_ne hm (by simp))
        (mem_push_ne hm' (by simp))
    · rw [arrivals_silent _ rfl] at ha
      obtain ⟨e, he⟩ := hs.arrived h a ha
      exact ⟨e, Array.mem_push.2 (.inl he)⟩
  | _ => exact ⟨made, hs.single, hs.arrived⟩

theorem Traced.move (hs : Traced s) (keyed : Keyed s) (lent : Lent False s)
    (g : Move False s t) : Traced t := by
  cases g with
  | aside g =>
    refine hs.of_silent (fun m => g.load.le) (fun h e messageId payload => g.mem_trace rfl)
      fun h a ha => .inl ?_
    obtain ⟨marks, ht, plain⟩ := g.trace
    rwa [ht, arrivals_plain _ plain] at ha
  | hold g =>
    have trace : t.trace = s.trace := by rw [g.frame]
    refine hs.of_silent (fun m => g.load.le) (fun h e messageId payload => ?_) fun h a ha => .inl ?_
    · rw [trace]
    · rwa [trace] at ha
  | wire g => exact hs.wire g
  | pass g => exact hs.pass keyed lent g

/-! ## Runs -/

/-- What is known of sends where the application leaves queued requests alone. -/
structure Conserved (s : Network) : Prop where
  sound : Sound False s
  settled : Settled s
  counting : Counting s
  traced : Traced s

theorem Conserved.initial (process : UInt32) : Conserved { process } :=
  ⟨.initial process, .initial process, .initial process, .initial process⟩

theorem Conserved.moves (hs : Conserved s) (g : Moves False s t) : Conserved t := by
  induction g with
  | refl => exact hs
  | tail _ g ih =>
    exact ⟨ih.sound.move g, ih.settled.move ih.sound.lent g,
      ih.counting.move ih.settled ih.sound.lent g, ih.traced.move ih.sound.keyed ih.sound.lent g⟩

/-- A handle that is set is not set again. -/
theorem told_move {wild : Prop} (lent : Lent wild s) (g : Move wild s t) {o : Outcome}
    (set : told s.handles h = some o) : told t.handles h = some o := by
  cases g with
  | aside g => rw [g.handles, set]
  | hold g => rw [g.frame, set]
  | wire g => rw [g.handles, set]
  | pass g =>
    cases g.transfer lent with
    | kept _ _ handles | covered _ _ _ _ _ _ handles | letGo _ _ _ _ handles => rw [handles, set]
    | sent _ _ _ _ handles => rw [handles, told_push, set]
    | ended _ _ _ _ handles | back _ _ _ _ _ _ handles =>
      rw [handles]
      exact told_endHandle_of_told set

theorem told_moves (hs : Conserved s) (g : Moves False s t) {o : Outcome}
    (set : told s.handles h = some o) : told t.handles h = some o := by
  induction g with
  | refl => exact set
  | tail g' g ih => exact told_move (hs.moves g').sound.lent g ih

/-- While nobody is at work, a send lies in a queue or nowhere. -/
theorem load_bearing (hs : Conserved s) (idle : s.agenda = []) (h : HandleId) :
    s.load (bearing h) = s.queued h := by
  have weighs (rs : List Request) : weight (bearing h) rs = rs.countP (·.bears h) := by
    induction rs with
    | nil => rfl
    | cons r rs ih =>
      rw [weight_cons, List.countP_cons, ih, Nat.add_comm, bearing, Bool.toNat, Bool.cond_eq_ite]
  have held : s.held.sum (fun _ r => bearing h r) = 0 := by
    refine Table.sum_eq_zero_iff.2 fun k r hr => ?_
    have sober := (hs.sound.lent.sober.resolve_left id).1 k r hr
    rw [bearing, Request.bears_of_send? sober, Bool.toNat_false]
  simp only [load, weighs, held, idle, hands_nil, List.countP_nil, queued, Nat.add_zero]

/-- In every network that runs lead to in which the application takes no queued requests into its
own hands, each send that was made waits in exactly one queue and nothing of it has gone out, or
exactly one message with its id and payload was put into exactly one inbox, or it failed and no
message of it ever was; what its handle tells then, it tells for ever. -/
theorem fate_of_sent (hr : Reachable (fun c => c.takesQueued = false) s) {e : EndpointId}
    {messageId : UInt8} {payload : Bytes} (sent : .sent h e messageId payload ∈ s.trace) :
    Fate s h messageId payload ∧
    ∀ t o, s.status h = some o → Run (fun c => c.takesQueued = false) s t →
      t.status h = some o := by
  obtain ⟨process, leads⟩ := leads_of_reachable (fun _ hc => .inr hc) hr
  have hs := (Conserved.initial process).moves leads.moves
  have idle := leads.rested.idle
  refine ⟨?_, fun t o set run => ?_⟩
  · have known := (hs.sound.keyed.sent _ _ _ _ sent).2
    have once := hs.settled.once h
    rw [if_pos known, load_bearing hs idle] at once
    have counts := hs.counting h
    rw [idle, concluding, List.countP_nil, Nat.add_zero] at counts
    cases ht : told s.handles h with
    | none =>
      rw [ht] at once counts
      exact .waiting ht (List.length_eq_zero_iff.1 (by simpa using counts)) (by simpa using once)
    | some o =>
      rw [ht] at once counts
      have gone : s.queued h = 0 := by simpa using once
      cases o with
      | error why => exact .failed why ht (List.length_eq_zero_iff.1 (by simpa using counts)) gone
      | ok _ =>
        obtain ⟨a, ha⟩ := List.length_eq_one_iff.1 (show (arrivals s.trace h).length = 1 by
          simpa using counts)
        obtain ⟨e', he'⟩ := hs.traced.arrived h a (by simp [ha])
        obtain ⟨hid, hpayload⟩ := hs.traced.single _ _ _ _ _ _ _ sent he'
        refine .arrived a.link a.dest ht ?_ gone
        rw [ha, hid, hpayload]
  · have leads' := leads.rested.run (fun _ hc => .inr hc) run
    exact told_moves hs leads'.moves set

/-- The sends that were made, in order. -/
def sends (s : Network) : List Send :=
  s.trace.toList.filterMap fun
    | .sent handle endpoint messageId payload => some { endpoint, messageId, payload, handle }
    | _ => none

theorem sent_of_mem_sends {m : Send} (hm : m ∈ s.sends) :
    .sent m.handle m.endpoint m.messageId m.payload ∈ s.trace := by
  obtain ⟨e, he, hm⟩ := List.mem_filterMap.1 hm
  split at hm
  · cases hm
    exact Array.mem_toList_iff.1 he
  · cases hm

/-- A pair whose first worker has sent three messages, for two of which there were credits. -/
def sentThrice : Option Network :=
  Call.runAll { process := 1 } (Call.pair 3 ++ List.replicate 3 (.sendMessage 0 7 [1, 2]))

theorem fate_of_sent_thrice : ∃ s, sentThrice = some s ∧
    Fate s 1 7 [1, 2] ∧ Fate s 3 7 [1, 2] ∧ s.status 3 = none := by
  have sober : ∀ c ∈ Call.pair 3 ++ List.replicate 3 (.sendMessage 0 7 [1, 2]),
      c.takesQueued = false := by decide +kernel
  have worked : (sentThrice.map fun s => (s.sends.tail, s.status 3)) =
      some ([1, 2, 3].map fun handle => ⟨0, 7, [1, 2], handle⟩, none) := by decide +kernel
  obtain ⟨s, hs, worked⟩ := Option.map_eq_some_iff.1 worked
  obtain ⟨made, status⟩ := Prod.mk.inj worked
  have reached : Reachable (fun c => c.takesQueued = false) s := .of_runAll sober hs
  have sent (handle : HandleId) (hh : handle ∈ [1, 2, 3]) :
      .sent handle 0 7 [1, 2] ∈ s.trace := by
    refine sent_of_mem_sends (m := ⟨0, 7, [1, 2], handle⟩) (List.mem_of_mem_tail ?_)
    rw [made]
    exact List.mem_map.2 ⟨handle, hh, rfl⟩
  exact ⟨s, hs, (fate_of_sent reached (sent 1 (by simp))).1,
    (fate_of_sent reached (sent 3 (by simp))).1, status⟩

end Network

end Wiring
