import Mathlib
import Wiring.Proofs.Lifetime
import Wiring.Proofs.Service

/-!
# The queue of a link in the course of a run

What is done in the line at a link is told step by step, and what an application sees of it is in the
trace. Over a whole run the requests that joined the line come to their ends in the order in which
they joined, each to one of its own, and they are attempted only while a credit is free.
-/
namespace Wiring

open Network

variable {fits : Network → Call → Prop} {s : Network} {l : LinkId} {ds : List Deal} {c : Call}

/-! ## What is seen of it -/

/-- The name of the application's request inside all covers. -/
def Request.name? (r : Request) : Option String :=
  match r.inner? with
  | some (.scripted c) => some c.name
  | _ => none

/-- What an application sees of what is done with its requests. -/
def Deal.seen : Deal → List Happening
  | .starved r => r.name?.toList.map (.attempted · (.error .noResource))
  | .finished r o => r.name?.toList.map (.attempted · o)
  | .purged r | .cancelled r => r.name?.toList.map .cancelled
  | .joined _ | .taken _ => []

namespace Network

theorem cancel_seen (s : Network) (r : Request) :
    (s.cancel r).trace.toList = s.trace.toList ++ r.name?.toList.map .cancelled := by
  induction r generalizing s with
  | scripted c => simp [cancel, note, Request.name?, Request.inner?]
  | send m => simp [cancel, complete, Request.name?, Request.inner?]
  | counted g inner ih => exact ih (s.leaveGate g)
  | spent g => simp [cancel, Request.name?, Request.inner?]

theorem foldl_cancel_seen (rs : List Request) (s : Network) :
    (rs.foldl cancel s).trace.toList =
      s.trace.toList ++ rs.flatMap fun r => r.name?.toList.map .cancelled := by
  induction rs generalizing s with
  | nil => simp
  | cons r rs ih => rw [List.foldl_cons, ih, cancel_seen, List.flatMap_cons, List.append_assoc]

theorem recordAttempt_seen (s : Network) (r : Request) (o : Outcome) :
    (s.recordAttempt r o).trace.toList = s.trace.toList ++ r.name?.toList.map (.attempted · o) := by
  have gates (u : Network) : (r.gates.foldl leaveGate u).trace = u.trace := by
    rw [foldl_leaveGate]
  unfold recordAttempt Request.name?
  rcases r.inner?_cases with ⟨c, h⟩ | ⟨m, h⟩ | h
  · simp only [h]
    split
    · simp [note]
    · simp [gates, note]
  · simp only [h]
    split
    · simp
    · simp [gates, complete]
  · simp only [h]
    split
    · simp
    · simp [gates]

theorem enqueue_trace (s : Network) (k : LinkId) (r : Request) :
    (s.enqueue k r).1.trace = s.trace := by
  unfold enqueue
  split
  · rfl
  · split <;> rfl

/-- Where something joins a queue, nothing is seen of it. -/
theorem offer_trace (c : Carrier) (r : Request) (joins : s.joins l c r ≠ []) :
    (s.offer c r).1.trace = s.trace := by
  unfold Network.joins at joins
  unfold offer at joins ⊢
  split
  · exact enqueue_trace s _ r
  · split
    · rfl
    · rename_i x _ st _
      split
      · split
        · rfl
        · exact enqueue_trace (s.enterGate st.gate) _ _
      · split
        · rfl
        · rename_i w _ _ _
          simp [*, queue_of_links (links_park s x st w r)] at joins
        · exact enqueue_trace s _ r
        · rfl


theorem flatMap_seen_cancelled (rs : List Request) {close : Request → Deal}
    (seen : ∀ r, (close r).seen = r.name?.toList.map .cancelled) :
    (rs.map close).flatMap Deal.seen = rs.flatMap fun r => r.name?.toList.map .cancelled := by
  rw [List.flatMap_map]
  exact List.flatMap_congr fun r _ => seen r

theorem conclude_seen (s : Network) (r : Request) (o : Outcome) (l : LinkId) :
    (s.conclude r o (.queue l)).trace.toList =
      s.trace.toList ++ (s.dealsOf l (.conclude r o (.queue l))).flatMap Deal.seen := by
  have noted := recordAttempt_seen s r o
  simp only [dealsOf, if_true, List.flatMap_cons, List.flatMap_nil, List.append_nil, conclude]
  by_cases starved : o.isNoResource = true
  · rw [if_pos starved, if_pos starved, Deal.seen, ← noResource_of_isNoResource starved]
    exact noted
  · rw [if_neg starved, if_neg starved, Deal.seen]
    simp only [finish, discard_finished]
    exact noted

theorem purge_seen (s : Network) (l : LinkId) : (s.purge (.link l)).trace.toList =
    s.trace.toList ++ (s.dealsOf l (.purge (.link l))).flatMap Deal.seen := by
  have drained : (s.drain l).1.trace = s.trace := by
    unfold drain
    split <;> rfl
  have seen := foldl_cancel_seen (s.drain l).2 (s.drain l).1
  rw [drained] at seen
  rw [dealsOf, if_pos rfl, flatMap_seen_cancelled _ fun _ => rfl]
  exact seen

theorem release_seen (free : s.isHeld (.link l) = false) : (s.release (.link l)).trace.toList =
    s.trace.toList ++ (s.dealsOf l (.release (.link l))).flatMap Deal.seen := by
  rw [release, if_neg (by simp [free]), dealsOf, if_pos ⟨rfl, free⟩,
    flatMap_seen_cancelled _ fun _ => rfl, retire, retireLink]
  cases here : s.links.get? l with
  | none => simp [Network.queue, here]
  | some lk =>
    rw [queue_of_get? here]
    exact foldl_cancel_seen lk.queue _

/-- What is seen of a job is what it does in the line, if it does anything there. -/
theorem perform_seen (s : Network) (j : Job) (does : s.dealsOf l j ≠ []) :
    (s.perform j).trace.toList = s.trace.toList ++ (s.dealsOf l j).flatMap Deal.seen := by
  cases j with
  | add c r =>
    have quiet := offer_trace c r does
    have silent : (s.joins l c r).flatMap Deal.seen = [] := by
      refine List.flatMap_eq_nil_iff.2 fun d hd => ?_
      rcases List.mem_map.1 hd with ⟨r', -, rfl⟩
      rfl
    rw [dealsOf, silent, List.append_nil, perform]
    generalize s.offer c r = out at quiet ⊢
    rcases out with ⟨v, back | back⟩ <;> exact congrArg Array.toList quiet
  | dispatch k =>
    rcases dequeue_cases s k with idle | ⟨lk, r, waiting, here, free, front, taken⟩
    · simp [dealsOf, idle] at does
    · have silent : (s.dealsOf l (.dispatch k)).flatMap Deal.seen = [] := by
        simp only [dealsOf, taken]
        split <;> rfl
      rw [silent, List.append_nil, perform, dispatch, taken]
      rfl
  | conclude r o w =>
    cases w with
    | queue k =>
      by_cases own : k = l
      · exact own ▸ conclude_seen s r o k
      · simp [dealsOf, own] at does
    | _ => simp [dealsOf] at does
  | purge c =>
    cases c with
    | link k =>
      by_cases own : k = l
      · exact own ▸ purge_seen s k
      · simp [dealsOf, own] at does
    | stub x => simp [dealsOf] at does
  | release ref =>
    cases ref with
    | link k =>
      by_cases own : k = l ∧ s.isHeld (.link k) = false
      · exact own.1 ▸ release_seen own.2
      · simp [dealsOf, own] at does
    | _ => simp [dealsOf] at does
  | _ => simp [dealsOf] at does

theorem step_seen (calm : s.violation = none) (does : s.deals l ≠ []) :
    s.step.trace.toList = s.trace.toList ++ (s.deals l).flatMap Deal.seen := by
  unfold deals at does ⊢
  cases top : s.agenda with
  | nil => simp [top] at does
  | cons j rest =>
    simp only [top] at does
    rw [step_eq top calm]
    exact perform_seen { s with agenda := rest } j does

end Network

/-! ## Operations -/

/-- What an operation does in the line at a link at once. -/
def Call.deals (s : Network) (l : LinkId) : Call → List Deal
  | .offerOnce c source _ =>
    match s.takeRequest source with
    | (t, some r) => t.joins l c r
    | (_, none) => []
  | .purgeQueue (.link k) _ => if k = l then (s.queue k).map .purged else []
  | _ => []

namespace Network

/-- What is offered joins the line, unless it is handed back. -/
theorem offerOnce_turns (s : Network) (c : Carrier) (source : Source) (kept : Bool) (l : LinkId) :
    Turns ((s.queue l).map .waiting) (Call.deals s l (.offerOnce c source kept))
      (((s.offerOnce c source kept).1.queue l).map .waiting) := by
  have taken := queue_of_links (takeRequest_links s source) l
  simp only [offerOnce, Call.deals]
  generalize s.takeRequest source = out at taken ⊢
  rcases out with ⟨t, r | r⟩
  · exact .of_eq (congrArg (List.map Place.waiting) taken)
  · have turns := offer_turns t c r l []
    rw [List.nil_append, List.nil_append, taken] at turns
    simp only
    generalize t.joins l c r = ds at turns ⊢
    generalize t.offer c r = out at turns ⊢
    rcases out with ⟨u, back | back⟩
    · exact turns
    · cases kept
      · simp only [Bool.false_eq_true, if_false, queue_of_links (links_discard u back) l]
        exact turns
      · exact turns

/-- Purging a queue takes all that wait in it. -/
theorem purgeQueue_turns (s : Network) (k : LinkId) (kept : Bool) (l : LinkId) :
    Turns ((s.queue l).map .waiting) (Call.deals s l (.purgeQueue (.link k) kept))
      (((s.purgeQueue (.link k) kept).1.queue l).map .waiting) := by
  have emptied : (s.purgeQueue (.link k) kept).1.queue l = if k = l then [] else s.queue l := by
    rw [← drain_queue s k l]
    cases kept
    · exact queue_of_links (links_foldl links_cancel _ _) l
    · exact queue_of_links (by simp only [purgeQueue, if_true, keepRequests_held]) l
  rw [emptied, Call.deals]
  by_cases same : k = l
  · rw [if_pos same, if_pos same, same]
    exact Turns.clear .purge _
  · rw [if_neg same, if_neg same]
    exact .refl

theorem start_turns (idle : s.agenda = []) (c : Call) (l : LinkId) :
    Turns (s.line l) (c.deals s l) ((c.start s).line l) := by
  have rested : Vacant s.agenda := by simp [Vacant, idle]
  rw [line_free rested, line_free (Call.start_free idle c)]
  have other (spares : c.handlesQueue = false) (none : c.deals s l = []) :
      Turns ((s.queue l).map .waiting) (c.deals s l) (((c.start s).queue l).map .waiting) := by
    rw [none, start_queue s spares]
    exact .refl
  cases c with
  | offerOnce c source kept => exact offerOnce_turns s c source kept l
  | purgeQueue c kept =>
    cases c with
    | link k => exact purgeQueue_turns s k kept l
    | stub x => exact other rfl rfl
  | _ => exact other rfl rfl

end Network

/-! ## Runs -/

namespace Network

/-- What work does in the line at a link, one step after another. -/
def dealsWithin (l : LinkId) : (fuel : Nat) → Network → List Deal
  | 0, _ => []
  | fuel + 1, s => s.deals l ++ dealsWithin l fuel s.step

theorem dealsWithin_snoc (l : LinkId) (n : Nat) (s : Network) :
    s.dealsWithin l (n + 1) = s.dealsWithin l n ++ (work n s).deals l := by
  induction n generalizing s with
  | zero => simp [dealsWithin, work]
  | succ n ih => rw [dealsWithin, ih, work_step, dealsWithin, List.append_assoc]

end Network

/-- What is done in the line at a link in the course of a run, up to a state that it visits. -/
inductive Account (fits : Network → Call → Prop) (l : LinkId) : List Deal → Network → Prop
  | initial (process : UInt32) : Account fits l [] { process }
  | step {ds : List Deal} {s : Network} (before : Account fits l ds s)
      (visited : Visited fits s.step) : Account fits l (ds ++ s.deals l) s.step
  | start {ds : List Deal} {s : Network} (c : Call) (before : Account fits l ds s)
      (journey : Journey fits s) (fit : fits s c) (permitted : c.Permitted s)
      (calm : (c.start s).violation = none) : Account fits l (ds ++ c.deals s l) (c.start s)
  | keep {ds : List Deal} {s : Network} (ref : Ref) (before : Account fits l ds s)
      (idle : s.agenda = []) (visited : Visited fits (s.keep ref)) : Account fits l ds (s.keep ref)

namespace Account

theorem visited (h : Account fits l ds s) : Visited fits s := by
  cases h with
  | initial process => exact .between (.start process)
  | step before visited => exact visited
  | start c before journey fit permitted calm => exact .within c 0 journey fit permitted calm
  | keep ref before idle visited => exact visited

/-- At the start of a run nobody stands in the line, and each step does in it what is to be
expected. -/
theorem turns (h : Account fits l ds s) : Turns [] ds (s.line l) := by
  induction h with
  | initial process => exact .refl
  | step before visited ih => exact ih.trans (step_turns before.visited visited.calm l)
  | start c before journey fit permitted calm ih =>
    exact ih.trans (start_turns journey.rested.idle c l)
  | keep ref before idle visited ih =>
    rw [line_of_eq (by unfold Network.keep; split <;> rfl) (queue_of_links (links_keep _ ref) l)]
    exact ih

/-- What work does in the line is told step by step. -/
theorem work (h : Account fits l ds (c.start s)) (journey : Journey fits s) (fit : fits s c)
    (permitted : c.Permitted s) {n : Nat} (calm : (Network.work n (c.start s)).violation = none) :
    Account fits l (ds ++ (c.start s).dealsWithin l n) (Network.work n (c.start s)) := by
  induction n with
  | zero => exact (List.append_nil ds).symm ▸ h
  | succ n ih =>
    rw [work_then_step] at calm ⊢
    rw [dealsWithin_snoc, ← List.append_assoc]
    refine (ih (step_violation calm)).step ?_
    rw [← work_then_step] at calm ⊢
    exact .within c (n + 1) journey fit permitted calm

end Account

/-- There is an account up to every state between two operations. -/
theorem Journey.account (h : Journey fits s) (l : LinkId) : ∃ ds, Account fits l ds s := by
  induction h with
  | start process => exact ⟨[], .initial process⟩
  | @call s t c before fit permitted ran ih =>
    rcases ih with ⟨ds, told⟩
    have ended : Journey fits t := .call c before fit permitted ran
    rcases Call.run_start ran ended.rested.idle ended.rested.calm with ⟨n, ends⟩
    have started : Account fits l (ds ++ c.deals s l) (c.start s) :=
      .start c told before fit permitted (work_violation ends.calm)
    have worked := started.work before fit permitted ends.calm
    rcases ends.held with rfl | ⟨ref, rfl⟩
    · exact ⟨_, worked⟩
    · exact ⟨_, worked.keep ref ends.idle (.between ended)⟩

/-- And up to every state in the middle of one. -/
theorem Visited.account (h : Visited fits s) (l : LinkId) : ∃ ds, Account fits l ds s := by
  cases h with
  | between h => exact h.account l
  | within c n before fit permitted calm =>
    rcases before.account l with ⟨ds, told⟩
    have started := Account.start c told before fit permitted (work_violation calm)
    exact ⟨_, started.work before fit permitted calm⟩

namespace Network

/-! ## Giving to a queue, and purging it -/

/-- A link that lives hands a request back if nothing waits and a credit is free, and otherwise it
puts the request at the end of its queue. -/
theorem offer_link {lk : Link} (here : s.links.get? l = some lk) (r : Request) :
    s.offer (.link l) r = if lk.queue = [] ∧ lk.credits ≠ 0 then (s, some r) else
      ({ s with links := s.links.set l { lk with queue := lk.queue ++ [r] } }, none) := by
  simp only [offer, enqueue, here, Bool.and_eq_true, List.isEmpty_iff, bne_iff_ne]

theorem keepRequests_get? (s : Network) (rs : List Request) :
    (s.keepRequests rs).2.map (s.keepRequests rs).1.held.get? = rs.map some := by
  have later (rs : List Request) (held : Table Request) : held.Keeps (rs.foldl Table.push held) := by
    induction rs generalizing held with
    | nil => exact .refl held
    | cons r rs ih => exact ((Table.Keeps.refl held).push r).trans (ih (held.push r))
  induction rs generalizing s with
  | nil => rfl
  | cons r rs ih =>
    have first : ((s.keepRequest r).1.keepRequests rs).1.held.get? s.held.next = some r := by
      rw [keepRequests_held]
      refine (later rs _).get? ?_
      rw [keepRequest, Table.get?_push, if_pos rfl]
    simp only [keepRequests, List.map_cons]
    exact congrArg₂ List.cons first (ih (s.keepRequest r).1)

/-- A link that is gone has no line. -/
theorem line_of_gone (sound : Sound True s) (gone : s.links.contains l = false) : s.line l = [] := by
  have empty : s.queue l = [] := by
    simp only [Table.contains, Option.isSome_eq_false_iff, Option.isNone_iff_eq_none] at gone
    rw [queue, gone]
    rfl
  have idle : serving l s.agenda = [] := by
    by_contra busy
    have live := sound.live _ (isHeld_of_release (escort_of_serving sound.escorted busy))
    rw [isLive, gone] at live
    cases live
  rw [line, empty, idle]
  rfl

/-! ## The queue of a link -/

/-- How the queue of a link serves the requests that it is given, up to a state that a run visits. -/
structure Serves (fits : Network → Call → Prop) (l : LinkId) (s : Network) : Prop where
  /-- What has been done in the line can be told. -/
  told : ∃ ds, Account fits l ds s
  /-- However it is told, every request that joined the line has come to one end, or it still stands in
  the line, and all in the order in which they joined. Once the link is gone, nobody stands there. -/
  order : ∀ ds, Account fits l ds s → ∃ (log : Logbook) (ended joined : Nat),
    log.map Prod.snd = ds ∧ log.InOrder ended joined (s.line l) ∧
      (s.links.contains l = false → ended = joined)
  /-- A request is handed back exactly when nothing waits and a credit is free. -/
  adds : ∀ lk r, s.links.get? l = some lk →
    s.offer (.link l) r = if lk.queue = [] ∧ lk.credits ≠ 0 then (s, some r) else
      ({ s with links := s.links.set l { lk with queue := lk.queue ++ [r] } }, none)
  /-- Those who purge the queue are handed what waits in it, in order. -/
  purges : ∀ t n held, s.purgeQueue (.link l) true = (t, .ok (n, held)) →
    n = (s.queue l).length ∧ held.map t.held.get? = (s.queue l).map some
  /-- Its requests are attempted only while a credit is free. -/
  attempts : ∀ r rest, s.agenda = .attempt r (.queue l) :: rest →
    ∃ lk, s.links.get? l = some lk ∧ lk.credits ≠ 0
  /-- What is done in the line is what an application sees. -/
  seen : s.deals l ≠ [] → s.step.trace.toList = s.trace.toList ++ (s.deals l).flatMap Deal.seen

/-- Wherever a run comes by, every request that was given to the queue of a link has been attempted
until its first answer other than a lack of resources, or it has been purged, or it was cancelled when
the link went, unless it still stands in the line; and this in the order of the queue. -/
theorem queue_serves (h : Visited fits s) (l : LinkId) : Serves fits l s where
  told := h.account l
  order ds told := by
    rcases told.turns.inOrder with ⟨log, ended, joined, same, ordered⟩
    refine ⟨log, ended, joined, same, ordered, fun gone => ?_⟩
    rcases h.moves with ⟨process, -, fit⟩
    have counted := ordered.counted
    rw [line_of_gone fit.sound gone] at counted
    exact counted.symm
  adds _ r here := offer_link here r
  purges t n held ran := by
    simp only [purgeQueue, if_true, Prod.mk.injEq, Except.ok.injEq] at ran
    rcases ran with ⟨rfl, rfl, rfl⟩
    rw [drain_queued]
    exact ⟨rfl, keepRequests_get? _ _⟩
  attempts r rest top := h.primed.credit r l rest top
  seen := step_seen h.calm

/-! ## A queue from its first request to its end -/

/-- Runs operations one after another, as long as they are permitted, meet no violation and come to
their ends with the given fuel, and tells what is done in the line at a link. -/
def tell (l : LinkId) (fuel : Nat) : Network → List Call → Option (Network × List Deal)
  | s, [] => some (s, [])
  | s, c :: cs =>
    if c.Permitted s ∧ (work fuel (c.start s)).agenda.isEmpty = true then
      match c.run s with
      | (t, .ok ()) => (tell l fuel t cs).map fun x =>
        (x.1, c.deals s l ++ dealsWithin l fuel (c.start s) ++ x.2)
      | (_, .error _) => none
    else none

/-- What is told of a run is an account of it. -/
theorem account_of_tell {cs : List Call} {fuel : Nat} {x : Network × List Deal}
    (journey : Journey (fun _ _ => True) s) (told : Account (fun _ _ => True) l ds s)
    (tells : tell l fuel s cs = some x) :
    Journey (fun _ _ => True) x.1 ∧ Account (fun _ _ => True) l (ds ++ x.2) x.1 := by
  induction cs generalizing s ds x with
  | nil =>
    cases tells
    exact ⟨journey, (List.append_nil ds).symm ▸ told⟩
  | cons c cs ih =>
    unfold tell at tells
    split at tells
    · rename_i ok
      rcases ok with ⟨permitted, idle⟩
      split at tells
      · rename_i t ran
        rcases Option.map_eq_some_iff.1 tells with ⟨y, later, rfl⟩
        have ended : Journey (fun _ _ => True) t := .call c journey trivial permitted ran
        rcases Call.run_start ran ended.rested.idle ended.rested.calm with ⟨n, ends⟩
        -- the fuel leads to the end of the work, too
        have same : work fuel (c.start s) = work n (c.start s) := by
          rw [← work_nil (List.isEmpty_iff.1 idle) n, ← work_add, Nat.add_comm, work_add,
            work_nil ends.idle]
        have calm : (work fuel (c.start s)).violation = none := same ▸ ends.calm
        have worked := (Account.start c told journey trivial permitted (work_violation calm)).work
          journey trivial permitted calm
        have there : Account (fun _ _ => True) l
            (ds ++ (c.deals s l ++ dealsWithin l fuel (c.start s))) t := by
          rw [← List.append_assoc]
          rcases ends.held with rfl | ⟨ref, rfl⟩
          · exact same ▸ worked
          · rw [← same]
            exact worked.keep ref (List.isEmpty_iff.1 idle) (.between (same ▸ ended))
        rw [← List.append_assoc]
        exact ih ended there later
      · cases tells
    · cases tells

/-- The first request runs out of resources once, the second one sends over the link, and the other two
would succeed. -/
def callers : Fin 4 → Script
  | 0 => { name := "first", answers := [(1, .error .noResource)] }
  | 1 => { name := "second", sending := some ⟨.link 0, 5, [2]⟩ }
  | 2 => { name := "third" }
  | 3 => { name := "fourth" }

/-- Three requests stand in line at a link whose only credit is out with a message, until the message
is delivered. The second one takes the credit, so the third one is still there when the queue is purged.
The fourth one comes after that, and then the link goes. -/
def queueing : List Call :=
  let call (n : Fin 4) : Call := .offerOnce (.link 0) (.fresh (callers n)) false
  [.openFabric, .openInterface 0 { credits := 1 }, .openInterface 0 { credits := 1 },
    .createConnectedLink 0 (Bytes.word 1) (Bytes.word 2), .operate (.link 0) (.bulk 5 [1]),
    call 0, call 1, call 2, .progress 0, .progress 1, .progress 0, .progress 0,
    .purgeQueue (.link 0) true, call 3, .drop (.link 0)]

/-- What becomes of them. -/
def queueingDeals : List Deal :=
  let caller (n : Fin 4) : Request := .scripted (callers n)
  [.joined (caller 0), .joined (caller 1), .joined (caller 2),
    .taken (caller 0), .starved (caller 0).taken,
    .taken (caller 0).taken, .finished (caller 0).taken.taken (.ok ()),
    .taken (caller 1), .finished (caller 1).taken (.ok ()),
    .purged (caller 2), .joined (caller 3), .cancelled (caller 3)]

/-- All of them come to their ends, one after another. -/
theorem queue_serves_callers : ∃ (s : Network) (log : Logbook),
    tell 0 16 { process := 1 } queueing = some (s, queueingDeals) ∧ Serves (fun _ _ => True) 0 s ∧
    log.map Prod.snd = queueingDeals ∧ log.InOrder 4 4 [] := by
  have known : (tell 0 16 { process := 1 } queueing).map (fun x =>
      decide (x.2 = queueingDeals ∧ x.1.line 0 = [] ∧ x.1.links.contains 0 = false)) = some true := by
    decide +kernel
  rcases Option.map_eq_some_iff.1 known with ⟨⟨s, ds⟩, tells, known⟩
  rcases of_decide_eq_true known with ⟨rfl, empty, gone⟩
  rcases account_of_tell (.start 1) (.initial 1) tells with ⟨journey, told⟩
  have serves : Serves (fun _ _ => True) 0 s := queue_serves (.between journey) 0
  rcases serves.order _ told with ⟨log, ended, joined, same, ordered, all⟩
  have counted : joined = 4 := by
    have numbers := congrArg List.length ordered.joins
    have four : (queueingDeals.filter Deal.isJoin).length = 4 := by decide +kernel
    rw [List.length_map, List.length_range] at numbers
    rw [← numbers, ← four, ← List.nil_append queueingDeals, ← same, List.filter_map, List.length_map]
    rfl
  rw [all gone, counted, empty] at ordered
  exact ⟨s, log, tells, serves, same, ordered⟩

end Network

end Wiring
