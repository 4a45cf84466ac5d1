import Mathlib
import Wiring.Proofs.Line
import Wiring.Proofs.Queues

/-!
# How the queue of a link is served

Requests stand in line at a link: the one that is being attempted, if there is one, and then those in
the queue. Whatever an application does and whatever work comes of it, things are done in this line in
order: requests join at its end, and the first one is attempted, finished, purged or cancelled.
-/
namespace Wiring

namespace Turns

theorem one {a b : List Place} {d : Deal} (h : Turn a d b) : Turns a [d] b := .tail .refl h

theorem of_eq {a b : List Place} (h : b = a) : Turns a [] b := h ▸ .refl

theorem joins (a : List Place) (rs : List Request) :
    Turns a (rs.map .joined) (a ++ rs.map .waiting) := by
  induction rs generalizing a with
  | nil => exact .of_eq (by simp)
  | cons r rs ih =>
    have others := ih (a ++ [.waiting r])
    rw [List.append_assoc] at others
    exact (one (.join r a)).trans others

/-- All that wait come to their ends, from the front. -/
theorem clear {end_ : Request → Deal}
    (turn : ∀ r places, Turn (.waiting r :: places) (end_ r) places) (rs : List Request) :
    Turns (rs.map .waiting) (rs.map end_) [] := by
  induction rs with
  | nil => exact .refl
  | cons r rs ih => exact (one (turn r _)).trans ih

end Turns

namespace Network

variable {s t u : Network} {l : LinkId} {rest : List Job}

/-! ## The line at a link -/

/-- The requests of a link's queue that are being attempted. -/
def serving (l : LinkId) (jobs : List Job) : List Request :=
  jobs.filterMap fun j => j.serving?.bind fun x => if x.1 = l then some x.2 else none

/-- What is being attempted stands before what waits in the queue. -/
def line (s : Network) (l : LinkId) : List Place :=
  (serving l s.agenda).map .served ++ (s.queue l).map .waiting

/-- The requests that join the queue of a link when a carrier is given one. -/
def joins (s : Network) (l : LinkId) (c : Carrier) (r : Request) : List Deal :=
  (((s.offer c r).1.queue l).drop (s.queue l).length).map .joined

/-- What a job does in the line at a link. -/
def dealsOf (s : Network) (l : LinkId) : Job → List Deal
  | .add c r => s.joins l c r
  | .dispatch k => if k = l then (s.dequeue k).2.toList.map .taken else []
  | .conclude r o (.queue k) =>
    if k = l then [if o.isNoResource then .starved r else .finished r o] else []
  | .purge (.link k) => if k = l then (s.drain k).2.map .purged else []
  | .release (.link k) =>
    if k = l ∧ s.isHeld (.link k) = false then (s.queue k).map .cancelled else []
  | _ => []

/-- What the next step does in the line at a link. -/
def deals (s : Network) (l : LinkId) : List Deal :=
  match s.agenda with
  | [] => []
  | j :: rest => dealsOf { s with agenda := rest } l j

theorem serving_cons (l : LinkId) (j : Job) (rest : List Job) : serving l (j :: rest) =
    (j.serving?.bind fun x => if x.1 = l then some x.2 else none).toList ++ serving l rest := by
  unfold serving
  rw [List.filterMap_cons]
  split <;> simp_all

theorem serving_append (l : LinkId) (jobs rest : List Job) :
    serving l (jobs ++ rest) = serving l jobs ++ serving l rest := List.filterMap_append

theorem serving_free (free : Vacant rest) : serving l rest = [] := by
  refine List.filterMap_eq_nil_iff.2 fun j hj => ?_
  rw [free j hj, Option.bind_none]

theorem serving_leaves (h : Leaves Job.isMinor s t) (l : LinkId) : serving l t.agenda = serving l s.agenda := by
  rcases h with ⟨jobs, ha, minor⟩
  rw [ha, serving_append, serving_free fun j hj => Job.serving?_of_minor (minor j hj), List.nil_append]

/-- Who is being attempted is escorted. -/
theorem escort_of_serving (h : Escorted rest) (busy : serving l rest ≠ []) :
    .release (.link l) ∈ rest := by
  induction rest with
  | nil => exact absurd rfl busy
  | cons j rest ih =>
    by_cases below : serving l rest = []
    · rw [serving_cons, below, List.append_nil] at busy
      refine List.mem_cons_of_mem _ (h.1 l ?_)
      cases j with
      | attempt r w | conclude r o w =>
        cases w with
        | queue k =>
          by_cases same : k = l
          · exact congrArg some same
          · simp [Job.serving?, same] at busy
        | _ => simp [Job.serving?] at busy
      | _ => simp [Job.serving?] at busy
    · exact List.mem_cons_of_mem _ (ih h.2 below)

/-! ## What jobs do in the line -/

theorem offer_appends (s : Network) (c : Carrier) (r : Request) (l : LinkId) :
    s.queue l <+: (s.offer c r).1.queue l := by
  have queued (s : Network) (k : LinkId) (r : Request) : s.queue l <+: (s.enqueue k r).1.queue l := by
    unfold enqueue
    split
    · exact List.prefix_rfl
    · rename_i lk here
      split
      · exact List.prefix_rfl
      · simp only [queue, Table.get?_set_of here]
        split
        · rename_i same
          rw [← same, here]
          exact List.prefix_append _ _
        · exact List.prefix_rfl
  unfold offer
  split
  · exact queued s _ r
  · split
    · exact List.prefix_rfl
    · rename_i x _ st _
      split
      · split
        · exact List.prefix_rfl
        · exact queued (s.enterGate st.gate) _ _
      · split
        · exact List.prefix_rfl
        · rename_i w _ _ _
          rw [queue_of_links (links_park s x st w r)]
        · exact queued s _ r
        · exact List.prefix_rfl

/-- What is offered joins the line at its end, if it is taken over. -/
theorem offer_turns (s : Network) (c : Carrier) (r : Request) (l : LinkId) (places : List Place) :
    Turns (places ++ (s.queue l).map .waiting) (s.joins l c r)
      (places ++ ((s.offer c r).1.queue l).map .waiting) := by
  have joined := Turns.joins (places ++ (s.queue l).map .waiting)
    (((s.offer c r).1.queue l).drop (s.queue l).length)
  rwa [List.append_assoc, ← List.map_append,
    List.prefix_iff_eq_append.1 (offer_appends s c r l)] at joined

end Network

/-- Work that leaves every queue as it is. -/
def Job.sparesQueues : Job → Bool
  | .release (.link _) | .add _ _ | .dispatch _ | .conclude _ _ (.queue _) | .purge (.link _) => false
  | _ => true

namespace Network

variable {s t : Network} {l : LinkId} {rest : List Job}

theorem perform_queue {j : Job} (spares : j.sparesQueues = true)
    (recorded : ∀ h m, j = .handle h m → Recorded True s) (l : LinkId) :
    (s.perform j).queue l = s.queue l := by
  cases j with
  | release ref =>
    refine queue_of_links ?_ l
    unfold perform release
    simp only
    split
    · rfl
    · exact links_retire s ref fun k same => by subst same; cases spares
  | discard r => exact queue_of_links (links_discard s r) l
  | attempt r w => exact attempt_queue s r w l
  | conclude r o w =>
    exact queue_of_links (links_conclude s r o w fun k same => by subst same; cases spares) l
  | replayed w | recount n | noteForward log o | dispatchLinks i | runRegistry r => rfl
  | switchover x => exact queue_of_links (links_switchover s x) l
  | run x => exact queue_of_links (links_run s x) l
  | deliver i left =>
    unfold perform deliver
    simp only
    split
    · split <;> rfl
    · rfl
  | giveBack k =>
    simp only [perform, returnCredit, queue, Table.get?_modify]
    split
    · rename_i same
      subst same
      cases s.links.get? k <;> rfl
    · rfl
  | progressInterface i =>
    unfold perform progressInterface
    simp only
    split <;> rfl
  | progressWorker w => exact queue_of_links (links_progressWorker s w) l
  | handle h m => exact handle_queue (recorded h m rfl) h m l
  | destroy e => exact queue_of_links (links_destroy s e) l
  | purge c =>
    cases c with
    | link k => cases spares
    | stub x => exact queue_of_links (links_purge s x) l
  | flush k w rounds =>
    unfold perform flush
    simp only
    split
    · rfl
    · split <;> rfl
  | confirm e h =>
    unfold perform confirm
    simp only
    split <;> rfl
  | _ => cases spares

theorem dealsOf_of_spares {j : Job} (spares : j.sparesQueues = true) (s : Network) (l : LinkId) :
    s.dealsOf l j = [] := by
  cases j with
  | release ref | purge ref => cases ref <;> first | rfl | cases spares
  | conclude r o w => cases w <;> first | rfl | cases spares
  | _ => first | rfl | cases spares

/-- Work that spares the queues neither begins nor ends an attempt at a request of a queue: an attempt
leaves its end to do. -/
theorem perform_serving {j : Job} (top : s.agenda = j :: rest) (alone : Alone s.agenda)
    (calm : (perform { s with agenda := rest } j).violation = none) (spares : j.sparesQueues = true)
    (l : LinkId) : serving l (perform { s with agenda := rest } j).agenda = serving l s.agenda := by
  rw [top, serving_cons]
  cases perform_resumes top alone calm with
  | minor jobs small agenda minor =>
    rw [agenda, serving_append, serving_free fun k hk => Job.serving?_of_minor (minor k hk),
      Job.serving?_of_minor small]
    rfl
  | attempt r w jobs o job free agenda minor =>
    rw [agenda, job, serving_append, serving_cons,
      serving_free fun k hk => Job.serving?_of_minor (minor k hk), List.nil_append]
    cases w <;> rfl
  | dispatch k job =>
    rw [job] at spares
    cases spares
  | other still free after =>
    have idle : j.serving? = none := by
      cases j with
      | attempt r w => exact absurd rfl (still r w)
      | conclude r o w => cases w <;> first | rfl | cases spares
      | _ => rfl
    rw [serving_free after, serving_free free, idle]
    rfl

/-! ## Work in the line -/

theorem line_free (free : Vacant s.agenda) (l : LinkId) : s.line l = (s.queue l).map .waiting := by
  rw [line, serving_free free]
  rfl

theorem line_of_eq (agenda : serving l t.agenda = serving l s.agenda)
    (queue : t.queue l = s.queue l) : t.line l = s.line l := by
  rw [line, line, agenda, queue]

/-- A link that is let go of takes what waits for it along, unless one of its requests is being
attempted: then it is held. -/
theorem release_turns (s : Network) (k l : LinkId)
    (held : serving k s.agenda ≠ [] → s.isHeld (.link k) = true) :
    Turns (s.line l) (s.dealsOf l (.release (.link k))) ((s.release (.link k)).line l) := by
  have agenda := (retireLink_quiet s k).agenda
  unfold dealsOf release
  simp only
  by_cases kept : s.isHeld (.link k) = true
  · rw [if_pos kept, if_neg (by simp [kept])]
    exact .refl
  rw [if_neg kept]
  rw [Bool.not_eq_true] at kept
  by_cases same : k = l
  · subst same
    have idle : serving k s.agenda = [] := by
      by_contra busy
      rw [held busy] at kept
      cases kept
    rw [if_pos ⟨rfl, kept⟩, line, line, retire, agenda, idle, retireLink_queue, if_pos rfl]
    exact Turns.clear .cancel _
  · rw [if_neg fun h => same h.1]
    refine .of_eq (line_of_eq (by rw [retire, agenda]) ?_)
    rw [retire, retireLink_queue, if_neg same]

theorem add_turns (s : Network) (c : Carrier) (r : Request) (l : LinkId) :
    Turns (s.line l) (s.dealsOf l (.add c r)) ((s.perform (.add c r)).line l) := by
  have agenda := (offer_quiet s c r).agenda
  have turns := offer_turns s c r l ((serving l s.agenda).map .served)
  unfold perform
  simp only [dealsOf]
  generalize s.joins l c r = ds at turns ⊢
  generalize s.offer c r = out at agenda turns ⊢
  rcases out with ⟨u, back | back⟩
  · rw [line, line, agenda]
    exact turns
  · have same : serving l (u.push [.attempt back (.retry c)]).agenda = serving l s.agenda := by
      rw [push, List.singleton_append, serving_cons, agenda]
      rfl
    rw [line, line, same]
    exact turns

theorem dequeue_cases (s : Network) (k : LinkId) : s.dequeue k = (s, none) ∨
    ∃ lk r waiting, s.links.get? k = some lk ∧ lk.credits ≠ 0 ∧ lk.queue = r :: waiting ∧
      s.dequeue k = ({ s with links := s.links.set k { lk with queue := waiting } }, some r) := by
  unfold dequeue
  split
  · exact .inl rfl
  · rename_i lk here
    split
    · rename_i free front
      exact .inr ⟨lk, _, _, here, by simp [free], front, rfl⟩
    · exact .inl rfl

theorem dispatch_turns (free : Vacant s.agenda) (k l : LinkId) :
    Turns (s.line l) (s.dealsOf l (.dispatch k)) ((s.dispatch k).line l) := by
  unfold dealsOf dispatch
  rcases s.dequeue_cases k with idle | ⟨lk, r, waiting, here, -, front, taken⟩
  · simp only [idle, Option.toList_none, List.map_nil, ite_self]
    exact .refl
  · have queue : (Network.push { s with links := s.links.set k { lk with queue := waiting } }
        [.attempt r (.queue k)]).queue l = if k = l then waiting else s.queue l := by
      simp only [Network.queue, push, Table.get?_set_of here, eq_comm (a := k)]
      split <;> rfl
    simp only [taken]
    rw [line_free free]
    unfold line
    rw [queue, push, List.singleton_append, serving_cons, serving_free free]
    by_cases same : k = l
    · subst same
      rw [queue_of_get? here, front]
      simp only [Job.serving?, Option.bind_some, if_pos]
      exact .one (.take r _)
    · simp only [Job.serving?, Option.bind_some, if_neg same]
      exact .refl

/-- At the end of an attempt the request goes back to the front, or it is finished. -/
theorem conclude_turns (free : Vacant s.agenda) (r : Request) (o : Outcome) (k l : LinkId)
    (live : s.links.contains k = true) :
    Turns ((serving l [.conclude r o (.queue k)]).map .served ++ s.line l)
      (s.dealsOf l (.conclude r o (.queue k))) ((s.conclude r o (.queue k)).line l) := by
  have noted := recordAttempt_quiet s r o
  have links := links_recordAttempt s r o
  rw [line_free free]
  unfold dealsOf conclude
  simp only
  generalize s.recordAttempt r o = t at noted links ⊢
  have agenda : t.agenda = s.agenda := noted.agenda
  by_cases starved : o.isNoResource = true
  · rcases Table.contains_iff.1 live with ⟨lk, here⟩
    have queue : (t.requeue k r.unfinished).queue l =
        if k = l then r.unfinished :: s.queue l else s.queue l := by
      simp only [Network.queue, requeue, Table.get?_modify, links]
      split
      · rename_i same
        rw [← same, here]
        rfl
      · rfl
    simp only [if_pos starved, giveUp]
    rw [line_free (by rw [requeue, agenda]; exact free), queue]
    by_cases same : k = l
    · simp only [if_pos same, serving, Job.serving?, Option.bind_some,
        List.filterMap_cons, List.filterMap_nil]
      exact .one (.starve r _)
    · simp only [if_neg same, serving, Job.serving?, Option.bind_some, List.filterMap_cons,
        List.filterMap_nil]
      exact .refl
  · have queue : (t.finish r.finished o (.queue k)).queue l = s.queue l := by
      rw [← queue_of_links links]
      exact queue_of_links (links_discard _ _) l
    have after : (t.finish r.finished o (.queue k)).agenda = .dispatch k :: s.agenda := by
      rw [← agenda]
      exact congrArg _ (discard_quiet _ _).agenda
    simp only [if_neg starved]
    rw [line_free (by rw [after]; exact .cons rfl free), queue]
    by_cases same : k = l
    · simp only [if_pos same, serving, Job.serving?, Option.bind_some,
        List.filterMap_cons, List.filterMap_nil]
      exact .one (.finish r o _ (Bool.eq_false_iff.2 starved))
    · simp only [if_neg same, serving, Job.serving?, Option.bind_some, List.filterMap_cons,
        List.filterMap_nil]
      exact .refl

theorem drain_queued (s : Network) (l : LinkId) : (s.drain l).2 = s.queue l := by
  unfold drain queue
  split <;> simp_all

theorem purge_turns (free : Vacant s.agenda) (k l : LinkId) :
    Turns (s.line l) (s.dealsOf l (.purge (.link k))) ((s.purge (.link k)).line l) := by
  have agenda : (s.purge (.link k)).agenda = s.agenda := by
    have kept (rs : List Request) (u : Network) : (rs.foldl cancel u).agenda = u.agenda := by
      induction rs generalizing u with
      | nil => rfl
      | cons r rs ih => exact (ih _).trans (cancel_quiet u r).agenda
    simp only [purge, kept, drain]
    split <;> rfl
  rw [line_free free, line_free (agenda ▸ free), purge_queue]
  simp only [dealsOf, drain_queued]
  by_cases same : k = l
  · rw [if_pos same, if_pos same, same]
    exact Turns.clear .purge _
  · rw [if_neg same, if_neg same]
    exact .refl

/-- A job does in the line at a link what is to be expected of it. -/
theorem perform_turns {j : Job} (top : s.agenda = j :: rest) (sound : Sound True s)
    (alone : Alone s.agenda) (calm : (perform { s with agenda := rest } j).violation = none)
    (recorded : ∀ h m, j = .handle h m → Recorded True { s with agenda := rest }) (l : LinkId) :
    Turns (s.line l) (dealsOf { s with agenda := rest } l j)
      ((perform { s with agenda := rest } j).line l) := by
  by_cases spares : j.sparesQueues = true
  · rw [dealsOf_of_spares spares]
    refine .of_eq (line_of_eq (perform_serving top alone calm spares l) ?_)
    exact perform_queue spares recorded l
  have before : s.line l = (serving l [j]).map .served ++ line { s with agenda := rest } l := by
    unfold line
    rw [top, ← List.append_assoc, ← List.map_append, ← serving_append]
    rfl
  have escorted : Escorted (j :: rest) := top ▸ sound.escorted
  rw [top] at alone
  rw [before]
  cases j with
  | release ref =>
    cases ref with
    | link k =>
      exact release_turns { s with agenda := rest } k l fun busy =>
        isHeld_of_release (escort_of_serving escorted.2 busy)
    | _ => exact absurd rfl spares
  | add c r => exact add_turns { s with agenda := rest } c r l
  | dispatch k =>
    exact dispatch_turns (s := { s with agenda := rest })
      (alone.1.resolve_right (by simp [Job.isMinor])) k l
  | conclude r o w =>
    cases w with
    | queue k =>
      refine conclude_turns (s := { s with agenda := rest })
        (alone.1.resolve_right (by simp [Job.isMinor])) r o k l ?_
      refine sound.live (.link k) (isHeld_of_release ?_)
      exact top ▸ List.mem_cons_of_mem _ (escorted.1 k rfl)
    | _ => exact absurd rfl spares
  | purge c =>
    cases c with
    | link k =>
      exact purge_turns (s := { s with agenda := rest })
        (alone.1.resolve_right (by simp [Job.isMinor])) k l
    | stub x => exact absurd rfl spares
  | _ => exact absurd rfl spares

theorem step_turns {fits : Network → Call → Prop} (h : Visited fits s)
    (calm : s.step.violation = none) (l : LinkId) : Turns (s.line l) (s.deals l) (s.step.line l) := by
  unfold deals
  cases top : s.agenda with
  | nil =>
    rw [step_nil top]
    exact .refl
  | cons j rest =>
    rw [step_eq top h.calm] at calm ⊢
    rcases h.moves with ⟨process, moves, fit⟩
    refine perform_turns top fit.sound h.alone calm (fun g m same => ?_) l
    subst same
    have below : Moves True s { s with agenda := rest } := .hold (.done _ rest top rfl)
    exact (Recorded.initial process).moves (moves.trans below)

/-! ## Attempts need a credit -/

/-- Only the job on top may attempt a request of a queue, and then the link has a credit. -/
structure Primed (s : Network) : Prop where
  below : ∀ r l, .attempt r (.queue l) ∉ s.agenda.tail
  credit : ∀ r l rest, s.agenda = .attempt r (.queue l) :: rest →
    ∃ lk, s.links.get? l = some lk ∧ lk.credits ≠ 0

theorem Primed.of_idle (idle : ∀ r l, .attempt r (.queue l) ∉ s.agenda) : Primed s where
  below r l mem := idle r l (List.mem_of_mem_tail mem)
  credit r l _ top := absurd (top ▸ List.mem_cons_self) (idle r l)

theorem Primed.of_free (free : Vacant s.agenda) : Primed s :=
  .of_idle fun r l mem => by cases free _ mem

theorem step_primed (h : Primed s) (alone : Alone s.agenda) (calm : s.step.violation = none) :
    Primed s.step := by
  have before := step_violation calm
  cases top : s.agenda with
  | nil =>
    rw [step_nil top]
    exact h
  | cons j rest =>
    have below : ∀ r l, .attempt r (.queue l) ∉ rest := by
      simpa only [top, List.tail_cons] using h.below
    have above {jobs : List Job} (minor : ∀ k ∈ jobs, k.isMinor = true) (r : Request) (l : LinkId) :
        .attempt r (.queue l) ∉ jobs := fun mem => by cases minor _ mem
    rw [step_eq top before] at calm ⊢
    cases perform_resumes top alone calm with
    | minor jobs small agenda minor =>
      refine .of_idle fun r l mem => ?_
      rw [agenda] at mem
      exact (List.mem_append.1 mem).elim (above minor r l) (below r l)
    | attempt r' w jobs o job free agenda minor =>
      refine .of_idle fun r l mem => ?_
      rw [agenda] at mem
      rcases List.mem_append.1 mem with mem | mem
      · exact above minor r l mem
      · exact below r l (List.mem_of_ne_of_mem (by simp) mem)
    | dispatch k job =>
      -- the turn comes only to a link with a credit
      subst job
      rcases dequeue_cases { s with agenda := rest } k with
        idle | ⟨lk, r, waiting, here, free, -, taken⟩
      · simp only [perform, Network.dispatch, idle]
        exact .of_idle below
      · simp only [perform, Network.dispatch, taken]
        refine ⟨below, fun r' l rest' same => ?_⟩
        cases same
        exact ⟨_, (Table.get?_set_of here _ k).trans (if_pos rfl), free⟩
    | other still free after => exact .of_free after

end Network

/-- Wherever a run comes by, a request of a queue is attempted only while a credit is free. -/
theorem Visited.primed {fits : Network → Call → Prop} {s : Network} (h : Visited fits s) :
    s.Primed := by
  have step (t : Network) (ht : t.Primed ∧ Alone t.agenda) (calm : t.step.violation = none) :
      t.step.Primed ∧ Alone t.step.agenda :=
    ⟨Network.step_primed ht.1 ht.2 calm, Network.step_alone ht.2 calm⟩
  refine (h.keeps (I := fun s => s.Primed ∧ Alone s.agenda) (fun _ => ?_)
    (fun s c journey _ _ _ => ?_) (fun s n hs calm => Network.work_invariant step hs calm)
    fun s ref hs => ?_).1
  · exact ⟨.of_free (by simp [Vacant]), trivial⟩
  · have free := Call.start_free journey.rested.idle c
    exact ⟨.of_free free, free.alone⟩
  · unfold Network.keep
    split
    · exact ⟨⟨hs.1.below, hs.1.credit⟩, hs.2⟩
    · exact hs

end Wiring
