import Mathlib
import Wiring.Proofs.Anchor
import Wiring.Proofs.Books
import Wiring.Proofs.Switchover

/-!
# The replay of what was parked

Until a stub switches over, what was parked on it waits in the order of parking. The switchover
hands the requests to the promoted link one after another: each is queued by the link or finished
by its own attempts while the next one still lies in the agenda.
-/
namespace Wiring

/-- What an attempt leaves of a request: a script has given one answer. -/
def Request.taken (r : Request) : Request :=
  match r.inner? with
  | some (.scripted c) => .withInner (.scripted c.take.2) r
  | _ => r

/-- The request is a script that answers a known number of times and then ends well. -/
def Request.EndsAlone (r : Request) : Prop := ∃ c : Script, r = .scripted c ∧ c.sending = none

namespace Network

variable {s t u : Network} {rest : List Job} {wild : Prop}

/-! ## Work above other work -/

/-- Work has led from one network to another, and what lay below it in the agenda was not
touched on the way. -/
def WorksAbove (rest : List Job) (s t : Network) : Prop :=
  ∃ n, t = work n s ∧ ∀ k < n, ∃ j jobs, (work k s).agenda = j :: jobs ++ rest

theorem WorksAbove.refl (rest : List Job) (s : Network) : WorksAbove rest s s :=
  ⟨0, rfl, fun k hk => absurd hk (Nat.not_lt_zero k)⟩

theorem work_succ {j : Job} (top : s.agenda = j :: rest) (n : Nat) :
    work (n + 1) s = work n s.step := by
  rw [work, if_neg (by simp [top])]

theorem WorksAbove.step {j : Job} {jobs : List Job} (top : s.agenda = j :: jobs ++ rest)
    (h : WorksAbove rest s.step t) : WorksAbove rest s t := by
  rcases h with ⟨n, rfl, above⟩
  refine ⟨n + 1, (work_succ top n).symm, fun k hk => ?_⟩
  cases k with
  | zero => exact ⟨j, jobs, top⟩
  | succ k =>
    rw [work_succ top]
    exact above k (by omega)

/-- An attempt at a request that a link has handed back, up to its end. -/
structure Attempted (l : LinkId) (rest : List Job) (r : Request) (s : Network) (o : Outcome)
    (t : Network) : Prop where
  start : s.agenda = .attempt r (.retry (.link l)) :: rest
  work : WorksAbove (.conclude r.taken o (.retry (.link l)) :: rest) s.step t
  ended : t.agenda = .conclude r.taken o (.retry (.link l)) :: rest

/-- A link takes over the request on top of the agenda. -/
inductive Handed (l : LinkId) (rest : List Job) : Request → Network → Network → Prop
  /-- The link puts it at the end of its queue. -/
  | queued {r : Request} {s : Network} {lk : Link} (top : s.agenda = .add (.link l) r :: rest)
      (here : s.links.get? l = some lk)
      (done : s.step = { s with
        links := s.links.set l { lk with queue := lk.queue ++ [r] }, agenda := rest }) :
      Handed l rest r s s.step
  /-- Its own attempt finishes it. -/
  | finished {r : Request} {o : Outcome} {s t : Network} (top : s.agenda = .add (.link l) r :: rest)
      (attempted : Attempted l rest r s.step o t) (last : o.isNoResource = false)
      (left : t.step.agenda = rest) : Handed l rest r s t.step
  /-- Its own attempt runs out of resources, and the link is given what is left of it. -/
  | again {r : Request} {o : Outcome} {s t u : Network} (top : s.agenda = .add (.link l) r :: rest)
      (attempted : Attempted l rest r s.step o t) (out : o.isNoResource = true)
      (later : Handed l rest r.taken.unfinished t.step u) : Handed l rest r s u

theorem Handed.agenda {l : LinkId} {r : Request} (h : Handed l rest r s t) : t.agenda = rest := by
  induction h with
  | queued top here done => rw [done]
  | finished top attempted last left => exact left
  | again top attempted out later ih => exact ih

/-- A link queues a request, or hands it back to be attempted. -/
theorem step_add {l : LinkId} {r : Request} (top : s.agenda = .add (.link l) r :: rest)
    (calm : s.violation = none) :
    (∃ lk, s.links.get? l = some lk ∧ s.step = { s with
      links := s.links.set l { lk with queue := lk.queue ++ [r] }, agenda := rest }) ∨
    s.step = { s with agenda := .attempt r (.retry (.link l)) :: rest } := by
  rw [step_eq top calm]
  simp only [perform, offer, enqueue]
  cases here : s.links.get? l with
  | none => exact .inr rfl
  | some lk =>
    by_cases free : (lk.queue.isEmpty && lk.credits != 0) = true
    · simp only [free, if_true]
      exact .inr rfl
    · simp only [free]
      exact .inl ⟨lk, rfl, rfl⟩

/-- Nothing has changed that keeps things alive. -/
structure Kept (s t : Network) : Prop where
  holds : t.holds = s.holds
  stubs : t.stubs = s.stubs
  endpoints : t.endpoints = s.endpoints
  directories : ∀ w wk, s.workers.get? w = some wk →
    ∃ wk', t.workers.get? w = some wk' ∧ wk'.directory = wk.directory
  calm : t.violation = s.violation

theorem Kept.refl (s : Network) : Kept s s := ⟨rfl, rfl, rfl, fun _ wk hw => ⟨wk, hw, rfl⟩, rfl⟩

theorem Kept.trans (h : Kept s t) (g : Kept t u) : Kept s u where
  holds := g.holds.trans h.holds
  stubs := g.stubs.trans h.stubs
  endpoints := g.endpoints.trans h.endpoints
  directories w wk hw := by
    rcases h.directories w wk hw with ⟨v, hv, hd⟩
    rcases g.directories w v hv with ⟨v', hv', hd'⟩
    exact ⟨v', hv', hd'.trans hd⟩
  calm := g.calm.trans h.calm

theorem Aside.kept (h : Aside s t) (calm : t.violation = s.violation) : Kept s t where
  holds := h.holds
  stubs := h.stubs
  endpoints := h.endpoints
  directories w wk hw := by
    have books := h.books w
    rw [hw] at books
    rcases Option.map_eq_some_iff.1 books with ⟨wk', hw', same⟩
    have directory : wk'.directory = wk.directory := by
      simp only [Worker.books, Worker.mk.injEq] at same
      exact same.2.2.2.2.2.2.2
    exact ⟨wk', hw', directory⟩
  calm := calm

theorem total_dropWhile (answers : List (Nat × Outcome)) :
    total Prod.fst (answers.dropWhile fun answer => answer.1 == 0) = total Prod.fst answers := by
  induction answers with
  | nil => rfl
  | cons a answers ih =>
    by_cases ha : a.1 = 0
    · rw [List.dropWhile_cons_of_pos (by simp [ha]), ih, total, ha, Nat.zero_add]
    · rw [List.dropWhile_cons_of_neg (by simp [ha])]

/-- An answer of a script is used up. -/
theorem take_total {c : Script} {o : Outcome} (h : c.take.1 = some o) :
    total Prod.fst c.take.2.answers + 1 = total Prod.fst c.answers := by
  have same := total_dropWhile c.answers
  unfold Script.take at h ⊢
  cases hd : c.answers.dropWhile fun answer => answer.1 == 0 with
  | nil =>
    simp only [hd] at h
    cases h
  | cons a answers =>
    obtain ⟨k, o'⟩ := a
    have ha : k ≠ 0 := by
      have := List.head_dropWhile_not (fun answer : Nat × Outcome => answer.1 == 0)
        (l := c.answers) (by simp [hd])
      simpa [hd] using this
    rw [hd, total] at same
    by_cases hk : k ≤ 1
    · simp only [hk, if_true]
      omega
    · simp only [hk, if_false, total]
      omega

theorem take_sending (c : Script) : c.take.2.sending = c.sending := by
  unfold Script.take
  split <;> rfl

/-- A script without a send of its own answers at once. -/
theorem step_attempt_alone {c : Script} {w : Waiter} (alone : c.sending = none)
    (top : s.agenda = .attempt (.scripted c) w :: rest) (calm : s.violation = none) :
    s.step = { s with
      agenda := .conclude (.scripted c.take.2) (c.take.1.getD (.ok ())) w :: rest } := by
  have sending := take_sending c
  rw [alone] at sending
  rw [step_eq top calm]
  simp only [perform, attempt, Request.inner?]
  cases ht : c.take with
  | mk answer c' =>
    rw [ht] at sending
    cases answer with
    | some o => rfl
    | none =>
      simp only at sending
      simp only [sending]
      rfl

/-- The end of an attempt at a script is noted. -/
theorem step_conclude_alone {c : Script} {o : Outcome} {carrier : Carrier}
    (top : s.agenda = .conclude (.scripted c) o (.retry carrier) :: rest)
    (calm : s.violation = none) :
    s.step = { s with
      trace := s.trace.push (.attempted c.name o)
      agenda := if o.isNoResource then .add carrier (.scripted { c with finished := false }) :: rest
        else rest } := by
  rw [step_eq top calm]
  have gates : (Request.scripted c).gates = [] := rfl
  simp only [perform, conclude, recordAttempt, Request.inner?, gates, List.foldl_nil, ite_self]
  split
  · rfl
  · simp only [finish, discard_finished]
    rfl

/-- A link takes a script over within three steps for each of its answers. -/
theorem handed_alone {c : Script} {l : LinkId} (alone : c.sending = none)
    (top : s.agenda = .add (.link l) (.scripted c) :: rest) (calm : s.violation = none) :
    ∃ n ≤ 3 * (Request.scripted c).extent, (work n s).agenda = rest ∧ Kept s (work n s) := by
  generalize hn : total Prod.fst c.answers = n
  induction n using Nat.strong_induction_on generalizing s c with
  | _ n ih =>
    have extent : (Request.scripted c).extent = 1 + n := by rw [Request.extent, hn]
    rcases step_add top calm with ⟨lk, here, done⟩ | back
    · refine ⟨1, by omega, ?_, ?_⟩ <;> rw [work_succ top, done] <;> rw [work]
      exact { Kept.refl s with }
    have attempt : s.step.agenda = .attempt (.scripted c) (.retry (.link l)) :: rest := by rw [back]
    have answered := step_attempt_alone alone attempt (by rw [back]; exact calm)
    have concluding : s.step.step.agenda =
        .conclude (.scripted c.take.2) (c.take.1.getD (.ok ())) (.retry (.link l)) :: rest := by
      rw [answered]
    have concluded := step_conclude_alone concluding (by rw [answered, back]; exact calm)
    have path : work 3 s = s.step.step.step := by
      rw [work_succ top, work_succ attempt, work_succ concluding, work]
    have kept : Kept s s.step.step.step := by
      rw [concluded, answered, back]
      exact { Kept.refl s with }
    by_cases out : (c.take.1.getD (.ok ())).isNoResource = true
    · have again : s.step.step.step.agenda =
          .add (.link l) (.scripted { c.take.2 with finished := false }) :: rest := by
        rw [concluded, if_pos out]
      have used : total Prod.fst c.take.2.answers + 1 = total Prod.fst c.answers := by
        cases ht : c.take.1 with
        | none =>
          rw [ht] at out
          cases out
        | some o => exact take_total ht
      have fewer : total Prod.fst c.take.2.answers < n := by omega
      rcases ih _ fewer (c := { c.take.2 with finished := false })
        ((take_sending c).trans alone) again (kept.calm.trans calm) rfl with ⟨k, hk, reached, later⟩
      refine ⟨3 + k, ?_, ?_, ?_⟩
      · rw [Request.extent] at hk
        simp only at hk
        omega
      · rw [work_add, path]
        exact reached
      · rw [work_add, path]
        exact kept.trans later
    · refine ⟨3, by omega, ?_, ?_⟩ <;> rw [path]
      · rw [concluded, if_neg out]
      · exact kept

/-- A link that refuses a message for lack of resources has no credit left. -/
theorem sendBulk_noResource {l : LinkId} {messageId : UInt8} {payload : Bytes}
    {source : Option HandleId}
    (h : (s.sendBulk l messageId payload source).2 = .error .noResource) :
    ∃ lk, s.links.get? l = some lk ∧ lk.credits = 0 := by
  unfold sendBulk at h
  split at h
  · cases h
  · rename_i lk here
    refine ⟨lk, here, ?_⟩
    unfold sendWithin at h
    split at h
    · rename_i why check
      cases h
      unfold require at check
      split at check <;> cases check
    · split at h
      · cases h
      · unfold transmit at h
        simp only [here] at h
        split at h
        · cases h
        · split at h
          · cases h
          · assumption
          · cases h

/-- A send over a link that has a credit for it is finished by the attempt. -/
theorem step_attempt_granted {m : Send} {l : LinkId} {ep : Endpoint} {w : Waiter}
    (here : s.endpoints.get? m.endpoint = some ep) (slot : ep.slots.messages = some (.link l))
    (granted : ∀ lk, s.links.get? l = some lk → lk.credits ≠ 0)
    (top : s.agenda = .attempt (.send m) w :: rest) (calm : s.violation = none) :
    ∃ o : Outcome, o.isNoResource = false ∧ Kept s s.step ∧
      s.step.agenda = .conclude (.send m) o w :: rest := by
  have quiet := sendBulk_quiet { s with agenda := rest } l m.messageId m.payload (some m.handle)
  rw [step_eq top calm]
  simp only [perform, attempt, Request.inner?, here, slot, attemptOver, sendOver]
  rcases sendBulk_cases { s with agenda := rest } l m.messageId m.payload (some m.handle) with
    ⟨why, refused⟩ | ⟨dest, v, aside, sent⟩
  · have final : why.isNoResource = false := by
      cases why with
      | noResource =>
        rcases sendBulk_noResource (congrArg Prod.snd refused) with ⟨lk, hl, none⟩
        exact absurd none (granted lk hl)
      | _ => rfl
    rw [refused]
    exact ⟨.error why, final, { Kept.refl s with }, rfl⟩
  · rw [sent] at quiet ⊢
    refine ⟨.ok (), rfl, ?_, ?_⟩
    · exact { aside.kept quiet.violation with }
    · simp only [push, List.cons_append, List.nil_append]
      rw [quiet.agenda]

/-- A link takes over a send of an endpoint whose messages go over it: if it hands the send back, it
has a credit for it. -/
theorem handed_send {m : Send} {l : LinkId} {ep : Endpoint}
    (here : s.endpoints.get? m.endpoint = some ep) (slot : ep.slots.messages = some (.link l))
    (top : s.agenda = .add (.link l) (.send m) :: rest) (calm : s.violation = none) :
    ∃ n ≤ 3, (work n s).agenda = rest ∧ Kept s (work n s) := by
  by_cases free : ∀ lk, s.links.get? l = some lk → lk.queue.isEmpty ∧ lk.credits ≠ 0
  case neg =>
    simp only [not_forall] at free
    rcases free with ⟨lk, hl, full⟩
    have queued : s.step = { s with
        links := s.links.set l { lk with queue := lk.queue ++ [.send m] }, agenda := rest } := by
      rw [step_eq top calm]
      have full : ¬(lk.queue.isEmpty && lk.credits != 0) = true := by simpa using full
      simp only [perform, offer, enqueue, hl, if_neg full]
    refine ⟨1, by omega, ?_⟩
    rw [work_succ top, queued, work]
    exact ⟨rfl, { Kept.refl s with }⟩
  case pos =>
    have back : s.step = { s with agenda := .attempt (.send m) (.retry (.link l)) :: rest } := by
      rw [step_eq top calm]
      cases hl : s.links.get? l with
      | none => simp only [perform, offer, enqueue, hl, push, List.singleton_append]
      | some lk =>
        have free : (lk.queue.isEmpty && lk.credits != 0) = true := by simpa using free lk hl
        simp only [perform, offer, enqueue, hl, if_pos free, push, List.singleton_append]
    have attempt : s.step.agenda = .attempt (.send m) (.retry (.link l)) :: rest := by rw [back]
    have kept : Kept s s.step := by
      rw [back]
      exact { Kept.refl s with }
    rcases step_attempt_granted (by rwa [kept.endpoints]) slot
      (fun lk hl => (free lk (by rwa [back] at hl)).2) attempt (kept.calm.trans calm) with
      ⟨o, final, kept', next⟩
    have concluded := step_eq next (kept'.calm.trans (kept.calm.trans calm))
    simp only [perform, conclude, recordAttempt, Request.inner?, final, Request.gates,
      List.foldl_nil, Request.finished, finish, discard] at concluded
    have path : work 3 s = s.step.step.step := by
      rw [work_succ top, work_succ attempt, work_succ next, work]
    refine ⟨3, le_rfl, ?_⟩
    rw [path, concluded]
    exact ⟨rfl, (kept.trans kept').trans { Kept.refl s.step.step with }⟩

/-- What a link takes over for good: a request that ends alone, or a send of an endpoint whose
messages go over the link. -/
def Passes (s : Network) (l : LinkId) (r : Request) : Prop :=
  r.EndsAlone ∨ ∃ m ep, r = .send m ∧ s.endpoints.get? m.endpoint = some ep ∧
    ep.slots.messages = some (.link l)

theorem Passes.kept {l : LinkId} {r : Request} (h : s.Passes l r) (kept : Kept s t) :
    t.Passes l r := by
  rcases h with alone | ⟨m, ep, rfl, here, slot⟩
  · exact .inl alone
  · exact .inr ⟨m, ep, rfl, by rwa [kept.endpoints], slot⟩

theorem handed_passes {r : Request} {l : LinkId} (passes : s.Passes l r)
    (top : s.agenda = .add (.link l) r :: rest) (calm : s.violation = none) :
    ∃ n ≤ 3 * r.extent, (work n s).agenda = rest ∧ Kept s (work n s) := by
  rcases passes with ⟨c, rfl, alone⟩ | ⟨m, ep, rfl, here, slot⟩
  · exact handed_alone alone top calm
  · exact handed_send here slot top calm

/-- A replay of such requests comes to its end. -/
theorem replayed_passes {w : WorkerId} {l : LinkId} {rs : List Request}
    (passes : ∀ r ∈ rs, s.Passes l r)
    (top : s.agenda = rs.flatMap (fun r => [.add (.link l) r, .replayed w]) ++ rest)
    (calm : s.violation = none) :
    ∃ n ≤ 4 * requestsExtent rs, (work n s).agenda = rest ∧ Kept s (work n s) := by
  induction rs generalizing s with
  | nil => exact ⟨0, Nat.zero_le _, top, .refl s⟩
  | cons r rs ih =>
    rw [List.flatMap_cons, List.cons_append, List.singleton_append, List.cons_append] at top
    rcases handed_passes (passes r List.mem_cons_self) top calm with ⟨m, hm, reached, kept⟩
    have quiet : (work m s).violation = none := kept.calm.trans calm
    have counted := step_eq reached quiet
    have later : (work m s).step.agenda =
        rs.flatMap (fun r => [.add (.link l) r, .replayed w]) ++ rest := by
      rw [counted]
      rfl
    have kept' : Kept (work m s) (work m s).step := by
      rw [counted]
      refine { Kept.refl (work m s) with directories := fun v wk hw => ?_ }
      simp only [perform, Table.get?_modify]
      split
      · rw [hw]
        exact ⟨_, rfl, rfl⟩
      · exact ⟨wk, hw, rfl⟩
    rcases ih (fun r hr => (passes r (List.mem_cons_of_mem _ hr)).kept (kept.trans kept')) later
      (kept'.calm.trans quiet) with ⟨k, hk, ended, kept''⟩
    have path : work (m + 1 + k) s = work k (work m s).step := by
      rw [Nat.add_assoc, work_add, Nat.add_comm 1 k, work_succ reached]
    refine ⟨m + 1 + k, ?_, ?_, ?_⟩
    · simp only [requestsExtent, total] at hk ⊢
      have : 1 ≤ r.extent := by cases r <;> simp [Request.extent]
      omega
    · rw [path]
      exact ended
    · rw [path]
      exact (kept.trans kept').trans kept''

/-- Nothing becomes of a thing that is still held when it is let go of. -/
theorem step_release_held {ref : Ref} (top : s.agenda = .release ref :: rest)
    (calm : s.violation = none) (held : isHeld { s with agenda := rest } ref = true) :
    s.step = { s with agenda := rest } := by
  rw [step_eq top calm]
  simp only [perform, release, held, if_true]

/-- A link that is let go of takes nothing else down. -/
theorem released_link (l : Option LinkId) (top : s.agenda = releaseLink? l ++ rest)
    (calm : s.violation = none) :
    ∃ n ≤ 1, (work n s).agenda = rest ∧ Kept s (work n s) := by
  cases l with
  | none => exact ⟨0, Nat.zero_le _, top, .refl s⟩
  | some l =>
    have top : s.agenda = .release (.link l) :: rest := top
    refine ⟨1, le_rfl, ?_⟩
    rw [work_succ top, work, step_eq top calm]
    simp only [perform, release]
    split
    · exact ⟨rfl, { Kept.refl s with }⟩
    · simp only [retire, retireLink]
      split
      · exact ⟨rfl, { Kept.refl s with }⟩
      · rename_i lk _
        rcases foldl_cancel_eq { s with agenda := rest, links := s.links.erase l } lk.queue with
          ⟨marks, handles, gates, h⟩
        rw [h]
        exact ⟨rfl, { Kept.refl s with }⟩

theorem le_total {α : Type} (f : α → Nat) {a : α} {as : List α} (h : a ∈ as) :
    f a ≤ total f as := by
  induction as with
  | nil => cases h
  | cons b as ih =>
    rw [total]
    rcases List.mem_cons.1 h with rfl | h
    · omega
    · have := ih h
      omega

/-- What is parked on a stub is work to come. -/
theorem requestsExtent_le {x : StubId} {st : Stub} (here : s.stubs.get? x = some st) :
    requestsExtent st.parked ≤ s.extent := by
  have mem : st ∈ s.stubs.values := by
    have cell := Option.join_eq_some_iff.1 here
    rw [← Array.getElem?_toList] at cell
    exact List.mem_filterMap.2 ⟨some st, List.mem_of_getElem? cell, rfl⟩
  have le : 1 + requestsExtent st.parked ≤ tableExtent s.stubs fun t => requestsExtent t.parked :=
    le_total (fun t : Stub => 1 + requestsExtent t.parked) mem
  unfold extent
  omega

/-- What is known of everything that runs lead to. -/
structure Minded (s : Network) : Prop where
  recorded : Recorded True s
  anchored : Anchored s
  served : Served s
  booked : Booked s

theorem Minded.initial (process : UInt32) : Minded { process } :=
  ⟨.initial process, .initial process, .initial process, .initial process⟩

theorem Minded.moves (hs : Minded s) (h : Moves True s t) : Minded t := by
  induction h with
  | refl => exact hs
  | tail _ h ih =>
    exact ⟨ih.recorded.moves (.single h), ih.anchored.move h, ih.served.move h,
      ih.booked.move ih.served ih.recorded.sound.keyed h⟩

/-- What a stub can hand over for good: a request that ends alone, or a send of the endpoint whose
messages the stub carries. -/
def Settles (s : Network) (x : StubId) (st : Stub) (r : Request) : Prop :=
  r.EndsAlone ∨ ∃ m ep, r = .send m ∧ m.endpoint = st.endpoint ∧
    s.endpoints.get? st.endpoint = some ep ∧ ep.slots.messages = some (.stub x) ∧
    ep.plan.shares st.category .messages = true

/-- The switchover puts the link in the place of the stub. -/
theorem Settles.passes {x : StubId} {st : Stub} {next : LinkId} {r : Request}
    (h : s.Settles x st r) (promoted : t.endpoints =
      s.endpoints.modify st.endpoint fun e => promoteSlots e x st.category next) :
    t.Passes next r := by
  rcases h with alone | ⟨m, ep, rfl, owner, here, slot, shares⟩
  · exact .inl alone
  · refine .inr ⟨m, promoteSlots ep x st.category next, rfl, ?_, ?_⟩
    · rw [promoted, owner, Table.get?_modify, if_pos rfl, here]
      rfl
    · simp only [promoteSlots, PerCategory.mapWith, shares, slot, true_and, if_true]

/-- An attempt to switch over a stub that is due comes to its end, if it can hand over for good what
is parked on it. -/
theorem progressStub_of_settles {x : StubId} (hs : Minded s) (h : Rested True s)
    (due : Due (s.caughtUp x) x)
    (settles : ∀ st, s.stubs.get? x = some st → ∀ r ∈ st.parked, s.Settles x st r) :
    ∃ t, s.progressStub x = (t, .ok true) := by
  have zero : Moves True s { s with tally := 0 } := Moves.aside { Aside.refl s with }
  have hs' := hs.moves zero
  have due' : Due (caughtUp { s with tally := 0 } x) x := by rwa [caughtUp_tally, due_tally]
  have caught := hs'.moves (caughtUp_moves hs'.recorded.sound x)
  have quiet := caughtUp_quiet { s with tally := 0 } x
  rcases switchover_of_due hs'.recorded due' with ⟨st, w, next, here, worker, -, switched⟩
  rcases workerOf?_eq_some.1 worker with ⟨ep, he, -, live⟩
  rcases Table.contains_iff.1 live with ⟨wk, books⟩
  -- what is parked has not changed since the application looked at it
  have parked : ∃ st', s.stubs.get? x = some st' ∧ st'.parked = st.parked ∧
      st'.endpoint = st.endpoint ∧ st'.category = st.category := by
    rcases (caughtUp_marked { s with tally := 0 } x).stubs x with ⟨b, hb⟩
    rw [here] at hb
    rcases Option.map_eq_some_iff.1 hb.symm with ⟨st', hx, rfl⟩
    exact ⟨st', hx, rfl, rfl, rfl⟩
  rcases parked with ⟨st', here', same, endpoint, category⟩
  set c := caughtUp { s with tally := 0 } x with hc
  have idle : c.agenda = [] := quiet.agenda.trans h.idle
  have calm : c.violation = none := quiet.violation.trans h.calm
  rw [switch_eq x st books next] at switched
  set v := ({ s with tally := 0 } : Network).switchover x with hv
  have top : v.agenda = releaseLink? st.auxiliary
      ++ (st.parked.flatMap (fun r => [.add (.link next) r, .replayed w])
        ++ [.release (.link next), .release (.worker w), .release (.endpoint st.endpoint)]) := by
    rw [switched]
    simp only [replay, idle, List.append_nil, List.append_assoc]
  have calm₀ : v.violation = none := by rw [switched]; exact calm
  rcases released_link _ top calm₀ with ⟨n₁, hn₁, top₁, kept₁⟩
  have passes (r : Request) (hr : r ∈ st.parked) : v.Passes next r := by
    have settles := settles st' here' r (same ▸ hr)
    simp only [Settles, endpoint, category] at settles
    refine Settles.passes settles ?_
    have frame : c.endpoints = s.endpoints := by
      rw [hc, (caughtUp_marked { s with tally := 0 } x).frame]
    rw [switched, frame]
  rcases replayed_passes (fun r hr => (passes r hr).kept kept₁) top₁
    (kept₁.calm.trans calm₀) with ⟨n₂, hn₂, top₂, kept₂⟩
  set u := work n₂ (work n₁ v) with hu
  have kept := kept₁.trans kept₂
  have calm₂ : u.violation = none := kept.calm.trans calm₀
  have owned : u.stubs.get? x = some
      { st with next := none, auxiliary := none, parked := [], promoted := some next } := by
    rw [kept.stubs, switched]
    exact (Table.get?_set_of here _ x).trans (if_pos rfl)
  -- the holds of the switchover are not the last ones
  have anchor {ref : Ref} (rest : List Job) (anchor : ref.isAnchor = true)
      (alive : c.isLive ref = true) : isHeld { u with agenda := rest } ref = true := by
    refine isHeld_anchor anchor (caught.anchored ref anchor alive) (fun ref hr => .inl ?_)
      (fun hr => ?_) fun w' wk' hw' entry hentry _ => .inr ?_
    · change ref ∈ u.holds
      rw [kept.holds, switched]
      exact hr
    · rw [idle] at hr
      cases hr
    · rcases kept.directories w' wk' (by rw [switched]; exact hw') with ⟨v', hv', hd⟩
      exact ⟨v', hv', hd ▸ hentry⟩
  have link (rest : List Job) : isHeld { u with agenda := rest } (.link next) = true :=
    isHeld_of_owned (isOwned_iff.2 (.inr (.inr ⟨x, _, next, owned, .inr (.inr rfl), rfl⟩)))
  have step₁ := step_release_held top₂ calm₂ (link _)
  have top₃ : u.step.agenda = [.release (.worker w), .release (.endpoint st.endpoint)] := by
    rw [step₁]
  have step₂ := step_release_held top₃ (by rw [step₁]; exact calm₂)
    (by rw [step₁]; exact anchor _ rfl live)
  have top₄ : u.step.step.agenda = [.release (.endpoint st.endpoint)] := by rw [step₂]
  have step₃ := step_release_held top₄ (by rw [step₂, step₁]; exact calm₂)
    (by rw [step₂, step₁]; exact anchor _ rfl (Table.contains_of_get? he))
  have ended : work 3 u = { u with agenda := [] } := by
    rw [work_succ top₂, work_succ top₃, work_succ top₄, work, step₃, step₂, step₁]
  have enough : 1 + (n₁ + (n₂ + 3)) ≤ (s.tried x).fuel := by
    have le := requestsExtent_le (s := s.tried x) here'
    rw [same] at le
    have pow : 1 + (s.tried x).extent ≤ Nat.pow (1 + (s.tried x).extent) 3 :=
      Nat.le_self_pow (by omega) _
    unfold fuel
    omega
  rcases Nat.exists_eq_add_of_le enough with ⟨k, hk⟩
  have worked : work (s.tried x).fuel (s.tried x) = { u with agenda := [] } := by
    have top : (s.tried x).agenda = .switchover x :: s.agenda := rfl
    have first : work 1 (s.tried x) = v := by
      rw [work_succ top, work, tried_step h x]
    rw [hk, work_add _ k, work_add 1, first, work_add n₁, work_add n₂, ← hu, ended, work_nil rfl]
  have ran : s.progressStub x = _ := settle_done (fun s => s.tally != 0) worked calm₂ rfl
  rw [(progressStub_of_due hs.recorded h due ran).1] at ran
  exact ⟨_, ran⟩

/-- What is parked on a stub waits in the order of parking until the stub switches over, and then
nothing is parked. The worker registers and counts the stub once for each parked request, and
counts on what is being replayed. -/
structure Waits (s : Network) (x : StubId) (st : Stub) : Prop where
  unswitched : st.next ≠ none → st.parked = parkedLog s.trace x
  switched : st.next = none → st.parked = []
  registered : ∀ w wk, s.workers.get? w = some wk →
    s.registrations wk.registry (.stub x) = s.share w st
  counted : ∀ w wk, s.workers.get? w = some wk →
    wk.parkedCount = s.stubs.sum (fun _ st => s.share w st) + replaying s.agenda w

theorem Minded.waits (hs : Minded s) {x : StubId} {st : Stub} (here : s.stubs.get? x = some st) :
    Waits s x st :=
  have agrees := hs.recorded.chronicled.stub x st here
  ⟨agrees.waiting, agrees.emptied, fun w wk hw => hs.booked.registrations w wk x st hw here,
    hs.booked.count⟩

/-- A request that runs out of resources twice before it ends. -/
def stubborn : Script := { name := "stubborn", answers := [(2, .error .noResource)] }

end Network

end Wiring
