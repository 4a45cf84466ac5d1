import Mathlib
import Wiring.Proofs.Anchor

/-!
# The books of a worker

A worker registers a stub once for each request that is parked on it, and counts the parked
requests of all its stubs. A switchover takes the registrations back at once; what it leaves to be
replayed is counted until it was.
-/
namespace Wiring

/-- A request of a worker's stub was handed over and is still counted. -/
def Job.replays (w : WorkerId) : Job → Bool
  | .replayed w' => w' == w
  | _ => false

theorem Job.replays_idle {j : Job} (idle : j.isIdle = true) (w : WorkerId) :
    j.replays w = false := by
  cases j <;> simp_all [Job.isIdle, Job.replays]

namespace Network

variable {s t : Network} {wild : Prop} {w : WorkerId} {e : EndpointId}

/-! ## Who has opened an endpoint -/

/-- Whether a worker has opened an endpoint. -/
def serves (s : Network) (w : WorkerId) (e : EndpointId) : Bool :=
  s.trace.any fun
    | .opened e' w' => e' == e && w' == w
    | _ => false

theorem serves_iff : s.serves w e = true ↔ .opened e w ∈ s.trace := by
  unfold serves
  rw [Array.any_eq_true']
  constructor
  · rintro ⟨h, hm, hs⟩
    cases h with
    | opened e' w' =>
      simp only [Bool.and_eq_true, beq_iff_eq] at hs
      rcases hs with ⟨rfl, rfl⟩
      exact hm
    | _ => cases hs
  · intro h
    exact ⟨_, h, by simp⟩

/-- Nothing was opened. -/
def SameOpened (s t : Network) : Prop := ∀ w e, t.serves w e = s.serves w e

theorem SameOpened.of_mem (h : ∀ e w, Happening.opened e w ∈ t.trace ↔ .opened e w ∈ s.trace) :
    SameOpened s t := by
  intro w e
  rw [Bool.eq_iff_iff, serves_iff, serves_iff]
  exact h e w

theorem SameOpened.of_trace (h : t.trace = s.trace) : SameOpened s t :=
  .of_mem fun e w => by rw [h]

theorem SameOpened.of_push {x : Happening} (h : t.trace = s.trace.push x)
    (hx : ∀ e w, x ≠ .opened e w) : SameOpened s t := by
  refine .of_mem fun e w => ?_
  rw [h, Array.mem_push]
  have := hx e w
  constructor
  · rintro (hm | rfl)
    · exact hm
    · exact absurd rfl this
  · exact .inl

theorem Aside.opened (h : Aside s t) : SameOpened s t := .of_mem fun _ _ => h.mem_trace rfl

theorem Hold.opened (h : Hold s t) : SameOpened s t := .of_trace (by cases h <;> rfl)

theorem Pass.opened (h : Pass wild s t) : SameOpened s t := by
  cases h with
  | send m handle live alone => exact .of_push rfl (by simp)
  | accept r m w l dest rest top inner => exact .of_push rfl (by simp)
  | park id st w wk r rest top here data worker books unswitched =>
    exact .of_push rfl (by simp)
  | switch id st w wk next here worker books unswitched ready =>
    exact .of_push rfl (by simp)
  | _ => exact .of_trace rfl

/-- Every endpoint was opened by its worker and nobody else. -/
structure Served (s : Network) : Prop where
  opened : ∀ e ep, s.endpoints.get? e = some ep → s.serves ep.worker e = true
  single : ∀ w w' e, s.serves w e = true → s.serves w' e = true → w = w'
  known : ∀ w e, s.serves w e = true → w < s.workers.next ∧ e < s.endpoints.next

theorem Served.initial (process : UInt32) : Served { process } where
  opened e ep he := by cases he
  single w w' e h := by simp [serves] at h
  known w e h := by simp [serves] at h

/-- Endpoints that are there keep their workers. -/
theorem Served.of_opened (hs : Served s) (same : SameOpened s t)
    (endpoints : ∀ e ep, t.endpoints.get? e = some ep →
      ∃ ep', s.endpoints.get? e = some ep' ∧ ep'.worker = ep.worker)
    (workers : s.workers.next ≤ t.workers.next)
    (next : s.endpoints.next ≤ t.endpoints.next) : Served t where
  opened e ep he := by
    obtain ⟨ep', he', hw⟩ := endpoints e ep he
    rw [same, ← hw]
    exact hs.opened e ep' he'
  single w w' e h h' := by
    rw [same] at h h'
    exact hs.single w w' e h h'
  known w e h := by
    rw [same] at h
    have := hs.known w e h
    exact ⟨this.1.trans_le workers, this.2.trans_le next⟩

theorem Served.wire (hs : Served s) (h : Wire s t) : Served t := by
  cases h with
  | openEndpoint id wk ep here fresh worker empty =>
    have pushed {w : WorkerId} {e : EndpointId}
        (h : Happening.opened e w ∈ s.trace.push (.opened s.endpoints.next id)) :
        s.serves w e = true ∨ e = s.endpoints.next ∧ w = id := by
      rcases Array.mem_push.1 h with h | h
      · exact .inl (serves_iff.2 h)
      · cases h
        exact .inr ⟨rfl, rfl⟩
    have old (w : WorkerId) : s.serves w s.endpoints.next = false := by
      by_contra h
      exact (hs.known w _ (Bool.eq_true_of_not_eq_false h)).2.ne rfl
    refine ⟨fun e ep' he => ?_, fun w w' e h h' => ?_, fun w e h => ?_⟩
    · rw [serves_iff]
      rcases Table.get?_of_push he with ⟨rfl, rfl⟩ | he
      · rw [worker]
        exact Array.mem_push_self
      · exact Array.mem_push_of_mem _ (serves_iff.1 (hs.opened e ep' he))
    · rcases pushed (serves_iff.1 h) with h | ⟨rfl, rfl⟩ <;>
        rcases pushed (serves_iff.1 h') with h' | ⟨he, hw⟩
      · exact hs.single w w' e h h'
      · rw [he, old] at h
        cases h
      · rw [old] at h'
        cases h'
      · exact hw.symm
    · rw [Table.next_set, Table.next_push]
      have hid := Table.lt_next_of_get? here
      rcases pushed (serves_iff.1 h) with h | ⟨rfl, rfl⟩
      · have := hs.known w e h
        exact ⟨this.1, this.2.trans (Nat.lt_succ_self _)⟩
      · exact ⟨hid, Nat.lt_succ_self _⟩
  | closeEndpoint id ep rest top here free =>
    refine hs.of_opened (.of_trace rfl) (fun e ep' he => ?_) le_rfl (by simp)
    exact ⟨ep', Table.get?_of_erase he, rfl⟩
  | install id ep lane c here live own unsent =>
    refine hs.of_opened (.of_trace rfl) (fun e ep' he => ?_) le_rfl (by simp [setSlots])
    rcases Table.get?_of_modify he with ⟨ep'', he', rfl | rfl⟩
    · exact ⟨ep', he', rfl⟩
    · exact ⟨ep'', he', rfl⟩
  | clear id =>
    refine hs.of_opened (.of_trace rfl) (fun e ep' he => ?_) le_rfl (by simp [setSlots])
    rcases Table.get?_of_modify he with ⟨ep'', he', rfl | rfl⟩
    · exact ⟨ep', he', rfl⟩
    · exact ⟨ep'', he', rfl⟩
  | openWorker wk registry fresh resources =>
    refine hs.of_opened (.of_trace rfl) (fun e ep he => ⟨ep, he, rfl⟩) ?_ le_rfl
    simp [Table.next_push]
  | strike id dest pledged =>
    exact hs.of_opened (.of_trace rfl) (fun e ep he => ⟨ep, he, rfl⟩) (by simp) le_rfl
  | closeWorker id wk rest top here free =>
    exact hs.of_opened (.of_trace rfl) (fun e ep he => ⟨ep, he, rfl⟩) (by simp) le_rfl
  | markLocal id here =>
    exact hs.of_opened (.of_push rfl (by simp)) (fun e ep he => ⟨ep, he, rfl⟩) le_rfl le_rfl
  | markRemote id here =>
    exact hs.of_opened (.of_push rfl (by simp)) (fun e ep he => ⟨ep, he, rfl⟩) le_rfl le_rfl
  | _ => exact hs.of_opened (.of_trace rfl) (fun e ep he => ⟨ep, he, rfl⟩) le_rfl le_rfl

theorem Served.pass (hs : Served s) (h : Pass wild s t) : Served t := by
  refine hs.of_opened h.opened ?_ ?_ ?_
  all_goals cases h with
    | switch id st w wk next here worker books unswitched ready =>
      first
      | intro e ep he
        rcases Table.get?_of_modify he with ⟨ep', he', rfl | rfl⟩
        · exact ⟨ep, he', rfl⟩
        · exact ⟨ep', he', rfl⟩
      | simp
    | _ =>
      first
      | exact fun e ep he => ⟨ep, he, rfl⟩
      | simp

theorem Served.move (hs : Served s) (h : Move wild s t) : Served t := by
  cases h with
  | aside h =>
    refine hs.of_opened h.opened (fun e ep he => ⟨ep, h.endpoints ▸ he, rfl⟩) h.workersNext.ge ?_
    rw [h.endpoints]
  | hold h =>
    have opened := h.opened
    rw [h.frame] at opened ⊢
    exact hs.of_opened opened (fun e ep he => ⟨ep, he, rfl⟩) le_rfl le_rfl
  | wire h => exact hs.wire h
  | pass h => exact hs.pass h

/-! ## Registrations and counts -/

/-- What a stub has parked that a worker answers for. -/
def share (s : Network) (w : WorkerId) (st : Stub) : Nat :=
  if s.serves w st.endpoint then st.parked.length else 0

theorem SameOpened.share (same : SameOpened s t) (w : WorkerId) (st : Stub) :
    t.share w st = s.share w st := by
  unfold Network.share
  rw [same]

/-- How many requests of a worker's stubs are still counted although they were handed over. -/
def replaying (agenda : List Job) (w : WorkerId) : Nat := agenda.countP (Job.replays w)

theorem replaying_cons (j : Job) (rest : List Job) (w : WorkerId) :
    replaying (j :: rest) w = replaying rest w + (j.replays w).toNat := by
  unfold replaying
  cases h : j.replays w <;> simp [h]

theorem replaying_append {jobs : List Job} (rest : List Job)
    (none : ∀ j ∈ jobs, j.replays w = false) :
    replaying (jobs ++ rest) w = replaying rest w := by
  unfold replaying
  rw [List.countP_append, List.countP_eq_zero.2, Nat.zero_add]
  intro j hj
  simp [none j hj]

/-- Each worker has a registry of its own, in which each of its stubs is registered once for every
request parked on it, and counts what its stubs have parked. -/
structure Booked (s : Network) : Prop where
  registry : ∀ w wk, s.workers.get? w = some wk → wk.registry < s.registries.next
  own : ∀ w w' wk wk', s.workers.get? w = some wk → s.workers.get? w' = some wk' →
    wk.registry = wk'.registry → w = w'
  fresh : ∀ r x, s.stubs.next ≤ x → s.registrations r (.stub x) = 0
  registrations : ∀ w wk x st, s.workers.get? w = some wk → s.stubs.get? x = some st →
    s.registrations wk.registry (.stub x) = s.share w st
  count : ∀ w wk, s.workers.get? w = some wk →
    wk.parkedCount = s.stubs.sum (fun _ st => s.share w st) + replaying s.agenda w
  unknown : ∀ w, s.workers.next ≤ w → replaying s.agenda w = 0

theorem Booked.initial (process : UInt32) : Booked { process } where
  registry w wk hw := by cases hw
  own w w' wk wk' hw := by cases hw
  fresh r x hx := rfl
  registrations w wk x st hw := by cases hw
  count w wk hw := by cases hw
  unknown w hw := rfl

/-- Nobody parks anything. -/
theorem Booked.of_same (hs : Booked s) (same : SameOpened s t)
    (workers : ∀ w wk, t.workers.get? w = some wk → ∃ wk', s.workers.get? w = some wk' ∧
      wk'.registry = wk.registry ∧ wk'.parkedCount = wk.parkedCount)
    (workersNext : s.workers.next ≤ t.workers.next)
    (registries : t.registries = s.registries) (next : s.stubs.next ≤ t.stubs.next)
    (stubs : ∀ x st, t.stubs.get? x = some st → ∃ st', s.stubs.get? x = some st' ∧
      st'.endpoint = st.endpoint ∧ st'.parked = st.parked)
    (sum : ∀ w, t.stubs.sum (fun _ st => s.share w st) = s.stubs.sum fun _ st => s.share w st)
    (agenda : ∀ w, replaying t.agenda w = replaying s.agenda w) : Booked t where
  registry w wk hw := by
    rcases workers w wk hw with ⟨wk', hw', hr, -⟩
    rw [registries, ← hr]
    exact hs.registry w wk' hw'
  own w w' wk wk' hw hw' h := by
    rcases workers w wk hw with ⟨v, hv, hr, -⟩
    rcases workers w' wk' hw' with ⟨v', hv', hr', -⟩
    exact hs.own w w' v v' hv hv' (by rw [hr, hr', h])
  fresh r x hx := by
    rw [registrations_eq, registries]
    exact hs.fresh r x (next.trans hx)
  registrations w wk x st hw hx := by
    rcases workers w wk hw with ⟨wk', hw', hr, -⟩
    rcases stubs x st hx with ⟨st', hx', he, hp⟩
    have before := hs.registrations w wk' x st' hw' hx'
    rw [registrations_eq, registries, ← hr, same.share]
    simpa only [registrations_eq, share, he, hp] using before
  count w wk hw := by
    rcases workers w wk hw with ⟨wk', hw', -, hc⟩
    simp only [same.share, sum, agenda, ← hc]
    exact hs.count w wk' hw'
  unknown w hw := by
    rw [agenda]
    exact hs.unknown w (workersNext.trans hw)

/-- What goes on aside is not in the books. -/
theorem Aside.books_eq (h : Aside s t) {wk : Worker} (hw : t.workers.get? w = some wk) :
    ∃ wk', s.workers.get? w = some wk' ∧ wk'.registry = wk.registry ∧
      wk'.parkedCount = wk.parkedCount := by
  rcases h.worker hw with ⟨wk', hw', hb⟩
  simp only [Worker.books, Worker.mk.injEq] at hb
  exact ⟨wk', hw', hb.2.2.2.2.1, hb.2.2.2.2.2.2.1⟩

theorem Booked.aside (hs : Booked s) (h : Aside s t) : Booked t where
  registry w wk hw := by
    rcases h.books_eq hw with ⟨wk', hw', hr, -⟩
    rw [← hr]
    exact (hs.registry w wk' hw').trans_le h.registriesNext
  own w w' wk wk' hw hw' hr := by
    rcases h.books_eq hw with ⟨v, hv, hb, -⟩
    rcases h.books_eq hw' with ⟨v', hv', hb', -⟩
    exact hs.own w w' v v' hv hv' (by rw [hb, hb', hr])
  fresh r x hx := by
    rw [h.stubs] at hx
    have less := h.unregistered r x
    have none := hs.fresh r x hx
    omega
  registrations w wk x st hw hx := by
    rcases h.books_eq hw with ⟨wk', hw', hr, -⟩
    rw [h.stubs] at hx
    rw [h.registered _ _ (Table.contains_of_get? hx), h.opened.share, ← hr]
    exact hs.registrations w wk' x st hw' hx
  count w wk hw := by
    rcases h.books_eq hw with ⟨wk', hw', -, hc⟩
    simp only [h.opened.share, h.stubs, h.agenda, ← hc]
    exact hs.count w wk' hw'
  unknown w hw := by
    rw [h.workersNext] at hw
    rw [h.agenda]
    exact hs.unknown w hw

theorem Hold.replaying (h : Hold s t) (w : WorkerId) :
    Network.replaying t.agenda w = Network.replaying s.agenda w := by
  cases h with
  | keep => rfl
  | letGo | hold => simp [replaying_cons, Job.replays]
  | loose ref rest top => simp [top, replaying_cons, Job.replays]
  | plan j idle => simp [replaying_cons, Job.replays_idle idle]
  | done j rest top idle => simp [top, replaying_cons, Job.replays_idle idle]

theorem Booked.hold (hs : Booked s) (h : Hold s t) : Booked t := by
  have agenda := h.replaying
  have opened := h.opened
  rw [h.frame] at agenda opened ⊢
  exact hs.of_same opened (fun w wk hw => ⟨wk, hw, rfl, rfl⟩) le_rfl rfl le_rfl
    (fun x st hx => ⟨st, hx, rfl, rfl⟩) (fun _ => rfl) agenda

theorem replays_releaseLink? (l : Option LinkId) (w : WorkerId) :
    ∀ j ∈ releaseLink? l, j.replays w = false := by
  intro j hj
  rcases mem_releaseLink?.1 hj with ⟨id, -, rfl⟩
  rfl

theorem Wire.replaying (h : Wire s t) (w : WorkerId) :
    Network.replaying t.agenda w = Network.replaying s.agenda w := by
  cases h with
  | closeStub id st here empty free =>
    refine replaying_append _ fun j hj => ?_
    simp only [List.mem_append] at hj
    rcases hj with (hj | hj) | hj <;> exact replays_releaseLink? _ w j hj
  | closeEndpoint id ep rest top here free =>
    rw [top, replaying_cons]
    refine (replaying_append _ fun j hj => ?_).trans (by simp [Job.replays])
    rcases mem_releaseSlots.1 hj with ⟨c, -, rfl⟩
    rfl
  | closeWorker id wk rest top here free =>
    rw [top, replaying_cons]
    refine (replaying_append _ fun j hj => ?_).trans (by simp [Job.replays])
    simp only [List.mem_append, List.mem_map] at hj
    rcases hj with ⟨r, -, rfl⟩ | ⟨entry, -, rfl⟩ <;> rfl
  | _ => rfl

theorem Booked.wire (hs : Booked s) (served : Served s) (keyed : Keyed s) (h : Wire s t) :
    Booked t := by
  have agenda := h.replaying
  cases h with
  | openStub st gate unparked unmarked unswitched next auxiliary endpoint =>
    have empty (w : WorkerId) : s.share w st = 0 := by simp [share, unparked]
    refine ⟨hs.registry, hs.own, fun r x hx => ?_, fun w wk x st' hw hx => ?_, fun w wk hw => ?_,
      hs.unknown⟩
    · rw [Table.next_push] at hx
      exact hs.fresh r x (by omega)
    · rcases Table.get?_of_push hx with ⟨rfl, rfl⟩ | hx
      · exact (hs.fresh _ _ le_rfl).trans (empty w).symm
      · exact hs.registrations w wk x st' hw hx
    · have before := hs.count w wk hw
      rw [Table.sum_push]
      change _ = _ + s.share w st + _
      rw [empty]
      exact before
  | closeStub id st here empty free =>
    refine hs.of_same (.of_trace rfl) (fun w wk hw => ⟨wk, hw, rfl, rfl⟩) le_rfl rfl
      (by simp) (fun x st' hx => ⟨st', Table.get?_of_erase hx, rfl, rfl⟩) (fun w => ?_) agenda
    have erased := Table.sum_erase (fun _ st => s.share w st) here
    simp only [share, empty, List.length_nil, ite_self] at erased ⊢
    exact erased
  | openEndpoint id wk ep here fresh worker empty =>
    have old (w : WorkerId) (x : StubId) (st : Stub) (hx : s.stubs.get? x = some st) :
        serves { s with trace := s.trace.push (.opened s.endpoints.next id) } w st.endpoint =
          s.serves w st.endpoint := by
      rw [Bool.eq_iff_iff, serves_iff, serves_iff, Array.mem_push]
      have hne := (keyed.stubs x st hx).ne
      simp [hne]
    have share_eq (w : WorkerId) (x : StubId) (st : Stub) (hx : s.stubs.get? x = some st) :
        share { s with trace := s.trace.push (.opened s.endpoints.next id) } w st =
          s.share w st := by
      unfold share
      rw [old w x st hx]
    have books {w : WorkerId} {wk' : Worker} (hw : (s.workers.set id { wk with
        directory := wk.directory ++ [(ep.dest, s.endpoints.next)] }).get? w = some wk') :
        ∃ v, s.workers.get? w = some v ∧ v.registry = wk'.registry ∧
          v.parkedCount = wk'.parkedCount := by
      rw [Table.get?_set_of here] at hw
      split at hw
      · subst w
        cases hw
        exact ⟨wk, here, rfl, rfl⟩
      · exact ⟨wk', hw, rfl, rfl⟩
    refine ⟨fun w wk' hw => ?_, fun w w' v v' hw hw' hr => ?_, hs.fresh,
      fun w wk' x st hw hx => ?_, fun w wk' hw => ?_, fun w hw => hs.unknown w (by simpa using hw)⟩
    · rcases books hw with ⟨v, hv, hr, -⟩
      exact hr ▸ hs.registry w v hv
    · rcases books hw with ⟨u, hu, hb, -⟩
      rcases books hw' with ⟨u', hu', hb', -⟩
      exact hs.own w w' u u' hu hu' (by rw [hb, hb', hr])
    · rcases books hw with ⟨v, hv, hr, -⟩
      rw [← hr]
      exact (hs.registrations w v x st hv hx).trans (share_eq w x st hx).symm
    · rcases books hw with ⟨v, hv, -, hc⟩
      rw [← hc, hs.count w v hv]
      congr 1
      refine Table.sum_congr rfl fun x => ?_
      cases hx : s.stubs.get? x with
      | none => rfl
      | some st => exact (share_eq w x st hx).symm
  | openWorker wk registry fresh resources =>
    have newest (r : RegistryId) (x : Runner) :
        registered (s.registries.push []) r x = registered s.registries r x := by
      unfold registered
      rw [Table.get?_push]
      split
      · subst r
        simp
      · rfl
    have idle (st : Stub) : s.share s.workers.next st = 0 := by
      unfold share
      split
      · rename_i h
        exact absurd (served.known _ _ h).1 (lt_irrefl _)
      · rfl
    have old (w : WorkerId) (v : Worker) (hw : s.workers.get? w = some v) :
        v.registry ≠ wk.registry := registry ▸ (hs.registry w v hw).ne
    refine ⟨fun w v hw => ?_, fun w w' v v' hw hw' hr => ?_, fun r x hx => ?_,
      fun w v x st hw hx => ?_, fun w v hw => ?_, fun w hw => ?_⟩
    · change _ < (s.registries.push []).next
      rw [Table.next_push]
      rcases Table.get?_of_push hw with ⟨-, rfl⟩ | hw
      · exact registry.trans_lt (Nat.lt_succ_self _)
      · exact (hs.registry w v hw).trans (Nat.lt_succ_self _)
    · rcases Table.get?_of_push hw with ⟨hn, hv⟩ | hw <;>
        rcases Table.get?_of_push hw' with ⟨hn', hv'⟩ | hw'
      · rw [hn, hn']
      · exact absurd (hv ▸ hr.symm) (old w' v' hw')
      · exact absurd (hv' ▸ hr) (old w v hw)
      · exact hs.own w w' v v' hw hw' hr
    · exact (newest r (.stub x)).trans (hs.fresh r x hx)
    · rw [registrations_eq, newest]
      rcases Table.get?_of_push hw with ⟨rfl, rfl⟩ | hw
      · refine Eq.trans ?_ (idle st).symm
        rw [registry]
        simp [registered]
      · exact hs.registrations w v x st hw hx
    · rcases Table.get?_of_push hw with ⟨rfl, rfl⟩ | hw
      · rw [fresh.1]
        have none := Table.sum_eq_zero_iff.2 fun k st (_ : s.stubs.get? k = some st) => idle st
        have done := hs.unknown _ le_rfl
        change 0 = s.stubs.sum (fun _ st => s.share _ st) + replaying s.agenda _
        rw [none, done]
      · exact hs.count w v hw
    · have hw : s.workers.next + 1 ≤ w := by simpa [Table.next_push] using hw
      exact hs.unknown w (by omega)
  | closeWorker id wk rest top here free =>
    exact hs.of_same (.of_trace rfl) (fun w wk hw => ⟨wk, Table.get?_of_erase hw, rfl, rfl⟩)
      (by simp) rfl le_rfl (fun x st hx => ⟨st, hx, rfl, rfl⟩) (fun _ => rfl) agenda
  | strike id dest pledged =>
    refine hs.of_same (.of_trace rfl) (fun w wk hw => ?_) (by simp) rfl le_rfl
      (fun x st hx => ⟨st, hx, rfl, rfl⟩) (fun _ => rfl) agenda
    rcases Table.get?_of_modify hw with ⟨wk', hw', rfl | rfl⟩ <;> exact ⟨_, hw', rfl, rfl⟩
  | markLocal id here | markRemote id here =>
    refine hs.of_same (.of_push rfl (by simp)) (fun w wk hw => ⟨wk, hw, rfl, rfl⟩) le_rfl
      rfl (by simp [markRemoteConnected, note]) (fun x st hx => ?_)
      (fun w => Table.sum_modify fun _ _ => rfl) agenda
    rcases Table.get?_of_modify hx with ⟨st', hx', rfl | rfl⟩ <;> exact ⟨_, hx', rfl, rfl⟩
  | _ =>
    exact hs.of_same (.of_trace rfl) (fun w wk hw => ⟨wk, hw, rfl, rfl⟩) le_rfl rfl le_rfl
      (fun x st hx => ⟨st, hx, rfl, rfl⟩) (fun _ => rfl) agenda

theorem replays_hand {j : Job} {r : Request} (hand : j.request? = some r) (w : WorkerId) :
    j.replays w = false := by
  cases j <;> simp_all [Job.request?, Job.replays]

/-- Each parked request is counted until it was handed over. -/
theorem replaying_replay (st : Stub) (w w' : WorkerId) (next : LinkId) (rest : List Job) :
    replaying (replay st w next ++ rest) w' =
      replaying rest w' + if w = w' then st.parked.length else 0 := by
  have parked (rs : List Request) :
      replaying (rs.flatMap fun r => [.add (.link next) r, .replayed w]) w' =
        if w = w' then rs.length else 0 := by
    induction rs with
    | nil => simp [replaying]
    | cons r rs ih =>
      rw [List.flatMap_cons, List.cons_append, List.singleton_append, replaying_cons,
        replaying_cons, ih]
      by_cases h : w = w' <;> simp [Job.replays, h]
  have released : replaying (releaseLink? st.auxiliary) w' = 0 := by
    simpa [replaying] using replaying_append [] (replays_releaseLink? st.auxiliary w')
  unfold replaying replay at *
  simp only [List.countP_append, parked, released, List.countP_cons, List.countP_nil, Job.replays]
  simp only [Bool.false_eq_true, if_false]
  omega

/-- A stub whose worker lives is a share of that worker alone. -/
theorem Served.share_eq (served : Served s) {st : Stub} (worker : s.workerOf? st.endpoint = some w)
    (w' : WorkerId) : s.share w' st = if w = w' then st.parked.length else 0 := by
  rcases workerOf?_eq_some.1 worker with ⟨ep, he, rfl, -⟩
  have own := served.opened _ ep he
  unfold share
  by_cases hw : ep.worker = w'
  · subst hw
    rw [own, if_pos rfl, if_pos rfl]
  · rw [if_neg hw, if_neg fun h => hw (served.single _ _ _ own h)]

/-- A stub with the same endpoint is a share of the same worker. -/
theorem share_congr {st st' : Stub} (endpoint : st'.endpoint = st.endpoint)
    (parked : st'.parked.length = st.parked.length) : s.share w st' = s.share w st := by
  simp only [share, endpoint, parked]

theorem Booked.park (hs : Booked s) (served : Served s) {id : StubId} {st : Stub} {wk : Worker}
    {r : Request} {rest : List Job} (top : s.agenda = .add (.stub id) r :: rest)
    (here : s.stubs.get? id = some st) (worker : s.workerOf? st.endpoint = some w)
    (books : s.workers.get? w = some wk)
    (opened : SameOpened s t)
    (stubs : t.stubs = s.stubs.set id { st with parked := st.parked ++ [r] })
    (workers : t.workers = s.workers.set w { wk with parkedCount := wk.parkedCount + 1 })
    (registries : t.registries = s.registries.set wk.registry
      ((s.registry wk.registry).add (.stub id) true).1)
    (agenda : t.agenda = rest) : Booked t := by
  have parked (w' : WorkerId) : s.share w' { st with parked := st.parked ++ [r] } =
      s.share w' st + if w = w' then 1 else 0 := by
    have worker' : s.workerOf? { st with parked := st.parked ++ [r] : Stub }.endpoint = some w :=
      worker
    rw [served.share_eq worker', served.share_eq worker w']
    split <;> simp
  have todo (w' : WorkerId) : replaying t.agenda w' = replaying s.agenda w' := by
    simp [agenda, top, replaying_cons, Job.replays]
  have known := hs.registry w wk books
  have entry {w' : WorkerId} {v : Worker} (hw : t.workers.get? w' = some v) :
      ∃ v', s.workers.get? w' = some v' ∧ v'.registry = v.registry ∧
        v.parkedCount = v'.parkedCount + if w = w' then 1 else 0 := by
    rw [workers, Table.get?_set_of books] at hw
    split at hw
    · rename_i h
      subst h
      cases hw
      exact ⟨wk, books, rfl, by simp⟩
    · rename_i h
      exact ⟨v, hw, rfl, by simp [h]⟩
  refine ⟨fun w' v hw => ?_, fun w' w'' v v' hw hw' hr => ?_, fun i x hx => ?_,
    fun w' v x st' hw hx => ?_, fun w' v hw => ?_, fun w' hw => ?_⟩
  · rcases entry hw with ⟨v', hv', hr, -⟩
    rw [registries, Table.next_set, ← hr]
    exact hs.registry w' v' hv'
  · rcases entry hw with ⟨u, hu, hb, -⟩
    rcases entry hw' with ⟨u', hu', hb', -⟩
    exact hs.own w' w'' u u' hu hu' (by rw [hb, hb', hr])
  · rw [stubs, Table.next_set] at hx
    have hne : Runner.stub id ≠ .stub x := by
      have := Table.lt_next_of_get? here
      simp only [ne_eq, Runner.stub.injEq]
      exact (this.trans_le hx).ne
    rw [registrations_eq, registries, registered_set known, Registry.count_add_ne _ _ hne]
    have none := hs.fresh i x hx
    split
    · rename_i hi
      subst hi
      exact none
    · exact none
  · rcases entry hw with ⟨v', hv', hr, -⟩
    rw [opened.share, registrations_eq, registries, registered_set known, ← hr]
    have before {x : StubId} {st : Stub} (hx : s.stubs.get? x = some st) :=
      hs.registrations w' v' x st hv' hx
    rw [stubs, Table.get?_set_of here] at hx
    split at hx
    · rename_i hid
      subst hid
      cases hx
      rw [parked, ← before here]
      by_cases hw' : w = w'
      · subst hw'
        cases books.symm.trans hv'
        rw [if_pos rfl, if_pos rfl, Registry.count_add_self]
        rfl
      · rw [if_neg fun h => hw' (hs.own _ _ _ _ books hv' h.symm), if_neg hw']
        rfl
    · rename_i hid
      have hne : Runner.stub id ≠ .stub x := by simpa using hid
      rw [Registry.count_add_ne _ _ hne, ← before hx]
      split
      · rename_i hi
        rw [hi]
        rfl
      · rfl
  · rcases entry hw with ⟨v', hv', -, hc⟩
    have before := hs.count w' v' hv'
    have sum := Table.sum_set (b := { st with parked := st.parked ++ [r] })
      (fun _ st => s.share w' st) here
    simp only [parked] at sum
    simp only [opened.share, stubs, todo, hc]
    omega
  · rw [workers, Table.next_set] at hw
    rw [todo]
    exact hs.unknown w' hw

theorem Booked.switch (hs : Booked s) (served : Served s) {id : StubId} {st st' : Stub}
    {wk : Worker} {next : LinkId} (here : s.stubs.get? id = some st)
    (worker : s.workerOf? st.endpoint = some w) (books : s.workers.get? w = some wk)
    (opened : SameOpened s t) (stubs : t.stubs = s.stubs.set id st')
    (emptied : st'.parked = [])
    (workers : t.workers = s.workers)
    (registries : t.registries = withdraw s.registries wk.registry (.stub id) st.parked.length)
    (agenda : t.agenda = replay st w next ++ s.agenda) : Booked t := by
  have none (w' : WorkerId) : s.share w' st' = 0 := by simp [share, emptied]
  refine ⟨fun w' v hw => ?_, fun w' w'' v v' hw hw' hr => ?_, fun i x hx => ?_,
    fun w' v x st'' hw hx => ?_, fun w' v hw => ?_, fun w' hw => ?_⟩
  · rw [workers] at hw
    rw [registries, withdraw_next]
    exact hs.registry w' v hw
  · rw [workers] at hw hw'
    exact hs.own w' w'' v v' hw hw' hr
  · rw [stubs, Table.next_set] at hx
    have hne : Runner.stub id ≠ .stub x := by
      have := Table.lt_next_of_get? here
      simp only [ne_eq, Runner.stub.injEq]
      exact (this.trans_le hx).ne
    rw [registrations_eq, registries, registered_withdraw_ne _ _ _ _ (.inr hne)]
    exact hs.fresh i x hx
  · rw [workers] at hw
    rw [opened.share, registrations_eq, registries]
    rw [stubs, Table.get?_set_of here] at hx
    split at hx
    · rename_i hid
      subst hid
      cases hx
      rw [none]
      have before := hs.registrations w' v id st hw here
      rw [served.share_eq worker w', registrations_eq] at before
      by_cases hw' : w = w'
      · subst hw'
        cases books.symm.trans hw
        rw [registered_withdraw_self, before]
        simp
      · have hi : v.registry ≠ wk.registry := fun h => hw' (hs.own _ _ _ _ books hw h.symm)
        rw [registered_withdraw_ne _ _ _ _ (.inl hi), before, if_neg hw']
    · rename_i hid
      have hne : Runner.stub id ≠ .stub x := by simpa using hid
      rw [registered_withdraw_ne _ _ _ _ (.inr hne)]
      exact hs.registrations w' v x st'' hw hx
  · rw [workers] at hw
    have before := hs.count w' v hw
    have sum := Table.sum_set (b := st') (fun _ st => s.share w' st) here
    simp only [none, served.share_eq worker w'] at sum
    simp only [opened.share, stubs, agenda, replaying_replay]
    omega
  · rw [workers] at hw
    have before := hs.unknown w' hw
    rw [agenda, replaying_replay, before]
    have hne : w ≠ w' := ((Table.lt_next_of_get? books).trans_le hw).ne
    simp [hne]

/-- Only parking, switching over and replaying are entered in the books. -/
theorem Booked.pass (hs : Booked s) (served : Served s) (h : Pass wild s t) : Booked t := by
  have opened := h.opened
  cases h with
  | park id st w wk r rest top here data worker books unswitched =>
    exact hs.park served top here worker books opened rfl rfl rfl rfl
  | switch id st w wk next here worker books unswitched ready =>
    exact hs.switch served here worker books opened rfl rfl rfl rfl rfl
  | replayed w rest top =>
    have todo (w' : WorkerId) :
        replaying s.agenda w' = replaying rest w' + if w = w' then 1 else 0 := by
      rw [top, replaying_cons]
      by_cases h : w = w' <;> simp [Job.replays, h]
    have entry {w' : WorkerId} {v : Worker} (hw : (s.workers.modify w fun wk =>
        { wk with parkedCount := wk.parkedCount - 1 }).get? w' = some v) :
        ∃ v', s.workers.get? w' = some v' ∧ v'.registry = v.registry := by
      rcases Table.get?_of_modify hw with ⟨v', hv', rfl | rfl⟩ <;> exact ⟨_, hv', rfl⟩
    refine ⟨fun w' v hw => ?_, fun w' w'' v v' hw hw' hr => ?_, hs.fresh,
      fun w' v x st hw hx => ?_, fun w' v hw => ?_, fun w' hw => ?_⟩
    · rcases entry hw with ⟨v', hv', hr⟩
      exact hr ▸ hs.registry w' v' hv'
    · rcases entry hw with ⟨u, hu, hb⟩
      rcases entry hw' with ⟨u', hu', hb'⟩
      exact hs.own w' w'' u u' hu hu' (by rw [hb, hb', hr])
    · rcases entry hw with ⟨v', hv', hr⟩
      exact hr ▸ hs.registrations w' v' x st hv' hx
    · rw [Table.get?_modify] at hw
      have counted := todo w'
      split at hw
      · rename_i h
        rcases Option.map_eq_some_iff.1 hw with ⟨v', hv', rfl⟩
        have before := hs.count w' v' hv'
        rw [if_pos h] at counted
        change v'.parkedCount - 1 = s.stubs.sum (fun _ st => s.share w' st) + replaying rest w'
        omega
      · rename_i h
        have before := hs.count w' v hw
        rw [if_neg h] at counted
        change v.parkedCount = s.stubs.sum (fun _ st => s.share w' st) + replaying rest w'
        omega
    · have counted := todo w'
      have before := hs.unknown w' (by simpa using hw)
      change replaying rest w' = 0
      omega
  | close j r o rest top hand lent truth untruth =>
    refine hs.of_same opened (fun w wk hw => ⟨wk, hw, rfl, rfl⟩) le_rfl rfl le_rfl
      (fun x st hx => ⟨st, hx, rfl, rfl⟩) (fun _ => rfl) fun w => ?_
    simp [top, replaying_cons, replays_hand hand]
  | _ =>
    refine hs.of_same opened (fun w wk hw => ⟨wk, hw, rfl, rfl⟩) le_rfl rfl le_rfl
      (fun x st hx => ⟨st, hx, rfl, rfl⟩) (fun _ => rfl) fun w => ?_
    simp_all [replaying_cons, Job.replays]

theorem Booked.move (hs : Booked s) (served : Served s) (keyed : Keyed s) (h : Move wild s t) :
    Booked t := by
  cases h with
  | aside h => exact hs.aside h
  | hold h => exact hs.hold h
  | wire h => exact hs.wire served keyed h
  | pass h => exact hs.pass served h

end Network

end Wiring
