import Mathlib
import Wiring.Proofs.Containment
import Wiring.Proofs.Opening
import Wiring.Proofs.Signals

/-!
# Receiving signals

A worker handles a signal above whatever work there is below, and comes back to it. A signal that
does not decode, or is meant for somebody else, changes nothing. Another one stays with the
endpoint to its sender: that endpoint is the one in the directory, or a new one, which is taken
down again if its lanes cannot be opened.
-/
namespace Wiring.Network

variable {s t u v : Network} {e : EndpointId} {ep : Endpoint} {w : WorkerId} {wk : Worker}
  {dest peer : UInt64} {rest : List Job}

theorem WorksAbove.trans (h : WorksAbove rest s t) (g : WorksAbove rest t u) :
    WorksAbove rest s u := by
  rcases h with ⟨n, rfl, first⟩
  rcases g with ⟨m, rfl, second⟩
  refine ⟨n + m, (work_add n m s).symm, fun k hk => ?_⟩
  rcases Nat.lt_or_ge k n with early | late
  · exact first k early
  · rcases Nat.exists_eq_add_of_le late with ⟨i, rfl⟩
    rw [work_add]
    exact second i (by omega)

theorem WorksAbove.one {j : Job} (top : s.agenda = j :: rest) (h : WorksAbove rest s.step t) :
    WorksAbove rest s t := by
  have top : s.agenda = j :: [] ++ rest := top
  exact .step top h

/-! ## Answering -/

/-- An endpoint makes at most one send, of a signal to its peer. -/
inductive Speaks (s t : Network) (e : EndpointId) (peer : UInt64) : Prop
  | silent (h : Silent s t)
  | signal (g : Signal) (peer : g.dest = peer) (h : Signalled s t e g.encode)

theorem Silent.withAgenda (s : Network) (agenda : List Job) : Silent s { s with agenda } :=
  ⟨fun _ => rfl, fun _ => rfl⟩

theorem Signalled.after {payload : Bytes} (h : Silent s t) (g : Signalled t u e payload) :
    Signalled s u e payload := by
  cases g with
  | sent l dest uses inboxes queues =>
    refine .sent l dest uses (fun i => ?_) fun k => (queues k).trans (h.queues k)
    rw [inboxes, h.inboxes]
  | queued l m r uses own signal covers inboxes queues =>
    refine .queued l m r uses own signal covers (fun i => (inboxes i).trans (h.inboxes i)) fun k => ?_
    rw [queues, h.queues]

theorem Speaks.after (h : Silent s t) (g : Speaks t u e peer) : Speaks s u e peer := by
  cases g with
  | silent g => exact .silent (h.trans g)
  | signal g aim sent => exact .signal g aim (sent.after h)

theorem newSignal_written (here : s.endpoints.get? e = some ep) (kind : Signal.Kind) :
    (∃ why, s.newSignal e kind = (s, .error why)) ∨
    ∃ g : Signal, g.dest = ep.dest ∧ s.newSignal e kind =
      ((s.newSend e Signal.messageId g.encode).1,
        .ok (s.newSend e Signal.messageId g.encode).2) := by
  unfold newSignal
  cases made : s.signal e kind with
  | error why => exact .inl ⟨why, rfl⟩
  | ok g =>
    refine .inr ⟨g, ?_, rfl⟩
    unfold signal at made
    simp only [here] at made
    cases hw : s.workers.get? ep.worker with
    | none =>
      rw [hw] at made
      cases made
    | some wk =>
      simp only [hw] at made
      split at made
      · cases made
        rfl
      · rcases bind_ok made with ⟨lanes, -, made⟩
        cases made
        rfl

theorem Signalled.withWork {payload : Bytes} (h : Signalled s t e payload)
    (handles : Table (Option Outcome)) (agenda : List Job) :
    Signalled s { t with handles, agenda } e payload := by
  cases h with
  | sent l dest uses inboxes queues => exact .sent l dest uses inboxes queues
  | queued l m r uses own signal covers inboxes queues =>
    exact .queued l m r uses own signal covers inboxes queues

/-- An attempt at a signal comes to its end: the signal is given up, has gone out or is queued. -/
theorem attempt_works {m : Send} (own : m.endpoint = e) (here : t.endpoints.get? e = some ep)
    (signal : m.messageId = Signal.messageId) (later : s.handles.next ≤ m.handle)
    (calm : t.violation = none) (top : t.agenda = .attempt (.send m) (.endpoint e) :: rest)
    (within : Within e s t) :
    ∃ u, WorksAbove rest t u ∧ u.agenda = rest ∧ u.violation = none ∧ Within e s u ∧
      (Silent t u ∨ Signalled t u e m.payload) := by
  rcases attempt_posted own here (.inl signal) calm top with ⟨u, works, posted⟩
  rcases posted.undisturbed with ⟨same, rests⟩
  have below : Within e s { t with agenda := rest } := within.withAgenda rest
  have lifted : Silent t { t with agenda := rest } := .withAgenda t rest
  -- the end of an attempt completes the handle
  have ended {v : Network} (o : Outcome) (within : Within e s v) : Within e s { v with
      handles := v.handles.modify m.handle fun old => some (old.getD o) } :=
    { within with
      frame := by rw [within.frame]
      handles := within.handles.modify later _ }
  refine ⟨u, works.above, rests, same.calm.trans calm, ?_⟩
  cases posted with
  | refused why final => exact ⟨ended _ below, .inl ⟨fun _ => rfl, fun _ => rfl⟩⟩
  | sent c l v slot carries sent =>
    rw [signal] at sent
    rcases sent.within (uses_of_carries here slot carries) with ⟨within', signalled⟩
    exact ⟨ended _ (below.trans within'), .inr ((signalled.withWork _ v.agenda).after lifted)⟩
  | queued c v slot queued =>
    rcases queued.within here slot own signal with ⟨within', signalled⟩
    exact ⟨below.trans within', .inr (signalled.after lifted)⟩

/-- Work comes back to the work below it, has stayed with an endpoint and has made at most one send,
of a signal to a peer. -/
structure Stays (e : EndpointId) (peer : UInt64) (s start t : Network) : Prop where
  works : WorksAbove s.agenda start t
  agenda : t.agenda = s.agenda
  calm : t.violation = none
  within : Within e s t
  speaks : Speaks s t e peer

/-- Nothing is sent, and there is nothing to do. -/
theorem Stays.of_silent (agenda : t.agenda = s.agenda) (calm : t.violation = none)
    (h : Within e s t ∧ Silent s t) : Stays e peer s t t :=
  ⟨.refl _ t, agenda, calm, h.1, .silent h.2⟩

/-- What goes before is silent. -/
theorem Stays.after (agenda : t.agenda = s.agenda) (h : Within e s t ∧ Silent s t)
    (g : Stays e peer t u v) : Stays e peer s u v where
  works := agenda ▸ g.works
  agenda := g.agenda.trans agenda
  calm := g.calm
  within := h.1.trans g.within
  speaks := g.speaks.after h.2

/-- An endpoint answers its peer, if it can. -/
theorem answer_stays (here : s.endpoints.get? e = some ep) (calm : s.violation = none)
    (kind : Signal.Kind) : ∃ u, Stays e ep.dest s (s.answer e kind) u := by
  unfold answer
  rcases newSignal_written here kind with ⟨why, refused⟩ | ⟨g, aim, made⟩
  · simp only [refused]
    exact ⟨s, .of_silent rfl calm ⟨.refl e s, .refl s⟩⟩
  · simp only [made]
    set t := push (s.newSend e Signal.messageId g.encode).1
      [(s.newSend e Signal.messageId g.encode).2.2]
    have within : Within e s t :=
      { Within.refl e s with
        frame := rfl
        handles := (Table.Keeps.refl _).push none }
    have silent : Silent s t := ⟨fun _ => rfl, fun _ => rfl⟩
    have here : t.endpoints.get? e = some ep := here
    have top : t.agenda = .attempt (.send ⟨e, Signal.messageId, g.encode, s.handles.next⟩)
      (.endpoint e) :: s.agenda := rfl
    rcases attempt_works (t := t) (e := e) rfl here rfl le_rfl calm top within with
      ⟨u, works, agenda, calm, within, spoken⟩
    refine ⟨u, works, agenda, calm, within, ?_⟩
    rcases spoken with still | sent
    · exact .silent (silent.trans still)
    · exact .signal g aim (sent.after silent)

theorem replyTo_stays (here : s.endpoints.get? e = some ep) (calm : s.violation = none)
    (lanes : List LaneAddress) : ∃ u, Stays e ep.dest s (s.replyTo e lanes) u := by
  have connected := connectLanes_within s e lanes
  have quiet := connectLanes_quiet s e lanes
  unfold replyTo
  split
  · rename_i t why h
    rw [h] at connected quiet
    exact ⟨t, .of_silent quiet.agenda (quiet.violation.trans calm) connected⟩
  · rename_i t h
    rw [h] at connected quiet
    have here : t.endpoints.get? e = some ep := connected.1.endpoints ▸ here
    rcases answer_stays here (quiet.violation.trans calm) .reply with ⟨u, stays⟩
    exact ⟨u, .after quiet.agenda connected stays⟩

/-! ## A peer with an endpoint -/

theorem WorksAbove.below {jobs : List Job} (h : WorksAbove (jobs ++ rest) s t) :
    WorksAbove rest s t := by
  rcases h with ⟨n, rfl, above⟩
  refine ⟨n, rfl, fun k hk => ?_⟩
  rcases above k hk with ⟨j, more, agenda⟩
  exact ⟨j, more ++ jobs, by simp [agenda]⟩

/-- An endpoint in a directory and a worker that is held otherwise are let go of, and stay. -/
theorem works_released (found : t.findEndpoint? w peer = some e)
    (held : isHeld { t with agenda := rest } (.worker w) = true)
    (top : t.agenda = .release (.endpoint e) :: .release (.worker w) :: rest)
    (calm : t.violation = none) : WorksAbove rest t { t with agenda := rest } := by
  have endpoint := isHeld_of_found (t := { t with agenda := .release (.worker w) :: rest }) found
  have first := step_release_held top calm endpoint
  have second := step_release_held (s := { t with agenda := .release (.worker w) :: rest }) rfl
    calm held
  have above : t.agenda = .release (.endpoint e) :: [.release (.worker w)] ++ rest := top
  refine .step above ?_
  rw [first]
  refine .one rfl ?_
  rw [second]
  exact .refl _ _

/-- A worker is held by the application, or by work that goes on. -/
theorem isHeld_worker (held : s.isHeld (.worker w) = true) (holds : t.holds = s.holds)
    (agenda : t.agenda = s.agenda) : t.isHeld (.worker w) = true := by
  rcases isHeld_iff.1 held with held | planned | owned
  · exact isHeld_of_holds (holds ▸ held)
  · exact isHeld_of_release (agenda ▸ planned)
  · cases owned

/-- The endpoint and the worker that were held meanwhile stay. -/
theorem Stays.releases (found : s.findEndpoint? w peer = some e) (held : s.isHeld (.worker w) = true)
    (h : Stays e peer (s.push [.release (.endpoint e), .release (.worker w)]) u t) :
    ∃ v, Stays e peer s u v := by
  have kept : Within e s t :=
    { h.within with frame := h.within.frame }
  have found : t.findEndpoint? w peer = some e := by
    rw [← found, findEndpoint?, findEndpoint?, kept.workers]
  have worker : isHeld { t with agenda := s.agenda } (.worker w) = true :=
    isHeld_worker held (by rw [kept.frame]) rfl
  refine ⟨{ t with agenda := s.agenda }, ?_⟩
  exact {
    works := h.works.below.trans (works_released found worker h.agenda h.calm)
    agenda := rfl
    calm := h.calm
    within := kept.withAgenda _
    speaks := by
      have silent : Silent s (s.push [.release (.endpoint e), .release (.worker w)]) :=
        ⟨fun _ => rfl, fun _ => rfl⟩
      cases h.speaks.after silent with
      | silent still => exact .silent ⟨still.inboxes, still.queues⟩
      | signal g aim sent => exact .signal g aim (sent.withWork t.handles _) }

/-- Nothing is done about a message, or it is a signal that is meant for the worker. -/
theorem handleSignal_cases (here : s.workers.get? w = some wk) (payload : Bytes) :
    s.handleSignal w payload = s ∨ ∃ m, Signal.decode payload = .ok m ∧ m.dest = wk.uuid ∧
      ∀ (t : Network) wk', t.workers.get? w = some wk' → wk'.uuid = wk.uuid →
        t.handleSignal w payload = t.receive w m := by
  cases decoded : Signal.decode payload with
  | error why => exact .inl (by simp only [handleSignal, here, decoded])
  | ok m =>
    by_cases meant : m.dest = wk.uuid
    · refine .inr ⟨m, rfl, meant, fun t wk' there same => ?_⟩
      simp only [handleSignal, there, decoded, meant, same, if_true]
    · exact .inl (by simp only [handleSignal, here, decoded, meant, if_false])

/-- A signal of a peer that the worker has an endpoint to stays with the endpoint. -/
theorem receive_known {m : Signal} (found : s.findEndpoint? w m.source = some e)
    (here : s.endpoints.get? e = some ep) (aim : ep.dest = m.source)
    (held : s.isHeld (.worker w) = true) (calm : s.violation = none) :
    ∃ t, Stays e m.source s (s.receive w m) t := by
  suffices above : ∃ t, Stays e m.source (s.push [.release (.endpoint e), .release (.worker w)])
      (s.receive w m) t by
    rcases above with ⟨t, stays⟩
    exact stays.releases found held
  unfold receive
  simp only [found]
  have here : (s.push [.release (.endpoint e), .release (.worker w)]).endpoints.get? e = some ep :=
    here
  have calm : (s.push [.release (.endpoint e), .release (.worker w)]).violation = none := calm
  revert here calm
  generalize s.push [.release (.endpoint e), .release (.worker w)] = t
  intro here calm
  rw [← aim]
  split
  · exact replyTo_stays here calm m.lanes
  · have connected := connectLanes_within t e m.lanes
    have quiet := connectLanes_quiet t e m.lanes
    split
    · rename_i u why h
      rw [h] at connected quiet
      exact ⟨u, .of_silent quiet.agenda (quiet.violation.trans calm) connected⟩
    · rename_i u h
      rw [h] at connected quiet
      have marked := markLanes_within u e
      have quiet := quiet.trans (markLanes_quiet u e)
      have within := connected.1.trans marked.1
      have here : (u.markLanes e).endpoints.get? e = some ep := within.endpoints ▸ here
      rcases answer_stays here (quiet.violation.trans calm) .ack with ⟨v, stays⟩
      exact ⟨v, .after quiet.agenda ⟨within, connected.2.trans marked.2⟩ stays⟩
  · have quiet := markLanes_quiet t e
    exact ⟨_, .of_silent quiet.agenda (quiet.violation.trans calm) (markLanes_within t e)⟩

/-! ## A new peer -/

/-- Destroying an endpoint does not see the work below. -/
theorem destroy_onto (t b : Network) (e : EndpointId) :
    (t.onto b).destroy e = (t.destroy e).onto b := by
  unfold destroy
  have here : (t.onto b).endpoints.get? e = t.endpoints.get? e := rfl
  rw [here]
  cases t.endpoints.get? e with
  | none => rfl
  | some ep =>
    have worker : ((t.onto b).setSlots e (.const none)).workerOf? e =
      (t.setSlots e (.const none)).workerOf? e := rfl
    simp only [worker]
    cases (t.setSlots e (.const none)).workerOf? e with
    | none => simp [push, onto, setSlots]
    | some w => simp [push, onto, setSlots, findEndpoint?]

/-- A new endpoint whose lanes cannot be opened is taken down again. -/
theorem Founded.withdrawn (h : Founded s w wk dest e t) (live : Live s)
    (held : s.isHeld (.worker w) = true) (calm : t.violation = none)
    (agenda : t.agenda = [.destroy e, .release (.endpoint e), .release (.worker w)] ++ s.agenda) :
    ∃ u, WorksAbove s.agenda t u ∧ u.violation = none ∧ AsBefore s u := by
  let loose : Network := { t with
    agenda := [.release (.endpoint e), .release (.worker w)], holds := s.shelve.holds }
  have kept : .worker w ∈ s.shelve.holds := by
    rw [mem_shelve_holds]
    rcases isHeld_iff.1 held with held | planned | owned
    · exact .inl held
    · exact .inr planned
    · cases owned
  have below : loose.onto s = { t with
      agenda := .release (.endpoint e) :: .release (.worker w) :: s.agenda } := by
    have holds : s.holds = t.holds := h.raised.holds.symm
    simp [onto, loose, holds]
  have founded : Founded s w wk dest e (loose.onto s) := by
    rw [below]
    apply h.withWork t.trace h.raised.handles t.tally
    intro ref planned
    rw [agenda] at planned
    simpa using planned
  have jobs : ∀ j ∈ loose.agenda, j.TakesDown s.shelve := by
    intro j hj
    simp only [loose, List.mem_cons, List.not_mem_nil, or_false] at hj
    rcases hj with rfl | rfl
    · exact .inl h.new
    · exact .inr kept
  rcases (founded.shelved rfl).destroy kept calm jobs List.mem_cons_self with ⟨razing, -, -⟩
  rcases razing.done_onto with ⟨u, works, done, razed⟩
  have top : t.agenda = .destroy e :: [.release (.endpoint e), .release (.worker w)] ++ s.agenda :=
    agenda
  refine ⟨u.onto s, .step top ?_, razed.calm, (razed.asBefore rfl done live.shelve).onto⟩
  have destroyed : t.step = (loose.destroy e).onto s := by
    rw [step_eq top calm, ← destroy_onto, below]
    rfl
  rw [destroyed]
  exact works

/-- Whatever has come with a new endpoint belongs to it. -/
theorem Founded.uses (h : Founded s w wk dest e t) (live : Live s)
    (agenda : t.agenda = [.release (.endpoint e), .release (.worker w)] ++ s.agenda) {ref : Ref}
    (new : IsNew s ref) (alive : t.isLive ref = true) : ref = .endpoint e ∨ t.Uses e ref := by
  have unheld {ref : Ref} (new : IsNew s ref) : ¬s.isHeld ref = true := fun held => by
    have old := live ref held
    rw [not_live_of_new new] at old
    cases old
  have owner (ref : Ref) (new : IsNew s ref) (alive : t.isLive ref = true)
      (other : ref ≠ .endpoint e) := by
    refine h.raised.owner (isNew.2 new) alive ?_ ?_
    · by_contra held
      rcases isHeld_iff.1 (Bool.of_not_eq_false held) with held | planned | owned
      · exact unheld new (isHeld_of_holds held)
      · exact unheld new (isHeld_of_release planned)
      · rcases isOwned_enlist h.books owned with same | owned
        · exact other same
        · exact unheld new (isHeld_of_owned owned)
    · intro planned
      simp only [agenda, List.cons_append, List.nil_append, List.mem_cons, Job.release.injEq]
        at planned
      rcases planned with same | rfl | planned
      · exact other same
      · cases new
      · exact unheld new (isHeld_of_release planned)
  have endpoints {e' : EndpointId} {ep : Endpoint} (new : s.endpoints.next ≤ e')
      (here : t.endpoints.get? e' = some ep) : e' = e := by
    by_contra other
    rcases owner (.endpoint e') new (Table.contains_of_get? here) (by simpa using other) with
      ⟨_, _, c, -, -, -, same⟩ | ⟨_, _, l, -, -, -, same⟩
    · cases c <;> cases same
    · cases same
  have stubs {x : StubId} (new : s.stubs.next ≤ x) (alive : t.isLive (.stub x) = true) :
      t.Uses e (.stub x) := by
    rcases owner (.stub x) new alive (by simp) with ⟨e', ep, c, later, here, owns, same⟩ |
      ⟨_, _, l, -, -, -, same⟩
    · cases endpoints later here
      cases c with
      | link l => cases same
      | stub y =>
        cases same
        exact ⟨ep, here, owns⟩
    · cases same
  cases ref with
  | endpoint e' =>
    rcases Table.contains_iff.1 alive with ⟨ep, here⟩
    exact .inl (congrArg Ref.endpoint (endpoints new here))
  | stub x => exact .inr (stubs new alive)
  | link l =>
    right
    rcases owner (.link l) new alive (by simp) with ⟨e', ep, c, later, here, owns, same⟩ |
      ⟨x, st, k, later, there, owns, same⟩
    · cases endpoints later here
      cases c with
      | link k =>
        cases same
        exact ⟨ep, here, .inl owns⟩
      | stub y => cases same
    · cases same
      rcases stubs later (Table.contains_of_get? there) with ⟨ep, here, own⟩
      exact ⟨ep, here, .inr ⟨x, st, own, there, owns⟩⟩
  | _ => cases new

/-- No request waits in the queues of links that have come to a network. -/
theorem Beside.queue (h : Beside s t) (l : LinkId) : t.queue l = s.queue l := by
  rcases Nat.lt_or_ge l s.links.next with old | new
  · exact congrArg (fun lk => (Option.map Link.queue lk).getD []) (h.links.same l old)
  · have before : s.queue l = [] := by
      simp [Network.queue, Table.get?_of_next_le new]
    rw [before, Network.queue]
    cases here : t.links.get? l with
    | none => rfl
    | some lk => exact (h.idle l lk new here).2

/-- Where a new endpoint stands beside a network, nothing waits in inboxes and queues that did not
wait before. -/
theorem Founded.silent (h : Founded s w wk dest e t) : Silent s t where
  inboxes i := by
    have same := congrArg (Option.map Interface.inbox) (h.raised.interfaces i)
    simp only [Option.map_map] at same
    exact congrArg (Option.getD · []) same
  queues l := h.raised.toBeside.queue l

theorem Founded.frame (h : Founded s w wk dest e t) (tally : t.tally = s.tally) : t = { s with
    interfaces := t.interfaces, links := t.links, stubs := t.stubs, endpoints := t.endpoints
    workers := t.workers, gates := t.gates, handles := t.handles, trace := t.trace
    agenda := t.agenda } := by
  have frame := h.raised.frame
  cases t
  simp only [ground, enlist, Network.mk.injEq] at frame tally ⊢
  simp only [frame, tally, and_self]

/-! ## What a signal may change -/

/-- Only what belongs to the endpoint of a worker to a peer has changed. The endpoint may be new. -/
structure Contained (s : Network) (w : WorkerId) (peer : UInt64) (e : EndpointId) (t : Network) :
    Prop where
  found : t.findEndpoint? w peer = some e
  own : ∃ ep, t.endpoints.get? e = some ep ∧ ep.worker = w ∧ ep.dest = peer
  /-- Registries are the same, and so is what the application holds and what there is to do. -/
  frame : t = { s with
    interfaces := t.interfaces, links := t.links, stubs := t.stubs, endpoints := t.endpoints
    workers := t.workers, gates := t.gates, handles := t.handles, trace := t.trace }
  /-- Posted events and counts of parked requests are the same. -/
  workers : t.workers = s.workers ∨ s.findEndpoint? w peer = none ∧ s.endpoints.get? e = none ∧
    ∃ wk, s.workers.get? w = some wk ∧
      t.workers = s.workers.set w { wk with directory := wk.directory ++ [(peer, e)] }
  endpoints : ∀ e', e' ≠ e → t.endpoints.get? e' = s.endpoints.get? e'
  /-- No slot of the endpoint changes either. -/
  slots : ∀ ep, s.endpoints.get? e = some ep → t.endpoints.get? e = some ep
  interfaces : ∀ i, (t.interfaces.get? i).map Interface.shell =
    (s.interfaces.get? i).map Interface.shell
  links : ∀ l, ¬t.Uses e (.link l) → t.links.get? l = s.links.get? l
  stubs : ∀ x, ¬t.Uses e (.stub x) → t.stubs.get? x = s.stubs.get? x
  flags : ∀ x st, s.stubs.get? x = some st → ∃ a b, t.stubs.get? x = some (flagged st a b)
  gates : ∀ x st, s.stubs.get? x = some st → ¬t.Uses e (.stub x) →
    t.gates.get? st.gate = s.gates.get? st.gate
  handles : s.handles.Keeps t.handles
  speaks : Speaks s t e peer

/-- The gates of the stubs of other endpoints are the same. -/
theorem Within.gate (h : Within e s t) (gated : Gated s) {x : StubId} {st : Stub}
    (here : s.stubs.get? x = some st) (foreign : ¬t.Uses e (.stub x)) :
    t.gates.get? st.gate = s.gates.get? st.gate := by
  refine h.gates st.gate fun y st' uses there same => foreign ((h.uses _).2 ?_)
  rw [← gated.own y x st' st there here same]
  exact uses

/-- What stays with an endpoint that the worker had is contained. -/
theorem Stays.contained (h : Stays e peer s u t) (gated : Gated s)
    (found : s.findEndpoint? w peer = some e) (here : s.endpoints.get? e = some ep)
    (own : ep.worker = w) (aim : ep.dest = peer) : Contained s w peer e t where
  found := by
    rw [← found, findEndpoint?, findEndpoint?, h.within.workers]
  own := ⟨ep, h.within.endpoints ▸ here, own, aim⟩
  frame := by
    have frame := h.within.frame
    rw [h.agenda] at frame
    have endpoints := h.within.endpoints
    have workers := h.within.workers
    rw [frame] at endpoints workers ⊢
  workers := .inl h.within.workers
  endpoints e' _ := by rw [h.within.endpoints]
  slots ep' here' := h.within.endpoints ▸ here'
  interfaces := h.within.interfaces
  links l foreign := h.within.links l (mt (h.within.uses _).2 foreign)
  stubs x foreign := by
    rcases h.within.stubs x with ⟨a, b, stub, still⟩
    rcases still (mt (h.within.uses _).2 foreign) with ⟨rfl, rfl⟩
    simpa [flagged_false] using stub
  flags x st there := by
    rcases h.within.stubs x with ⟨a, b, stub, -⟩
    exact ⟨a, b, by rw [stub, there]; rfl⟩
  gates x st there foreign := h.within.gate gated there foreign
  handles := h.within.handles
  speaks := h.speaks

/-- What stays with a new endpoint is contained. -/
theorem Founded.contained (h : Founded s w wk peer e v) (live : Live s) (gated : Gated s)
    (gated' : Gated v) (unknown : s.findEndpoint? w peer = none) (tally : v.tally = s.tally)
    (agenda : v.agenda = [.release (.endpoint e), .release (.worker w)] ++ s.agenda)
    (agenda' : t.agenda = s.agenda) (within : Within e v t) (speaks : Speaks v t e peer) :
    Contained s w peer e t := by
  rcases h.here with ⟨ep, here, own, aim, -⟩
  have belongs (ref : Ref) (new : IsNew s ref) (alive : v.isLive ref = true) :=
    h.uses live agenda new alive
  exact {
    found := by
      rw [← h.found, findEndpoint?, findEndpoint?, within.workers]
    own := ⟨ep, within.endpoints ▸ here, own, aim⟩
    frame := by
      have frame := within.frame
      rw [agenda', h.frame tally] at frame
      rw [within.endpoints, within.workers]
      exact frame
    workers := by
      refine .inr ⟨unknown, Table.get?_of_next_le h.new, wk, h.books, ?_⟩
      rw [within.workers, h.raised.workers]
      rfl
    endpoints := fun e' other => by
      rw [within.endpoints]
      rcases Nat.lt_or_ge e' s.endpoints.next with old | new
      · exact h.raised.endpoints.same e' old
      · rw [Table.get?_of_next_le new]
        cases there : v.endpoints.get? e' with
        | none => rfl
        | some ep' =>
          rcases belongs (.endpoint e') new (Table.contains_of_get? there) with same | uses
          · cases same
            exact absurd rfl other
          · cases uses
    slots := fun ep' before =>
      absurd (Table.lt_next_of_get? before) (Nat.not_lt.2 h.new)
    interfaces := fun i => by
      have same := congrArg (Option.map Interface.shell) (h.raised.interfaces i)
      simp only [Option.map_map] at same
      exact (within.interfaces i).trans same
    links := fun l foreign => by
      have foreign : ¬v.Uses e (.link l) := mt (within.uses _).2 foreign
      rw [within.links l foreign]
      rcases Nat.lt_or_ge l s.links.next with old | new
      · exact h.raised.links.same l old
      · rw [Table.get?_of_next_le new]
        cases there : v.links.get? l with
        | none => rfl
        | some lk =>
          rcases belongs (.link l) new (Table.contains_of_get? there) with same | uses
          · cases same
          · exact absurd uses foreign
    stubs := fun x foreign => by
      have foreign : ¬v.Uses e (.stub x) := mt (within.uses _).2 foreign
      rcases within.stubs x with ⟨a, b, stub, still⟩
      rcases still foreign with ⟨rfl, rfl⟩
      have stub : t.stubs.get? x = v.stubs.get? x := by simpa [flagged_false] using stub
      rw [stub]
      rcases Nat.lt_or_ge x s.stubs.next with old | new
      · exact h.raised.stubs.same x old
      · rw [Table.get?_of_next_le new]
        cases there : v.stubs.get? x with
        | none => rfl
        | some st =>
          rcases belongs (.stub x) new (Table.contains_of_get? there) with same | uses
          · cases same
          · exact absurd uses foreign
    flags := fun x st there => by
      rcases within.stubs x with ⟨a, b, stub, -⟩
      exact ⟨a, b, by rw [stub, h.raised.stubs.get? there]; rfl⟩
    gates := fun x st there foreign => by
      rw [within.gate gated' (h.raised.stubs.get? there) foreign]
      rcases Table.contains_iff.1 (gated.known x st there) with ⟨n, known⟩
      exact h.raised.gates.same st.gate (Table.lt_next_of_get? known)
    handles := h.raised.handles.trans within.handles
    speaks := speaks.after h.silent }

/-- A new endpoint whose lanes are open replies, and stays. -/
theorem Founded.replies (h : Founded s w wk peer e v) (live : Live s) (gated : Gated s)
    (gated' : Gated v) (unknown : s.findEndpoint? w peer = none)
    (held : s.isHeld (.worker w) = true) (calm : v.violation = none) (tally : v.tally = s.tally)
    (agenda : v.agenda = [.release (.endpoint e), .release (.worker w)] ++ s.agenda)
    (lanes : List LaneAddress) :
    ∃ t, WorksAbove s.agenda (v.replyTo e lanes) t ∧ t.agenda = s.agenda ∧ t.violation = none ∧
      Contained s w peer e t := by
  rcases h.here with ⟨ep, here, -, aim, -⟩
  rcases replyTo_stays here calm lanes with ⟨u, stays⟩
  have below : v = push { v with agenda := s.agenda }
      [.release (.endpoint e), .release (.worker w)] := by
    rw [push, ← agenda]
  have heldBelow : isHeld { v with agenda := s.agenda } (.worker w) = true := by
    rcases isHeld_iff.1 held with held | planned | owned
    · exact isHeld_of_holds (h.raised.holds.symm ▸ held)
    · exact isHeld_of_release planned
    · cases owned
  have found : findEndpoint? { v with agenda := s.agenda } w peer = some e := h.found
  rw [aim, below] at stays
  rcases stays.releases found heldBelow with ⟨t, stays⟩
  rw [← below] at stays
  have within : Within e v t := { stays.within with frame := stays.within.frame }
  refine ⟨t, stays.works, stays.agenda, stays.calm, ?_⟩
  exact h.contained live gated gated' unknown tally agenda stays.agenda within
    (stays.speaks.after (.withAgenda v _))

/-- What a worker does about a signal that is meant for it: nothing, or nothing is left of it, or it
is contained. -/
inductive Heeds (s : Network) (w : WorkerId) (peer : UInt64) (t : Network) : Prop
  | nothing (h : t = s)
  | withdrawn (h : AsBefore s t)
  | contained (e : EndpointId) (h : Contained s w peer e t)

/-- A worker opens the lanes of an endpoint to a peer that it has none to. The endpoint and the worker
are held meanwhile. -/
def furnish (s : Network) (w : WorkerId) (peer : UInt64) (address : WorkerAddress) :
    Network × Except WireupError Unit :=
  let (s, e) := s.openEndpoint w peer address.name
  let s := s.push [.release (.endpoint e), .release (.worker w)]
  s.openLanes e address.entries (((s.workers.get? w).map fun w => w.plan.lanes).getD [])

theorem welcome_eq (s : Network) (w : WorkerId) (m : Signal) (address : WorkerAddress) :
    s.welcome w m address =
      match s.furnish w m.source address with
      | (v, .error _) => v.push [.destroy (s.openEndpoint w m.source address.name).2]
      | (v, .ok ()) => v.replyTo (s.openEndpoint w m.source address.name).2 m.lanes := rfl

theorem furnish_lanes (books : s.workers.get? w = some wk)
    (unknown : s.findEndpoint? w peer = none) (address : WorkerAddress) :
    s.furnish w peer address = openLanes ((s.openEndpoint w peer address.name).1.push
      [.release (.endpoint (s.openEndpoint w peer address.name).2), .release (.worker w)])
      (s.openEndpoint w peer address.name).2 address.entries wk.plan.lanes := by
  rcases Founded.openEndpoint books unknown address.name with ⟨founded, -⟩
  have enlisted : ((s.openEndpoint w peer address.name).1.push
      [.release (.endpoint (s.openEndpoint w peer address.name).2), .release (.worker w)]).workers.get? w =
        some { wk with directory := wk.directory ++ [(peer, _)] } := founded.enlisted
  simp only [furnish, enlisted, Option.map_some, Option.getD_some]

/-- The new endpoint stands beside what there was, whether all its lanes could be opened or not. -/
theorem furnish_founded (recorded : Recorded True s) (books : s.workers.get? w = some wk)
    (unknown : s.findEndpoint? w peer = none) (address : WorkerAddress) :
    Founded s w wk peer (s.openEndpoint w peer address.name).2 (s.furnish w peer address).1 ∧
      Gated (s.furnish w peer address).1 ∧
      (s.furnish w peer address).1.violation = s.violation ∧
      (s.furnish w peer address).1.tally = s.tally ∧
      (s.furnish w peer address).1.agenda =
        [.release (.endpoint (s.openEndpoint w peer address.name).2), .release (.worker w)]
          ++ s.agenda := by
  have moves := founding_moves recorded.sound books address.name unknown address.entries wk.plan.lanes
  rw [furnish_lanes books unknown address]
  refine ⟨?_, (recorded.moves moves).gated, ?_⟩
  · rcases Founded.openEndpoint books unknown address.name with ⟨founded, ep, here, empty⟩
    generalize s.openEndpoint w peer address.name = opened at founded here ⊢
    rcases opened with ⟨t, e⟩
    have pushed : Founded s w wk peer e (t.push [.release (.endpoint e), .release (.worker w)]) := by
      apply founded.withWork t.trace founded.raised.handles t.tally
      intro ref planned
      exact List.mem_append_right _ planned
    refine pushed.openLanes address.entries (fun _ planned => planned)
      (List.Nodup.filter _ (by decide)) ?_
    intro ep' here' lane _ category _
    cases here.symm.trans here'
    rw [empty]
    cases category <;> rfl
  · have opening := openEndpoint_quiet s w peer address.name
    have furnishing := openLanes_quiet ((s.openEndpoint w peer address.name).1.push
      [.release (.endpoint (s.openEndpoint w peer address.name).2), .release (.worker w)])
      (s.openEndpoint w peer address.name).2 address.entries wk.plan.lanes
    refine ⟨furnishing.violation.trans opening.violation, furnishing.tally.trans opening.tally, ?_⟩
    rw [furnishing.agenda, push, opening.agenda]

/-- Where the lanes of a new endpoint cannot be opened, everything is as before. -/
theorem welcome_withdrawn (recorded : Recorded True s) (books : s.workers.get? w = some wk)
    (held : s.isHeld (.worker w) = true) (calm : s.violation = none) {m : Signal}
    (unknown : s.findEndpoint? w m.source = none) {address : WorkerAddress} {why : WireupError}
    (refused : s.furnish w m.source address = (v, .error why)) :
    ∃ t, WorksAbove s.agenda (s.welcome w m address) t ∧ t.violation = none ∧ AsBefore s t := by
  rcases furnish_founded recorded books unknown address with ⟨founded, -, quiet, -, agenda⟩
  rw [welcome_eq, refused]
  rw [refused] at founded quiet agenda
  generalize (s.openEndpoint w m.source address.name).2 = e at founded agenda ⊢
  have doomed : Founded s w wk m.source e (v.push [.destroy e]) := by
    apply founded.withWork v.trace founded.raised.handles v.tally
    intro ref planned
    exact List.mem_cons_of_mem _ planned
  have planned : (v.push [.destroy e]).agenda =
      [.destroy e, .release (.endpoint e), .release (.worker w)] ++ s.agenda := by
    rw [push, agenda]
    rfl
  exact doomed.withdrawn recorded.sound.live held (quiet.trans calm) planned

/-- A peer that the worker has no endpoint to gets one, unless its lanes cannot be opened. -/
theorem welcome_works (recorded : Recorded True s) (books : s.workers.get? w = some wk)
    (held : s.isHeld (.worker w) = true) (calm : s.violation = none) {m : Signal}
    (unknown : s.findEndpoint? w m.source = none) (address : WorkerAddress) :
    ∃ t, WorksAbove s.agenda (s.welcome w m address) t ∧ t.agenda = s.agenda ∧
      t.violation = none ∧ Heeds s w m.source t := by
  rcases furnish_founded recorded books unknown address with ⟨founded, gated, quiet, tally, agenda⟩
  cases furnished : s.furnish w m.source address with
  | mk v done =>
    cases done with
    | error why =>
      rcases welcome_withdrawn recorded books held calm unknown furnished with
        ⟨u, works, quiet, restored⟩
      exact ⟨u, works, restored.agenda, quiet, .withdrawn restored⟩
    | ok _ =>
      rw [furnished] at founded gated quiet tally agenda
      rw [welcome_eq, furnished]
      rcases founded.replies recorded.sound.live recorded.gated gated unknown held (quiet.trans calm)
        tally agenda m.lanes with ⟨u, works, agenda, quiet, contained⟩
      exact ⟨u, works, agenda, quiet, .contained _ contained⟩

/-- Wherever work can lead, and whatever comes to a worker as a signal, the worker handles it and
comes back to the work below. What does not decode, or is meant for another worker, changes nothing;
and what is meant for the worker changes nothing but what belongs to its endpoint to the sender. -/
theorem signals_contained (h : Reachable (fun _ => True) s) (moves : Moves True s u)
    (calm : u.violation = none) (here : u.workers.get? w = some wk) (m : Message) :
    ∃ t, WorksAbove u.agenda (u.push [.handle (.signals w) m]) t ∧ t.agenda = u.agenda ∧
      t.violation = none ∧
      match Signal.decode m.payload with
      | .error _ => t = u
      | .ok g => if g.dest = wk.uuid then Heeds u w g.source t else t = u := by
  rcases leads_of_reachable (fun _ _ => .inl trivial) h with ⟨process, leads⟩
  have minded : Minded u := (Minded.initial process).moves (leads.moves.trans moves)
  have listed : Listed u := (Listed.initial process).moves (leads.moves.trans moves)
  have held : u.isHeld (.worker w) = true :=
    minded.anchored (.worker w) rfl (Table.contains_of_get? here)
  -- the job on top is the handling itself
  have handled {t : Network} (works : WorksAbove u.agenda (u.handleSignal w m.payload) t) :
      WorksAbove u.agenda (u.push [.handle (.signals w) m]) t := by
    have top : (u.push [.handle (.signals w) m]).agenda = .handle (.signals w) m :: u.agenda := rfl
    refine .one top ?_
    rw [step_eq top calm]
    exact works
  have idle : WorksAbove u.agenda u u := .refl _ u
  unfold handleSignal at handled
  simp only [here] at handled
  cases decoded : Signal.decode m.payload with
  | error why =>
    simp only [decoded] at handled ⊢
    exact ⟨u, handled idle, rfl, calm, rfl⟩
  | ok g =>
    simp only [decoded] at handled ⊢
    split
    · rename_i meant
      simp only [meant, if_true] at handled
      cases known : u.findEndpoint? w g.source with
      | none =>
        unfold receive at handled
        simp only [known] at handled
        split at handled
        · rename_i address kind given
          rcases welcome_works minded.recorded here held calm known address with
            ⟨t, works, agenda, quiet, heeds⟩
          exact ⟨t, handled works, agenda, quiet, heeds⟩
        · exact ⟨u, handled idle, rfl, calm, .nothing rfl⟩
      | some e =>
        rcases Table.contains_iff.1 (findEndpoint_live minded.recorded.sound.live known) with
          ⟨ep, there⟩
        rcases listed.found known there with ⟨own, aim⟩
        rcases receive_known known there aim held calm with ⟨t, stays⟩
        refine ⟨t, handled stays.works, stays.agenda, stays.calm, .contained e ?_⟩
        exact stays.contained minded.recorded.gated known there own aim
    · rename_i other
      simp only [other, if_false] at handled
      exact ⟨u, handled idle, rfl, calm, rfl⟩

/-- Work that comes to an end comes to one end. -/
theorem WorksAbove.unique {n : Nat} (h : WorksAbove rest s t) (idle : t.agenda = [])
    (done : (work n s).agenda = []) : t = work n s := by
  rcases h with ⟨m, rfl, -⟩
  rcases Nat.le_total m n with less | more
  · rcases Nat.exists_eq_add_of_le less with ⟨k, rfl⟩
    rw [work_add, work_nil idle]
  · rcases Nat.exists_eq_add_of_le more with ⟨k, rfl⟩
    rw [work_add, work_nil done]

/-- Two workers, the first of which has an endpoint to the second. -/
def greetedPair : Option Network := Call.runAll { process := 1 } (Call.pair 4)

/-- The first worker of a pair asks the second to answer at the given entries. -/
def greeting (entries : List AddressEntry) : Signal where
  kind := .request
  source := 1
  dest := 2
  address := some { pairAddress 1 1 2 with entries }

/-- The second worker opens an endpoint for a request that lists where the first one is, keeps
none for a request that does not, and the first worker does nothing about either. -/
theorem signals_contained_greeted : ∃ s, greetedPair = some s ∧ Reachable (fun _ => True) s ∧
    s.findEndpoint? 1 1 = none ∧
    (∃ t, WorksAbove s.agenda (s.push [.handle (.signals 1)
        ⟨0, (greeting (pairAddress 1 1 2).entries).encode, 0⟩]) t ∧
      Heeds s 1 1 t ∧ t.findEndpoint? 1 1 = some 1) ∧
    (∃ t, WorksAbove s.agenda (s.push [.handle (.signals 1) ⟨0, (greeting []).encode, 0⟩]) t ∧
      Heeds s 1 1 t ∧ t.findEndpoint? 1 1 = none) ∧
    ∃ t, WorksAbove s.agenda (s.push [.handle (.signals 0) ⟨0, (greeting []).encode, 0⟩]) t ∧
      t = s := by
  have known : (greetedPair.map fun s =>
      ((s.workers.get? 0).map Worker.uuid, (s.workers.get? 1).map Worker.uuid,
        s.findEndpoint? 1 1)) = some (some 1, some 2, none) := by decide +kernel
  have welcomed : (greetedPair.map fun s =>
      let t := work 30 (s.push [.handle (.signals 1)
        ⟨0, (greeting (pairAddress 1 1 2).entries).encode, 0⟩])
      (t.agenda.isEmpty, t.findEndpoint? 1 1)) = some (true, some 1) := by decide +kernel
  have dismissed : (greetedPair.map fun s =>
      let t := work 30 (s.push [.handle (.signals 1) ⟨0, (greeting []).encode, 0⟩])
      (t.agenda.isEmpty, t.findEndpoint? 1 1)) = some (true, none) := by decide +kernel
  rcases Option.map_eq_some_iff.1 known with ⟨s, hs, known⟩
  rw [hs] at welcomed dismissed
  simp only [Option.map_some, Option.some.injEq, Prod.mk.injEq, List.isEmpty_iff]
    at known welcomed dismissed
  rcases known with ⟨first, second, unknown⟩
  rcases Option.map_eq_some_iff.1 first with ⟨wk, here, uuid⟩
  rcases Option.map_eq_some_iff.1 second with ⟨vk, there, uuid'⟩
  have reached : Reachable (fun _ => True) s := .of_runAll (fun _ _ => trivial) hs
  have rested := (leads_of_reachable (fun _ _ => .inl trivial) reached).choose_spec.rested
  have decoded := Signal.decode_encode (greeting (pairAddress 1 1 2).entries) (by decide +kernel)
  have decoded' := Signal.decode_encode (greeting []) (by decide +kernel)
  refine ⟨s, hs, reached, unknown, ?_, ?_, ?_⟩
  · rcases signals_contained reached .refl rested.calm there
      ⟨0, (greeting (pairAddress 1 1 2).entries).encode, 0⟩ with ⟨t, works, agenda, -, heeds⟩
    have meant : (greeting (pairAddress 1 1 2).entries).dest = vk.uuid := uuid'.symm
    rw [decoded] at heeds
    simp only [if_pos meant] at heeds
    refine ⟨t, works, heeds, ?_⟩
    rw [works.unique (agenda.trans rested.idle) welcomed.1]
    exact welcomed.2
  · rcases signals_contained reached .refl rested.calm there ⟨0, (greeting []).encode, 0⟩ with
      ⟨t, works, agenda, -, heeds⟩
    have meant : (greeting []).dest = vk.uuid := uuid'.symm
    rw [decoded'] at heeds
    simp only [if_pos meant] at heeds
    refine ⟨t, works, heeds, ?_⟩
    rw [works.unique (agenda.trans rested.idle) dismissed.1]
    exact dismissed.2
  · rcases signals_contained reached .refl rested.calm here ⟨0, (greeting []).encode, 0⟩ with
      ⟨t, works, -, -, same⟩
    have other : (greeting []).dest ≠ wk.uuid := by
      rw [uuid]
      decide
    rw [decoded'] at same
    simp only [if_neg other] at same
    exact ⟨t, works, same⟩

end Wiring.Network
