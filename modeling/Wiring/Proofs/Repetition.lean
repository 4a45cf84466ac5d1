import Mathlib
import Wiring.Proofs.Reach
import Wiring.Proofs.Reception
import Wiring.Proofs.Lifetime
import Wiring.Proofs.Roster

/-!
# Signals that come twice

A signal sets where links lead and raises flags of stubs. What it sets and raises does not depend on
what was set and raised before, so that it makes no difference if the signal comes a second time.
Later on it finds the endpoint that was opened for it, as long as no endpoint is destroyed.
-/
namespace Wiring.Network

variable {s t u v : Network} {e : EndpointId} {ep : Endpoint} {w : WorkerId} {wk : Worker}
  {rest : List Job}

/-- The directories and the slots are the same, so are the stubs with their flags and what is parked
on them, and so is where links lead. -/
structure Alike (s t : Network) : Prop extends Faces s t where
  workers : t.workers = s.workers
  endpoints : ∀ e, t.endpoints.get? e = s.endpoints.get? e
  stubs : ∀ x, t.stubs.get? x = s.stubs.get? x
  courses : ∀ l, (t.links.get? l).map Link.course = (s.links.get? l).map Link.course
  holds : t.holds = s.holds

theorem Alike.refl (s : Network) : Alike s s :=
  { Faces.refl s with
    workers := rfl
    endpoints := fun _ => rfl
    stubs := fun _ => rfl
    courses := fun _ => rfl
    holds := rfl }

/-- What was raised and taken down again has left no trace. -/
theorem AsBefore.alike (h : AsBefore s t) : Alike s t where
  interfaces i := by
    have same := congrArg (Option.map Interface.face) (h.interfaces i)
    simp only [Option.map_map] at same
    exact same
  fabrics f := by rw [h.fabrics]
  workers := h.workers
  endpoints := h.endpoints
  stubs := h.stubs
  courses l := by rw [h.links]
  holds := h.holds

/-! ## Effects -/

/-- Where links are led to, and which flags of stubs are raised. -/
structure Effect where
  leads : LinkId → Option InterfaceId
  connects : StubId → Bool
  marks : StubId → Bool

namespace Effect

/-- Nothing is set or raised. -/
def idle : Effect := ⟨fun _ => none, fun _ => false, fun _ => false⟩

def redirect (f : Effect) (l : LinkId) (c : Course) : Course :=
  { c with dest := (f.leads l).or c.dest }

/-- One effect after another: what is set last counts. -/
def andThen (f g : Effect) : Effect where
  leads l := (g.leads l).or (f.leads l)
  connects x := f.connects x || g.connects x
  marks x := f.marks x || g.marks x

/-- All that has changed of what wire-up is about. -/
structure Between (f : Effect) (s t : Network) : Prop extends Faces s t where
  workers : t.workers = s.workers
  endpoints : ∀ e, t.endpoints.get? e = s.endpoints.get? e
  stubs : ∀ x, t.stubs.get? x = (s.stubs.get? x).map (flagged · (f.connects x) (f.marks x))
  courses : ∀ l, (t.links.get? l).map Link.course =
    ((s.links.get? l).map Link.course).map (f.redirect l)
  holds : t.holds = s.holds

variable {f g : Effect}

theorem redirect_redirect (f g : Effect) (l : LinkId) (c : Course) :
    g.redirect l (f.redirect l c) = (f.andThen g).redirect l c := by
  simp only [redirect, andThen, Option.or_assoc]

namespace Between

theorem of_alike (h : Alike s t) : idle.Between s t :=
  { h.toFaces with
    workers := h.workers
    endpoints := h.endpoints
    stubs := fun x => by simp [h.stubs, idle, flagged_false]
    courses := fun l => by simp [h.courses, idle, redirect, Function.comp_def]
    holds := h.holds }

theorem refl (s : Network) : idle.Between s s := .of_alike (.refl s)

theorem trans (h : f.Between s t) (k : g.Between t u) : (f.andThen g).Between s u :=
  { h.toFaces.trans k.toFaces with
    workers := k.workers.trans h.workers
    endpoints := fun e => (k.endpoints e).trans (h.endpoints e)
    stubs := fun x => by
      rw [k.stubs, h.stubs, Option.map_map]
      simp only [Function.comp_def, flagged, andThen, Bool.or_assoc]
    courses := fun l => by
      rw [k.courses, h.courses, Option.map_map]
      simp only [Function.comp_def, redirect_redirect]
    holds := k.holds.trans h.holds }

/-- An effect that comes a second time changes nothing. -/
theorem again (h : f.Between s t) (k : f.Between t u) : Alike t u :=
  { k.toFaces with
    workers := k.workers
    endpoints := k.endpoints
    stubs := fun x => by
      rw [k.stubs, h.stubs, Option.map_map]
      simp only [Function.comp_def, flagged, Bool.or_assoc, Bool.or_self]
    courses := fun l => by
      rw [k.courses, h.courses, Option.map_map]
      have same (c : Course) : (f.redirect l ∘ f.redirect l) c = f.redirect l c := by
        simp only [Function.comp_apply, redirect, ← Option.or_assoc, Option.or_self]
      simp only [Function.comp_def] at same ⊢
      simp only [same]
    holds := k.holds }

/-- What there is to do does not matter, nor what happens. -/
theorem withAgenda (h : f.Between s t) (agenda : List Job) : f.Between s { t with agenda } :=
  { h with interfaces := h.interfaces, fabrics := h.fabrics }

theorem slot (h : f.Between s t) (e : EndpointId) (c : Category) : t.slot e c = s.slot e c := by
  rw [Network.slot, Network.slot, h.endpoints]

theorem findEndpoint? (h : f.Between s t) (w : WorkerId) (peer : UInt64) :
    t.findEndpoint? w peer = s.findEndpoint? w peer := by
  rw [Network.findEndpoint?, Network.findEndpoint?, h.workers]

theorem next (h : f.Between s t) (x : StubId) :
    (t.stubs.get? x).bind Stub.next = (s.stubs.get? x).bind Stub.next := by
  rw [h.stubs]
  cases s.stubs.get? x <;> rfl

theorem destination (h : f.Between s t) (l : LinkId) (device address : Bytes) :
    t.destination l device address = s.destination l device address := by
  refine h.toFaces.destination ?_ device address
  have same := congrArg (Option.map fun c : Course => (c.owner, c.settings)) (h.courses l)
  simp only [Option.map_map] at same
  exact same

end Between

end Effect

open Effect

/-! ## Connecting and marking -/

/-- Connecting a stub has the same effect and the same outcome, whatever was connected before. -/
theorem connect_effect (s : Network) (x : StubId) (device address : Bytes) :
    ∃ (f : Effect) (o : Outcome), ∀ (g : Effect) t, g.Between s t →
      ∃ u, t.connect (.stub x) device address = (u, o) ∧ f.Between t u := by
  cases next : (s.stubs.get? x).bind Stub.next with
  | none =>
    refine ⟨idle, .error .closed, fun g t h => ⟨t, ?_, .refl t⟩⟩
    simp only [connect, h.next, next]
  | some l =>
    cases leads : s.destination l device address with
    | error why =>
      refine ⟨idle, .error why, fun g t h => ⟨t, ?_, .refl t⟩⟩
      simp only [connect, h.next, next, connectLink, h.destination, leads]
    | ok dest =>
      refine ⟨⟨fun k => if l = k then some dest else none, fun y => decide (x = y),
        fun _ => false⟩, .ok (), fun g t h => ?_⟩
      simp only [connect, h.next, next, connectLink, h.destination, leads]
      refine ⟨_, rfl, { Faces.refl t with
        workers := rfl, endpoints := fun _ => rfl, stubs := fun y => ?_, courses := fun k => ?_
        holds := rfl }⟩
      · simp only [note, Table.get?_modify]
        split
        · simp [*, flagged]
        · simp [*, flagged]
      · simp only [note, Table.get?_modify]
        split
        · simp [*, Function.comp_def, Link.course, redirect]
        · simp [*, Function.comp_def, redirect]

theorem connectLanes_effect (s : Network) (e : EndpointId) (lanes : List LaneAddress) :
    ∃ (f : Effect) (o : Outcome), ∀ (g : Effect) t, g.Between s t →
      ∃ u, t.connectLanes e lanes = (u, o) ∧ f.Between t u := by
  induction lanes with
  | nil => exact ⟨idle, .ok (), fun g t h => ⟨t, rfl, .refl t⟩⟩
  | cons lane lanes ih =>
    rcases ih with ⟨f', o', later⟩
    by_cases stub : ∃ x, s.slot e lane.lane = some (.stub x)
    · rcases stub with ⟨x, slot⟩
      rcases connect_effect s x lane.deviceAddress lane.linkAddress with ⟨f, o, first⟩
      cases o with
      | error why =>
        refine ⟨f, .error why, fun g t h => ?_⟩
        rcases first g t h with ⟨u, connected, effect⟩
        refine ⟨u, ?_, effect⟩
        simp only [connectLanes, h.slot, slot, connected]
      | ok _ =>
        refine ⟨f.andThen f', o', fun g t h => ?_⟩
        rcases first g t h with ⟨u, connected, effect⟩
        rcases later _ u (h.trans effect) with ⟨v, others, effect'⟩
        refine ⟨v, ?_, effect.trans effect'⟩
        simp only [connectLanes, h.slot, slot, connected, others]
    · refine ⟨f', o', fun g t h => ?_⟩
      rcases later g t h with ⟨u, others, effect⟩
      refine ⟨u, ?_, effect⟩
      unfold connectLanes
      split
      · rename_i x slot
        exact absurd ⟨x, (h.slot e lane.lane).symm.trans slot⟩ stub
      · exact others

theorem markSlot_effect (slot : Slot) : ∃ f : Effect, ∀ t : Network, f.Between t (t.markSlot slot) := by
  by_cases stub : ∃ x, slot = some (.stub x)
  · rcases stub with ⟨x, rfl⟩
    refine ⟨⟨fun _ => none, fun _ => false, fun y => decide (x = y)⟩, fun t => { Faces.refl t with
      workers := rfl, endpoints := fun _ => rfl, stubs := fun y => ?_, courses := fun k => ?_
      holds := rfl }⟩
    · simp only [markSlot, markRemoteConnected, note, Table.get?_modify]
      split
      · simp [*, flagged]
      · simp [*, flagged]
    · simp [markSlot, markRemoteConnected, note, redirect, Function.comp_def]
  · refine ⟨idle, fun t => ?_⟩
    unfold markSlot
    split
    · exact absurd ⟨_, rfl⟩ stub
    · exact .refl t

theorem markLanes_effect (s : Network) (e : EndpointId) :
    ∃ f : Effect, ∀ (g : Effect) t, g.Between s t → f.Between t (t.markLanes e) := by
  have all (slots : List Slot) : ∃ f : Effect, ∀ t : Network, f.Between t (slots.foldl markSlot t) := by
    induction slots with
    | nil => exact ⟨idle, .refl⟩
    | cons slot slots ih =>
      rcases markSlot_effect slot with ⟨f, first⟩
      rcases ih with ⟨f', later⟩
      exact ⟨f.andThen f', fun t => (first t).trans (later _)⟩
  cases here : s.endpoints.get? e with
  | none =>
    refine ⟨idle, fun g t h => ?_⟩
    simp only [markLanes, h.endpoints, here]
    exact .refl t
  | some ep =>
    rcases all (ep.plan.lanes.map ep.slots.get) with ⟨f, effect⟩
    refine ⟨f, fun g t h => ?_⟩
    have marked := effect t
    rw [List.foldl_map] at marked
    simp only [markLanes, h.endpoints, here]
    exact marked

/-! ## Answering -/

/-- Work above other work is done, and the other work is next. -/
structure Returns (rest : List Job) (s t : Network) : Prop where
  works : WorksAbove rest s t
  agenda : t.agenda = rest
  calm : t.violation = none

theorem Posted.alike {m : Send} (h : Posted s m ep t) : Alike s t := by
  have link {l : LinkId} {lk lk' : Link} (here : s.links.get? l = some lk)
      (same : lk'.course = lk.course) (k : LinkId) :
      ((s.links.set l lk').get? k).map Link.course = (s.links.get? k).map Link.course :=
    Table.map_get?_set here same k
  cases h with
  | refused why final => exact { Alike.refl s with interfaces := fun _ => rfl, fabrics := fun _ => rfl }
  | sent c l t slot carries sent =>
    cases sent with
    | intro lk credits dest f here credit leads there =>
      exact { Alike.refl s with
        interfaces := Table.map_get?_set there rfl, fabrics := fun _ => rfl, courses := link here rfl }
  | queued c t slot queued =>
    cases queued with
    | link l lk here empty =>
      exact { Alike.refl s with
        interfaces := fun _ => rfl, fabrics := fun _ => rfl, courses := link here rfl }
    | stub x st l lk stub carries here empty =>
      exact { Alike.refl s with
        interfaces := fun _ => rfl, fabrics := fun _ => rfl, courses := link here rfl }

/-- An answer changes nothing that wire-up is about. -/
theorem answer_alike (here : s.endpoints.get? e = some ep) (calm : s.violation = none)
    (kind : Signal.Kind) : ∃ u, Returns s.agenda (s.answer e kind) u ∧ Alike s u := by
  unfold answer
  rcases newSignal_written here kind with ⟨why, refused⟩ | ⟨g, -, made⟩
  · simp only [refused]
    exact ⟨s, ⟨.refl _ s, rfl, calm⟩, .refl s⟩
  · simp only [made]
    set t := push (s.newSend e Signal.messageId g.encode).1
      [(s.newSend e Signal.messageId g.encode).2.2]
    have here : t.endpoints.get? e = some ep := here
    have top : t.agenda = .attempt (.send ⟨e, Signal.messageId, g.encode, s.handles.next⟩)
      (.endpoint e) :: s.agenda := rfl
    rcases attempt_posted (t := t) rfl here (.inl rfl) calm top with ⟨u, works, posted⟩
    rcases posted.undisturbed with ⟨same, rests⟩
    have alike := posted.alike
    exact ⟨u, ⟨works.above, rests, same.calm.trans calm⟩,
      { alike with interfaces := alike.interfaces, fabrics := alike.fabrics }⟩

theorem answer_effect {f g : Effect} (here : s.endpoints.get? e = some ep) (h : g.Between s t)
    (effect : f.Between t u) (quiet : Quiet t u) (calm : t.violation = none) (kind : Signal.Kind) :
    ∃ v, Returns t.agenda (u.answer e kind) v ∧ (f.andThen idle).Between t v := by
  have there : u.endpoints.get? e = some ep := ((h.trans effect).endpoints e).trans here
  rcases answer_alike there (quiet.violation.trans calm) kind with ⟨v, returns, alike⟩
  rw [quiet.agenda] at returns
  exact ⟨v, returns, effect.trans (.of_alike alike)⟩

theorem replyTo_effect (here : s.endpoints.get? e = some ep) (lanes : List LaneAddress) :
    ∃ f : Effect, ∀ (g : Effect) t, g.Between s t → t.violation = none →
      ∃ u, Returns t.agenda (t.replyTo e lanes) u ∧ f.Between t u := by
  rcases connectLanes_effect s e lanes with ⟨f, o, connects⟩
  cases o with
  | error why =>
    refine ⟨f, fun g t h calm => ?_⟩
    rcases connects g t h with ⟨u, connected, effect⟩
    have quiet := connectLanes_quiet t e lanes
    rw [connected] at quiet
    simp only [replyTo, connected]
    exact ⟨u, ⟨.refl _ u, quiet.agenda, quiet.violation.trans calm⟩, effect⟩
  | ok _ =>
    refine ⟨f.andThen idle, fun g t h calm => ?_⟩
    rcases connects g t h with ⟨u, connected, effect⟩
    have quiet := connectLanes_quiet t e lanes
    rw [connected] at quiet
    simp only [replyTo, connected]
    exact answer_effect here h effect quiet calm .reply

/-! ## A peer with an endpoint -/

/-- The endpoint and the worker that were held meanwhile stay. -/
theorem Returns.released {f : Effect} {peer : UInt64} (found : s.findEndpoint? w peer = some e)
    (held : s.isHeld (.worker w) = true)
    (effect : f.Between (s.push [.release (.endpoint e), .release (.worker w)]) t)
    (h : Returns (s.push [.release (.endpoint e), .release (.worker w)]).agenda u t) :
    Returns s.agenda u { t with agenda := s.agenda } ∧ f.Between s { t with agenda := s.agenda } := by
  have found : t.findEndpoint? w peer = some e := (effect.findEndpoint? w peer).trans found
  have held : isHeld { t with agenda := s.agenda } (.worker w) = true :=
    isHeld_worker held effect.holds rfl
  refine ⟨⟨?_, rfl, h.calm⟩, { effect with interfaces := effect.interfaces, fabrics := effect.fabrics }⟩
  exact h.works.below.trans (works_released found held h.agenda h.calm)

/-- While the endpoint and the worker are held, a signal has the same effect, whatever was connected
and marked before. -/
theorem attended_effect (here : s.endpoints.get? e = some ep) (m : Signal) :
    ∃ f : Effect, ∀ (g : Effect) t, g.Between s t → t.violation = none →
      ∃ u, Returns t.agenda (match m.kind with
          | .request => t.replyTo e m.lanes
          | .reply =>
            match t.connectLanes e m.lanes with
            | (u, .error _) => u
            | (u, .ok ()) => (u.markLanes e).answer e .ack
          | .ack => t.markLanes e) u ∧ f.Between t u := by
  rcases connectLanes_effect s e m.lanes with ⟨f, o, connects⟩
  rcases markLanes_effect s e with ⟨f', marks⟩
  cases m.kind with
  | request => exact replyTo_effect here m.lanes
  | ack =>
    refine ⟨f', fun g t h calm => ⟨_, ?_, marks g t h⟩⟩
    have quiet := markLanes_quiet t e
    exact ⟨.refl _ _, quiet.agenda, quiet.violation.trans calm⟩
  | reply =>
    cases o with
    | error why =>
      refine ⟨f, fun g t h calm => ?_⟩
      rcases connects g t h with ⟨u, connected, effect⟩
      have quiet := connectLanes_quiet t e m.lanes
      rw [connected] at quiet
      simp only [connected]
      exact ⟨u, ⟨.refl _ u, quiet.agenda, quiet.violation.trans calm⟩, effect⟩
    | ok _ =>
      refine ⟨(f.andThen f').andThen idle, fun g t h calm => ?_⟩
      rcases connects g t h with ⟨u, connected, effect⟩
      have quiet := connectLanes_quiet t e m.lanes
      rw [connected] at quiet
      simp only [connected]
      have marked := effect.trans (marks _ u (h.trans effect))
      exact answer_effect here h marked (quiet.trans (markLanes_quiet u e)) calm .ack

/-- So has a signal of a peer that the worker has an endpoint to. -/
theorem receive_effect {m : Signal} (found : s.findEndpoint? w m.source = some e)
    (here : s.endpoints.get? e = some ep) : ∃ f : Effect, ∀ (g : Effect) t, g.Between s t →
      t.isHeld (.worker w) = true → t.violation = none →
        ∃ u, Returns t.agenda (t.receive w m) u ∧ f.Between t u := by
  rcases attended_effect here m with ⟨f, attended⟩
  refine ⟨f, fun g t h held calm => ?_⟩
  have found : t.findEndpoint? w m.source = some e := (h.findEndpoint? w m.source).trans found
  rcases attended g (t.push [.release (.endpoint e), .release (.worker w)]) (h.withAgenda _) calm with
    ⟨u, returns, effect⟩
  unfold receive
  simp only [found]
  exact ⟨_, returns.released found held effect⟩

/-! ## A new peer -/

/-- If the lanes of a new endpoint can be opened, they can be opened wherever the same interfaces live
and the workers are the same. -/
theorem Faces.furnish (h : Faces s t) (workers : t.workers = s.workers)
    (books : s.workers.get? w = some wk) {peer : UInt64}
    (unknown : s.findEndpoint? w peer = none) {address : WorkerAddress}
    (furnished : s.furnish w peer address = (u, .ok ())) :
    ∃ v, t.furnish w peer address = (v, .ok ()) := by
  have books' : t.workers.get? w = some wk := workers ▸ books
  have unknown' : t.findEndpoint? w peer = none := by
    rw [← unknown, findEndpoint?, findEndpoint?, workers]
  rw [furnish_lanes books unknown] at furnished
  rw [furnish_lanes books' unknown']
  have opened {s : Network} (books : s.workers.get? w = some wk) :
      ∃ wk' : Worker, wk'.resources = wk.resources ∧
        (s.openEndpoint w peer address.name).1.workers.get? w = some wk' ∧
        (s.openEndpoint w peer address.name).1.endpoints.get?
          (s.openEndpoint w peer address.name).2 = some
            { worker := w, dest := peer, peer := address.name, plan := wk.plan
              flushAttempts := wk.settings.flushAttempts } ∧
        ∀ jobs, Faces s ((s.openEndpoint w peer address.name).1.push jobs) := by
    unfold openEndpoint
    simp only [books]
    refine ⟨_, ?_, (Table.get?_set_of books _ w).trans (if_pos rfl),
      (Table.get?_push ..).trans (if_pos rfl), fun _ => ⟨fun _ => rfl, fun _ => rfl⟩⟩
    rfl
  rcases opened books with ⟨wk₁, resources, hired, here, faces⟩
  rcases opened books' with ⟨wk₂, resources', hired', here', faces'⟩
  have between :=
    ((faces [.release (.endpoint (s.openEndpoint w peer address.name).2), .release (.worker w)]).symm.trans
      h).trans
    (faces' [.release (.endpoint (t.openEndpoint w peer address.name).2), .release (.worker w)])
  exact between.openLanes (resources'.trans resources.symm) rfl rfl here hired here' hired' furnished

/-- A new endpoint whose lanes are open takes the request as one that was there before. -/
theorem welcome_receives (recorded : Recorded True s) (books : s.workers.get? w = some wk)
    {m : Signal} (kind : m.kind = .request) (unknown : s.findEndpoint? w m.source = none)
    {address : WorkerAddress} (furnished : s.furnish w m.source address = (v, .ok ())) :
    ∃ (t : Network) (e : EndpointId) (ep : Endpoint) (wk' : Worker),
      s.welcome w m address = t.receive w m ∧ t.findEndpoint? w m.source = some e ∧
      t.endpoints.get? e = some ep ∧ t.workers.get? w = some wk' ∧ wk'.uuid = wk.uuid ∧
      t.agenda = s.agenda ∧ t.violation = s.violation ∧ t.holds = s.holds := by
  rcases furnish_founded recorded books unknown address with ⟨founded, -, quiet, -, agenda⟩
  rw [welcome_eq, furnished]
  rw [furnished] at founded quiet agenda
  generalize (s.openEndpoint w m.source address.name).2 = e at founded agenda ⊢
  rcases founded.here with ⟨ep, here, -⟩
  have found : findEndpoint? { v with agenda := s.agenda } w m.source = some e := founded.found
  refine ⟨{ v with agenda := s.agenda }, e, ep, _, ?_, found, here, founded.enlisted, rfl, rfl, quiet,
    founded.raised.holds⟩
  unfold receive
  simp only [found, kind, push]
  rw [← agenda]

/-! ## The same signal twice -/

/-- A worker handles a message, whatever work there is below, and comes back to it. -/
def Handles (s : Network) (w : WorkerId) (m : Message) (t : Network) : Prop :=
  Returns s.agenda (s.push [.handle (.signals w) m]) t

theorem Returns.handles {m : Message} (calm : s.violation = none)
    (h : Returns s.agenda (s.handleSignal w m.payload) t) : Handles s w m t := by
  have top : (s.push [.handle (.signals w) m]).agenda = .handle (.signals w) m :: s.agenda := rfl
  refine ⟨.one top ?_, h.agenda, h.calm⟩
  rw [step_eq top calm]
  exact h.works

/-- Where nothing is done about a message, nothing is done about it the next time. -/
theorem handles_idle (calm : s.violation = none) {m : Message}
    (same : s.handleSignal w m.payload = s) : Handles s w m s := by
  refine Returns.handles calm ?_
  rw [same]
  exact ⟨.refl _ s, rfl, calm⟩

/-- A signal of a peer that the worker has no endpoint to is dropped, or asks for one. -/
theorem receive_unknown {m : Signal} (unknown : s.findEndpoint? w m.source = none) :
    s.receive w m = s ∨ ∃ address, m.kind = .request ∧ m.address = some address ∧
      ∀ t : Network, t.findEndpoint? w m.source = none → t.receive w m = t.welcome w m address := by
  cases kind : m.kind with
  | request =>
    cases given : m.address with
    | none => exact .inl (by simp only [receive, unknown, kind, given])
    | some address =>
      exact .inr ⟨address, rfl, rfl, fun t unknown => by simp only [receive, unknown, kind, given]⟩
  | reply | ack => exact .inl (by simp only [receive, unknown, kind])

/-- What a worker has done about a signal, it does again to no effect. -/
theorem receives_twice {m : Signal} (found : s.findEndpoint? w m.source = some e)
    (here : s.endpoints.get? e = some ep) (held : s.isHeld (.worker w) = true)
    (calm : s.violation = none) : ∃ t t', Returns s.agenda (s.receive w m) t ∧
      Returns t.agenda (t.receive w m) t' ∧ t.workers = s.workers ∧ Alike t t' := by
  rcases receive_effect found here with ⟨f, effect⟩
  rcases effect _ s (.refl s) held calm with ⟨t, returns, between⟩
  have held' := isHeld_worker held between.holds returns.agenda
  rcases effect _ t between held' returns.calm with ⟨t', returns', between'⟩
  exact ⟨t, t', returns, returns', between.workers, between.again between'⟩

/-- Work that comes back is done by moves. -/
theorem Handles.moves {m : Message} (sound : Sound True s) (h : Handles s w m t) : Moves True s t := by
  have planned : Moves True s (s.push [.handle (.signals w) m]) := by
    refine Moves.push fun j hj => ?_
    cases List.mem_singleton.1 hj
    exact .inl ⟨rfl, rfl⟩
  have fit : Fit True (s.push [.handle (.signals w) m]) := ⟨sound.moves planned, .inl trivial⟩
  rcases h.works with ⟨n, rfl, -⟩
  exact planned.trans (fit.work h.calm).1

theorem handles_twice {fits : Network → Call → Prop} (h : Visited fits s)
    (here : s.workers.get? w = some wk) (m : Message) :
    ∃ t t', Handles s w m t ∧ Handles t w m t' ∧ Alike t t' := by
  have calm := h.calm
  rcases h.moves with ⟨process, moves, -⟩
  have minded : Minded s := (Minded.initial process).moves moves
  have sound := minded.recorded.sound
  have held : s.isHeld (.worker w) = true :=
    minded.anchored (.worker w) rfl (Table.contains_of_get? here)
  have idle (same : s.handleSignal w m.payload = s) :
      ∃ t t', Handles s w m t ∧ Handles t w m t' ∧ Alike t t' :=
    ⟨s, s, handles_idle calm same, handles_idle calm same, .refl s⟩
  rcases handleSignal_cases here m.payload with same | ⟨g, -, -, receives⟩
  · exact idle same
  cases known : s.findEndpoint? w g.source with
  | some e =>
    rcases Table.contains_iff.1 (findEndpoint_live sound.live known) with ⟨ep, there⟩
    rcases receives_twice known there held calm with
      ⟨t, t', returns, returns', workers, alike⟩
    rw [← receives s wk here rfl] at returns
    rw [← receives t wk (workers ▸ here) rfl] at returns'
    exact ⟨t, t', returns.handles calm, returns'.handles returns.calm, alike⟩
  | none =>
    rcases receive_unknown known with same | ⟨address, kind, -, welcomes⟩
    · exact idle ((receives s wk here rfl).trans same)
    have welcomed := (receives s wk here rfl).trans (welcomes s known)
    cases furnished : s.furnish w g.source address with
    | mk v done =>
      cases done with
      | ok _ =>
        -- the endpoint is there before the lanes of the peer are connected to
        rcases welcome_receives minded.recorded here kind known furnished with
          ⟨x, e, ep, wk', received, found, there, books, uuid, agenda, quiet, holds⟩
        rw [received] at welcomed
        rcases receives_twice found there (isHeld_worker held holds agenda)
          (quiet.trans calm) with ⟨t, t', returns, returns', workers, alike⟩
        rw [← welcomed, agenda] at returns
        rw [← receives t wk' (workers ▸ books) uuid] at returns'
        exact ⟨t, t', returns.handles calm, returns'.handles returns.calm, alike⟩
      | error why =>
        -- the lanes cannot be opened the next time either
        rcases welcome_withdrawn minded.recorded here held calm known furnished with
          ⟨t, works, quiet, restored⟩
        have handled : Handles s w m t := by
          refine Returns.handles calm ⟨?_, restored.agenda, quiet⟩
          rw [welcomed]
          exact works
        have here' : t.workers.get? w = some wk := restored.workers ▸ here
        have known' : t.findEndpoint? w g.source = none := by
          rw [← known, findEndpoint?, findEndpoint?, restored.workers]
        have recorded := (minded.moves (handled.moves sound)).recorded
        have held' := isHeld_worker held restored.holds restored.agenda
        cases furnished' : t.furnish w g.source address with
        | mk v' done' =>
          cases done' with
          | ok _ =>
            rcases restored.alike.toFaces.symm.furnish restored.workers.symm here' known' furnished' with
              ⟨v'', opened⟩
            cases furnished.symm.trans opened
          | error why' =>
            rcases welcome_withdrawn recorded here' held' quiet known' furnished' with
              ⟨t', works', quiet', restored'⟩
            refine ⟨t, t', handled, Returns.handles quiet ⟨?_, restored'.agenda, quiet'⟩,
              restored'.alike⟩
            rw [receives t wk here' rfl, welcomes t known']
            exact works'

/-! ## The same signal later -/

/-- The worker knows the sender of a signal, if the signal is meant for the worker. -/
structure Acquainted (w : WorkerId) (g : Signal) (r : Roster) : Prop where
  hired : w < r.hired
  knows : ∀ wk, r.offices w = some wk → wk.uuid = g.dest → ∃ entry ∈ wk.directory, entry.1 = g.source

namespace Acquainted

variable {g : Signal} {r : Roster}

/-- A worker that comes to know a peer still knows whom it knew. -/
theorem add (h : Acquainted w g r) (ep : Endpoint) : Acquainted w g (r.add ep) where
  hired := h.hired
  knows wk here meant := by
    rcases of_update_map here with ⟨wk', before, rfl | rfl⟩
    · exact h.knows wk before meant
    · rcases h.knows wk' before meant with ⟨entry, known, source⟩
      by_cases same : entry.1 = ep.dest
      · exact ⟨(ep.dest, r.opened), List.mem_append_right _ List.mem_cons_self, same ▸ source⟩
      · exact ⟨entry, List.mem_append_left _ (List.mem_filter.2 ⟨known, by simpa using same⟩), source⟩

/-- As long as no endpoint is destroyed, a worker knows whom it knew. -/
theorem shift {j : Job} (h : Acquainted w g s.roster) (shift : Shift s j r)
    (spared : ∀ e, j ≠ .destroy e) : Acquainted w g r := by
  cases shift with
  | stay | closeEndpoint | switch => exact ⟨h.hired, h.knows⟩
  | closeWorker v =>
    refine ⟨h.hired, fun wk here => h.knows wk ?_⟩
    simp only [Function.update_apply] at here
    split at here
    · cases here
    · exact here
  | clear e => exact absurd rfl (spared e)
  | welcome => exact h.add _

theorem enrols {c : Call} (h : Acquainted w g s.roster) (enrols : Enrols s c r) :
    Acquainted w g r := by
  cases enrols with
  | stay => exact h
  | openWorker settings plan resources wk =>
    refine ⟨Nat.lt_succ_of_lt h.hired, fun wk here => h.knows wk ?_⟩
    simp only [Function.update_apply, if_neg h.hired.ne] at here
    exact here
  | createEndpoint => exact h.add _

/-- A job of a run that destroys no endpoint. -/
theorem step {j : Job} (h : Acquainted w g s.roster) (top : s.agenda = j :: rest)
    (calm : s.violation = none) (spared : ∀ e, j ≠ .destroy e) : Acquainted w g s.step.roster := by
  have below : Acquainted w g (roster { s with agenda := rest }) := h
  rw [step_eq top calm]
  exact below.shift (perform_shift _ j) spared

theorem of_books (here : s.workers.get? w = some wk)
    (knows : wk.uuid = g.dest → ∃ entry ∈ wk.directory, entry.1 = g.source) :
    Acquainted w g s.roster where
  hired := Table.lt_next_of_get? here
  knows wk' there := by
    have same : s.roster.offices w = some wk.office := congrArg (Option.map Worker.office) here
    cases same.symm.trans there
    exact knows

theorem known (h : Acquainted w g s.roster) (here : s.workers.get? w = some wk)
    (meant : g.dest = wk.uuid) : s.findEndpoint? w g.source ≠ none := by
  intro unknown
  have office : s.roster.offices w = some wk.office := congrArg (Option.map Worker.office) here
  rcases h.knows _ office meant.symm with ⟨entry, known, source⟩
  exact strangers here unknown entry known source

/-- Once a request is handled, the worker knows the peer. -/
theorem of_request (recorded : Recorded True s) (here : s.workers.get? w = some wk) {m : Message}
    (decoded : Signal.decode m.payload = .ok g) (asks : g.kind = .request)
    {address : WorkerAddress} (given : g.address = some address) :
    Acquainted w g (s.handleSignal w m.payload).roster := by
  unfold handleSignal
  simp only [here, decoded]
  split
  · cases known : s.findEndpoint? w g.source with
    | some e =>
      have before : Acquainted w g s.roster := by
        rcases Option.bind_eq_some_iff.1 known with ⟨wk', books, entry⟩
        exact .of_books books fun _ => ⟨_, lookup_mem entry, rfl⟩
      exact before.shift (receive_shift here g m) (fun _ h => by cases h)
    | none =>
      have founded := (furnish_founded recorded here known address).1
      have furnished : Acquainted w g (s.furnish w g.source address).1.roster :=
        .of_books founded.enlisted fun _ => ⟨_, List.mem_append_right _ List.mem_cons_self, rfl⟩
      unfold receive
      simp only [known, asks, given, welcome_eq]
      generalize s.furnish w g.source address = out at furnished ⊢
      rcases out with ⟨v, why | _⟩
      · exact furnished
      · exact (replyTo_roster v _ g.lanes).symm ▸ furnished
  · rename_i other
    exact .of_books here fun meant => absurd meant.symm other

end Acquainted

end Network

open Network

variable {fits : Network → Call → Prop} {s t u : Network} {w : WorkerId} {wk : Worker}

/-- The next state that a run visits. No endpoint is destroyed in between. -/
def Onward (fits : Network → Call → Prop) (s t : Network) : Prop := ∀ e, Next fits e s t

/-- As long as there is work, the next state is the one after the next job. -/
theorem Next.of_busy {e : EndpointId} {j : Job} {rest : List Job} (h : Next fits e s t)
    (top : s.agenda = j :: rest) : t = s.step ∧ j ≠ .destroy e := by
  cases h with
  | step visited spared => exact ⟨rfl, fun same => spared (by rw [top, same]; rfl)⟩
  | start c journey => cases top.symm.trans journey.rested.idle
  | keep ref idle => cases top.symm.trans idle

theorem Network.Acquainted.onward {g : Signal} (h : Acquainted w g s.roster) (calm : s.violation = none)
    (next : Onward fits s t) : Acquainted w g t.roster := by
  cases top : s.agenda with
  | cons j rest =>
    rw [((next 0).of_busy top).1]
    exact h.step top calm fun e => ((next e).of_busy top).2
  | nil =>
    cases next 0 with
    | step => rwa [step_nil top]
    | start c => exact h.enrols (start_enrols s c)
    | keep ref => rwa [keep_roster]

namespace Network

/-- The directories and the slots are the same, and of the stubs only flags have been raised. -/
structure Sustains (s t : Network) : Prop where
  workers : t.workers = s.workers
  endpoints : t.endpoints = s.endpoints
  stubs : ∀ x, ∃ a b, t.stubs.get? x = (s.stubs.get? x).map (flagged · a b)

theorem Sustains.refl (s : Network) : Sustains s s where
  workers := rfl
  endpoints := rfl
  stubs x := ⟨false, false, by simp [flagged_false]⟩

/-- A signal sustains what there is, unless it is a request of a peer that the worker does not know. -/
theorem handles_known (h : Visited fits s) (here : s.workers.get? w = some wk) (m : Message)
    (known : ∀ g, Signal.decode m.payload = .ok g → g.kind = .request → g.address ≠ none →
      Acquainted w g s.roster) : ∃ t, Handles s w m t ∧ Sustains s t := by
  have calm := h.calm
  rcases h.moves with ⟨process, moves, -⟩
  have minded : Minded s := (Minded.initial process).moves moves
  have listed : Listed s := (Listed.initial process).moves moves
  have held : s.isHeld (.worker w) = true :=
    minded.anchored (.worker w) rfl (Table.contains_of_get? here)
  have idle (same : s.handleSignal w m.payload = s) : ∃ t, Handles s w m t ∧ Sustains s t :=
    ⟨s, handles_idle calm same, .refl s⟩
  rcases handleSignal_cases here m.payload with same | ⟨g, decoded, meant, receives⟩
  · exact idle same
  have received := receives s wk here rfl
  cases found : s.findEndpoint? w g.source with
  | none =>
    rcases receive_unknown found with same | ⟨address, asks, given, -⟩
    · exact idle (received.trans same)
    · have acquainted := known g decoded asks (by simp [given])
      exact absurd found (acquainted.known here meant)
  | some e =>
    rcases Table.contains_iff.1 (findEndpoint_live minded.recorded.sound.live found) with ⟨ep, there⟩
    rcases receive_known found there (listed.found found there).2 held calm with ⟨t, stays⟩
    rw [← received] at stays
    refine ⟨t, .handles calm ⟨stays.works, stays.agenda, stays.calm⟩, ?_⟩
    exact {
      workers := stays.within.workers
      endpoints := stays.within.endpoints
      stubs := fun x => by
        rcases stays.within.stubs x with ⟨a, b, flags, -⟩
        exact ⟨a, b, flags⟩ }

/-- What a worker handled once, it knows to the end of a run that destroys no endpoint. -/
theorem Acquainted.of_handled {m : Message} {g : Signal} (h : Visited fits s)
    (here : s.workers.get? w = some wk) (top : s.agenda = .handle (.signals w) m :: rest)
    (led : Relation.TransGen (Onward fits) s t) (decoded : Signal.decode m.payload = .ok g)
    (asks : g.kind = .request) (given : g.address ≠ none) : Acquainted w g t.roster := by
  rcases Option.ne_none_iff_exists'.1 given with ⟨address, given⟩
  induction led with
  | single next =>
    rcases h.moves with ⟨process, moves, -⟩
    have below : Moves True s { s with agenda := rest } := .hold (.done _ rest top rfl)
    have recorded := ((Minded.initial process).moves (moves.trans below)).recorded
    rw [((next 0).of_busy top).1, step_eq top h.calm]
    exact .of_request recorded here decoded asks given
  | tail led next ih =>
    rcases Relation.TransGen.tail'_iff.1 led with ⟨before, -, last⟩
    exact ih.onward (last 0).visited.calm next

/-- A signal that comes twice in a row does what it does once. If a worker has handled it before in a
run that has destroyed no endpoint since, it sustains what there is. -/
theorem signals_repeated (h : Visited fits s) (here : s.workers.get? w = some wk) (m : Message) :
    (∃ t t', Handles s w m t ∧ Handles t w m t' ∧ Alike t t') ∧
    ∀ (before : Network) (wk' : Worker) (m' : Message) (rest : List Job), Visited fits before →
      before.workers.get? w = some wk' → before.agenda = .handle (.signals w) m' :: rest →
      m'.payload = m.payload → Relation.TransGen (Onward fits) before s →
        ∃ t, Handles s w m t ∧ Sustains s t := by
  refine ⟨handles_twice h here m, fun before wk' m' rest visited there top same led => ?_⟩
  refine handles_known h here m fun g decoded asks given => ?_
  exact .of_handled visited there top led (same ▸ decoded) asks given

/-- The message that a worker is about to handle as a signal. -/
def signalAt? (s : Network) (w : WorkerId) : Option Message :=
  match s.agenda with
  | .handle (.signals v) m :: _ => if v = w then some m else none
  | _ => none

theorem top_of_signalAt? {m : Message} (h : s.signalAt? w = some m) :
    ∃ rest, s.agenda = .handle (.signals w) m :: rest := by
  unfold signalAt? at h
  split at h
  · rename_i v m' rest top
    split at h
    · rename_i same
      cases h
      exact ⟨rest, same ▸ top⟩
    · cases h
  · cases h

/-- The second worker of a pair handles the request of the first one, which it does not know yet. If
the request came twice, it would open one endpoint all the same, and none once it has opened one. -/
theorem signals_repeated_greeted : ∃ s m rest,
    greetedPair.map (fun s => work 3 (Call.start s (.progressOf 1))) = some s ∧
    s.agenda = .handle (.signals 1) m :: rest ∧ s.findEndpoint? 1 1 = none ∧
    s.step.findEndpoint? 1 1 = some 1 ∧
    (∃ t t', Handles s 1 m t ∧ Handles t 1 m t' ∧ Alike t t') ∧
    ∃ t, Handles s.step 1 m t ∧ Sustains s.step t := by
  have known : (greetedPair.map fun s => work 3 (Call.start s (.progressOf 1))).map (fun s =>
      decide (s.step.violation.isNone = true ∧ s.workers.contains 1 = true ∧
        s.step.workers.contains 1 = true ∧ s.findEndpoint? 1 1 = none ∧
        s.step.findEndpoint? 1 1 = some 1 ∧ (s.signalAt? 1).isSome = true)) = some true := by
    decide +kernel
  rcases Option.map_eq_some_iff.1 known with ⟨u, hu, known⟩
  rcases Option.map_eq_some_iff.1 hu with ⟨s, hs, rfl⟩
  rcases of_decide_eq_true known with ⟨calm, here, here', unknown, found, top⟩
  have journey : Journey (fun _ _ => True) s := .of_runAll (.start 1) hs
  have calm' := Option.isNone_iff_eq_none.1 calm
  have visited : Visited (fun _ _ => True) (work 3 (Call.start s (.progressOf 1))) :=
    .within (.progressOf 1) 3 journey trivial trivial (step_violation calm')
  have visited' : Visited (fun _ _ => True) (work 3 (Call.start s (.progressOf 1))).step := by
    rw [← work_then_step] at calm' ⊢
    exact .within (.progressOf 1) 4 journey trivial trivial calm'
  generalize work 3 (Call.start s (.progressOf 1)) = before at *
  rcases Option.isSome_iff_exists.1 top with ⟨m, handled⟩
  rcases top_of_signalAt? handled with ⟨rest, busy⟩
  rcases Table.contains_iff.1 here with ⟨wk, here⟩
  rcases Table.contains_iff.1 here' with ⟨wk', here'⟩
  have onward : Onward (fun _ _ => True) before before.step := fun e =>
    .step visited' (by simp [busy])
  exact ⟨before, m, rest, hu, busy, unknown, found, (signals_repeated visited here m).1,
    (signals_repeated visited' here' m).2 before wk m rest visited here busy rfl (.single onward)⟩

end Network

end Wiring
