import Mathlib
import Wiring.Proofs.Founding

/-!
# Creating an endpoint

A worker creates an endpoint as a whole or not at all. The lanes may fail to open one after
another, and the request may fail to be sent once they are open; in both cases the new endpoint is
destroyed, the work of taking it down ends, and everything is as it was before. A request that only
lacks a credit is queued, which is no failure.
-/
namespace Wiring.Network

variable {s t u : Network} {w : WorkerId} {wk : Worker} {dest : UInt64} {e : EndpointId}
  {ep : Endpoint} {rest : List Job}

/-! ## The state before -/

/-- Everything is as it was before: numbers were given, and things have happened, but nothing that
lives tells of it, except that interfaces have numbered links. -/
structure AsBefore (s t : Network) : Prop where
  /-- The directories, the posted events and the counts of parked requests. -/
  workers : t.workers = s.workers
  registries : t.registries = s.registries
  callbacks : t.callbacks = s.callbacks
  fabrics : t.fabrics = s.fabrics
  endpoints : ∀ e, t.endpoints.get? e = s.endpoints.get? e
  stubs : ∀ x, t.stubs.get? x = s.stubs.get? x
  links : ∀ l, t.links.get? l = s.links.get? l
  linksOf : ∀ i, t.linksOf i = s.linksOf i
  /-- Inboxes and handlers are the same. -/
  interfaces : ∀ i, (t.interfaces.get? i).map Interface.unnumbered =
    (s.interfaces.get? i).map Interface.unnumbered
  gates : ∀ g < s.gates.next, t.gates.get? g = s.gates.get? g
  handles : ∀ h < s.handles.next, t.handles.get? h = s.handles.get? h
  held : t.held = s.held
  holds : t.holds = s.holds
  agenda : t.agenda = s.agenda

/-- When nothing new lives any more everything is as it was before. -/
theorem Razing.asBefore (h : Razing s t) (idle : s.agenda = []) (done : t.agenda = [])
    (live : Live s) : AsBefore s t := by
  have gone := h.gone done fun ref new => by
    by_contra held
    have alive := live ref (by simpa using held)
    simp [not_live_of_new new] at alive
  have links := h.links.get?_eq fun l new => gone (.link l) new
  exact {
    workers := h.workers
    registries := show t.ground.registries = s.ground.registries from
      congrArg Network.registries h.frame
    callbacks := h.callbacks
    fabrics := show t.ground.fabrics = s.ground.fabrics from congrArg Network.fabrics h.frame
    endpoints := h.endpoints.get?_eq fun e new => gone (.endpoint e) new
    stubs := h.stubs.get?_eq fun x new => gone (.stub x) new
    links := links
    linksOf := fun _ => Table.keysWhere_congr _ links
    interfaces := h.interfaces
    gates := h.gates.same
    handles := h.handles.same
    held := show t.ground.held = s.ground.held from congrArg Network.held h.frame
    holds := h.holds
    agenda := done.trans idle.symm }

/-! ## The request -/

/-- The link carries the signals of a carrier. -/
def CarriesSignals (s : Network) (c : Carrier) (l : LinkId) : Prop :=
  c = .link l ∨ ∃ x st, c = .stub x ∧ s.stubs.get? x = some st ∧ st.signalLink = some l

/-- The link that carries the signals of a carrier has no credit left. -/
def Starved (s : Network) (c : Carrier) : Prop :=
  ∃ l lk, s.links.get? l = some lk ∧ lk.credits = 0 ∧ s.CarriesSignals c l

/-- A signal, and whatever goes over a link, is refused or put into an inbox. -/
theorem sendOver_carried (s : Network) (c : Carrier) {messageId : UInt8} (payload : Bytes)
    (source : Option HandleId) (carried : messageId = Signal.messageId ∨ ∀ x, c ≠ .stub x) :
    (∃ why : Refusal, s.sendOver c messageId payload source = (s, some (.error why)) ∧
      (why = .noResource → Starved s c)) ∨
    ∃ l t, s.CarriesSignals c l ∧ Transmitted s l messageId payload source t ∧
      s.sendOver c messageId payload source = (t, some (.ok ())) := by
  have sent {l : LinkId} (carries : s.CarriesSignals c l)
      (bulk : s.sendOver c messageId payload source =
        ((s.sendBulk l messageId payload source).1,
          some (s.sendBulk l messageId payload source).2)) :
      (∃ why : Refusal, s.sendOver c messageId payload source = (s, some (.error why)) ∧
        (why = .noResource → Starved s c)) ∨
      ∃ l t, s.CarriesSignals c l ∧ Transmitted s l messageId payload source t ∧
        s.sendOver c messageId payload source = (t, some (.ok ())) := by
    rcases s.sendBulk_transmitted l messageId payload source with ⟨why, refused⟩ | ⟨t, sent, h⟩
    · refine .inl ⟨why, by rw [bulk, refused], ?_⟩
      rintro rfl
      rcases sendBulk_noResource (congrArg Prod.snd refused) with ⟨lk, here, none⟩
      exact ⟨l, lk, here, none, carries⟩
    · exact .inr ⟨l, t, carries, sent, by rw [bulk, h]⟩
  cases c with
  | link l => exact sent (.inl rfl) rfl
  | stub x =>
    rcases carried with rfl | direct
    · cases link : (s.stubs.get? x).bind Stub.signalLink with
      | none =>
        refine .inl ⟨.notConnected, ?_, by simp⟩
        simp only [sendOver, ne_eq, not_true_eq_false, if_false, link]
      | some l =>
        rcases Option.bind_eq_some_iff.1 link with ⟨st, stub, carries⟩
        refine sent (.inr ⟨x, st, rfl, stub, carries⟩) ?_
        simp only [sendOver, ne_eq, not_true_eq_false, if_false, link]
    · exact absurd rfl (direct x)

/-- Such a send goes out, or is refused for a lack of credits, or for another reason. -/
theorem step_attempt_carried {m : Send} (top : t.agenda = .attempt (.send m) (.endpoint e) :: rest)
    (calm : t.violation = none) (here : t.endpoints.get? m.endpoint = some ep)
    (carried : m.messageId = Signal.messageId ∨ ∀ x, ep.slots.messages ≠ some (.stub x)) :
    (∃ why : Refusal, why.isNoResource = false ∧
      t.step = { t with agenda := .conclude (.send m) (.error why) (.endpoint e) :: rest }) ∨
    (∃ c, ep.slots.messages = some c ∧ Starved t c ∧
      t.step = { t with
        agenda := .conclude (.send m) (.error .noResource) (.endpoint e) :: rest }) ∨
    ∃ c l, ep.slots.messages = some c ∧ t.CarriesSignals c l ∧
      Transmitted { t with agenda := .conclude (.send m) (.ok ()) (.endpoint e) :: rest } l
        m.messageId m.payload (some m.handle) t.step := by
  rw [step_eq top calm]
  simp only [perform, attempt, Request.inner?, here]
  cases slot : ep.slots.messages with
  | none => exact .inl ⟨.notConnected, rfl, rfl⟩
  | some c =>
    rw [slot] at carried
    simp only [attemptOver]
    rcases sendOver_carried { t with agenda := rest } c m.payload (some m.handle)
      (carried.imp_right fun direct x way => direct x (congrArg some way)) with
      ⟨why, refused, starves⟩ | ⟨l, u, carries, sent, h⟩
    · rw [refused]
      cases why with
      | noResource => exact .inr (.inl ⟨c, rfl, starves rfl, rfl⟩)
      | _ => exact .inl ⟨_, rfl, rfl⟩
    · rw [h]
      refine .inr (.inr ⟨c, l, rfl, carries, ?_⟩)
      cases sent with
      | intro lk credits dest f here credit leads there =>
        exact .intro lk credits dest f here credit leads there

/-- A signal that is finished completes its handle. -/
theorem step_conclude_ended {m : Send} {o : Outcome} (ended : o.isNoResource = false)
    (top : t.agenda = .conclude (.send m) o (.endpoint e) :: rest) (calm : t.violation = none) :
    t.step = { t with
      handles := t.handles.modify m.handle fun old => some (old.getD o), agenda := rest } := by
  rw [step_eq top calm]
  simp only [perform, conclude, recordAttempt, Request.inner?, ended]
  rfl

/-- A signal that lacks a credit is added to the carrier, which is held meanwhile. -/
theorem step_conclude_starved {m : Send} {c : Carrier}
    (here : t.endpoints.get? e = some ep) (slot : ep.slots.messages = some c)
    (top : t.agenda = .conclude (.send m) (.error .noResource) (.endpoint e) :: rest)
    (calm : t.violation = none) :
    t.step = { t with agenda := .add c (.send m) :: .release c.ref :: rest } := by
  have serves : Network.slot { t with agenda := rest } e .messages = some c := by
    simp [Network.slot, here, PerCategory.get, slot]
  rw [step_eq top calm]
  simp only [perform, conclude, recordAttempt, Request.inner?]
  simp only [Outcome.isNoResource, Refusal.isNoResource, if_true, giveUp, serves]
  rfl

/-- The network after a carrier without a credit has queued a send, which its stub counts. -/
inductive QueuedSignal (s : Network) (m : Send) : Carrier → Network → Prop
  | link (l : LinkId) (lk : Link) (here : s.links.get? l = some lk) (empty : lk.credits = 0) :
      QueuedSignal s m (.link l)
        { s with links := s.links.set l { lk with queue := lk.queue ++ [.send m] } }
  | stub (x : StubId) (st : Stub) (l : LinkId) (lk : Link) (stub : s.stubs.get? x = some st)
      (carries : st.signalLink = some l) (here : s.links.get? l = some lk) (empty : lk.credits = 0) :
      QueuedSignal s m (.stub x) { s with
        gates := s.gates.modify st.gate (· + 1)
        links := s.links.set l { lk with queue := lk.queue ++ [.counted st.gate (.send m)] } }

/-- A carrier without a credit queues the send. -/
theorem step_add_starved {m : Send} {c : Carrier} (starved : Starved t c)
    (carried : m.messageId = Signal.messageId ∨ ∀ x, c ≠ .stub x)
    (top : t.agenda = .add c (.send m) :: rest) (calm : t.violation = none) :
    QueuedSignal { t with agenda := rest } m c t.step := by
  rw [step_eq top calm]
  rcases starved with ⟨l, lk, here, credits, rfl | ⟨x, st, rfl, stub, carries⟩⟩
  · have queued : Network.perform { t with agenda := rest } (.add (.link l) (.send m)) = { t with
        links := t.links.set l { lk with queue := lk.queue ++ [.send m] }, agenda := rest } := by
      simp [perform, offer, enqueue, here, credits]
    rw [queued]
    exact .link l lk here credits
  · rcases carried with signal | direct
    · have isSignal : (Request.send m).isSignal = true := by simp [Request.isSignal, signal]
      have queued : Network.perform { t with agenda := rest } (.add (.stub x) (.send m)) = { t with
          gates := t.gates.modify st.gate (· + 1)
          links := t.links.set l { lk with queue := lk.queue ++ [.counted st.gate (.send m)] }
          agenda := rest } := by
        simp [perform, offer, enqueue, enterGate, stub, isSignal, carries, here, credits]
      rw [queued]
      exact .stub x st l lk stub carries here credits
    · exact absurd rfl (direct x)

/-- Requests wait in queues for nothing but credits. -/
def Tight (s : Network) : Prop :=
  ∀ l lk, s.links.get? l = some lk → lk.credits ≠ 0 → lk.queue = []

/-- Nothing has changed that keeps things alive, nor in the books of the workers; and if requests
waited for nothing but credits before, they still do. -/
structure Undisturbed (s t : Network) : Prop extends Kept s t where
  workers : t.workers = s.workers
  tight : Tight s → Tight t

theorem Undisturbed.refl (s : Network) : Undisturbed s s := ⟨.refl s, rfl, id⟩

theorem Undisturbed.trans (h : Undisturbed s t) (g : Undisturbed t u) : Undisturbed s u :=
  ⟨h.toKept.trans g.toKept, g.workers.trans h.workers, g.tight ∘ h.tight⟩

theorem Transmitted.undisturbed {l : LinkId} {messageId : UInt8} {payload : Bytes}
    {source : Option HandleId} (h : Transmitted t l messageId payload source u) :
    Undisturbed t u ∧ u.handles = t.handles ∧ u.agenda = t.agenda := by
  cases h with
  | intro lk credits dest f here credit leads there =>
    refine ⟨{ Undisturbed.refl t with tight := fun tight k k' hk free => ?_ }, rfl, rfl⟩
    rcases Table.get?_of_set hk with ⟨-, rfl⟩ | hk
    · exact tight l lk here (by simp [credit])
    · exact tight k k' hk free

theorem Transmitted.withAgenda {l : LinkId} {messageId : UInt8} {payload : Bytes}
    {source : Option HandleId} (h : Transmitted t l messageId payload source u) (agenda : List Job) :
    Transmitted { t with agenda } l messageId payload source { u with agenda } := by
  cases h with
  | intro lk credits dest f here credit leads there =>
    exact .intro lk credits dest f here credit leads there

theorem QueuedSignal.withAgenda {m : Send} {c : Carrier} (h : QueuedSignal t m c u)
    (agenda : List Job) : QueuedSignal { t with agenda } m c { u with agenda } := by
  cases h with
  | link l lk here empty => exact .link l lk here empty
  | stub x st l lk stub carries here empty => exact .stub x st l lk stub carries here empty

theorem QueuedSignal.undisturbed {m : Send} {c : Carrier} (h : QueuedSignal t m c u) :
    Undisturbed t u ∧ u.handles = t.handles ∧ u.agenda = t.agenda := by
  have kept {l : LinkId} {lk : Link} {queue : List Request} (empty : lk.credits = 0) (tight : Tight t)
      (k : LinkId) (k' : Link) (hk : (t.links.set l { lk with queue }).get? k = some k')
      (free : k'.credits ≠ 0) : k'.queue = [] := by
    rcases Table.get?_of_set hk with ⟨-, rfl⟩ | hk
    · exact absurd empty free
    · exact tight k k' hk free
  cases h with
  | link l lk here empty => exact ⟨{ Undisturbed.refl t with tight := kept empty }, rfl, rfl⟩
  | stub x st l lk stub carries here empty =>
    exact ⟨{ Undisturbed.refl t with tight := kept empty }, rfl, rfl⟩

/-! ## The end of an attempt -/

/-- Work has led from one network to another in a number of steps at most, and what lay below it in
the agenda was not touched on the way. -/
def WorksWithin (rest : List Job) (steps : Nat) (s t : Network) : Prop :=
  ∃ n ≤ steps, t = work n s ∧ ∀ k < n, ∃ j jobs, (work k s).agenda = j :: jobs ++ rest

theorem WorksWithin.above {steps : Nat} (h : WorksWithin rest steps s t) : WorksAbove rest s t := by
  rcases h with ⟨n, -, h⟩
  exact ⟨n, h⟩

theorem WorksWithin.refl (rest : List Job) (steps : Nat) (s : Network) :
    WorksWithin rest steps s s := ⟨0, steps.zero_le, rfl, fun k hk => absurd hk (Nat.not_lt_zero k)⟩

theorem WorksWithin.step {steps : Nat} {j : Job} (jobs : List Job)
    (top : s.agenda = j :: jobs ++ rest) (h : WorksWithin rest steps s.step t) :
    WorksWithin rest (steps + 1) s t := by
  rcases h with ⟨n, few, rfl, above⟩
  refine ⟨n + 1, by omega, (work_succ top n).symm, fun k hk => ?_⟩
  cases k with
  | zero => exact ⟨j, jobs, top⟩
  | succ k =>
    rw [work_succ top]
    exact above k (by omega)

theorem WorksWithin.one {steps : Nat} {j : Job} (top : s.agenda = j :: rest)
    (h : WorksWithin rest steps s.step t) : WorksWithin rest (steps + 1) s t := by
  have top : s.agenda = j :: [] ++ rest := top
  exact .step [] top h

/-- The network after a send has come to its end: it is given up, has gone out, or waits in a queue
for a credit. -/
inductive Posted (s : Network) (m : Send) (ep : Endpoint) : Network → Prop
  | refused (why : Refusal) (final : why.isNoResource = false) : Posted s m ep
      { s with handles := s.handles.modify m.handle fun old => some (old.getD (.error why)) }
  | sent (c : Carrier) (l : LinkId) (t : Network) (slot : ep.slots.messages = some c)
      (carries : s.CarriesSignals c l)
      (sent : Transmitted s l m.messageId m.payload (some m.handle) t) : Posted s m ep
      { t with handles := t.handles.modify m.handle fun old => some (old.getD (.ok ())) }
  | queued (c : Carrier) (t : Network) (slot : ep.slots.messages = some c)
      (queued : QueuedSignal s m c t) : Posted s m ep t

theorem Posted.undisturbed {m : Send} (h : Posted s m ep t) :
    Undisturbed s t ∧ t.agenda = s.agenda := by
  cases h with
  | refused why final => exact ⟨{ Undisturbed.refl s with }, rfl⟩
  | sent c l t slot carries sent =>
    rcases sent.undisturbed with ⟨same, -, agenda⟩
    exact ⟨{ same with }, agenda⟩
  | queued c t slot queued =>
    rcases queued.undisturbed with ⟨same, -, agenda⟩
    exact ⟨same, agenda⟩

theorem isHeld_of_messages {c : Carrier} (here : s.endpoints.get? e = some ep)
    (slot : ep.slots.messages = some c) : s.isHeld c.ref = true := by
  apply isHeld_of_owned
  exact isOwned_iff.2 (.inr (.inl ⟨e, ep, c, here, Endpoint.owns_iff.2 ⟨.messages, slot⟩, rfl⟩))

/-- The first attempt at a signal, or at whatever no stub holds off, comes to its end. -/
theorem attempt_posted {m : Send} (own : m.endpoint = e) (here : t.endpoints.get? e = some ep)
    (carried : m.messageId = Signal.messageId ∨ ∀ x, ep.slots.messages ≠ some (.stub x))
    (calm : t.violation = none) (top : t.agenda = .attempt (.send m) (.endpoint e) :: rest) :
    ∃ u, WorksWithin rest 4 t u ∧ Posted { t with agenda := rest } m ep u := by
  -- the end of an attempt completes the handle
  have ended {v : Network} {steps : Nat} (o : Outcome) (final : o.isNoResource = false)
      (top : v.agenda = .conclude (.send m) o (.endpoint e) :: rest) (calm : v.violation = none) :
      WorksWithin rest (steps + 1) v { v with
        handles := v.handles.modify m.handle fun old => some (old.getD o), agenda := rest } := by
    refine .one top ?_
    rw [step_conclude_ended final top calm]
    exact .refl _ _ _
  rcases step_attempt_carried top calm (own ▸ here) carried with ⟨why, final, attempted⟩ |
    ⟨c, slot, starved, attempted⟩ | ⟨c, l, slot, carries, sent⟩
  · refine ⟨_, .one top ?_, .refused why final⟩
    rw [attempted]
    exact ended (.error why) final rfl calm
  · -- the carrier is held while it queues the send
    have given := step_conclude_starved (t := { t with
      agenda := .conclude (.send m) (.error .noResource) (.endpoint e) :: rest }) here slot rfl calm
    have queued := step_add_starved (t := { t with
        agenda := .add c (.send m) :: .release c.ref :: rest }) starved
      (carried.imp_right fun direct x way => direct x (slot.trans (congrArg some way))) rfl calm
    rcases queued.undisturbed with ⟨same, -, next⟩
    set v := step { t with agenda := .add c (.send m) :: .release c.ref :: rest } with hv
    have there : v.endpoints.get? e = some ep :=
      (congrArg (Table.get? · e) same.endpoints).trans here
    have released := step_release_held next (same.calm.trans calm)
      (isHeld_of_messages (s := { v with agenda := rest }) there slot)
    refine ⟨_, .one top ?_, .queued c _ slot (queued.withAgenda rest)⟩
    rw [attempted]
    refine .one rfl ?_
    rw [given]
    have above : Job.add c (.send m) :: .release c.ref :: rest =
        .add c (.send m) :: [.release c.ref] ++ rest := rfl
    refine .step [_] above (.one next ?_)
    rw [released]
    exact .refl _ _ _
  · rcases sent.undisturbed with ⟨same, -, next⟩
    refine ⟨_, .one top (ended (.ok ()) rfl next (same.calm.trans calm)), ?_⟩
    exact .sent (s := { t with agenda := rest }) c l _ slot carries (sent.withAgenda rest)

theorem Kept.findEndpoint? (h : Kept t u) (found : t.findEndpoint? w dest = some e) :
    u.findEndpoint? w dest = some e := by
  rcases Option.bind_eq_some_iff.1 found with ⟨wk, hw, entry⟩
  rcases h.directories w wk hw with ⟨wk', hw', directory⟩
  simp [Network.findEndpoint?, hw', directory, entry]

/-- What stands in a directory is held. -/
theorem isHeld_of_found (found : t.findEndpoint? w dest = some e) :
    t.isHeld (.endpoint e) = true := by
  rcases Option.bind_eq_some_iff.1 found with ⟨wk, hw, entry⟩
  apply isHeld_of_owned
  apply isOwned_iff.2
  exact .inl ⟨w, wk, hw, .inr ⟨(dest, e), lookup_mem entry, rfl⟩⟩

/-- An endpoint whose request failed is to be destroyed. -/
theorem step_confirm_failed {h : HandleId} {why : Refusal} (top : t.agenda = .confirm e h :: rest)
    (calm : t.violation = none) (failed : t.handles.get? h = some (some (.error why))) :
    t.step = { t with agenda := .destroy e :: rest } := by
  rw [step_eq top calm]
  simp [perform, confirm, failed, push]

/-- An endpoint whose request did not fail stays. -/
theorem work_confirm {h : HandleId} (top : t.agenda = [.confirm e h, .release (.endpoint e)])
    (calm : t.violation = none) (found : t.findEndpoint? w dest = some e)
    (fine : ∀ why, t.status h ≠ some (.error why)) : work 2 t = { t with agenda := [] } := by
  have confirmed : t.step = { t with agenda := [.release (.endpoint e)] } := by
    rw [step_eq top calm]
    simp only [perform, confirm]
    split
    · rename_i why failed
      have failed : t.handles.get? h = some (some (.error why)) := failed
      exact absurd (by simp [status, failed]) (fine why)
    · rfl
  have released : step { t with agenda := [.release (.endpoint e)] } = { t with agenda := [] } := by
    apply step_release_held (s := { t with agenda := [.release (.endpoint e)] }) rfl calm
    exact isHeld_of_found (t := { t with agenda := [] }) found
  rw [work_succ top, confirmed, work_succ rfl, work, released]

/-- A request that an endpoint has just made is on its way, or queued, or else the endpoint is about
to be destroyed. -/
theorem Founded.request (h : Founded s w wk dest e t) {m : Send} (own : m.endpoint = e)
    (signal : m.messageId = Signal.messageId) (later : s.handles.next ≤ m.handle)
    (pending : t.handles.get? m.handle = some none) (calm : t.violation = none)
    (top : t.agenda =
      [.attempt (.send m) (.endpoint e), .confirm e m.handle, .release (.endpoint e)]) :
    (∃ n ≤ 6, (work n t).agenda = [] ∧ Undisturbed t (work n t) ∧
      ∀ why, (work n t).status m.handle ≠ some (.error why)) ∨
    ∃ n ≤ 5, ∃ why, Founded s w wk dest e (work n t) ∧
      (work n t).status m.handle = some (.error why) ∧
      (work n t).agenda = [.destroy e, .release (.endpoint e)] ∧ (work n t).violation = none ∧
      (work n t).toil ≤ t.toil := by
  rcases h.here with ⟨ep, here, -⟩
  rcases attempt_posted own here (.inl signal) calm top with ⟨u, ⟨n, few, reached, -⟩, posted⟩
  rcases posted.undisturbed with ⟨same, rests⟩
  have same : Undisturbed t u := { same with }
  -- what does not fail is confirmed
  have stays (fine : ∀ why, u.status m.handle ≠ some (.error why)) :
      ∃ n ≤ 6, (work n t).agenda = [] ∧ Undisturbed t (work n t) ∧
        ∀ why, (work n t).status m.handle ≠ some (.error why) := by
    have confirmed := work_confirm rests (same.calm.trans calm) (same.findEndpoint? h.found) fine
    refine ⟨n + 2, by omega, ?_⟩
    rw [work_add, ← reached, confirmed]
    exact ⟨rfl, same.trans { Undisturbed.refl u with }, fine⟩
  cases posted with
  | refused why final =>
    let handles := t.handles.modify m.handle fun old => some (old.getD (.error why))
    have ended : handles.get? m.handle = some (some (.error why)) := by
      simp [handles, Table.get?_modify, pending]
    have failed := step_confirm_failed (t := { t with
      handles, agenda := [.confirm e m.handle, .release (.endpoint e)] }) rfl calm ended
    have worked : work (n + 1) t = { t with
        handles, agenda := [.destroy e, .release (.endpoint e)] } := by
      rw [work_add, ← reached, work_succ rests]
      exact failed
    refine .inr ⟨n + 1, by omega, why, ?_⟩
    rw [worked]
    refine ⟨?_, by simp [status, ended], rfl, calm, ?_⟩
    · apply h.withWork t.trace (h.raised.handles.modify later _) t.tally
      intro ref planned
      rw [top] at planned
      simp only [List.mem_cons, reduceCtorEq, false_or, List.not_mem_nil, or_false] at planned
      cases planned
      simp
    · simp only [toil, top, List.length_cons]
      omega
  | sent c l v slot carries sent =>
    refine .inl (stays fun why => ?_)
    simp [status, Table.get?_modify, sent.undisturbed.2.1, pending]
  | queued c v slot queued =>
    refine .inl (stays fun why => ?_)
    simp [status, queued.undisturbed.2.1, pending]

/-! ## The end -/

/-- A worker that lives between operations is held by the application. -/
theorem Anchored.worker (hs : Anchored s) (idle : s.agenda = []) (live : s.workers.contains w = true) :
    .worker w ∈ s.holds := by
  rcases isHeld_iff.1 (hs (.worker w) rfl live) with held | planned | owned
  · exact held
  · rw [idle] at planned
    cases planned
  · cases owned

/-- Destroying an endpoint that has failed restores everything. -/
theorem Founded.abandon (h : Founded s w wk dest e t) (idle : s.agenda = []) (live : Live s)
    (kept : .worker w ∈ s.holds) (calm : t.violation = none)
    (top : t.agenda = [.destroy e, .release (.endpoint e)]) :
    ∃ n ≤ t.toil + 11, (work n t).agenda = [] ∧ (work n t).violation = none ∧
      AsBefore s (work n t) ∧ (work n t).handles = t.handles := by
  have loose : Founded s w wk dest e { t with agenda := [.release (.endpoint e)] } := by
    apply h.withWork t.trace h.raised.handles t.tally
    intro ref planned
    rw [top] at planned
    simpa using planned
  have jobs : ∀ j ∈ [Job.release (.endpoint e)], j.TakesDown s := by
    intro j hj
    cases List.mem_singleton.1 hj
    exact .inl h.new
  rcases loose.destroy kept calm jobs List.mem_cons_self with ⟨razing, handles, toil⟩
  rcases razing.done with ⟨n, few, done, razed, handles'⟩
  have path : work (n + 1) t =
      work n (Network.destroy { t with agenda := [.release (.endpoint e)] } e) := by
    rw [work_succ top, step_eq top calm]
    rfl
  have less : ({ t with agenda := [.release (.endpoint e)] } : Network).toil + 1 = t.toil := by
    simp only [Network.toil, top, List.length_cons, List.length_nil]
    omega
  refine ⟨n + 1, by omega, ?_⟩
  rw [path]
  exact ⟨done, razed.calm, razed.asBefore idle done live, handles'.trans handles⟩

/-- Work that comes to an end soon enough answers. -/
theorem settle_within {α : Type} (result : Network → α) {n : Nat} (few : n ≤ s.fuel)
    (done : (work n s).agenda = []) (calm : (work n s).violation = none) :
    s.settle result = (work n s, .ok (result (work n s))) := by
  apply settle_done result ?_ calm done
  rcases Nat.exists_eq_add_of_le few with ⟨k, enough⟩
  rw [enough, work_add, work_nil done]

/-- An endpoint whose lanes cannot be opened, or whose request cannot be made, is destroyed. -/
theorem Founded.fails {α : Type} (h : Founded s w wk dest e t) (idle : s.agenda = [])
    (live : Live s) (kept : .worker w ∈ s.holds) (calm : t.violation = none)
    (rests : t.agenda = []) (x : α) :
    ∃ u, t.carryOut [.destroy e, .release (.endpoint e)] (fun _ => x) = (u, .ok x) ∧
      AsBefore s u := by
  have planned : Founded s w wk dest e
      (push { t with tally := 0 } [.destroy e, .release (.endpoint e)]) := by
    apply h.withWork t.trace h.raised.handles 0
    intro ref before
    rw [rests] at before
    cases before
  have top : (push { t with tally := 0 } [.destroy e, .release (.endpoint e)]).agenda =
      [.destroy e, .release (.endpoint e)] := by
    simp [push, rests]
  rcases planned.abandon idle live kept calm top with ⟨n, few, done, calm', restored, -⟩
  have enough := toil_lt_fuel (push { t with tally := 0 } [.destroy e, .release (.endpoint e)])
  exact ⟨_, settle_within (fun _ => x) (by omega) done calm', restored⟩

/-- An endpoint whose lanes are open sends its request, and is destroyed if that fails. -/
theorem Founded.sends (h : Founded s w wk dest e t) (idle : s.agenda = []) (live : Live s)
    (kept : .worker w ∈ s.holds) (calm : t.violation = none) (rests : t.agenda = [])
    (payload : Bytes) {job : Job} {handle : HandleId}
    (made : t.newSend e Signal.messageId payload = (u, handle, job)) :
    ∃ v o, u.carryOut [job, .confirm e handle, .release (.endpoint e)] (status · handle) =
      (v, .ok o) ∧ ((∃ why, o = some (.error why) ∧ AsBefore s v) ∨
        (∀ why, o ≠ some (.error why)) ∧ Undisturbed t v) := by
  cases made
  have planned : Founded s w wk dest e (push { (t.newSend e Signal.messageId payload).1 with
      tally := 0 } [(t.newSend e Signal.messageId payload).2.2, .confirm e t.handles.next,
        .release (.endpoint e)]) := by
    apply h.withWork _ (h.raised.handles.push none) 0
    intro ref before
    rw [rests] at before
    cases before
  set v := push { (t.newSend e Signal.messageId payload).1 with tally := 0 }
    [(t.newSend e Signal.messageId payload).2.2, .confirm e t.handles.next, .release (.endpoint e)]
    with hv
  have top : v.agenda = [.attempt (.send ⟨e, Signal.messageId, payload, t.handles.next⟩)
      (.endpoint e), .confirm e t.handles.next, .release (.endpoint e)] := by
    simp [hv, push, newSend, note, rests]
  have pending : v.handles.get? t.handles.next = some none := by
    simp [hv, push, newSend, note, Table.get?_push]
  have enough := toil_lt_fuel v
  rcases planned.request (m := ⟨e, Signal.messageId, payload, t.handles.next⟩) rfl rfl
    h.raised.handles.next pending calm top with ⟨n, few, done, same, fine⟩ |
    ⟨m, soon, why, failed, status, top', calm', toil⟩
  · have answered := settle_within (status · t.handles.next) (by omega) done
      (same.calm.trans calm)
    have begun : Undisturbed t v := { Undisturbed.refl t with }
    exact ⟨_, _, answered, .inr ⟨fine, begun.trans same⟩⟩
  · rcases failed.abandon idle live kept calm' top' with ⟨n, few, done, calm, restored, handles⟩
    rw [← work_add] at done calm restored handles
    have answered := settle_within (Network.status · t.handles.next) (by omega) done calm
    refine ⟨_, _, answered, .inl ⟨why, ?_, restored⟩⟩
    rw [← status]
    simp only [Network.status, handles]

/-- What a worker that creates an endpoint may rely on: an error leaves everything as it was, and
an endpoint is the one that the worker has to the peer, and had before, if it had one. -/
def Whole (s : Network) (w : WorkerId) (peer : UInt64) (t : Network) :
    Except WireupError EndpointId → Prop
  | .error _ => AsBefore s t
  | .ok e => (t.lookUp w peer).2 = some e ∧ ∀ e', (s.lookUp w peer).2 = some e' → e' = e

theorem lookUp_snd (s : Network) (w : WorkerId) (peer : UInt64) :
    (s.lookUp w peer).2 = s.findEndpoint? w peer := by
  unfold lookUp
  split <;> simp_all

theorem keep_findEndpoint? (s : Network) (ref : Ref) (w : WorkerId) (peer : UInt64) :
    (s.keep ref).findEndpoint? w peer = s.findEndpoint? w peer := by
  unfold keep
  split <;> rfl

/-- An endpoint whose lanes are open is created as a whole or not at all. -/
theorem Founded.concludes (h : Founded s w wk dest e t) (unknown : s.findEndpoint? w dest = none)
    (idle : s.agenda = []) (live : Live s) (kept : .worker w ∈ s.holds)
    (calm : t.violation = none) (rests : t.agenda = []) :
    ∃ u a, (match t.newSignal e .request with
      | (s, .error why) => s.carryOut [.destroy e, .release (.endpoint e)] fun _ => .error why
      | (s, .ok (handle, job)) =>
        match s.carryOut [job, .confirm e handle, .release (.endpoint e)] (status · handle) with
        | (s, .error v) => (s, .error v)
        | (s, .ok (some (.error why))) => (s, .ok (.error (.refused why)))
        | (s, .ok _) => (s.keep (.endpoint e), .ok (.ok e))) = (u, .ok a) ∧ Whole s w dest u a := by
  rcases t.newSignal_cases e .request with ⟨why, refused⟩ | ⟨payload, -, made⟩
  · rcases h.fails idle live kept calm rests (Except.error why) with ⟨u, failed, restored⟩
    simp only [refused]
    exact ⟨u, .error why, failed, restored⟩
  · rcases sending : t.newSend e Signal.messageId payload with ⟨x, handle, job⟩
    rw [sending] at made
    simp only [made]
    rcases h.sends idle live kept calm rests payload sending with
      ⟨u, o, sent, ⟨why, rfl, restored⟩ | ⟨fine, same⟩⟩
    · rw [sent]
      exact ⟨u, .error (.refused why), rfl, restored⟩
    · refine ⟨u.keep (.endpoint e), .ok e, ?_, ?_, ?_⟩
      · rw [sent]
        rcases o with _ | why | _
        · rfl
        · exact absurd rfl (fine why)
        · rfl
      · rw [lookUp_snd, keep_findEndpoint?, same.findEndpoint? h.found]
      · intro e' before
        rw [lookUp_snd, unknown] at before
        cases before

/-- Whatever becomes of its lanes, a new endpoint stands beside the network. -/
theorem Begun.founded {address : WorkerAddress} {done : Except WireupError Unit}
    (h : Begun s w address t e done) (books : s.workers.get? w = some wk) :
    Founded s w wk address.uuid e t ∧ t.agenda = s.agenda ∧ t.violation = s.violation := by
  rcases h.opened with ⟨u, opened, lanes⟩
  rcases Founded.openEndpoint books h.fresh address.name with ⟨founded, ep, here, empty⟩
  have opening := openEndpoint_quiet s w address.uuid address.name
  rw [opened] at founded here opening
  have planned : ((u.workers.get? w).map fun w => w.plan.lanes).getD [] = wk.plan.lanes := by
    rw [founded.enlisted]
    rfl
  have vacant : ∀ ep', u.endpoints.get? e = some ep' → ∀ lane ∈ wk.plan.lanes, ∀ category,
      wk.plan.shares lane category = true → ep'.slots.get category = none := by
    intro ep' here' lane _ category _
    cases here.symm.trans here'
    rw [empty]
    cases category <;> rfl
  have furnished := founded.openLanes address.entries (fun _ planned => planned)
    (List.Nodup.filter _ (by decide)) vacant
  have furnishing := opening.trans (openLanes_quiet u e address.entries wk.plan.lanes)
  rw [planned] at lanes
  rw [lanes] at furnished furnishing
  exact ⟨furnished, furnishing.agenda, furnishing.violation⟩

/-- Creating an endpoint always answers, and is done as a whole or not at all. -/
theorem createEndpoint_atomic (h : Reachable (fun _ => True) s) (live : s.workers.contains w = true)
    (address : WorkerAddress) :
    ∃ t a, s.createEndpoint w address = (t, .ok a) ∧ Whole s w address.uuid t a := by
  rcases leads_of_reachable (fun _ _ => .inl trivial) h with ⟨process, leads⟩
  have minded : Minded s := (Minded.initial process).moves leads.moves
  rcases leads.rested with ⟨fit, idle, calm⟩
  have kept := minded.anchored.worker idle live
  rcases Table.contains_iff.1 live with ⟨wk, books⟩
  cases known : s.findEndpoint? w address.uuid with
  | some e =>
    refine ⟨s.keep (.endpoint e), .ok e, ?_, ?_, ?_⟩
    · simp only [createEndpoint, known]
    · rw [lookUp_snd, keep_findEndpoint?, known]
    · intro e' before
      rw [lookUp_snd, known] at before
      exact (Option.some.inj before).symm
  | none =>
    unfold createEndpoint
    simp only [known]
    cases opened : s.openEndpoint w address.uuid address.name with
    | mk t e =>
      cases lanes : t.openLanes e address.entries
          (((t.workers.get? w).map fun w => w.plan.lanes).getD []) with
      | mk v done =>
        rcases Begun.founded ⟨known, t, opened, lanes⟩ books with ⟨founded, rests, calm'⟩
        have rests := rests.trans idle
        have calm := calm'.trans calm
        dsimp only
        cases done with
        | error why =>
          rcases founded.fails idle fit.sound.live kept calm rests (Except.error why) with
            ⟨u, failed, restored⟩
          exact ⟨u, .error why, failed, restored⟩
        | ok _ => exact founded.concludes known idle fit.sound.live kept calm rests

/-- The first of two workers has an interface for messages that is too narrow for its request. -/
def narrowPair : Option Network :=
  Call.runAll { process := 1 } [.openFabric,
    .openInterface 0
      { capabilities := (Capabilities.connectToInterface.union .bulkMessages).union .pending
        maxBulk := 8, credits := 1 },
    Call.pairInterface .connectToLink 1,
    Call.pairInterface .connectToInterface 1, Call.pairInterface .connectToLink 1,
    Call.pairWorker 1 0 1, Call.pairWorker 2 2 3]

/-- The address of the worker of a pair with a uuid, whose interfaces have the two numbers. -/
def pairAddress (uuid direct paired : UInt64) : WorkerAddress where
  uuid := uuid
  name := "worker"
  entries := [⟨"direct", "0", Bytes.word 1, Bytes.word direct⟩,
    ⟨"paired", "0", Bytes.word 1, Bytes.word paired⟩]

/-- The request of the first worker is refused when both lanes are open already, and all is as it
was before; the second worker creates an endpoint. -/
theorem createEndpoint_atomic_narrow : ∃ s, narrowPair = some s ∧ Reachable (fun _ => True) s ∧
    (∃ t, s.createEndpoint 0 (pairAddress 2 3 4) =
      (t, .ok (.error (.refused (.messageTooLarge 213 8)))) ∧ AsBefore s t) ∧
    ∃ t, s.createEndpoint 1 (pairAddress 1 1 2) = (t, .ok (.ok 0)) ∧
      (t.lookUp 1 1).2 = some 0 := by
  have worked : narrowPair.isSome = true := by decide +kernel
  rcases Option.isSome_iff_exists.1 worked with ⟨s, hs⟩
  have reached : Reachable (fun _ => True) s := .of_runAll (fun _ _ => trivial) hs
  have workers : (narrowPair.map fun s => s.workers.contains 0 && s.workers.contains 1) =
      some true := by decide +kernel
  have refused : (narrowPair.bind fun s => (s.createEndpoint 0 (pairAddress 2 3 4)).2.toOption) =
      some (.error (.refused (.messageTooLarge 213 8))) := by decide +kernel
  have answered : (narrowPair.bind fun s => (s.createEndpoint 1 (pairAddress 1 1 2)).2.toOption) =
      some (.ok 0) := by decide +kernel
  rw [hs] at workers refused answered
  simp only [Option.map_some, Option.some.injEq, Bool.and_eq_true] at workers
  rw [Option.bind_some] at refused answered
  rcases createEndpoint_atomic reached workers.1 (pairAddress 2 3 4) with ⟨t, a, ran, whole⟩
  rcases createEndpoint_atomic reached workers.2 (pairAddress 1 1 2) with ⟨u, b, ran', whole'⟩
  rw [ran] at refused
  rw [ran'] at answered
  cases refused
  cases answered
  exact ⟨s, hs, reached, ⟨t, ran, whole⟩, u, ran', whole'.1⟩

end Wiring.Network
