import Mathlib
import Wiring.Proofs.Activity
import Wiring.Proofs.Call

/-!
# Runs are made of moves

Between operations a network is at rest. Every permitted operation that meets no violation is done
by moves and leaves the network at rest again, so that what all moves keep holds in every state
that a run reaches.
-/
namespace Wiring

namespace Network

variable {s t u : Network} {wild : Prop} {α : Type}

/-- Nothing is left to do. -/
structure Rested (wild : Prop) (s : Network) : Prop where
  fit : Fit wild s
  idle : s.agenda = []
  calm : s.violation = none

/-- An operation is done by moves and leaves the network at rest. -/
structure Leads (wild : Prop) (s t : Network) : Prop where
  moves : Moves wild s t
  rested : Rested wild t

theorem Rested.refl (h : Rested wild s) : Leads wild s s := ⟨.refl, h⟩

theorem Leads.trans (h : Leads wild s t) (g : Leads wild t u) :
    Leads wild s u := ⟨h.moves.trans g.moves, g.rested⟩

/-- Moves that leave no work. -/
theorem Rested.leads (h : Rested wild s) (g : Moves wild s t) (idle : t.agenda = [])
    (calm : t.violation = none) : Leads wild s t := by
  refine ⟨g, ⟨h.fit.sound.moves g, .inr fun r hr => ?_⟩, idle, calm⟩
  rw [idle] at hr
  cases hr

theorem Rested.quiet (h : Rested wild s) (g : Moves wild s t) (q : Quiet s t) :
    Leads wild s t := h.leads g (q.agenda.trans h.idle) (q.violation.trans h.calm)

theorem Rested.aside (h : Rested wild s) (g : Aside s t) (calm : t.violation = s.violation) :
    Leads wild s t := h.leads (Moves.aside g) (g.agenda.trans h.idle) (calm.trans h.calm)

/-- Work that is put on the empty agenda and done. -/
theorem Rested.settled (h : Rested wild s) (g : Moves wild s t)
    {v : Network} (idle : v.agenda = []) (grows : Grows v t) {result : Network → α} {a : α}
    (ran : t.settle result = (u, .ok a)) : Moves wild t u ∧ Rested wild u := by
  obtain ⟨rfl, calm, idle', -⟩ := settle_ok ran
  have fit : Fit wild t := h.fit.start g idle grows (work_violation calm)
  obtain ⟨moves, fit⟩ := fit.work calm
  exact ⟨moves, fit, idle', calm⟩

theorem Rested.settle (h : Rested wild s) (g : Moves wild s t)
    {v : Network} (idle : v.agenda = []) (grows : Grows v t) {result : Network → α} {a : α}
    (ran : t.settle result = (u, .ok a)) : Leads wild s u := by
  obtain ⟨moves, rested⟩ := h.settled g idle grows ran
  exact ⟨g.trans moves, rested⟩

/-- Work that an operation carries out at once. -/
theorem Rested.carriedOut (h : Rested wild s) {jobs : List Job} (idle : t.agenda = [])
    (g : Moves wild s (t.push jobs))
    (grows : Grows { t with tally := 0 } (push { t with tally := 0 } jobs))
    {result : Network → α} {a : α} (ran : t.carryOut jobs result = (u, .ok a)) :
    Moves wild (t.push jobs) u ∧ Rested wild u := by
  have reset : Aside (t.push jobs) (push { t with tally := 0 } jobs) := { Aside.refl _ with }
  obtain ⟨moves, rested⟩ :=
    h.settled (g.trans (Moves.aside reset)) (v := { t with tally := 0 }) idle grows ran
  exact ⟨(Moves.aside reset).trans moves, rested⟩

theorem Rested.carryOut (h : Rested wild s) {jobs : List Job} (idle : t.agenda = [])
    (g : Moves wild s (t.push jobs))
    (grows : Grows { t with tally := 0 } (push { t with tally := 0 } jobs))
    {result : Network → α} {a : α} (ran : t.carryOut jobs result = (u, .ok a)) :
    Leads wild s u := by
  obtain ⟨moves, rested⟩ := h.carriedOut idle g grows ran
  exact ⟨g.trans moves, rested⟩

/-- Work that has no request in hand may be put on the agenda, and releases of what lives. -/
def Plannable (s : Network) (jobs : List Job) : Prop :=
  ∀ j ∈ jobs, (j.isIdle = true ∧ j.turn? = none ∧ ∀ n, j ≠ .recount n) ∨
    ∃ ref, j = .release ref ∧ s.isLive ref = true

theorem Plannable.moves {jobs : List Job} (h : Plannable s jobs) : Moves wild s (s.push jobs) :=
  Moves.push fun j hj => (h j hj).imp_left fun ⟨idle, turn, _⟩ => ⟨idle, turn⟩

theorem Plannable.grows {jobs : List Job} (h : Plannable s jobs) :
    Grows { s with tally := 0 } (push { s with tally := 0 } jobs) := by
  refine .push fun j hj => ?_
  obtain ⟨idle, -, count⟩ | ⟨ref, rfl, -⟩ := h j hj
  · cases j with
    | recount n => exact absurd rfl (count n)
    | discard | attempt | conclude | add => cases idle
    | _ => trivial
  · trivial

theorem Rested.plan (h : Rested wild s) {jobs : List Job} (plans : Plannable s jobs)
    {result : Network → α} {a : α} (ran : s.carryOut jobs result = (u, .ok a)) :
    Leads wild s u := h.carryOut h.idle plans.moves plans.grows ran

theorem Rested.plan_one (h : Rested wild s) {j : Job} (idle : j.isIdle = true)
    (turn : j.turn? = none) (count : ∀ n, j ≠ .recount n) {result : Network → α} {a : α}
    (ran : s.carryOut [j] result = (u, .ok a)) : Leads wild s u := by
  refine h.plan (fun k hk => ?_) ran
  cases List.mem_singleton.1 hk
  exact .inl ⟨idle, turn, count⟩

/-! ## Holds -/

theorem keep_moves (s : Network) (ref : Ref) : Moves wild s (s.keep ref) := by
  unfold keep
  split
  · rename_i live
    exact Moves.hold (.keep ref live)
  · exact .refl

theorem keep_quiet (s : Network) (ref : Ref) : Quiet s (s.keep ref) := by
  unfold keep
  split <;> exact ⟨rfl, rfl, rfl⟩

theorem Rested.keep (h : Rested wild s) (ref : Ref) : Leads wild s (s.keep ref) :=
  h.quiet (keep_moves s ref) (keep_quiet s ref)

theorem Rested.drop (h : Rested wild s) {ref : Ref} (ran : s.drop ref = (u, .ok ())) :
    Leads wild s u := h.settle (letGo_moves s ref) h.idle (letGo_grows s ref) ran

/-! ## Opening -/

theorem Rested.openFabric (h : Rested wild s) : Leads wild s s.openFabric.1 :=
  h.aside { Aside.refl s with } rfl

theorem openInterface_aside (s : Network) (fabrics : Table Fabric) (i : Interface) :
    Aside s { s with fabrics, interfaces := s.interfaces.push i } := by
  refine { Aside.refl s with interfaces := fun k hk => ?_ }
  rw [Table.contains_push, hk, Bool.or_true]

theorem Rested.openInterface (h : Rested wild s) (fabric : FabricId)
    (settings : InterfaceSettings) : Leads wild s (s.openInterface fabric settings).1 := by
  have opened := h.aside (s.openInterface_aside
    (s.fabrics.modify fabric fun f =>
      { f with opened := ((s.fabrics.get? fabric).map Fabric.opened).getD 0 + 1 })
    { fabric, number := UInt64.ofNat (((s.fabrics.get? fabric).map Fabric.opened).getD 0 + 1),
      settings }) rfl
  exact opened.trans (opened.rested.keep (.interface s.interfaces.next))

/-! ## Links -/

theorem LinkOpened.keep {l : LinkId} (opened : LinkOpened s u l) (h : Rested wild s)
    (q : Quiet s u) : Leads wild s (u.keep (.link l)) := by
  have led : Leads wild s u := h.quiet opened.moves q
  exact led.trans (led.rested.keep _)

theorem Rested.createLink (h : Rested wild s) (i : InterfaceId) :
    Leads wild s (s.createLink i).1 := by
  unfold Network.createLink
  have q := openLink_quiet s i
  obtain ⟨why, hu⟩ | ⟨u, l, opened, hu⟩ := s.openLink_cases i
  · rw [hu]
    exact h.refl
  · rw [hu] at q ⊢
    exact opened.keep h q

theorem Rested.createConnectedLink (h : Rested wild s) (i : InterfaceId)
    (device address : Bytes) : Leads wild s (s.createConnectedLink i device address).1 := by
  unfold Network.createConnectedLink
  have q := openConnectedLink_quiet s i device address
  obtain ⟨why, hu⟩ | ⟨u, l, opened, hu⟩ := s.openConnectedLink_cases i device address
  · rw [hu]
    exact h.refl
  · rw [hu] at q ⊢
    exact opened.keep h q

theorem Rested.createAuxiliary (h : Rested wild s) (w : WorkerId) (peer : String)
    (entries : List AddressEntry) (scorer : Scorer) :
    Leads wild s (s.createAuxiliary w peer entries scorer).1 := by
  unfold Network.createAuxiliary
  split
  · exact h.refl
  · rename_i wk here
    have q := openAuxiliary_quiet s wk peer entries scorer
    obtain ⟨why, hu⟩ | ⟨u, r, l, opened, hu⟩ := s.openAuxiliary_cases wk peer entries scorer
    · simp only [hu]
      exact h.refl
    · rw [hu] at q
      simp only [hu]
      exact opened.keep h q

theorem sendShort_quiet (s : Network) (l : LinkId) (messageId : UInt8) (header : UInt64)
    (payload : Bytes) : Quiet s (s.sendShort l messageId header payload).1 := by
  unfold sendShort
  split
  · exact .refl s
  · exact sendWithin_quiet s l _ _ messageId _ none

/-- A send that nobody waits for. -/
theorem Rested.sendOver (h : Rested wild s) (c : Carrier) (messageId : UInt8)
    (payload : Bytes) {o : Option Outcome} (sent : s.sendOver c messageId payload none = (u, o)) :
    Leads wild s u ∧ (o = none → u = s ∧ ∃ x, c = .stub x) := by
  have q := sendOver_quiet s c messageId payload none
  obtain ⟨-, hx, hu⟩ | ⟨why, hu⟩ | ⟨l, dest, v, ha, -, hu⟩ :=
    s.sendOver_cases c messageId payload none
  · cases hu.symm.trans sent
    exact ⟨h.refl, fun _ => ⟨rfl, hx⟩⟩
  · cases hu.symm.trans sent
    exact ⟨h.refl, fun h => by cases h⟩
  · rw [hu] at q
    cases hu.symm.trans sent
    exact ⟨h.quiet (Moves.aside (ha.trans (.note v rfl))) q, fun h => by cases h⟩

theorem Rested.operate (h : Rested wild s) (c : Carrier) (op : Operation)
    {a : Except Refusal (Option Nat)} (ran : s.operate c op = (u, .ok a)) :
    Leads wild s u := by
  have switching {x : StubId} {result : Network → Except Refusal (Option Nat)}
      (ran : s.carryOut [.switchover x] result = (u, .ok a)) : Leads wild s u :=
    h.plan_one rfl rfl (by simp) ran
  cases op with
  | short messageId header payload =>
    cases c with
    | link l =>
      simp only [Network.operate] at ran
      cases ran
      exact h.quiet (Moves.aside (.sendShort s l messageId header payload))
        (sendShort_quiet s l messageId header payload)
    | stub x => exact switching ran
  | other name =>
    cases c with
    | link l =>
      cases ran
      exact h.refl
    | stub x => exact switching ran
  | bulk messageId payload =>
    simp only [Network.operate] at ran
    cases hs : s.sendOver c messageId payload none with
    | mk v o =>
      obtain ⟨led, off⟩ := h.sendOver c messageId payload hs
      rw [hs] at ran
      cases o with
      | some o =>
        simp only at ran
        cases ran
        exact led
      | none =>
        obtain ⟨rfl, x, rfl⟩ := off rfl
        exact switching ran

/-! ## Requests of the application -/

/-- What the application takes in hand, it may offer, keep or let go. -/
structure Taken (wild : Prop) (s t : Network) (r : Request) : Prop where
  moves : Moves wild s (t.push [.discard r])
  quiet : Quiet s t
  sober : wild ∨ r.send? = none

theorem Rested.takeHeld (h : Rested wild s) {id : HeldId} {r : Request}
    (here : s.held.get? id = some r) :
    Taken wild s { s with held := s.held.erase id } r :=
  ⟨Moves.pass (.takeHeld id r here), ⟨rfl, rfl, rfl⟩,
    h.fit.sound.lent.sober.imp_right fun h => h.1 id r here⟩

theorem Rested.takeRequest (h : Rested wild s) (source : Source) :
    s.takeRequest source = (s, none) ∨
    ∃ t r, s.takeRequest source = (t, some r) ∧ Taken wild s t r := by
  cases source with
  | fresh c => exact .inr ⟨s, .scripted c, rfl, Moves.pass (.bring c), .refl s, .inr rfl⟩
  | held id =>
    cases here : s.held.get? id with
    | none => exact .inl (by simp [Network.takeRequest, here, Table.erase_of_none here])
    | some r => exact .inr ⟨_, r, by simp [Network.takeRequest, here], h.takeHeld here⟩

/-- A request in hand is let go. -/
theorem discardTop_moves (s : Network) {r : Request} (sober : wild ∨ r.send? = none) :
    Moves wild (s.push [.discard r]) (s.discard r) := by
  obtain ⟨marks, plain, h⟩ := s.discard_eq r
  rw [h]
  refine (Moves.aside (Aside.noteAll _ plain)).trans (Moves.pass ?_)
  exact .letGo r s.agenda rfl sober

theorem keepTop_moves (s : Network) {r : Request} (sober : wild ∨ r.send? = none) :
    Moves wild (s.push [.discard r]) (s.keepRequest r).1 :=
  Moves.pass (.putHeld r s.agenda rfl sober)

theorem Taken.keep (h : Taken wild s t r) (hs : Rested wild s) :
    Leads wild s (t.keepRequest r).1 :=
  hs.quiet (h.moves.trans (keepTop_moves t h.sober)) (h.quiet.trans ⟨rfl, rfl, rfl⟩)

theorem Taken.discard (h : Taken wild s t r) (hs : Rested wild s) :
    Leads wild s (t.discard r) :=
  hs.quiet (h.moves.trans (discardTop_moves t h.sober)) (h.quiet.trans (discard_quiet t r))

theorem Rested.hold (h : Rested wild s) (source : Source) :
    Leads wild s (s.hold source).1 := by
  unfold Network.hold
  obtain ht | ⟨t, r, ht, taken⟩ := h.takeRequest source
  · rw [ht]
    exact h.refl
  · rw [ht]
    exact taken.keep h

theorem Taken.offer (h : Taken wild s t r) (c : Carrier) :
    Moves wild s (t.push [.add c r]) :=
  h.moves.trans (Moves.pass (.offer c r t.agenda rfl h.sober))

theorem Rested.offerOnce (h : Rested wild s) (c : Carrier) (source : Source) (kept : Bool) :
    Leads wild s (s.offerOnce c source kept).1 := by
  unfold Network.offerOnce
  obtain ht | ⟨t, r, ht, taken⟩ := h.takeRequest source
  · simp only [ht]
    exact h.refl
  · simp only [ht]
    have q := offer_quiet t c r
    have offered := taken.offer c
    have passed : Passed wild (t.push [.add c r]) c r (t.offer c r) :=
      offer_passed (s := t.push [.add c r]) rfl
    split
    · rename_i u hu
      rw [hu] at q passed
      exact h.quiet (offered.trans passed) (taken.quiet.trans q)
    · rename_i u back hu
      rw [hu] at q passed
      obtain ⟨moves, send⟩ := passed
      have sober : wild ∨ back.send? = none := taken.sober.imp_right send.trans
      have refused : Taken wild s u back :=
        ⟨(offered.trans moves).trans (Moves.pass (.refuse c back u.agenda rfl sober)),
          taken.quiet.trans q, sober⟩
      split
      · exact refused.keep h
      · exact refused.discard h

theorem Rested.addPending (h : Rested wild s) (c : Carrier) (source : Source)
    (ran : s.addPending c source = (u, .ok ())) : Leads wild s u := by
  unfold Network.addPending at ran
  obtain ht | ⟨t, r, ht, taken⟩ := h.takeRequest source
  · simp only [ht] at ran
    cases ran
    exact h.refl
  · simp only [ht] at ran
    exact h.carryOut (taken.quiet.agenda.trans h.idle) (taken.offer c)
      (.plan trivial) ran

/-- The application takes over what is queued on a link. -/
theorem keepQueue_moves (hw : wild) {l : LinkId} {lk : Link} (here : s.links.get? l = some lk) :
    Moves wild s
      (keepRequests { s with links := s.links.set l { lk with queue := [] } } lk.queue).1 := by
  generalize hq : lk.queue = queue
  induction queue generalizing s lk with
  | nil =>
    have : s.links.set l { lk with queue := [] } = s.links := by
      rw [← hq]
      exact Table.set_get? here
    simp only [keepRequests, this]
    exact .refl
  | cons r queue ih =>
    have taken : Moves wild s { s with
        links := s.links.set l { lk with queue }, held := s.held.push r } :=
      (Moves.pass (.take l lk r queue here hq)).trans (keepTop_moves
        { s with links := s.links.set l { lk with queue } } (.inl hw))
    have here' : (s.links.set l { lk with queue }).get? l = some { lk with queue } := by
      rw [Table.get?_set_of here, if_pos rfl]
    have rest := ih (s := { s with
      links := s.links.set l { lk with queue }, held := s.held.push r }) here' rfl
    simp only [Table.set_set] at rest
    exact taken.trans rest

theorem keepRequests_quiet (s : Network) (rs : List Request) :
    Quiet s (s.keepRequests rs).1 := by
  induction rs generalizing s with
  | nil => exact .refl s
  | cons r rs ih => exact .trans (t := (s.keepRequest r).1) ⟨rfl, rfl, rfl⟩ (ih _)

theorem Rested.purgeQueue (h : Rested wild s) (c : Carrier) (kept : Bool)
    (allowed : wild ∨ kept = false) {a : Nat × List HeldId}
    (ran : s.purgeQueue c kept = (u, .ok a)) : Leads wild s u := by
  unfold Network.purgeQueue at ran
  cases c with
  | stub x => exact h.plan_one rfl rfl (by simp) ran
  | link l =>
    simp only [drain] at ran
    cases here : s.links.get? l with
    | none =>
      simp only [here, keepRequests, List.foldl_nil] at ran
      cases kept <;> cases ran <;> exact h.refl
    | some lk =>
      simp only [here] at ran
      have taken : Quiet s { s with links := s.links.set l { lk with queue := [] } } :=
        ⟨rfl, rfl, rfl⟩
      cases kept with
      | true =>
        simp only [if_true] at ran
        cases ran
        exact h.quiet (keepQueue_moves (allowed.resolve_right (by simp)) here)
          (taken.trans (keepRequests_quiet _ _))
      | false =>
        simp only [Bool.false_eq_true, if_false] at ran
        cases ran
        exact h.quiet (cancelQueue_moves here) (taken.trans (.foldl cancel_quiet _ _))

theorem Rested.attemptHeld (h : Rested wild s) (id : HeldId) {a : Outcome}
    (ran : s.attemptHeld id = (u, .ok a)) : Leads wild s u := by
  unfold Network.attemptHeld at ran
  cases here : s.held.get? id with
  | none =>
    simp only [here] at ran
    cases ran
    exact h.refl
  | some r =>
    simp only [here] at ran
    obtain ⟨moves, quiet, sober⟩ := h.takeHeld here
    have lent : Moves wild s
        (push { s with held := s.held.erase id } [.attempt r (.application id)]) := by
      refine moves.trans (Moves.pass (.lend r id s.agenda rfl ?_ ?_ (fun j hj => ?_) sober))
      · simpa [push] using Table.lt_next_of_get? here
      · simp [push, Table.get?_erase]
      · rw [h.idle] at hj
        cases hj
    exact h.carryOut (quiet.agenda.trans h.idle) lent
      (.plan trivial) ran

theorem Rested.cancelHeld (h : Rested wild s) (id : HeldId) :
    Leads wild s (s.cancelHeld id) := by
  unfold Network.cancelHeld
  cases here : s.held.get? id with
  | none => exact h.refl
  | some r =>
    obtain ⟨moves, quiet, -⟩ := h.takeHeld here
    exact h.quiet (moves.trans (cancel_moves rfl rfl rfl rfl rfl fun _ _ _ h => by cases h))
      (quiet.trans (cancel_quiet _ r))

theorem Rested.discardHeld (h : Rested wild s) (id : HeldId) :
    Leads wild s (s.discardHeld id) := by
  unfold Network.discardHeld
  cases here : s.held.get? id with
  | none => exact h.refl
  | some r => exact (h.takeHeld here).discard h

/-! ## Registries -/

theorem Rested.openRegistry (h : Rested wild s) : Leads wild s s.openRegistry.1 := by
  refine h.aside { Aside.refl s with
    registriesNext := ?_, registered := fun r x _ => ?_, unregistered := fun r x => ?_ } rfl
  · simp [Network.openRegistry, Table.next_push]
  all_goals
    simp only [Network.openRegistry, registrations_eq, registered, Table.get?_push]
    split
    · subst r
      simp
    · simp

theorem Rested.openCallback (h : Rested wild s) (label : String) (registry : RegistryId)
    (script : List (List Action)) :
    Leads wild s (s.openCallback label registry script).1 := by
  have opened : Leads wild s { s with
      callbacks := s.callbacks.push { name := label, registry, script }
      labels := (label, s.callbacks.next) :: s.labels.filter fun entry => entry.1 != label } := by
    refine h.aside { Aside.refl s with callbacks := fun k hk => ?_ } rfl
    rw [Table.contains_push, hk, Bool.or_true]
  exact opened.trans (opened.rested.keep _)

/-! ## Workers -/

/-- Installing handlers changes nothing but interfaces. -/
theorem foldl_setHandler (s : Network) (messageId : UInt8) (h : Handler) (rs : List Resource) :
    ∃ interfaces : Table Interface,
      (∀ i, s.interfaces.contains i = true → interfaces.contains i = true) ∧
      rs.foldl (fun s r => s.setHandler r.interface messageId h) s = { s with interfaces } := by
  induction rs generalizing s with
  | nil => exact ⟨s.interfaces, fun _ hi => hi, rfl⟩
  | cons r rs ih =>
    obtain ⟨interfaces, grows, hr⟩ := ih (s.setHandler r.interface messageId h)
    refine ⟨interfaces, fun i hi => grows i ?_, hr⟩
    simpa [setHandler] using hi

theorem Rested.record (h : Rested wild s) (i : InterfaceId) (messageId : UInt8)
    (handler : Handler) : Leads wild s (s.setHandler i messageId handler) :=
  h.aside (.modifyInterface s i _) rfl

theorem Rested.openWorker (h : Rested wild s) (settings : WorkerSettings) (plan : Plan)
    {resources : List Resource}
    (live : ∀ r ∈ resources, s.interfaces.contains r.interface = true) :
    Leads wild s (s.openWorker settings plan resources).1 := by
  unfold Network.openWorker
  simp only [setWorkerHandler, Table.get?_push, if_true]
  generalize settings.uuid.getD (generatedUuid s.process s.generated) = uuid
  generalize (if settings.uuid.isNone = true then s.generated + 1 else s.generated) = generated
  let worker : Worker :=
    { uuid, settings, plan, resources := resources.take maxResources,
      registry := s.registries.next }
  obtain ⟨interfaces, grows, handled⟩ := foldl_setHandler
    { s with generated, registries := s.registries.push [], workers := s.workers.push worker }
    Signal.messageId (.signals s.workers.next) worker.resources
  rw [handled]
  have opened : Wire s _ := .openWorker worker rfl ⟨rfl, rfl⟩ fun r hr =>
    live r (List.mem_of_mem_take hr)
  have added : Aside { s with
      registries := s.registries.push [], workers := s.workers.push worker
      holds := .worker s.workers.next :: s.holds } { s with
      registries := s.registries.push [], workers := s.workers.push worker
      holds := .worker s.workers.next :: s.holds, generated, interfaces } :=
    { Aside.refl _ with interfaces := grows }
  refine h.leads ((Moves.wire opened).trans (Moves.aside ?_)) ?_ ?_
  · unfold Network.keep
    rw [if_pos (by simp [isLive, Table.contains_push])]
    exact added
  · exact (keep_quiet _ _).agenda.trans h.idle
  · exact (keep_quiet _ _).violation.trans h.calm

theorem Rested.applyPosted (h : Rested wild s) (w : WorkerId) :
    Leads wild s (s.applyPosted w).1 :=
  h.quiet (applyPosted_moves h.fit.sound w) (applyPosted_quiet s w)

theorem Rested.post (h : Rested wild s) (w : WorkerId) (event : RemoteConnected) :
    Leads wild s (s.post w event).1 :=
  h.aside (.modifyWorker s w fun _ => rfl) rfl

theorem Rested.lookUp (h : Rested wild s) (w : WorkerId) (peer : UInt64) :
    Leads wild s (s.lookUp w peer).1 := by
  unfold Network.lookUp
  split
  · exact h.keep _
  · exact h.refl

theorem findEndpoint_live (hs : Live s) {w : WorkerId} {peer : UInt64} {e : EndpointId}
    (h : s.findEndpoint? w peer = some e) : s.isLive (.endpoint e) = true := by
  obtain ⟨wk, hw, he⟩ := Option.bind_eq_some_iff.1 h
  exact isLive_of_directory hs hw (lookup_mem he)

theorem plannable_close (live : Live s) (w : WorkerId) : Plannable s
    ((((s.workers.get? w).map fun w => w.directory.map Prod.snd).getD []).flatMap
      fun e => [.destroy e, .release (.endpoint e)]) := by
  intro j hj
  obtain ⟨e, he, hj⟩ := List.mem_flatMap.1 hj
  simp only [List.mem_cons, List.not_mem_nil, or_false] at hj
  obtain rfl | rfl := hj
  · exact .inl ⟨rfl, rfl, by simp⟩
  · refine .inr ⟨_, rfl, ?_⟩
    cases hw : s.workers.get? w with
    | none => simp [hw] at he
    | some wk =>
      simp only [hw, Option.map_some, Option.getD_some, List.mem_map] at he
      obtain ⟨entry, hm, rfl⟩ := he
      exact isLive_of_directory live hw hm

theorem Rested.close (h : Rested wild s) (w : WorkerId)
    (ran : s.close w = (u, .ok ())) : Leads wild s u :=
  h.plan (plannable_close h.fit.sound.live w) ran

/-! ## Endpoints and stubs -/

theorem Rested.sendMessage (h : Rested wild s) {e : EndpointId}
    (live : s.endpoints.contains e = true) (messageId : UInt8) (payload : Bytes) {a : HandleId}
    (ran : s.sendMessage e messageId payload = (u, .ok a)) : Leads wild s u := by
  have sent : Moves wild s _ := newSend_moves live messageId payload fun _ => h.idle
  exact h.carryOut (t := (s.newSend e messageId payload).1) h.idle sent
    (.plan trivial) ran

theorem Rested.remoteConnected (h : Rested wild s) {slot : Slot}
    (live : (slot.all fun c => s.isLive c.ref) = true)
    (ran : s.remoteConnected slot = (u, .ok ())) : Leads wild s u := by
  unfold Network.remoteConnected at ran
  split at ran
  · rename_i x
    cases ran
    exact h.quiet (Moves.wire (.markRemote x live)) ⟨rfl, rfl, rfl⟩
  · cases ran

/-- The stubs of an endpoint live. -/
theorem stubJobs_cases (hs : Live s) {e : EndpointId} {ep : Endpoint}
    (here : s.endpoints.get? e = some ep) :
    let stubs := (ep.slots.toList.filterMap fun
      | some (.stub t) => some t
      | _ => none).eraseDups
    ∀ j : Job, j ∈ stubs.flatMap (fun t => [.switchover t]) ++
        stubs.map (fun t => .release (.stub t)) →
      (∃ x, j = .switchover x) ∨ ∃ x, j = .release (.stub x) ∧ s.isLive (.stub x) = true := by
  intro stubs j hj
  obtain hj | hj := List.mem_append.1 hj
  · obtain ⟨x, -, hj⟩ := List.mem_flatMap.1 hj
    exact .inl ⟨x, List.mem_singleton.1 hj⟩
  · obtain ⟨x, hx, rfl⟩ := List.mem_map.1 hj
    refine .inr ⟨x, rfl, hs _ (isHeld_of_owned (isOwned_iff.2 (.inr (.inl ?_))))⟩
    rw [List.mem_eraseDups, List.mem_filterMap] at hx
    obtain ⟨slot, hs, hx⟩ := hx
    refine ⟨e, ep, .stub x, here, ?_, rfl⟩
    split at hx
    · cases hx
      exact hs
    · cases hx

/-- An endpoint tries to switch its stubs over, which live. -/
theorem progressEndpoint_cases (hs : Live s) (e : EndpointId) :
    s.progressEndpoint e = (s, .ok 0) ∨
    ∃ jobs, s.progressEndpoint e = s.carryOut jobs tally ∧ ∀ j ∈ jobs,
      (∃ x, j = .switchover x) ∨ ∃ x, j = .release (.stub x) ∧ s.isLive (.stub x) = true := by
  unfold progressEndpoint
  cases he : s.endpoints.get? e with
  | none => exact .inl rfl
  | some ep => exact .inr ⟨_, rfl, stubJobs_cases hs he⟩

theorem plannable_switchovers {jobs : List Job} (h : ∀ j ∈ jobs,
      (∃ x, j = .switchover x) ∨ ∃ x, j = .release (.stub x) ∧ s.isLive (.stub x) = true) :
    Plannable s jobs := by
  intro j hj
  obtain ⟨x, rfl⟩ | ⟨x, rfl, live⟩ := h j hj
  · exact .inl ⟨rfl, rfl, by simp⟩
  · exact .inr ⟨_, rfl, live⟩

theorem Rested.progressEndpoint (h : Rested wild s) (e : EndpointId) {a : Nat}
    (ran : s.progressEndpoint e = (u, .ok a)) : Leads wild s u := by
  obtain none | ⟨jobs, work, planned⟩ := progressEndpoint_cases h.fit.sound.live e
  · rw [none] at ran
    cases ran
    exact h.refl
  · exact h.plan (plannable_switchovers planned) (work.symm.trans ran)

/-- A new endpoint of a worker, whose lanes were opened as far as they could be. -/
structure Begun (s : Network) (w : WorkerId) (address : WorkerAddress) (v : Network) (e : EndpointId)
    (done : Except WireupError Unit) : Prop where
  fresh : s.findEndpoint? w address.uuid = none
  opened : ∃ t, s.openEndpoint w address.uuid address.name = (t, e) ∧
    t.openLanes e address.entries (((t.workers.get? w).map fun w => w.plan.lanes).getD []) =
      (v, done)

/-- What the creation of an endpoint comes to, if it answers. -/
inductive Created (s : Network) (w : WorkerId) (address : WorkerAddress) (u : Network)
    (a : Except WireupError EndpointId) : Prop
  /-- The worker has an endpoint to the peer already. -/
  | found (e : EndpointId) (known : s.findEndpoint? w address.uuid = some e)
      (kept : u = s.keep (.endpoint e))
  /-- The new endpoint cannot make its request and is destroyed. -/
  | failed (v : Network) (e : EndpointId) (done : Except WireupError Unit)
      (begun : Begun s w address v e done) (why : WireupError) (answer : a = .error why)
      (ran : v.carryOut [.destroy e, .release (.endpoint e)] (fun _ => a) = (u, .ok a))
  /-- The new endpoint makes its request. -/
  | asked (v t x : Network) (e : EndpointId) (begun : Begun s w address v e (.ok ()))
      (h : HandleId) (job : Job) (made : v.newSignal e .request = (t, .ok (h, job)))
      (o : Option Outcome)
      (ran : t.carryOut [job, .confirm e h, .release (.endpoint e)] (status · h) = (x, .ok o))
      (kept : (u = x ∧ ∃ why, a = .error why) ∨
        (u = x.keep (.endpoint e) ∧ a = .ok e ∧ ∀ why, o ≠ some (.error why)))

theorem createEndpoint_ok {w : WorkerId} {address : WorkerAddress}
    {a : Except WireupError EndpointId} (ran : s.createEndpoint w address = (u, .ok a)) :
    Created s w address u a := by
  have failed {v : Network} {e : EndpointId} {done : Except WireupError Unit} {why : WireupError}
      (begun : Begun s w address v e done)
      (ran : v.carryOut [.destroy e, .release (.endpoint e)]
        (fun _ => (.error why : Except WireupError EndpointId)) = (u, .ok a)) :
      Created s w address u a := by
    obtain ⟨-, -, -, rfl⟩ := settle_ok ran
    exact .failed v e done begun why rfl ran
  unfold createEndpoint at ran
  cases found : s.findEndpoint? w address.uuid with
  | some e =>
    simp only [found] at ran
    cases ran
    exact .found e found rfl
  | none =>
    simp only [found] at ran
    cases opened : s.openEndpoint w address.uuid address.name with
    | mk t e =>
      rw [opened] at ran
      simp only at ran
      cases lanes : t.openLanes e address.entries
          (((t.workers.get? w).map fun w => w.plan.lanes).getD []) with
      | mk v done =>
        have begun : Begun s w address v e done := ⟨found, t, opened, lanes⟩
        rw [lanes] at ran
        cases done with
        | error why => exact failed begun ran
        | ok _ =>
          simp only at ran
          obtain ⟨why, made⟩ | ⟨payload, -, made⟩ := v.newSignal_cases e .request
          · rw [made] at ran
            exact failed begun ran
          · rw [made] at ran
            simp only at ran
            split at ran
            · cases ran
            · rename_i x why asked
              cases ran
              exact .asked v _ _ e begun _ _ made _ asked (.inl ⟨rfl, _, rfl⟩)
            · rename_i x o fine asked
              cases ran
              exact .asked v _ x e begun _ _ made _ asked (.inr ⟨rfl, rfl, fine⟩)

theorem Rested.begun (h : Rested wild s) {w : WorkerId} (live : s.workers.contains w = true)
    {address : WorkerAddress} {v : Network} {e : EndpointId} {done : Except WireupError Unit}
    (begun : Begun s w address v e done) : Leads wild s v ∧ v.endpoints.contains e = true := by
  obtain ⟨fresh, t, opened, lanes⟩ := begun
  obtain ⟨wk, here⟩ := Table.contains_iff.1 live
  obtain ⟨hid, liveEndpoint, -, unsent⟩ :=
    openEndpoint_new h.fit.sound here address.uuid address.name
  have first : Leads wild s (s.openEndpoint w address.uuid address.name).1 :=
    h.quiet (openEndpoint_moves here address.name fresh) (openEndpoint_quiet s w _ _)
  rw [← hid] at liveEndpoint unsent
  rw [opened] at first liveEndpoint unsent
  have sound := first.rested.fit.sound
  generalize ((t.workers.get? w).map fun w => w.plan.lanes).getD [] = planned at lanes
  have furnished : Leads wild t _ := first.rested.quiet
    (openLanes_moves sound address.entries planned unsent) (openLanes_quiet t e address.entries planned)
  have liveEndpoint :=
    (openLanes_contains sound e address.entries planned unsent e).trans liveEndpoint
  rw [lanes] at furnished liveEndpoint
  exact ⟨first.trans furnished, liveEndpoint⟩

/-- A failed endpoint is destroyed. -/
theorem abandon_moves (s : Network) {e : EndpointId} (live : s.endpoints.contains e = true) :
    Moves wild s (s.push [.destroy e, .release (.endpoint e)]) := by
  refine Moves.push fun j hj => ?_
  simp only [List.mem_cons, List.not_mem_nil, or_false] at hj
  obtain rfl | rfl := hj
  · exact .inl ⟨rfl, rfl⟩
  · exact .inr ⟨_, rfl, live⟩

/-- A signal that is made is a send. -/
theorem newSignal_ok {e : EndpointId} {kind : Signal.Kind} {h : HandleId} {job : Job}
    (made : s.newSignal e kind = (t, .ok (h, job))) :
    ∃ payload, s.newSend e Signal.messageId payload = (t, h, job) := by
  obtain ⟨why, failed⟩ | ⟨payload, -, sent⟩ := s.newSignal_cases e kind
  · cases failed.symm.trans made
  · cases sent.symm.trans made
    exact ⟨payload, rfl⟩

/-- An endpoint makes its request, and is to be destroyed if that fails. -/
theorem request_moves {e : EndpointId} (live : s.endpoints.contains e = true) {h : HandleId}
    {job : Job} (made : s.newSignal e .request = (t, .ok (h, job))) :
    Moves wild s (t.push [job, .confirm e h, .release (.endpoint e)]) := by
  obtain ⟨payload, sent⟩ := newSignal_ok made
  cases sent
  let after : List Job := [.confirm e s.handles.next, .release (.endpoint e)]
  have planned : Moves wild s (s.push after) := by
    refine Moves.push fun j hj => ?_
    simp only [after, List.mem_cons, List.not_mem_nil, or_false] at hj
    obtain rfl | rfl := hj
    · exact .inl ⟨rfl, rfl⟩
    · exact .inr ⟨_, rfl, live⟩
  exact planned.trans (newSend_moves (s := s.push after) live Signal.messageId payload
    fun h => absurd rfl h)

/-- The request of a new endpoint is made and worked off. -/
theorem Rested.asked (h : Rested wild s) {e : EndpointId} (live : s.endpoints.contains e = true)
    {handle : HandleId} {job : Job} (made : s.newSignal e .request = (t, .ok (handle, job)))
    {result : Network → α} {a : α}
    (ran : t.carryOut [job, .confirm e handle, .release (.endpoint e)] result = (u, .ok a)) :
    Moves wild (t.push [job, .confirm e handle, .release (.endpoint e)]) u ∧ Leads wild s u := by
  have asking : Moves wild s _ := request_moves live made
  obtain ⟨payload, sent⟩ := newSignal_ok made
  cases sent
  have carried := h.carriedOut (t := (s.newSend e Signal.messageId payload).1) h.idle asking
    (.push fun j hj => by
      simp only [List.mem_cons, List.not_mem_nil, or_false] at hj
      obtain rfl | rfl | rfl := hj <;> trivial) ran
  exact ⟨carried.1, asking.trans carried.1, carried.2⟩

/-- A new endpoint has sent its request, or is destroyed again. -/
theorem Rested.createEndpoint (h : Rested wild s) {w : WorkerId}
    (live : s.workers.contains w = true) (address : WorkerAddress)
    {a : Except WireupError EndpointId} (ran : s.createEndpoint w address = (u, .ok a)) :
    Leads wild s u := by
  cases createEndpoint_ok ran with
  | found e known kept =>
    rw [kept]
    exact h.keep _
  | failed v e done begun why answer ran =>
    obtain ⟨led, live⟩ := h.begun live begun
    refine led.trans (led.rested.carryOut led.rested.idle (abandon_moves v live)
      (.push fun j hj => ?_) ran)
    simp only [List.mem_cons, List.not_mem_nil, or_false] at hj
    obtain rfl | rfl := hj <;> trivial
  | asked v t x e begun handle job made o ran kept =>
    obtain ⟨led, live⟩ := h.begun live begun
    have carried := (led.rested.asked live made ran).2
    obtain ⟨rfl, -⟩ | ⟨rfl, -⟩ := kept
    · exact led.trans carried
    · exact led.trans (carried.trans (carried.rested.keep _))

theorem Rested.connect (h : Rested wild s) (c : Carrier) (device address : Bytes) :
    Leads wild s (s.connect c device address).1 :=
  h.quiet (connect_moves s c device address) (connect_quiet s c device address)

theorem Rested.register (h : Rested wild s) (registry : RegistryId) (c : CallbackId) :
    Leads wild s (s.register registry (.callback c)).1 :=
  h.aside (.registerCallback s registry c) rfl

theorem Rested.unregister (h : Rested wild s) (registry : RegistryId) (c : CallbackId) :
    Leads wild s (s.unregister registry (.callback c)).1 :=
  h.aside (.unregisterCallback s registry c) rfl

/-! ## Runs -/

/-- Every permitted operation that meets no violation is done by moves. -/
theorem Rested.call (h : Rested wild s) {c : Call}
    (allowed : wild ∨ c.takesQueued = false) (permitted : c.Permitted s)
    (ran : c.run s = (u, .ok ())) : Leads wild s u := by
  unfold Call.run at ran
  cases c with
  | openFabric => exact Call.plain_ok ran ▸ h.openFabric
  | openInterface fabric settings => exact Call.plain_ok ran ▸ h.openInterface fabric settings
  | createLink i => exact Call.plain_ok ran ▸ h.createLink i
  | createConnectedLink i device address => exact Call.plain_ok ran ▸ h.createConnectedLink i device address
  | connect c device address => exact Call.plain_ok ran ▸ h.connect c device address
  | offerOnce c source kept => exact Call.plain_ok ran ▸ h.offerOnce c source kept
  | hold source => exact Call.plain_ok ran ▸ h.hold source
  | openRegistry => exact Call.plain_ok ran ▸ h.openRegistry
  | openCallback label registry script => exact Call.plain_ok ran ▸ h.openCallback label registry script
  | register registry c => exact Call.plain_ok ran ▸ h.register registry c
  | unregister registry c => exact Call.plain_ok ran ▸ h.unregister registry c
  | openWorker settings plan resources => exact Call.plain_ok ran ▸ h.openWorker settings plan permitted
  | applyPosted w => exact Call.plain_ok ran ▸ h.applyPosted w
  | post w event => exact Call.plain_ok ran ▸ h.post w event
  | lookUp w peer => exact Call.plain_ok ran ▸ h.lookUp w peer
  | createAuxiliary w peer entries scorer => exact Call.plain_ok ran ▸ h.createAuxiliary w peer entries scorer
  | keep ref =>
    cases ran
    exact h.keep ref
  | record i messageId log forward decode =>
    cases ran
    exact h.record i messageId _
  | cancelHeld id =>
    cases ran
    exact h.cancelHeld id
  | discardHeld id =>
    cases ran
    exact h.discardHeld id
  | drop ref =>
    obtain ⟨a, ran⟩ := Call.unanswered_ok ran
    exact h.drop ran
  | progress i =>
    obtain ⟨a, ran⟩ := Call.unanswered_ok ran
    exact h.plan_one rfl rfl (by simp) ran
  | operate c op =>
    obtain ⟨a, ran⟩ := Call.unanswered_ok ran
    exact h.operate c op ran
  | purgeQueue c kept =>
    obtain ⟨a, ran⟩ := Call.unanswered_ok ran
    exact h.purgeQueue c kept allowed ran
  | attemptHeld id =>
    obtain ⟨a, ran⟩ := Call.unanswered_ok ran
    exact h.attemptHeld id ran
  | dispatchRegistry id =>
    obtain ⟨a, ran⟩ := Call.unanswered_ok ran
    exact h.plan_one rfl rfl (by simp) ran
  | progressOf w =>
    obtain ⟨a, ran⟩ := Call.unanswered_ok ran
    exact h.plan_one rfl rfl (by simp) ran
  | createEndpoint w address =>
    obtain ⟨a, ran⟩ := Call.unanswered_ok ran
    exact h.createEndpoint permitted address ran
  | close w =>
    obtain ⟨a, ran⟩ := Call.unanswered_ok ran
    exact h.close w ran
  | sendMessage e messageId payload =>
    obtain ⟨a, ran⟩ := Call.unanswered_ok ran
    exact h.sendMessage permitted messageId payload ran
  | addPending c source =>
    obtain ⟨a, ran⟩ := Call.unanswered_ok ran
    exact h.addPending c source ran
  | remoteConnected slot =>
    obtain ⟨a, ran⟩ := Call.unanswered_ok ran
    exact h.remoteConnected permitted ran
  | progressEndpoint e =>
    obtain ⟨a, ran⟩ := Call.unanswered_ok ran
    exact h.progressEndpoint e ran
  | destroyEndpoint e =>
    obtain ⟨a, ran⟩ := Call.unanswered_ok ran
    exact h.plan_one rfl rfl (by simp) ran
  | progressStub x =>
    obtain ⟨a, ran⟩ := Call.unanswered_ok ran
    exact h.plan_one rfl rfl (by simp) ran

theorem Rested.run {allowed : Call → Prop} (h : Rested wild s)
    (sober : ∀ c, allowed c → wild ∨ c.takesQueued = false) (run : Run allowed s t) :
    Leads wild s t := by
  induction run with
  | refl => exact h.refl
  | call c before ok permitted ran ih =>
    exact ih.trans (ih.rested.call (sober c ok) permitted ran)

theorem Rested.initial (process : UInt32) : Rested wild { process } :=
  ⟨⟨.initial process, .inr fun r hr => by cases hr⟩, rfl, rfl⟩

/-- Every state that a run reaches is reached by moves, and is at rest. -/
theorem leads_of_reachable {allowed : Call → Prop}
    (sober : ∀ c, allowed c → wild ∨ c.takesQueued = false) (h : Reachable allowed s) :
    ∃ process, Leads wild { process } s := by
  obtain ⟨process, run⟩ := h
  exact ⟨process, (Rested.initial process).run sober run⟩

end Network

end Wiring
