import Mathlib
import Wiring.Proofs.Turnover

/-!
# Endpoints whose lanes were opened

An endpoint gets its lanes when the application creates it, or when a worker welcomes a peer. From
then until it is destroyed its slots are disciplined: they agree with the plan, aliases share with
their lane and with nobody else, and what is in them lives. Slots change by switchovers only, and
what is wired up stays so.
-/
namespace Wiring

namespace Network

variable {s t u : Network} {e : EndpointId} {ep : Endpoint} {w : WorkerId} {wk : Worker}
  {dest : UInt64} {peer : String} {jobs : List Job} {entries : List AddressEntry} {wild : Prop}

/-! ## The slots of an endpoint -/

/-- The slots of an endpoint agree with its plan. -/
structure Disciplined (s : Network) (ep : Endpoint) : Prop where
  filled : ∀ c, ep.slots.get c = none ↔ ep.plan.resource c = none
  shared : ∀ lane ∈ ep.plan.lanes, ∀ c ∈ ep.plan.slotsOf lane, ep.slots.get c = ep.slots.get lane
  apart : ∀ lane ∈ ep.plan.lanes, ∀ lane' ∈ ep.plan.lanes, lane ≠ lane' →
    ∀ c ∈ ep.plan.slotsOf lane, ∀ c' ∈ ep.plan.slotsOf lane', ep.slots.get c ≠ ep.slots.get c'
  wired : isWiredUp ep = true ↔
    ∀ c, ep.plan.resource c ≠ none → ∃ l, ep.slots.get c = some (.link l)
  alive : ∀ c k, ep.slots.get c = some k → s.isLive k.ref = true

theorem isWiredUp_iff : isWiredUp ep = true ↔
    ∀ lane ∈ ep.plan.lanes, ∃ l, ep.slots.get lane = some (.link l) := by
  simp only [isWiredUp, List.all_eq_true]
  refine forall₂_congr fun lane _ => ?_
  cases ep.slots.get lane with
  | none => simp
  | some c => cases c <;> simp

theorem Manages.filled (h : Manages s ep ep.plan.lanes) {lane : Category}
    (hl : lane ∈ ep.plan.lanes) : ep.slots.get lane ≠ none := by
  rcases h.carried lane hl with ⟨l, leads⟩
  intro none
  rw [none] at leads
  cases leads

/-- Lanes that are carried make disciplined slots. -/
theorem Manages.disciplined (h : Manages s ep ep.plan.lanes) (built : ep.plan.Built) (live : Live s)
    (here : s.endpoints.get? e = some ep) : Disciplined s ep where
  filled c := by
    by_cases served : ∃ lane ∈ ep.plan.lanes, c ∈ ep.plan.slotsOf lane
    · have planned := built.resource_iff.2 served
      rcases served with ⟨lane, hl, mem⟩
      rw [h.shared lane hl c mem]
      exact iff_of_false (h.filled hl) planned
    · refine iff_of_true (h.empty c fun lane hl mem => served ⟨lane, hl, mem⟩) ?_
      exact not_not.1 (mt built.resource_iff.1 served)
  shared := h.shared
  apart lane hl lane' hl' other c mem c' mem' same := by
    rw [h.shared lane hl c mem, h.shared lane' hl' c' mem'] at same
    exact other (h.apart lane hl lane' hl' (by rw [same]))
  wired := by
    rw [isWiredUp_iff]
    constructor
    · intro linked c planned
      rcases built.resource_iff.1 planned with ⟨lane, hl, mem⟩
      rw [h.shared lane hl c mem]
      exact linked lane hl
    · intro linked lane hl
      exact linked lane (built.resource_iff.2 ⟨lane, hl, ep.plan.lane_mem_slotsOf lane⟩)
  alive c k slot := live _ (isHeld_of_slot here slot)

/-! ## The opening of all lanes -/

/-- A worker opens an endpoint to a peer that it has none to, sees to some jobs, and opens all
lanes of the endpoint. -/
structure LaysOut (s : Network) (w : WorkerId) (dest : UInt64) (peer : String) (jobs : List Job)
    (entries : List AddressEntry) (e : EndpointId) (t : Network) : Prop where
  stranger : s.findEndpoint? w dest = none
  laid : ∃ u, s.openEndpoint w dest peer = (u, e) ∧
    (u.push jobs).openLanes e entries (((u.workers.get? w).map fun w => w.plan.lanes).getD []) =
      (t, .ok ())

theorem nodup_lanes (p : Plan) : p.lanes.Nodup := List.Nodup.filter _ (by decide)

theorem LaysOut.manages (h : LaysOut s w dest peer jobs entries e t) (hs : Sound wild s)
    (books : s.workers.get? w = some wk)
    (plans : ∀ u, s.openEndpoint w dest peer = (u, e) → Moves wild u (u.push jobs)) :
    Moves wild s t ∧ ∃ ep, t.endpoints.get? e = some ep ∧ Manages t ep ep.plan.lanes := by
  rcases h.laid with ⟨u, opened, laid⟩
  rcases openEndpoint_roster books dest peer with ⟨ep, worker, plan, empty, id, added⟩
  have moves : Moves wild s _ := openEndpoint_moves books peer h.stranger
  rcases openEndpoint_new hs books dest peer with ⟨-, -, -, unsent⟩
  rw [opened] at id added moves unsent
  simp only at id added moves unsent
  subst id
  have led := moves.trans (plans u opened)
  have here : (u.push jobs).endpoints.get? s.endpoints.next = some ep := get?_of_roster_add added
  have office : s.roster.offices w = some wk.office := congrArg (Option.map Worker.office) books
  have enlisted := congrFun (congrArg Roster.offices added) w
  simp only [Roster.add, worker, Function.update_self, office] at enlisted
  rcases Option.map_eq_some_iff.1 enlisted with ⟨wk', books', same⟩
  have planned : ep.plan = wk'.plan := plan.trans (congrArg Worker.plan same).symm
  rw [books', Option.map_some, Option.getD_some, ← planned] at laid
  have bare : Manages (u.push jobs) ep [] := by
    refine ⟨by simp, by simp, by simp, fun c _ => ?_⟩
    rw [empty, PerCategory.get_const]
  rcases openLanes_manages (hs.moves led) here (worker.symm ▸ books') planned (fun _ hl => hl)
    (nodup_lanes _) (List.disjoint_nil_right _) (by simp) bare entries unsent laid with
    ⟨slots, there, manages⟩
  have lanes : Moves wild (u.push jobs) _ :=
    openLanes_moves (hs.moves led) entries ep.plan.lanes unsent
  rw [laid] at lanes
  exact ⟨led.trans lanes, _, there, manages.of_mem fun lane => by simp⟩

end Network

open Network

variable {fits : Network → Call → Prop} {e : EndpointId} {s t u : Network}

/-- The lanes of an endpoint have just been opened. -/
inductive Equipped (fits : Network → Call → Prop) (e : EndpointId) : Network → Prop
  /-- The application has created the endpoint. -/
  | created {s t : Network} (w : WorkerId) (address : WorkerAddress) (journey : Journey fits s)
      (fit : fits s (.createEndpoint w address))
      (permitted : (Call.createEndpoint w address).Permitted s)
      (laid : LaysOut s w address.uuid address.name [] address.entries e t)
      (calm : ((Call.createEndpoint w address).start s).violation = none) :
      Equipped fits e ((Call.createEndpoint w address).start s)
  /-- A worker has opened the endpoint because of a request. -/
  | welcomed {s t : Network} {rest : List Job} {wk : Worker} (w : WorkerId) (message : Message)
      (m : Signal) (address : WorkerAddress) (before : Visited fits s) (visited : Visited fits s.step)
      (top : s.agenda = .handle (.signals w) message :: rest) (books : s.workers.get? w = some wk)
      (decoded : Signal.decode message.payload = .ok m) (meant : m.dest = wk.uuid)
      (kind : m.kind = .request) (enclosed : m.address = some address)
      (laid : LaysOut { s with agenda := rest } w m.source address.name
        [.release (.endpoint e), .release (.worker w)] address.entries e t) :
      Equipped fits e s.step

theorem Equipped.visited (h : Equipped fits e s) : Visited fits s := by
  cases h with
  | created w address journey fit permitted laid calm =>
    exact .within _ 0 journey fit permitted calm
  | welcomed w message m address before visited => exact visited

/-- What is done after the lanes were opened does not touch them. -/
theorem Network.Manages.kept (h : ∃ ep, t.endpoints.get? e = some ep ∧ Manages t ep ep.plan.lanes)
    (before : Fitted t) (after : Fitted u) (ages : Ages t u) (roster : u.roster = t.roster) :
    ∃ ep, u.endpoints.get? e = some ep ∧ Manages u ep ep.plan.lanes := by
  rcases h with ⟨ep, here, manages⟩
  have there : u.endpoints.get? e = some ep := (congrFun (congrArg Roster.endpoints roster) e).trans here
  exact ⟨ep, there, manages.same fun c => ages.link? before after here there rfl⟩

theorem Equipped.manages (h : Equipped fits e s) :
    ∃ ep, s.endpoints.get? e = some ep ∧ Manages s ep ep.plan.lanes := by
  rcases h.visited.moves with ⟨process', moves', -⟩
  have after := (Fitted.initial process').moves moves'
  cases h with
  | @created s t w address journey fit permitted laid calm =>
    rcases (Visited.between journey).moves with ⟨process, moves, sound, -⟩
    rcases Table.contains_iff.1 permitted with ⟨wk, books⟩
    rcases laid.manages sound books fun u _ => .refl with ⟨led, manages⟩
    rcases laid.laid with ⟨u, opened, opens⟩
    have opens' : u.openLanes e address.entries
        (((u.workers.get? w).map fun w => w.plan.lanes).getD []) = (t, .ok ()) := opens
    have asked : (Call.start s (.createEndpoint w address)).stubs = t.stubs ∧
        (Call.start s (.createEndpoint w address)).roster = t.roster := by
      have roster := newSignal_roster t e .request
      rcases t.newSignal_cases e .request with ⟨why, refused⟩ | ⟨payload, -, made⟩
      · simp only [Call.start, laid.stranger, opened, opens', refused]
        exact ⟨rfl, rfl⟩
      · rw [made] at roster
        simp only [Call.start, laid.stranger, opened, opens', made]
        exact ⟨rfl, roster⟩
    exact Manages.kept manages ((Fitted.initial process).moves (moves.trans led)) after
      (.of_eq asked.1) asked.2
  | @welcomed s t rest wk w message m address before visited top books decoded meant kind enclosed
      laid =>
    rcases before.moves with ⟨process, moves, fit⟩
    have popped : Moves True s { s with agenda := rest } := .single (.hold (.done _ rest top rfl))
    have sound := fit.sound.moves popped
    have worker : ({ s with agenda := rest } : Network).workers.get? w = some wk := books
    have plans (u : Network)
        (opened : openEndpoint { s with agenda := rest } w m.source address.name = (u, e)) :
        Moves True u (u.push [.release (.endpoint e), .release (.worker w)]) := by
      rcases openEndpoint_new sound worker m.source address.name with
        ⟨id, liveEndpoint, liveWorker, -⟩
      rw [← id, opened] at liveEndpoint
      rw [opened] at liveWorker
      refine Moves.push fun j hj => ?_
      rcases List.mem_cons.1 hj with rfl | hj
      · exact .inr ⟨_, rfl, liveEndpoint⟩
      · cases List.mem_singleton.1 hj
        exact .inr ⟨_, rfl, liveWorker⟩
    rcases laid.manages sound worker plans with ⟨led, manages⟩
    rcases laid.laid with ⟨u, opened, opens⟩
    have ends : s.step = t.replyTo e m.lanes := by
      have opens' : (u.push [.release (.endpoint e), .release (.worker w)]).openLanes e
          address.entries ((((u.push [.release (.endpoint e), .release (.worker w)]).workers.get?
            w).map fun w => w.plan.lanes).getD []) = (t, .ok ()) := opens
      rw [step_eq top before.calm]
      simp only [perform, handle, handleSignal, worker, decoded, meant, if_true, receive,
        laid.stranger, kind, enclosed, welcome, opened, opens']
    rw [ends] at after ⊢
    have replied : Moves True t (t.replyTo e m.lanes) := replyTo_moves t e m.lanes
    exact Manages.kept manages ((Fitted.initial process).moves ((moves.trans popped).trans led)) after
      replied.ages (replyTo_roster t e m.lanes)

/-! ## From the opening of the lanes on -/

/-- What is known of an endpoint from the opening of its lanes on. -/
theorem Later.manages (h : Later fits e s t) (equipped : Equipped fits e s) :
    e < t.endpoints.next ∧ ∀ ep, t.endpoints.get? e = some ep → Manages t ep ep.plan.lanes := by
  induction h with
  | refl =>
    rcases equipped.manages with ⟨ep, here, manages⟩
    refine ⟨Table.lt_next_of_get? here, fun ep' here' => ?_⟩
    cases here.symm.trans here'
    exact manages
  | tail before next ih =>
    have visited := Later.visited before equipped.visited
    exact ⟨ih.1.trans_le (next.opened visited), fun ep' there =>
      next.manages visited ih.1 ih.2 there⟩

/-- An endpoint that is wired up stays so from one state to the next. -/
theorem Network.Exchange.wired {ep ep' : Endpoint} {x : StubId} {st : Stub} {next : LinkId}
    {w : WorkerId} {rest : List Job} (h : Exchange s t ep ep' x st next w rest)
    (wired : isWiredUp ep = true) : isWiredUp ep' = true := by
  rw [isWiredUp_iff] at wired ⊢
  intro lane hl
  rw [h.frame] at hl
  rcases wired lane hl with ⟨l, slot⟩
  exact ⟨l, by rw [h.slots, slot, if_neg (by simp)]⟩

/-- An endpoint that is wired up stays so until it is destroyed. -/
theorem Later.wired (h : Later fits e t u) (before : Later fits e s t)
    (equipped : Equipped fits e s) {ep : Endpoint} (here : t.endpoints.get? e = some ep)
    (wired : isWiredUp ep = true) {ep' : Endpoint} (there : u.endpoints.get? e = some ep') :
    isWiredUp ep' = true := by
  induction h generalizing ep' with
  | refl =>
    cases here.symm.trans there
    exact wired
  | @tail u v later next ih =>
    have led : Later fits e s u := before.trans later
    have known := (led.manages equipped).1
    rcases next.turn (led.visited equipped.visited) known there with
      ⟨old, between, rfl | ⟨x, st, l, w, rest, exchange⟩⟩
    · exact ih between
    · exact exchange.wired (ih between)

/-- From the opening of its lanes until it is destroyed the slots of an endpoint agree with its plan,
which was made in whatever order. Slots change by switchovers only, each of which exchanges a stub
for its link and releases the auxiliary link; and an endpoint that is wired up stays so. -/
theorem disciplined_of_equipped (equipped : Equipped Call.Plans e s)
    (later : Later Call.Plans e s t) :
    (∀ ep, t.endpoints.get? e = some ep → Disciplined t ep) ∧
    (∀ u, Next Call.Plans e t u → ∀ ep', u.endpoints.get? e = some ep' →
      ∃ ep, t.endpoints.get? e = some ep ∧
        (ep' = ep ∨ ∃ x st next w rest, Exchange t u ep ep' x st next w rest)) ∧
    ∀ u, Later Call.Plans e t u → ∀ ep ep', t.endpoints.get? e = some ep →
      u.endpoints.get? e = some ep' → isWiredUp ep = true → isWiredUp ep' = true := by
  have visited := later.visited equipped.visited
  rcases visited.moves with ⟨process, moves, fit⟩
  rcases later.manages equipped with ⟨known, manages⟩
  refine ⟨fun ep here => ?_, fun u next ep' there => next.turn visited known there,
    fun u after ep ep' here there wired => after.wired later equipped here wired there⟩
  exact (manages ep here).disciplined (visited.planned.endpoint e ep here) fit.sound.live here

/-! ## A pair with an alias -/

namespace Call

/-- A worker of the pair whose atomic operations share the link of its access to memory. -/
def sharingWorker (uuid : UInt64) (direct paired : InterfaceId) : Call :=
  .openWorker { uuid := some uuid }
    (((Plan.withResource {} .messages 0).withResource .memory 1).withAlias .atomics .memory)
    [⟨⟨"direct", "0"⟩, direct⟩, ⟨⟨"paired", "0"⟩, paired⟩]

/-- The workers of the pair, before the first has an endpoint. -/
def sharing : List Call :=
  [.openFabric,
    pairInterface .connectToInterface 4, pairInterface .connectToLink 4,
    pairInterface .connectToInterface 4, pairInterface .connectToLink 4,
    sharingWorker 1 0 1, sharingWorker 2 2 3]

/-- The address of the second worker. -/
def sharingAddress : WorkerAddress where
  uuid := 2
  name := "worker"
  entries := [⟨"direct", "0", Bytes.word 1, Bytes.word 3⟩,
    ⟨"paired", "0", Bytes.word 1, Bytes.word 4⟩]

/-- Both workers make progress until the endpoints are wired up. -/
def handshake : List Call :=
  [.progressOf 1, .progressOf 0, .progressOf 1, .progressOf 0, .progressEndpoint 0]

theorem planned_sharing : ∀ c ∈ sharing, c.Planned := by
  have built : (((Plan.withResource {} .messages 0).withResource .memory 1).withAlias .atomics
      .memory).Built := .withAlias _ _ (.withResource _ _ (.withResource _ _ .new))
  intro c hc
  simp only [sharing, pairInterface, sharingWorker, List.mem_cons, List.not_mem_nil, or_false] at hc
  rcases hc with rfl | rfl | rfl | rfl | rfl | rfl | rfl
  all_goals first | exact built | trivial

end Call

/-- The endpoint of the sharing pair is created and wired up: three slots, two links. -/
theorem disciplined_of_equipped_sharing : ∃ s t ep, Equipped Call.Plans 0 s ∧
    Later Call.Plans 0 s t ∧ t.endpoints.get? 0 = some ep ∧ Disciplined t ep ∧
    ep.slots = ⟨some (.link 0), some (.link 1), some (.link 1)⟩ := by
  let found (s : Network) := s.openEndpoint 0 2 "worker"
  let create : Call := .createEndpoint 0 Call.sharingAddress
  have opens : (Call.runSparing 0 { process := 1 } Call.sharing).any (fun s =>
      (s.findEndpoint? 0 2).isNone && (found s).2 == 0 && ((found s).1.openLanes 0
        Call.sharingAddress.entries ((((found s).1.workers.get? 0).map fun w =>
          w.plan.lanes).getD [])).2.isOk) = true := by decide +kernel
  have wires : (Call.runSparing 0 { process := 1 } Call.sharing).any (fun s =>
      decide (create.Permitted s) && (create.start s).spares 0 (create.start s).fuel &&
        ((create.run s).2.isOk && (Call.runSparing 0 (create.run s).1 Call.handshake).any fun u =>
          (u.endpoints.get? 0).any fun ep =>
            ep.slots == ⟨some (.link 0), some (.link 1), some (.link 1)⟩)) = true := by
    decide +kernel
  rcases (Option.any_eq_true _ _).1 wires with ⟨s, prepared, worked⟩
  rw [prepared, Option.any_some] at opens
  simp only [Bool.and_eq_true, decide_eq_true_eq, Option.isNone_iff_eq_none, beq_iff_eq] at opens worked
  rcases opens with ⟨⟨stranger, id⟩, opens⟩
  rcases worked with ⟨⟨permitted, spared⟩, worked⟩
  rcases Later.of_runSparing (.start 1) (fun c hc _ => Call.planned_sharing c hc) prepared with
    ⟨journey, -⟩
  have laid : ∃ t, LaysOut s 0 2 "worker" [] Call.sharingAddress.entries 0 t := by
    cases lanes : (found s).1.openLanes 0 Call.sharingAddress.entries
        ((((found s).1.workers.get? 0).map fun w => w.plan.lanes).getD []) with
    | mk t done =>
      rw [lanes] at opens
      cases done with
      | error why => cases opens
      | ok _ => exact ⟨t, stranger, (found s).1, Prod.ext rfl id, lanes⟩
  rcases laid with ⟨t, laid⟩
  cases ran : create.run s with
  | mk u done =>
    rw [ran] at worked
    cases done with
    | error why => cases worked.1
    | ok _ =>
      rcases (Option.any_eq_true _ _).1 worked.2 with ⟨v, shaken, wired⟩
      rcases (Option.any_eq_true _ _).1 wired with ⟨ep, here, slots⟩
      have planned : create.Planned := trivial
      have ends : Later Call.Plans 0 (create.start s) u :=
        Later.ends journey planned permitted ran (spared_of_spares spared)
      have equipped : Equipped Call.Plans 0 (create.start s) :=
        .created 0 Call.sharingAddress journey planned permitted laid
          (journey.start_calm planned permitted ran)
      have trivially : ∀ c ∈ Call.handshake, c.Planned := by
        intro c hc
        simp only [Call.handshake, List.mem_cons, List.not_mem_nil, or_false] at hc
        rcases hc with rfl | rfl | rfl | rfl | rfl <;> trivial
      have shakes := (Later.of_runSparing (.call create journey planned permitted ran)
        (fun c hc _ => trivially c hc) shaken).2
      have later := ends.trans shakes
      exact ⟨_, v, ep, equipped, later, here,
        (disciplined_of_equipped equipped later).1 ep here, beq_iff_eq.1 slots⟩

end Wiring
