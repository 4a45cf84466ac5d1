import Mathlib
import Wiring.Proofs.Creation
import Wiring.Proofs.Orderly

/-!
# Sessions

In a session workers that follow one plan, on interfaces of one fabric, open endpoints to each other,
send data and make progress, and leave the wiring to the signals. Whatever they do and in which order,
they agree on what is wired up.
-/
namespace Wiring

variable {s t u : Network} {plan : Plan} {α : Type}

namespace Network

open Layout (Opening)

/-! ## Opening fabrics, interfaces and workers -/

/-- Where things come and go that serve no lane, what is known stays known. -/
theorem Mild.charts (h : Mild s t) (hk : Layout.Charted plan s.layout none)
    (shifts : Layout.Shifts s.layout t.layout) (site : Layout.Site plan t.layout) :
    Charts plan none s t :=
  ⟨h, (shifts.refits hk).lasts hk.toSite, hk.shift shifts site⟩

theorem keep_still (s : Network) (ref : Ref) : Still s (s.keep ref) := by
  unfold keep
  split
  · refine ⟨.of_tidy rfl rfl fun hs => ?_, rfl⟩
    exact { hs with
      interfaces := fun i hi => List.mem_cons_of_mem _ (hs.interfaces i hi)
      workers := fun w hw => List.mem_cons_of_mem _ (hs.workers w hw) }
  · exact .refl s

theorem openFabric_agreed (hs : Agreed plan none s) (first : s.fabrics.next = 0) :
    Agreed plan none s.openFabric.1 := by
  have mild : Mild s s.openFabric.1 := .of_tidy rfl rfl fun hs => { hs with }
  have none : s.fabrics.get? 0 = none := Table.get?_of_next_le first.le
  refine hs.charts (mild.charts hs.charted ?_ ?_)
  · exact { Layout.Shifts.refl s.layout with }
  · refine { hs.charted.toSite with numbers := fun i f hf => ?_ }
    rcases hs.charted.numbers i f hf with ⟨fb, hfb, -⟩
    exact absurd (none.symm.trans hfb) (by simp)

theorem openInterface_agreed (hs : Agreed plan none s) {settings : InterfaceSettings} {fb : Fabric}
    (fabric : s.fabrics.get? 0 = some fb) (room : fb.opened + 1 < UInt64.size)
    (small : settings.maxBulk < UInt64.size) : Agreed plan none (s.openInterface 0 settings).1 := by
  let id := s.interfaces.next
  let i : Interface := { fabric := 0, number := UInt64.ofNat (fb.opened + 1), settings }
  let fabrics := s.fabrics.set 0 { fb with opened := fb.opened + 1 }
  let opened : Network :=
    { s with fabrics, interfaces := s.interfaces.push i, holds := .interface id :: s.holds }
  have same : (s.openInterface 0 settings).1 = opened := by
    have live : ({ s with fabrics, interfaces := s.interfaces.push i } : Network).isLive
        (.interface id) = true := by simp [isLive, Table.contains_push, id]
    simp only [openInterface, fabric, Option.map_some, Option.getD_some, Table.modify_eq_set fabric]
    exact if_pos live
  have face (j : InterfaceId) : opened.layout.face j =
      if j = id then some i.face else s.layout.face j := by
    simp only [opened, Network.layout, Table.get?_push]
    split <;> rfl
  have number : (UInt64.ofNat (fb.opened + 1)).toNat = fb.opened + 1 :=
    UInt64.toNat_ofNat_of_lt' room
  have new : s.layout.face id = none := by simp [layout, id]
  have old (j : InterfaceId) (f : Face) (hf : s.layout.face j = some f) : j ≠ id := by
    rintro rfl
    rw [new] at hf
    cases hf
  -- the new number is above all others
  have below (j : InterfaceId) (f : Face) (hf : s.layout.face j = some f) :
      f.number.toNat ≤ fb.opened := by
    rcases hs.charted.numbers j f hf with ⟨fb', hfb, le⟩
    cases fabric.symm.trans hfb
    exact le
  have mild : Mild s opened := by
    refine .of_tidy rfl rfl fun hs => { hs with
      interfaces := fun j hj => ?_, workers := fun w hw => ?_, limits := fun j f hf => ?_,
      inbox := fun j f hf m hm => ?_, handlers := fun j f hf entry hentry => ?_ }
    · simp only [opened, Table.contains_push, Bool.or_eq_true, decide_eq_true_eq] at hj
      rcases hj with rfl | hj
      · exact List.mem_cons_self
      · exact List.mem_cons_of_mem _ (hs.interfaces j hj)
    · exact List.mem_cons_of_mem _ (hs.workers w hw)
    · rcases Table.get?_of_push hf with ⟨-, rfl⟩ | hf
      · exact small
      · exact hs.limits j f hf
    · rcases Table.get?_of_push hf with ⟨-, rfl⟩ | hf
      · cases hm
      · exact hs.inbox j f hf m hm
    · rcases Table.get?_of_push hf with ⟨-, rfl⟩ | hf
      · cases hentry
      · exact hs.handlers j f hf entry hentry
  rw [same]
  refine hs.charts (mild.charts hs.charted ?_ ?_)
  · refine { Layout.Shifts.refl s.layout with face := fun j f hf => ?_ }
    rw [face, if_neg (old j f hf)]
    exact hf
  · refine { hs.charted.toSite with
      faces := fun j k f g hf hg hnumber => ?_
      numbers := fun j f hf => ?_
      resources := fun w wk hw r hr => ?_ }
    · rw [face] at hf hg
      split at hf
      · rename_i hj
        cases hf
        split at hg
        · rename_i hk
          exact hj.trans hk.symm
        · have le := below k g hg
          rw [← hnumber] at le
          change (UInt64.ofNat (fb.opened + 1)).toNat ≤ fb.opened at le
          omega
      · split at hg
        · cases hg
          have le := below j f hf
          rw [hnumber] at le
          change (UInt64.ofNat (fb.opened + 1)).toNat ≤ fb.opened at le
          omega
        · exact hs.charted.faces j k f g hf hg hnumber
    · refine ⟨{ fb with opened := fb.opened + 1 }, ?_, ?_⟩
      · simp only [opened, Network.layout, fabrics, Table.get?_set_of fabric, if_pos]
      · rw [face] at hf
        split at hf
        · cases hf
          exact number.le
        · exact (below j f hf).trans (Nat.le_succ _)
    · rcases hs.charted.resources w wk hw r hr with ⟨f, hf⟩
      refine ⟨f, ?_⟩
      rw [face, if_neg (old _ f hf)]
      exact hf

theorem setHandler_still (s : Network) (i : InterfaceId) {messageId : UInt8} {h : Handler}
    (fits : h.IsLocal messageId) : Still s (s.setHandler i messageId h) := by
  unfold setHandler
  have same := Table.map_get?_modify (t := s.interfaces) (k := i) (f := Interface.face)
    (g := fun f => { f with handlers := (messageId, h) :: f.handlers.filter fun entry =>
      entry.1 != messageId }) fun _ => rfl
  refine ⟨.of_tidy rfl rfl fun hs => { hs with
    interfaces := fun j hj => ?_, limits := fun j f hf => ?_, inbox := fun j f hf => ?_,
    handlers := fun j f hf entry hentry => ?_ }, ?_⟩
  · rw [Table.contains_modify] at hj
    exact hs.interfaces j hj
  · rcases Table.get?_of_modify hf with ⟨f', hf', rfl | rfl⟩
    · exact hs.limits j f hf'
    · exact hs.limits j f' hf'
  · rcases Table.get?_of_modify hf with ⟨f', hf', rfl | rfl⟩
    · exact hs.inbox j f hf'
    · exact hs.inbox j f' hf'
  · rcases Table.get?_of_modify hf with ⟨f', hf', rfl | rfl⟩
    · exact hs.handlers j f hf' entry hentry
    · rcases List.mem_cons.1 hentry with rfl | hentry
      · exact fits
      · exact hs.handlers j f' hf' entry (List.mem_filter.1 hentry).1
  · simp only [Network.layout, same]

theorem setWorkerHandler_still (s : Network) (w : WorkerId) {messageId : UInt8} {h : Handler}
    (fits : h.IsLocal messageId) : Still s (s.setWorkerHandler w messageId h) := by
  unfold setWorkerHandler
  split
  · exact .refl s
  · exact .foldl (f := fun s (r : Resource) => s.setHandler r.interface messageId h)
      (fun s r => setHandler_still s r.interface fits) _ _

/-- Installing handlers does not depend on what is held. -/
theorem setWorkerHandler_holds (s : Network) (holds : List Ref) (w : WorkerId) (messageId : UInt8)
    (h : Handler) : setWorkerHandler { s with holds } w messageId h =
      { s.setWorkerHandler w messageId h with holds } := by
  have folded (rs : List Resource) (s : Network) :
      rs.foldl (fun s r => s.setHandler r.interface messageId h) { s with holds } =
        { rs.foldl (fun s r => s.setHandler r.interface messageId h) s with holds } := by
    induction rs generalizing s with
    | nil => rfl
    | cons r rs ih => exact ih (s.setHandler r.interface messageId h)
  unfold setWorkerHandler
  cases s.workers.get? w with
  | none => rfl
  | some wk => exact folded wk.resources s

theorem openWorker_agreed (hs : Agreed plan none s) (settings : WorkerSettings)
    {resources : List Resource}
    (live : ∀ r ∈ resources, s.interfaces.contains r.interface = true)
    (new : ∀ w wk, s.workers.get? w = some wk →
      wk.uuid ≠ settings.uuid.getD (generatedUuid s.process s.generated)) :
    Agreed plan none (s.openWorker settings plan resources).1 := by
  let id := s.workers.next
  let worker : Worker :=
    { uuid := settings.uuid.getD (generatedUuid s.process s.generated), settings, plan
      resources := resources.take maxResources, registry := s.registries.next }
  let opened : Network := { s with
    generated := if settings.uuid.isNone then s.generated + 1 else s.generated
    registries := s.registries.push []
    workers := s.workers.push worker }
  let seated : Network := { opened with holds := .worker id :: s.holds }
  have here : opened.workers.get? id = some worker := by
    simp [opened, id, Table.get?_push]
  have same : (s.openWorker settings plan resources).1 =
      seated.setWorkerHandler id Signal.messageId (.signals id) := by
    rcases foldl_setHandler opened Signal.messageId (.signals id) worker.resources with
      ⟨interfaces, -, handled⟩
    have handled' : opened.setWorkerHandler id Signal.messageId (.signals id) =
        { opened with interfaces } := by
      rw [setWorkerHandler, here]
      exact handled
    have live : ({ opened with interfaces } : Network).isLive (.worker id) = true :=
      Table.contains_of_get? here
    have first : (s.openWorker settings plan resources).1 =
        (opened.setWorkerHandler id Signal.messageId (.signals id)).keep (.worker id) := rfl
    rw [first, setWorkerHandler_holds, handled', keep, if_pos live]
  have still : Still seated (seated.setWorkerHandler id Signal.messageId (.signals id)) :=
    setWorkerHandler_still seated id rfl
  have worker? (w : WorkerId) : seated.layout.worker w =
      if w = id then some worker.seat else s.layout.worker w := by
    simp only [seated, opened, Network.layout, Table.get?_push]
    split <;> rfl
  have old (w : WorkerId) (wk : Worker) (hw : s.layout.worker w = some wk) : w ≠ id := by
    rintro rfl
    simp [layout, id] at hw
  have mild : Mild s seated := by
    refine .of_tidy rfl rfl fun hs => { hs with
      posted := fun w wk hw => ?_, interfaces := fun i hi => ?_, workers := fun w hw => ?_ }
    · rcases Table.get?_of_push hw with ⟨-, rfl⟩ | hw
      · rfl
      · exact hs.posted w wk hw
    · exact List.mem_cons_of_mem _ (hs.interfaces i hi)
    · simp only [seated, opened, Table.contains_push, Bool.or_eq_true, decide_eq_true_eq] at hw
      rcases hw with rfl | hw
      · exact List.mem_cons_self
      · exact List.mem_cons_of_mem _ (hs.workers w hw)
  rw [same]
  refine (hs.charts (mild.charts hs.charted ?_ ?_)).still still
  · refine { Layout.Shifts.refl s.layout with
      worker := fun w wk hw => ?_, known := fun w wk hw => ?_ }
    · rw [worker?, if_neg (old w wk hw)]
      exact hw
    · rw [worker?] at hw
      split at hw
      · cases hw
        exact .inr rfl
      · exact .inl hw
  · refine { hs.charted.toSite with
      plans := fun w wk hw => ?_, resources := fun w wk hw r hr => ?_
      uuids := fun w wk v vk hw hv same => ?_ }
    · rw [worker?] at hw
      split at hw
      · cases hw
        rfl
      · exact hs.charted.plans w wk hw
    · rw [worker?] at hw
      split at hw
      · cases hw
        rcases Table.contains_iff.1 (live r (List.mem_of_mem_take hr)) with ⟨i, hi⟩
        exact ⟨i.face, by simp [seated, opened, Network.layout, hi]⟩
      · exact hs.charted.resources w wk hw r hr
    · -- the uuid of the new worker is not that of an old one
      have other (w : WorkerId) (wk : Worker) (hw : s.layout.worker w = some wk) :
          wk.uuid ≠ worker.uuid := by
        rcases Option.map_eq_some_iff.1 hw with ⟨wk', hw', rfl⟩
        exact new w wk' hw'
      rw [worker?] at hw hv
      split at hw
      · rename_i h
        cases hw
        split at hv
        · rename_i h'
          exact h.trans h'.symm
        · exact absurd same.symm (other v vk hv)
      · split at hv
        · cases hv
          exact absurd same (other w wk hw)
        · exact hs.charted.uuids w wk v vk hw hv same

/-! ## Operations of a session -/

/-- A network between two operations of a session. -/
structure Peaceful (plan : Plan) (s : Network) : Prop where
  agreed : Agreed plan none s
  rested : Rested False s
  conserved : Conserved s

theorem Peaceful.works (h : Peaceful plan s) {jobs : List Job} (tame : ∀ j ∈ jobs, j.Tame s.trace)
    (idle : ∀ j ∈ jobs, (j.isIdle = true ∧ j.turn? = none) ∨
      ∃ ref, j = .release ref ∧ s.isLive ref = true)
    {result : Network → α} {a : α} (ran : s.carryOut jobs result = (u, .ok a)) :
    Agreed plan none u :=
  h.agreed.carryOut h.rested.idle tame h.conserved (Moves.push idle) ran

theorem Peaceful.works_one (h : Peaceful plan s) {j : Job} (tame : j.Tame s.trace)
    (idle : j.isIdle = true) (turn : j.turn? = none) {result : Network → α} {a : α}
    (ran : s.carryOut [j] result = (u, .ok a)) : Agreed plan none u := by
  refine h.works (fun k hk => ?_) (fun k hk => ?_) ran
  · rwa [List.mem_singleton.1 hk]
  · rw [List.mem_singleton.1 hk]
    exact .inl ⟨idle, turn⟩

theorem letGo_still (s : Network) (e : EndpointId) : Still s (s.letGo (.endpoint e)) := by
  unfold letGo
  split
  · have dropped : Still s { s with holds := s.holds.erase (.endpoint e) } := by
      refine ⟨.of_tidy rfl rfl fun hs => ?_, rfl⟩
      exact { hs with
        interfaces := fun i hi => (List.mem_erase_of_ne (by simp)).2 (hs.interfaces i hi)
        workers := fun w hw => (List.mem_erase_of_ne (by simp)).2 (hs.workers w hw) }
    exact dropped.trans (.push fun j hj => List.mem_singleton.1 hj ▸ trivial)
  · exact .refl s

theorem Peaceful.drop (h : Peaceful plan s) {e : EndpointId}
    (ran : s.drop (.endpoint e) = (u, .ok ())) : Agreed plan none u := by
  have still := letGo_still s e
  have orderly : Orderly plan (s.letGo (.endpoint e)) := by
    refine .of_plans (h.agreed.still still) still.agenda (fun x hx => ?_) fun j hj => ?_
    · rcases still.trace with ⟨marks, grown, -⟩
      rw [grown]
      exact Array.mem_append_left _ hx
    · rw [h.rested.idle] at hj
      cases hj
  exact orderly.settle (h.conserved.moves (letGo_moves s (.endpoint e))) ran

theorem Peaceful.sendMessage (h : Peaceful plan s) {e : EndpointId}
    (live : s.endpoints.contains e = true) {messageId : UInt8} (data : messageId ≠ Signal.messageId)
    (payload : Bytes) {a : HandleId} (ran : s.sendMessage e messageId payload = (u, .ok a)) :
    Agreed plan none u := by
  let sent := (s.newSend e messageId payload).1
  have still : Still s sent := (Still.books s _ _ _ _ _ _ _).trans (.note data)
  refine (h.agreed.still still).carryOut h.rested.idle (fun j hj => ?_) h.conserved
    (newSend_moves live messageId payload fun _ => h.rested.idle) ran
  rw [List.mem_singleton.1 hj]
  exact Request.isPlain_send _

theorem Peaceful.progressEndpoint (h : Peaceful plan s) {e : EndpointId} {a : Nat}
    (ran : s.progressEndpoint e = (u, .ok a)) : Agreed plan none u := by
  rcases progressEndpoint_cases h.rested.fit.sound.live e with none | ⟨jobs, work, planned⟩
  · rw [none] at ran
    cases ran
    exact h.agreed
  · refine h.works (fun j hj => ?_) (fun j hj => ?_) (work.symm.trans ran)
    · rcases planned j hj with ⟨x, rfl⟩ | ⟨x, rfl, -⟩ <;> trivial
    · rcases planned j hj with ⟨x, rfl⟩ | ⟨x, rfl, live⟩
      · exact .inl ⟨rfl, rfl⟩
      · exact .inr ⟨_, rfl, live⟩

/-! ## Creating endpoints -/

/-- A new endpoint to a worker that there is has the lanes that could be opened. -/
theorem Peaceful.begun (h : Peaceful plan s) {w : WorkerId} (live : s.workers.contains w = true)
    {address : WorkerAddress} (peer : ∃ b vk, s.layout.Bears b vk address.uuid) {e : EndpointId}
    {done : Except WireupError Unit} (begun : Begun s w address t e done) :
    Agreed plan (some e) t ∧ ∃ wk ep left, Opening plan t.layout w wk e ep left ∧
      (∃ b vk, t.layout.Bears b vk ep.dest) ∧ (done = .ok () → left = []) := by
  rcases begun with ⟨fresh, v, opened, lanes⟩
  rcases Table.contains_iff.1 live with ⟨wk, here⟩
  have sound : Sound False s := h.rested.fit.sound
  have moves : Moves False s _ := openEndpoint_moves here address.name fresh
  rcases openEndpoint_new sound here address.uuid address.name with ⟨-, -, -, unsent⟩
  rcases openEndpoint_charts sound h.agreed.charted here fresh peer address.name with
    ⟨charts, id, wk', ep, opening, dest, planned⟩
  rw [← id] at charts opening unsent
  rw [opened] at charts opening moves unsent
  have lanes' : ((v.workers.get? w).map fun w => w.plan.lanes).getD [] = plan.lanes := by
    rcases Option.map_eq_some_iff.1 opening.worker with ⟨w', hw', rfl⟩
    rw [hw', ← planned]
    rfl
  rcases openLanes_charts (sound.moves moves) opening (lanes_nodup plan) (fun _ h => h)
    address.entries unsent with ⟨charts', ep', left, opening', dest', complete⟩
  rw [← lanes', lanes] at charts' opening' complete
  have both := charts.trans charts'
  rcases peer with ⟨b, vk, peer⟩
  rcases both.lasts.bears peer with ⟨vk', peer', -, -⟩
  rw [← dest, ← dest'] at peer'
  exact ⟨h.agreed.charts both, wk', ep', left, opening', ⟨b, vk', peer'⟩, complete⟩

/-- An endpoint that failed is taken down. -/
theorem Spare.abandon {e : EndpointId} (spare : Spare plan t e) (rested : Rested False t)
    (conserved : Conserved t) (live : t.endpoints.contains e = true) {result : Network → α} {a : α}
    (ran : t.carryOut [.destroy e, .release (.endpoint e)] result = (u, .ok a)) :
    Agreed plan none u := by
  have reset : Still t { t with tally := 0 } := .books t _ _ _ _ _ _ _
  have orderly : Orderly plan (push { t with tally := 0 } [.destroy e, .release (.endpoint e)]) := by
    refine .failed e [.release (.endpoint e)] ?_
      ⟨(spare.agreed.still reset).withAgenda _, spare.opening⟩ fun j hj => ?_
    · simp [push, rested.idle]
    · rw [List.mem_singleton.1 hj]
      trivial
  exact orderly.settle (conserved.planned (abandon_moves t live)) ran

/-- An endpoint with open lanes makes its request. -/
theorem Agreed.request (hs : Agreed plan none s) (rested : Rested False s) (conserved : Conserved s)
    {w b : WorkerId} {wk vk : Worker} {e : EndpointId} {ep : Endpoint}
    (opening : Opening plan s.layout w wk e ep []) (peer : s.layout.Bears b vk ep.dest)
    (live : s.endpoints.contains e = true) {h : HandleId} {job : Job}
    (made : s.newSignal e .request = (t, .ok (h, job))) {result : Network → α} {a : α}
    (ran : t.carryOut [job, .confirm e h, .release (.endpoint e)] result = (u, .ok a)) :
    Agreed plan none u := by
  have moves : Moves False s _ := request_moves live made
  have between : Layout.Between s.layout w b wk vk e ep :=
    ⟨opening.worker, peer, opening.entry, opening.here⟩
  have asking : Signal.Kind.request ≠ .request → ∀ lane ∈ plan.lanes,
      s.layout.Pairs wk vk lane → s.layout.Linked w b lane := fun other => absurd rfl other
  rcases newSignal_agreed hs between asking with
    ⟨why, refused⟩ | ⟨t', g, sent, agreed, layout, agenda⟩
  · cases refused.symm.trans made
  · cases sent.symm.trans made
    let ask : Request := .send ⟨e, Signal.messageId, g.encode, s.handles.next⟩
    have asks : (Job.attempt ask (.endpoint e)).Asks := ⟨Request.isAsk_send rfl, trivial⟩
    have reset : Still t { t with tally := 0 } := .books t _ _ _ _ _ _ _
    have orderly : Orderly plan (push { t with tally := 0 } [.attempt ask (.endpoint e),
        .confirm e s.handles.next, .release (.endpoint e)]) := by
      refine .asking e s.handles.next [.attempt ask (.endpoint e)] [.release (.endpoint e)] ?_
        (fun j hj => ?_) ⟨w, wk, ep, ?_⟩ ((agreed.still reset).withAgenda _) fun j hj => ?_
      · simp [push, agenda, rested.idle]
      · rwa [List.mem_singleton.1 hj]
      · exact layout ▸ opening
      · rw [List.mem_singleton.1 hj]
        trivial
    exact orderly.settle (conserved.planned moves) ran

theorem Peaceful.createEndpoint (h : Peaceful plan s) {w : WorkerId}
    (live : s.workers.contains w = true) {address : WorkerAddress}
    (peer : ∃ b vk, s.layout.Bears b vk address.uuid) {a : Except WireupError EndpointId}
    (ran : s.createEndpoint w address = (u, .ok a)) : Agreed plan none u := by
  cases createEndpoint_ok ran with
  | found e known kept =>
    rw [kept]
    exact h.agreed.still (keep_still s _)
  | failed v e done begun why answer ran =>
    rcases h.begun live peer begun with ⟨agreed, wk, ep, left, opening, -, -⟩
    rcases h.rested.begun live begun with ⟨led, liveEndpoint⟩
    exact Spare.abandon ⟨agreed, w, wk, ep, left, opening⟩ led.rested (h.conserved.moves led.moves)
      liveEndpoint ran
  | asked v t x e begun handle job made o ran kept =>
    rcases h.begun live peer begun with ⟨agreed, wk, ep, left, opening, ⟨b, vk, bears⟩, complete⟩
    rcases h.rested.begun live begun with ⟨led, liveEndpoint⟩
    rw [complete rfl] at opening
    have whole : Agreed plan none v := { agreed with charted := opening.complete }
    have asked : Agreed plan none x :=
      whole.request led.rested (h.conserved.moves led.moves) opening bears liveEndpoint made ran
    rcases kept with ⟨rfl, -⟩ | ⟨rfl, -⟩
    · exact asked
    · exact asked.still (keep_still x _)

end Network

/-! ## Sessions -/

/-- What an application does in a session: it opens a fabric, interfaces on it as long as there are
numbers for them, and workers that follow the plan under uuids of their own; it creates endpoints to
workers that there are, sends data and makes progress. -/
def Call.belongs (plan : Plan) (s : Network) : Call → Bool
  | .openFabric => s.fabrics.next == 0
  | .openInterface fabric settings => fabric == 0 && decide (settings.maxBulk < UInt64.size) &&
    (s.fabrics.get? 0).any fun f => f.opened + 1 < UInt64.size
  | .record _ _ _ forward _ => forward.isNone
  | .openWorker settings plan' _ => decide (plan' = plan) && !s.workers.any fun w =>
    w.uuid == settings.uuid.getD (Network.generatedUuid s.process s.generated)
  | .createEndpoint _ address => s.workers.any fun w => w.uuid == address.uuid
  | .sendMessage _ messageId _ => messageId != Signal.messageId
  | .drop (.endpoint _) | .keep _ | .lookUp _ _ | .progress _ | .progressOf _
  | .progressEndpoint _ | .progressStub _ => true
  | _ => false

/-- The networks of a session, between two operations. -/
inductive Session (plan : Plan) : Network → Prop
  | start (process : UInt32) : Session plan { process }
  | call {s t : Network} (c : Call) (before : Session plan s) (belongs : c.belongs plan s = true)
      (permitted : c.Permitted s) (ran : c.run s = (t, .ok ())) : Session plan t

namespace Network

theorem Agreed.initial (plan : Plan) (process : UInt32) : Agreed plan none { process } where
  tidy := by constructor <;> simp [Table.contains]
  charted := by
    constructor
    · constructor <;> simp [layout]
    all_goals simp [layout]
  honest := by simp
  switched := by simp

theorem Peaceful.initial (plan : Plan) (process : UInt32) : Peaceful plan { process } :=
  ⟨.initial plan process, .initial process, .initial process⟩

/-- What an operation of a session leaves is in agreement. -/
theorem Peaceful.agrees (h : Peaceful plan s) {c : Call} (belongs : c.belongs plan s = true)
    (permitted : c.Permitted s) (ran : c.run s = (t, .ok ())) : Agreed plan none t := by
  unfold Call.run at ran
  cases c with
  | keep ref =>
    cases ran
    exact h.agreed.still (keep_still s ref)
  | drop ref =>
    rcases Call.unanswered_ok ran with ⟨a, ran⟩
    cases ref with
    | endpoint e => exact h.drop ran
    | _ => cases belongs
  | openFabric => exact Call.plain_ok ran ▸ openFabric_agreed h.agreed (beq_iff_eq.1 belongs)
  | openInterface fabric settings =>
    simp only [Call.belongs, Bool.and_eq_true, beq_iff_eq, decide_eq_true_eq,
      Option.any_eq_true] at belongs
    rcases belongs with ⟨⟨rfl, small⟩, fb, fabric, room⟩
    exact Call.plain_ok ran ▸ openInterface_agreed h.agreed fabric room small
  | record i messageId log forward decode =>
    cases ran
    exact h.agreed.still (setHandler_still s i (Option.isNone_iff_eq_none.1 belongs))
  | openWorker settings plan' resources =>
    simp only [Call.belongs, Bool.and_eq_true, decide_eq_true_eq, Bool.not_eq_true'] at belongs
    rcases belongs with ⟨rfl, new⟩
    refine Call.plain_ok ran ▸ openWorker_agreed h.agreed settings permitted fun w wk hw same => ?_
    have known : (s.workers.any fun wk =>
        wk.uuid == settings.uuid.getD (generatedUuid s.process s.generated)) = true :=
      Table.any_iff.2 ⟨w, wk, hw, beq_iff_eq.2 same⟩
    rw [new] at known
    cases known
  | createEndpoint w address =>
    rcases Call.unanswered_ok ran with ⟨a, ran⟩
    rcases Table.any_iff.1 belongs with ⟨b, vk, hb, same⟩
    exact h.createEndpoint permitted ⟨b, vk.seat, by simp [layout, hb], beq_iff_eq.1 same⟩ ran
  | lookUp w peer =>
    refine Call.plain_ok ran ▸ ?_
    unfold lookUp
    split
    · exact h.agreed.still (keep_still s _)
    · exact h.agreed
  | sendMessage e messageId payload =>
    rcases Call.unanswered_ok ran with ⟨a, ran⟩
    exact h.sendMessage permitted (bne_iff_ne.1 belongs) payload ran
  | progress i =>
    rcases Call.unanswered_ok ran with ⟨a, ran⟩
    exact h.works_one (j := .progressInterface i) trivial rfl rfl ran
  | progressOf w =>
    rcases Call.unanswered_ok ran with ⟨a, ran⟩
    exact h.works_one (j := .progressWorker w) trivial rfl rfl ran
  | progressEndpoint e =>
    rcases Call.unanswered_ok ran with ⟨a, ran⟩
    exact h.progressEndpoint ran
  | progressStub x =>
    rcases Call.unanswered_ok ran with ⟨a, ran⟩
    exact h.works_one (j := .switchover x) trivial rfl rfl ran
  | _ => cases belongs

/-- An operation of a session keeps what is known. -/
theorem Peaceful.call (h : Peaceful plan s) {c : Call} (belongs : c.belongs plan s = true)
    (permitted : c.Permitted s) (ran : c.run s = (t, .ok ())) : Peaceful plan t := by
  have sober : False ∨ c.takesQueued = false := by
    refine .inr ?_
    cases c with
    | purgeQueue => cases belongs
    | _ => rfl
  have led := h.rested.call sober permitted ran
  exact ⟨h.agrees belongs permitted ran, led.rested, h.conserved.moves led.moves⟩

end Network

theorem Session.peaceful (h : Session plan s) : Network.Peaceful plan s := by
  induction h with
  | start process => exact .initial plan process
  | call c _ belongs permitted ran ih => exact ih.call belongs permitted ran

namespace Network

/-! ## Agreement -/

/-- The interface of a worker's resource for a lane, where it can pair links. -/
def PairsLane (s : Network) (w : Worker) (lane : Category) (i : InterfaceId) : Prop :=
  ∃ index r f, w.plan.resource lane = some index ∧ w.resources[index.toNat]? = some r ∧
    r.interface = i ∧ s.interfaces.get? i = some f ∧
    f.settings.capabilities.contains .connectToLink = true

/-- An endpoint of worker `a` to worker `b`. -/
structure Towards (s : Network) (a b : WorkerId) (wk vk : Worker) (e : EndpointId) (ep : Endpoint) :
    Prop where
  own : s.workers.get? a = some wk
  peer : s.workers.get? b = some vk
  entry : (vk.uuid, e) ∈ wk.directory
  here : s.endpoints.get? e = some ep

/-- What is sent over a link comes to an interface. -/
def LinkTo (s : Network) (l : LinkId) (i : InterfaceId) : Prop :=
  ∃ lk, s.links.get? l = some lk ∧ lk.dest = some i

/-- The slot holds a stub that is connected to a link of an interface, or a link of it. -/
inductive SlotTo (s : Network) (i : InterfaceId) : Slot → Prop
  | stub (x : StubId) (st : Stub) (l : LinkId) (here : s.stubs.get? x = some st)
      (connected : st.localConnected = true) (next : st.next = some l) (leads : s.LinkTo l i) :
      SlotTo s i (some (.stub x))
  | link (l : LinkId) (leads : s.LinkTo l i) : SlotTo s i (some (.link l))

/-- The lane of an endpoint had a stub and was switched over to a link. -/
structure SwitchedOver (s : Network) (w : Worker) (ep : Endpoint) (lane : Category) (l : LinkId) :
    Prop where
  planned : lane ∈ w.plan.lanes
  stubbed : ∃ i, s.PairsLane w lane i
  slot : ep.slots.get lane = some (.link l)

/-- Two workers agree on a lane that the first has switched over to a link: the link leads to the
interface of the second, which has an endpoint to the first that leads back to its interface. -/
def AgreeOn (s : Network) (a b : WorkerId) (wk vk : Worker) (lane : Category) (l : LinkId) : Prop :=
  ∃ i j, s.PairsLane wk lane i ∧ s.PairsLane vk lane j ∧ s.LinkTo l j ∧
    ∃ e ep, s.Towards b a vk wk e ep ∧ s.SlotTo i (ep.slots.get lane)

theorem pairing?_iff {w : Worker} {lane : Category} {i : InterfaceId} :
    s.layout.pairing? w.seat lane = some i ↔ s.PairsLane w lane i := by
  constructor
  · intro h
    rcases Layout.pairing?_eq_some h with ⟨index, r, f, planned, here, rfl, face, able⟩
    rcases Option.map_eq_some_iff.1 face with ⟨f', hf, rfl⟩
    exact ⟨index, r, f', planned, here, rfl, hf, able⟩
  · rintro ⟨index, r, f, planned, here, rfl, hf, able⟩
    have planned' : w.seat.plan.resource lane = some index := planned
    have here' : w.seat.resources[index.toNat]? = some r := here
    have face : s.layout.face r.interface = some f.face := by simp [layout, hf]
    have able' : f.face.settings.capabilities.contains .connectToLink = true := able
    simp only [Layout.pairing?, planned', here', face, Option.bind_eq_bind, Option.bind_some, able',
      if_true]

theorem LinkTo.of_dest? {l : LinkId} {i : InterfaceId} (h : s.layout.dest? l = some i) :
    s.LinkTo l i := by
  rcases Option.bind_eq_some_iff.1 h with ⟨c, course, dest⟩
  rcases Option.map_eq_some_iff.1 course with ⟨lk, here, rfl⟩
  exact ⟨lk, here, dest⟩

theorem SlotTo.of_leads {slot : Slot} {i : InterfaceId} (h : s.layout.Leads slot i) :
    s.SlotTo i slot := by
  rcases h with ⟨joined, l, serves, dest⟩
  cases slot with
  | none => cases serves
  | some c =>
    cases c with
    | link l' =>
      cases serves
      exact .link l (.of_dest? dest)
    | stub x =>
      rcases Option.bind_eq_some_iff.1 serves with ⟨st, stub, next⟩
      rcases Option.map_eq_some_iff.1 stub with ⟨st', here, rfl⟩
      simp only [Layout.isJoined, stub, Option.any_some] at joined
      exact .stub x st' l here joined next (.of_dest? dest)

/-- Lanes that were switched over are agreed on. -/
theorem Agreed.agreeOn (hs : Agreed plan none s) {a b : WorkerId} {wk vk : Worker} {e : EndpointId}
    {ep : Endpoint} (towards : s.Towards a b wk vk e ep) {lane : Category} {l : LinkId}
    (switched : s.SwitchedOver wk ep lane l) : s.AgreeOn a b wk vk lane l := by
  have own : s.layout.worker a = some wk.seat := by simp [layout, towards.own]
  have peer : s.layout.worker b = some vk.seat := by simp [layout, towards.peer]
  have planned : lane ∈ plan.lanes := by
    have same : wk.seat.plan = plan := hs.charted.plans a wk.seat own
    rw [← same]
    exact switched.planned
  rcases switched.stubbed with ⟨i, pairs⟩
  rcases hs.charted.known a wk.seat own _ towards.entry with ⟨ep', here, -, dest⟩
  cases towards.here.symm.trans here
  cases hs.charted.lanes a wk.seat own _ towards.entry (by simp) ep here lane planned with
  | direct unpaired free =>
    rw [pairing?_iff.2 pairs] at unpaired
    cases unpaired
  | waiting x st l c f slot =>
    rw [switched.slot] at slot
    cases slot
  | promoted l' b' vk' i' j slot paired bears there leads linked =>
    cases switched.slot.symm.trans slot
    rcases hs.charted.toSite.bears_unique bears ⟨peer, dest.symm⟩ with ⟨rfl, rfl⟩
    rcases linked with ⟨vk', wk', e', ep', i', hv, hw, -, -, back, entry, here', leads'⟩
    cases peer.symm.trans hv
    cases own.symm.trans hw
    have pairs' : s.PairsLane wk lane i' := pairing?_iff.1 back
    exact ⟨i', j, pairs', pairing?_iff.1 there, .of_dest? leads, e', ep',
      ⟨towards.peer, towards.own, entry, here'⟩, .of_leads leads'⟩

/-- All that was ever switched over is the lane of an endpoint. -/
theorem Agreed.switchedOver (hs : Agreed plan none s) {x : StubId} {l : LinkId}
    (switched : .switched x l ∈ s.trace) : ∃ a b wk vk e ep lane,
      s.Towards a b wk vk e ep ∧ s.SwitchedOver wk ep lane l := by
  rcases hs.switched x l switched with ⟨a, seat, e, ep, lane, own, ⟨uuid, entry⟩, here, planned,
    paired, slot⟩
  rcases Option.map_eq_some_iff.1 own with ⟨wk, hw, rfl⟩
  rcases Option.isSome_iff_exists.1 paired with ⟨i, paired⟩
  rcases hs.charted.known a wk.seat own _ entry with ⟨ep', here', -, dest⟩
  cases here.symm.trans here'
  rcases hs.charted.peers e ep here with ⟨-, b, seat', peer, bears⟩
  rcases Option.map_eq_some_iff.1 peer with ⟨vk, hv, rfl⟩
  have same : vk.uuid = uuid := bears.trans dest
  exact ⟨a, b, wk, vk, e, ep, lane, ⟨hw, hv, same ▸ entry, here⟩, planned,
    ⟨i, pairing?_iff.1 paired⟩, slot⟩

/-- In a session, what was ever switched over is the lane of an endpoint, and whenever a lane has
been switched over both sides agree on it. -/
theorem session_agreement (h : Session plan s) :
    (∀ x l, .switched x l ∈ s.trace → ∃ a b wk vk e ep lane,
      s.Towards a b wk vk e ep ∧ s.SwitchedOver wk ep lane l) ∧
    ∀ a b wk vk e ep lane l, s.Towards a b wk vk e ep → s.SwitchedOver wk ep lane l →
      s.AgreeOn a b wk vk lane l :=
  ⟨fun _ _ switched => h.peaceful.agreed.switchedOver switched,
    fun _ _ _ _ _ _ _ _ towards switched => h.peaceful.agreed.agreeOn towards switched⟩

end Network

/-- Continues a session, as long as the operations belong to it and meet no violation. -/
def Call.playAll (plan : Plan) : Network → List Call → Option Network
  | s, [] => some s
  | s, c :: cs =>
    if c.belongs plan s = true ∧ c.Permitted s then
      match c.run s with
      | (t, .ok ()) => playAll plan t cs
      | (_, .error _) => none
    else none

theorem Session.of_playAll {cs : List Call} (h : Session plan s)
    (played : Call.playAll plan s cs = some t) : Session plan t := by
  induction cs generalizing s with
  | nil =>
    cases played
    exact h
  | cons c cs ih =>
    unfold Call.playAll at played
    split at played
    · rename_i fits
      split at played
      · rename_i u ran
        exact ih (.call c h fits.1 fits.2 ran) played
      · cases played
    · cases played

namespace Network

/-- The plan of the workers of a pair. -/
def pairPlan : Plan := (Plan.withResource {} .messages 0).withResource .memory 1

/-- Both workers of a pair create an endpoint to the other at once, send data, and progress until
their stubs are switched over. -/
def crossed : Option Network :=
  Call.playAll pairPlan { process := 1 } [.openFabric,
    Call.pairInterface .connectToInterface 4, Call.pairInterface .connectToLink 4,
    Call.pairInterface .connectToInterface 4, Call.pairInterface .connectToLink 4,
    Call.pairWorker 1 0 1, Call.pairWorker 2 2 3,
    .createEndpoint 0 (pairAddress 2 3 4), .createEndpoint 1 (pairAddress 1 1 2),
    .sendMessage 0 1 [7], .progressOf 1, .progressOf 0, .progressOf 1, .progressOf 0,
    .progressEndpoint 0, .progressEndpoint 1]

/-- The stubs of both workers were switched over, and they agree on their lanes. -/
theorem session_agreement_crossed : ∃ s, crossed = some s ∧ Session pairPlan s ∧
    ∀ x ∈ [0, 1], ∃ l, .switched x l ∈ s.trace ∧ ∃ a b wk vk e ep lane,
      s.Towards a b wk vk e ep ∧ s.SwitchedOver wk ep lane l ∧ s.AgreeOn a b wk vk lane l := by
  have played : crossed.isSome = true := by decide +kernel
  have switches : ∀ x ∈ [0, 1], (crossed.map fun s => s.trace.any (Happening.switches x)) =
      some true := by decide +kernel
  rcases Option.isSome_iff_exists.1 played with ⟨s, hs⟩
  have session : Session pairPlan s := .of_playAll (.start 1) hs
  have agreement := session_agreement session
  refine ⟨s, hs, session, fun x hx => ?_⟩
  have switched := switches x hx
  rw [hs, Option.map_some, Option.some.injEq, Array.any_eq_true] at switched
  rcases switched with ⟨i, small, here⟩
  rcases Happening.switches_iff.1 here with ⟨l, happened⟩
  have mem : .switched x l ∈ s.trace := happened ▸ Array.getElem_mem small
  rcases agreement.1 x l mem with ⟨a, b, wk, vk, e, ep, lane, towards, switched⟩
  exact ⟨l, mem, a, b, wk, vk, e, ep, lane, towards, switched,
    agreement.2 a b wk vk e ep lane l towards switched⟩

end Network

end Wiring
