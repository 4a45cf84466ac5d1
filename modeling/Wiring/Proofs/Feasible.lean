import Mathlib
import Wiring.Proofs.Choice
import Wiring.Proofs.Launch
import Wiring.Proofs.Outfitting
import Wiring.Proofs.Success

/-!
# Scenarios that can be carried out

A scenario is sound if its resources exist and are fit for what they serve. Both workers of a run are
then fitted out alike, and the run wires them up and delivers everything within three rounds more than
there are messages.
-/
namespace Wiring

open Activity

/-- A party with a handler for the messages of an id. -/
def Party.hears (p : Party) (messageId : UInt8) (h : Handler) : Party :=
  { p with handlers := (messageId, h) :: p.handlers.filter fun entry => entry.1 != messageId }

namespace Network

variable {s t : Network} {o : Outfit} {p q : Party} {ps : List Party} {messageId : UInt8}
  {handler : Handler}

/-! ## The beginning -/

/-- A worker listens to the messages of one more id. The other ones do not notice. -/
theorem Seated.hears (h : Seated o p s) (dawn : Dawn s) (messageId : UInt8) (handler : Handler) :
    Dawn (s.setWorkerHandler p.worker messageId handler) ∧
    Seated o (p.hears messageId handler) (s.setWorkerHandler p.worker messageId handler) ∧
    (s.setWorkerHandler p.worker messageId handler).interfaces.next = s.interfaces.next ∧
    ∀ q, Seated o q s → (∀ n < o.specs.length, ∀ m < o.specs.length, q.at n ≠ p.at m) →
      Seated o q (s.setWorkerHandler p.worker messageId handler) := by
  rcases foldl_setHandler_get? messageId handler (o.resources p) s with ⟨interfaces, done, next, same⟩
  have made : s.setWorkerHandler p.worker messageId handler = { s with interfaces } := by
    unfold setWorkerHandler
    rw [h.worker]
    exact done
  rw [made]
  refine ⟨{ dawn with
    fabric := ?_
    faces := fun i f here => ?_ }, { h with stations := fun n hn => ?_ }, next, fun q seated apart => ?_⟩
  · rcases dawn.fabric with ⟨fb, fabric, number, count⟩
    exact ⟨fb, fabric, number, count.trans next.symm⟩
  · rcases Option.map_eq_some_iff.1 ((same i).symm.trans here) with ⟨f', there, rfl⟩
    have known := dawn.faces i f' there
    split <;> exact known
  · rcases h.stations n hn with ⟨f, there, settings, handlers⟩
    have mine : ∃ r ∈ o.resources p, r.interface = p.at n :=
      ⟨_, List.mem_of_getElem? (Outfit.getElem?_resources hn), rfl⟩
    refine ⟨f.hears messageId handler, ?_, settings, ?_⟩
    · refine (same (p.at n)).trans ?_
      rw [there, Option.map_some, if_pos mine]
    · simp only [Interface.hears, Party.hears, handlers]
  · refine seated.beside (fun _ _ => id) (fun _ _ => id) seated.attended fun n hn => ?_
    have other : ¬ ∃ r ∈ o.resources p, r.interface = q.at n := by
      rintro ⟨r, mem, found⟩
      rcases List.mem_iff_getElem?.1 mem with ⟨m, at_m⟩
      rcases List.getElem?_eq_some_iff.1 at_m with ⟨hm, -⟩
      rw [Outfit.resources_length] at hm
      rw [Outfit.getElem?_resources hm] at at_m
      exact apart n hn m hm (found.symm.trans (congrArg Resource.interface (Option.some.inj at_m).symm))
    refine (same (q.at n)).trans ?_
    simp only [other, if_false, Option.map_id']

/-- A run begins with workers that are in their places, and nothing on its way. -/
theorem Dawn.stage (h : Dawn s) (seated : ∀ p ∈ ps, Seated o p s)
    (small : s.interfaces.next < UInt64.size) : Stage o ps { runners := s.registries.get? } s where
  scene :=
    { calm := h.calm
      fabric := by
        rcases h.fabric with ⟨fb, fabric, number, -⟩
        exact ⟨fb, fabric, number⟩
      numbers := fun i f here => by
        rcases h.faces i f here with ⟨fabric, number, -⟩
        exact ⟨fabric, number, lt_of_le_of_lt (Table.lt_next_of_get? here) small⟩
      stations := fun p hp => (seated p hp).stations
      gates := fun g n here => by
        rw [h.gates] at here
        cases here
      well := fun k out here => by
        rw [show s.ledger.handles = {} from h.handles] at here
        cases here
      attended := fun p hp => (seated p hp).attended
      unheld := h.unheld }
  housed l here := by
    rw [h.links] at here
    cases here
  bears :=
    { mail := fun i f here => (h.faces i f here).2.2
      links := fun l lk here => by
        rw [h.links] at here
        cases here
      parked := fun x st here => by
        rw [h.stubs] at here
        cases here
      runners := fun _ => rfl
      arrived := by
        rw [h.unseen]
        rfl
      freshLinks := fun _ _ => ⟨rfl, rfl⟩
      freshStubs := fun _ _ => rfl }

end Network

open Network

/-! ## Sound scenarios -/

namespace Scenario

variable {sc : Scenario} {messages maxRounds : Nat}

/-- The plan of a scenario whose resources exist. -/
def fullPlan (sc : Scenario) : Plan := ⟨⟨some sc.messages, sc.memory, none⟩, .const none⟩

/-- What the workers of a run have: the resources that they can address, and the plan. -/
def outfit (sc : Scenario) : Outfit := ⟨sc.resources.take maxResources, sc.fullPlan⟩

/-- The worker that creates an endpoint. -/
def alpha : Party where
  worker := 0
  uuid := generatedUuid 1 0
  name := "alpha"
  registry := 0
  base := 0
  endpoint := 0
  handlers := [(Signal.messageId, .signals 0)]

/-- The worker that records what arrives. -/
def beta (sc : Scenario) : Party where
  worker := 1
  uuid := generatedUuid 1 1
  name := "beta"
  registry := 1
  base := sc.resources.length
  endpoint := 1
  handlers := [(dataMessageId, .record "beta" none false), (Signal.messageId, .signals 1)]

/-- The resources that a scenario names exist, and all of them have a credit and room for a number and
for the request of the initiator, whatever the numbers of its links are. The one for messages can
carry them, and each that serves something can be connected in one of the two ways. -/
structure Sound (sc : Scenario) : Prop where
  messages : sc.messages.toNat < sc.resources.length
  memory : ∀ index, sc.memory = some index → index.toNat < sc.resources.length
  credits : ∀ spec ∈ sc.resources, 1 ≤ spec.settings.credits
  bulk : ∀ spec ∈ sc.resources, 4 ≤ spec.settings.maxBulk
  request : ∀ spec ∈ sc.resources, ∀ lanes, Announced sc.outfit alpha lanes →
    (sc.outfit.message alpha sc.beta .request lanes).encode.length ≤ spec.settings.maxBulk
  active : ∀ spec, sc.resources[sc.messages.toNat]? = some spec →
    spec.settings.capabilities.contains .bulkMessages = true
  connects : ∀ index, sc.messages = index ∨ sc.memory = some index →
    ∀ spec, sc.resources[index.toNat]? = some spec →
      spec.settings.capabilities.contains .connectToLink = true ∨
      spec.settings.capabilities.contains .connectToInterface = true
  /-- Sizes are words, and a list in memory has less entries than half of them. -/
  machine : 2 * sc.resources.length < UInt64.size ∧
    ∀ spec ∈ sc.resources, spec.settings.maxBulk < UInt64.size

/-- If the resource for messages pairs links, one of some resources can carry signals meanwhile. -/
def Assisted (sc : Scenario) (specs : List ResourceSpec) : Prop :=
  ∀ spec, sc.resources[sc.messages.toNat]? = some spec →
    spec.settings.capabilities.contains .connectToLink = true →
    ∃ spec ∈ specs, ∃ score,
      Scorer.auxiliary.score spec.settings.attributes = .ok score ∧ 0 < score

theorem resource_fullPlan (sc : Scenario) {c : Category} {index : ResourceIndex}
    (h : sc.fullPlan.resource c = some index) : sc.messages = index ∨ sc.memory = some index := by
  cases c with
  | messages => exact .inl (Option.some.inj h)
  | memory => exact .inr h
  | atomics => cases h

theorem isLane_fullPlan (sc : Scenario) (c : Category) :
    sc.fullPlan.isLane c = (sc.fullPlan.resource c).isSome := by
  cases c <;> rfl

/-- The parties of a run have nothing in common. -/
theorem strangers (sc : Scenario) : Strangers sc.outfit alpha sc.beta where
  worker := by simp [alpha, beta]
  endpoint := by simp [alpha, beta]
  uuid := (by decide : generatedUuid 1 0 ≠ generatedUuid 1 1)
  faces n hn m _ := by
    have small : n < sc.resources.length := hn.trans_le (List.length_take_le' ..)
    have apart : 0 + n ≠ sc.resources.length + m := by omega
    exact apart

namespace Sound

variable {spec : ResourceSpec} {index : ResourceIndex} {n : Nat}

theorem plan (h : sc.Sound) : sc.plan = .ok sc.fullPlan := by
  have messages : sc.serve {} .messages (some sc.messages) =
      .ok (({} : Plan).withResource .messages sc.messages) :=
    if_neg (Nat.not_le.2 h.messages)
  have memory : sc.serve (({} : Plan).withResource .messages sc.messages) .memory sc.memory =
      .ok sc.fullPlan := by
    unfold serve fullPlan
    cases given : sc.memory with
    | none => rfl
    | some index => exact if_neg (Nat.not_le.2 (h.memory index given))
  unfold Scenario.plan
  rw [messages]
  exact memory

/-- What is served is served by a resource that a worker can address. -/
theorem served (h : sc.Sound) (named : sc.messages = index ∨ sc.memory = some index) :
    ∃ spec, sc.resources[index.toNat]? = some spec ∧ index.toNat < sc.outfit.specs.length ∧
      sc.outfit.spec index.toNat = spec := by
  have small : index.toNat < sc.resources.length := by
    rcases named with rfl | named
    · exact h.messages
    · exact h.memory index named
  have few : index.toNat < sc.outfit.specs.length := by
    have byte : index.toNat < maxResources := index.toNat_lt
    exact List.length_take ▸ Nat.lt_min.2 ⟨byte, small⟩
  refine ⟨sc.resources[index.toNat], List.getElem?_eq_getElem small, few, ?_⟩
  rw [Outfit.spec, List.getD_eq_getElem _ _ few]
  exact List.getElem_take

theorem spec_mem (hn : n < sc.outfit.specs.length) : sc.outfit.spec n ∈ sc.resources :=
  List.mem_of_mem_take (Outfit.spec_mem hn)

/-- There are addresses that a party may tell. -/
theorem announced (o : Outfit) (p : Party) : ∃ lanes, Announced o p lanes := by
  refine ⟨o.stubbed.map fun c => ⟨c, Bytes.word 1,
    Bytes.word (UInt64.ofNat (p.at (o.serves c) + 1)) ++ Bytes.word 1⟩, ?_, fun entry mem => ?_⟩
  · rw [List.map_map]
    exact List.map_id _
  · rcases List.mem_map.1 mem with ⟨c, -, rfl⟩
    exact ⟨rfl, 1, rfl⟩

/-- The resources of a sound scenario are fit for its plan. -/
theorem fair (h : sc.Sound) (assisted : sc.Assisted (sc.resources.take maxResources)) :
    sc.outfit.Fair (29 + 44 * sc.outfit.stubbed.length +
      (WorkerAddress.encode ⟨alpha.uuid, alpha.name, sc.outfit.entries alpha⟩).length) where
  unaliased c := PerCategory.get_const none c
  messages := Plan.mem_lanes.2 rfl
  served c hc := by
    have lane : (sc.fullPlan.resource c).isSome = true :=
      (isLane_fullPlan sc c).symm.trans (Plan.mem_lanes.1 hc)
    rcases Option.isSome_iff_exists.1 lane with ⟨index, found⟩
    rcases h.served (resource_fullPlan sc found) with ⟨-, -, small, -⟩
    exact ⟨index, found, small⟩
  few := List.length_take_le ..
  bulk := by
    rcases h.served (.inl rfl) with ⟨spec, there, -, same⟩
    rw [Outfit.settings, show sc.outfit.spec (sc.outfit.serves .messages) = spec from same]
    exact h.active spec there
  direct c hc unpaired := by
    have lane : (sc.fullPlan.resource c).isSome = true :=
      (isLane_fullPlan sc c).symm.trans (Plan.mem_lanes.1 hc)
    rcases Option.isSome_iff_exists.1 lane with ⟨index, found⟩
    have named := resource_fullPlan sc found
    rcases h.served named with ⟨spec, there, -, same⟩
    have serves : sc.outfit.serves c = index.toNat := by
      rw [Outfit.serves, show sc.outfit.plan.resource c = some index from found]
      rfl
    rw [Outfit.paired, Outfit.settings, serves, same] at unpaired
    rw [Outfit.settings, serves, same]
    rcases h.connects index named spec there with links | direct
    · rw [unpaired] at links
      cases links
    · exact direct
  auxiliary paired := by
    rcases h.served (.inl rfl) with ⟨spec, there, -, same⟩
    have able : spec.settings.capabilities.contains .connectToLink = true := by
      rw [← same]
      exact paired
    rcases assisted spec there able with ⟨helper, mem, score, scored, positive⟩
    rcases List.mem_iff_getElem.1 mem with ⟨n, hn, rfl⟩
    refine ⟨n, hn, score, ?_, positive⟩
    rw [Outfit.settings, Outfit.spec]
    exact (congrArg (fun spec => Scorer.auxiliary.score (ResourceSpec.settings spec).attributes)
      (List.getD_eq_getElem _ _ hn)).trans scored
  credits n hn := h.credits _ (spec_mem hn)
  room n hn := by
    rcases announced sc.outfit alpha with ⟨lanes, told⟩
    have request := h.request _ (spec_mem hn) lanes told
    rw [told.encode_length, if_pos rfl] at request
    exact ⟨h.bulk _ (spec_mem hn), request, h.machine.2 _ (spec_mem hn)⟩

theorem cast (h : sc.Sound) (assisted : sc.Assisted (sc.resources.take maxResources)) :
    ∃ size, Cast sc.outfit alpha sc.beta size := by
  refine ⟨_, h.fair assisted, sc.strangers, by simp [alpha, beta], fun r hr => ?_, ⟨"beta", rfl⟩,
    le_rfl⟩
  simp only [List.mem_cons, List.not_mem_nil, or_false] at hr
  rcases hr with rfl | rfl <;> rfl

/-- Both workers take their places, and the second one records what it gets. -/
theorem begins (h : sc.Sound) : ∃ s t u,
    sc.openWorker 0 "alpha" (openFabric {}).1 = .ok (.ok 0, s) ∧
    sc.openWorker 0 "beta" s = .ok (.ok 1, t) ∧
    t.setWorkerHandler 1 dataMessageId (.record "beta" none false) = u ∧
    Dawn u ∧ Seated sc.outfit alpha u ∧ Seated sc.outfit sc.beta u ∧
    u.interfaces.next < UInt64.size := by
  rcases dawn_openFabric.openWorker h.plan "alpha" 0 with
    ⟨s, opened, dawn, seated, workers, interfaces, -⟩
  rcases dawn.openWorker h.plan "beta" 1 with ⟨t, opened', dawn, seated', -, interfaces', kept⟩
  have workers : s.workers.next = 1 := workers
  have interfaces : s.interfaces.next = sc.resources.length := interfaces.trans (Nat.zero_add _)
  have party : (s.newcomer "beta" 1).hears dataMessageId (.record "beta" none false) = sc.beta := by
    simp only [newcomer, workers, interfaces]
    rfl
  have worker : (s.newcomer "beta" 1).worker = 1 := workers
  rcases seated'.hears dawn dataMessageId (.record "beta" none false) with ⟨dawn', there, next, beside⟩
  rw [party, worker] at there
  rw [worker] at dawn' next beside
  rw [workers] at opened'
  refine ⟨s, t, _, opened, opened', rfl, dawn', beside alpha (kept _ _ seated) fun n hn m hm => ?_,
    there, ?_⟩
  · have base : (s.newcomer "beta" 1).at m = sc.beta.at m := congrArg (· + m) interfaces
    rw [base]
    exact sc.strangers.faces n hn m hm
  · rw [next, interfaces', interfaces, ← Nat.two_mul]
    exact h.machine.1

/-- A run of a sound scenario needs at most two rounds more than there are messages. -/
theorem runs (h : sc.Sound) (assisted : sc.Assisted (sc.resources.take maxResources))
    (enough : messages + 2 ≤ maxRounds) :
    ∃ report, (Command.run messages maxRounds).execute sc = .ok (.ok (.run report)) := by
  rcases h.cast assisted with ⟨size, cast⟩
  rcases h.begins with ⟨s, t, u, first, second, heard, dawn, alpha', beta', small⟩
  have stage : Stage sc.outfit [alpha, sc.beta] { runners := u.registries.get? } u := by
    refine dawn.stage (fun p hp => ?_) small
    simp only [List.mem_cons, List.not_mem_nil, or_false] at hp
    rcases hp with rfl | rfl
    · exact alpha'
    · exact beta'
  rcases stage.launches cast dawn.idle (congrArg (Option.map Worker.seat) alpha'.worker)
    (congrArg (Option.map Worker.seat) beta'.worker) (congrArg Table.next dawn.endpoints) rfl
    ⟨fun _ => rfl, fun _ => rfl, fun _ => rfl, fun _ => rfl, alpha'.registry, beta'.registry, rfl⟩
    (congrArg Table.next dawn.links) with
    ⟨v, c, slots, links, m, l, index, created, requested, idle, auxiliary⟩
  have asks : ∃ t handles c' new' waiting',
      (alpha.setup sc.beta messages).sendAll (List.range messages) v = .ok (handles, t) ∧
      Requested sc.outfit alpha sc.beta (0 + (List.range messages).length) c' slots links m l new'
        waiting' t ∧ t.agenda = [] :=
    requested.asks_all cast (List.range messages) idle
  rcases asks with ⟨w, handles, c', new', waiting', sent, requested', idle'⟩
  rw [List.length_range, Nat.zero_add] at requested'
  rcases requested'.delivers_all cast idle' auxiliary sent enough with ⟨report, x, delivered⟩
  have address : ((u.workers.get? 1).map u.workerAddress).getD Inhabited.default =
      ⟨sc.beta.uuid, sc.beta.name, sc.outfit.entries sc.beta⟩ := by
    rw [show u.workers.get? 1 = some _ from beta'.worker, Option.map_some, Option.getD_some]
    exact stage.scene.workerAddress (by simp)
      (rfl : sc.outfit.seat sc.beta [] = { sc.outfit.seat sc.beta [] with parkedCount := 0 })
  rw [← address] at created
  have run : runScenario sc messages maxRounds {} = .ok (.ok report, x) := by
    unfold runScenario
    refine (bind_of (update_of (f := openFabric) rfl)).trans ((bind_of first).trans
      ((bind_of second).trans ?_))
    refine (bind_of (show (modify _ : Activity PUnit) t = .ok (.unit, u) from ?_)).trans
      ((bind_of (perform_of (f := fun s => s.createEndpoint 0
        (((s.workers.get? 1).map s.workerAddress).getD Inhabited.default)) created)).trans delivered)
    rw [← heard]
    rfl
  refine ⟨report, ?_⟩
  have run' : (runScenario sc messages maxRounds).run' {} = .ok (.ok report) := by
    rw [StateT.run'_eq, StateT.run, run]
    rfl
  simp only [Command.execute, run']
  rfl

/-- It is enough that the request is as long as it gets with some numbers of links. -/
theorem request_of_le {size : Nat} (small : 29 + 44 * sc.outfit.stubbed.length +
      (WorkerAddress.encode ⟨alpha.uuid, alpha.name, sc.outfit.entries alpha⟩).length ≤ size)
    (lanes : List LaneAddress) (told : Announced sc.outfit alpha lanes) :
    (sc.outfit.message alpha sc.beta .request lanes).encode.length ≤ size := by
  rw [told.encode_length, if_pos rfl]
  exact small

end Sound

/-- A run that succeeds had a resource for its signals, if its lane for messages was to be paired. -/
theorem assisted_of_run {report : RunReport}
    (ran : (Command.run messages maxRounds).execute sc = .ok (.ok (.run report))) :
    sc.Assisted (sc.resources.take maxResources) := by
  intro spec there able
  rcases execute_done ran with ⟨run, t, done, -⟩
  rcases runScenario_delivers done with ⟨first, second, s, -, -, -, opened, -⟩
  rcases opened.stocked with ⟨-, -, wk, -, here, -⟩
  have pairs : sc.pairs = true := by
    rw [Scenario.pairs, there, Option.any_some]
    exact able
  have shown := opened.run_auxiliary here done
  rw [if_pos pairs] at shown
  rcases shown with ⟨n, c, choice, -⟩
  rcases choice.best with ⟨score, scored, positive, -⟩
  rcases List.mem_map.1 (List.mem_of_getElem? choice.place) with ⟨helper, mem, rfl⟩
  exact ⟨helper, mem, score, scored, positive⟩

/-- A sound scenario is carried out within three rounds more than there are messages, if one of the
resources that a worker can address carries the signals as long as the lane for messages is not
paired. -/
theorem run_succeeds (sc : Scenario) (sound : sc.Sound)
    (assisted : sc.Assisted (sc.resources.take maxResources)) (messages maxRounds : Nat)
    (enough : messages + 3 ≤ maxRounds) :
    ∃ report, (Command.run messages maxRounds).execute sc = .ok (.ok (.run report)) :=
  sound.runs assisted (Nat.le_of_succ_le enough)

/-- The default scenario pairs the link for its messages with the help of the second resource. -/
theorem run_succeeds_default : default.Sound ∧ default.Assisted (default.resources.take maxResources) ∧
    2 + 3 ≤ 5 ∧ ∃ report, (Command.run 2 5).execute default = .ok (.ok (.run report)) := by
  have sound : default.Sound :=
    { messages := by decide
      memory := fun _ none => by cases none
      credits := by decide
      bulk := by decide
      request := fun spec hs => Sound.request_of_le (by
        revert spec
        decide +kernel)
      active := by decide
      connects := fun index named spec here => by
        rcases named with rfl | none
        · cases here
          exact .inl (by decide)
        · cases none
      machine := by decide +kernel }
  have assisted : default.Assisted (default.resources.take maxResources) := fun _ _ _ =>
    ⟨⟨⟨"loopback", "lo0"⟩, {}⟩, by simp [default, maxResources], _, rfl, by decide +kernel⟩
  exact ⟨sound, assisted, le_rfl, run_succeeds default sound assisted 2 5 le_rfl⟩

/-- Settings of a resource that pairs links only. -/
def pairsOnly : InterfaceSettings :=
  { capabilities := Capabilities.loopback.difference .connectToInterface, maxBulk := 65536 }

/-- A resource that pairs links only, of a transport of its own. -/
def pairing (n : Nat) : ResourceSpec := ⟨⟨"shm" ++ toString n, "mem0"⟩, pairsOnly⟩

/-- A resource that can carry signals. -/
def helper : ResourceSpec := ⟨⟨"loopback", "lo0"⟩, { maxBulk := 65536 }⟩

/-- The helper comes after as many resources as a worker can address. -/
def crowded : Scenario where
  resources := (List.range maxResources).map pairing ++ [helper]
  messages := 0

theorem mem_crowded {spec : ResourceSpec} (h : spec ∈ crowded.resources) :
    spec.settings = pairsOnly ∨ spec.settings = { maxBulk := 65536 } := by
  rcases List.mem_append.1 h with mem | mem
  · rcases List.mem_map.1 mem with ⟨n, -, rfl⟩
    exact .inl rfl
  · rw [List.mem_singleton.1 mem]
    exact .inr rfl

theorem crowded_length : crowded.resources.length = maxResources + 1 := by
  rw [crowded, List.length_append, List.length_map, List.length_range, List.length_singleton]

theorem crowded_sound : crowded.Sound where
  messages := by
    rw [crowded_length]
    decide
  memory _ none := by cases none
  credits spec mem := by
    rcases mem_crowded mem with same | same <;> rw [same] <;> decide
  bulk spec mem := by
    rcases mem_crowded mem with same | same <;> rw [same] <;> decide
  request spec mem := by
    have small : 29 + 44 * crowded.outfit.stubbed.length + (WorkerAddress.encode
        ⟨alpha.uuid, alpha.name, crowded.outfit.entries alpha⟩).length ≤ 65536 := by
      decide +kernel
    rcases mem_crowded mem with same | same <;> rw [same] <;> exact Sound.request_of_le small
  active spec here := by
    rcases mem_crowded (List.mem_of_getElem? here) with same | same <;> rw [same] <;> decide
  connects index named spec here := by
    rcases mem_crowded (List.mem_of_getElem? here) with same | same <;> rw [same] <;> decide
  machine := by
    rw [crowded_length]
    refine ⟨by decide +kernel, fun spec mem => ?_⟩
    rcases mem_crowded mem with same | same <;> rw [same] <;> decide +kernel

/-- A resource past those that a worker can address does not help. -/
theorem run_fails_crowded : crowded.Sound ∧ crowded.Assisted crowded.resources ∧ 1 + 3 ≤ 4 ∧
    ∀ report, (Command.run 1 4).execute crowded ≠ .ok (.ok (.run report)) := by
  refine ⟨crowded_sound, fun _ _ _ => ⟨helper, by simp [crowded], _, rfl, by decide +kernel⟩, le_rfl,
    fun report ran => ?_⟩
  have first : crowded.resources[crowded.messages.toNat]? = some (pairing 0) := rfl
  have able : pairsOnly.capabilities.contains .connectToLink = true := by decide
  rcases assisted_of_run ran (pairing 0) first able with ⟨spec, mem, score, scored, -⟩
  have addressed : crowded.resources.take maxResources = (List.range maxResources).map pairing :=
    List.take_left' (by rw [List.length_map, List.length_range])
  rw [addressed] at mem
  rcases List.mem_map.1 mem with ⟨n, -, rfl⟩
  have unable : Scorer.auxiliary.score pairsOnly.attributes = .error "connecting to iface" := rfl
  rw [show (pairing n).settings = pairsOnly from rfl, unable] at scored
  cases scored

end Scenario

end Wiring
