import Mathlib
import Wiring.Report
import Wiring.Proofs.Codec
import Wiring.Proofs.Sending

/-!
# What a run reports

A run opens two workers in a blank network, lets the endpoint of the first one send, and goes round
until as many numbers have arrived as were sent. As none arrives twice, and none before those sent
before it, these are the numbers that were sent. Nothing more arrives while the workers are closed.
-/
namespace Wiring

open Network (Blank Poised Underway)

variable {s t u : Network} {α β : Type}

/-! ## Activities that succeed -/

namespace Activity

variable {x : Activity α} {f : α → Activity β} {a : α} {b : β}

theorem bind_done (ran : (x >>= f) s = .ok (b, u)) : ∃ a t, x s = .ok (a, t) ∧ f a t = .ok (b, u) := by
  change (x s >>= fun p => f p.1 p.2) = .ok (b, u) at ran
  cases first : x s with
  | error v =>
    rw [first] at ran
    cases ran
  | ok p =>
    rw [first] at ran
    exact ⟨p.1, p.2, rfl, ran⟩

theorem pure_done {a b : α} (ran : (pure a : Activity α) s = .ok (b, u)) : b = a ∧ u = s := by
  cases ran
  exact ⟨rfl, rfl⟩

theorem get_done {s' : Network} (ran : (get : Activity Network) s = .ok (s', u)) :
    s' = s ∧ u = s := by
  cases ran
  exact ⟨rfl, rfl⟩

theorem modify_done {f : Network → Network} (ran : (modify f : Activity PUnit) s = .ok (⟨⟩, u)) :
    u = f s := by
  cases ran
  rfl

theorem perform_done {op : Network → Network × Except Violation α}
    (ran : perform op s = .ok (a, u)) : op s = (u, .ok a) := by
  unfold perform at ran
  split at ran
  · rename_i v b done
    cases ran
    exact done
  · cases ran

theorem update_done {op : Network → Network × α} (ran : update op s = .ok (a, u)) :
    op s = (u, a) := by
  cases ran
  rfl

end Activity

open Activity

/-! ## Wiring up -/

theorem openInterface_eq (s : Network) (fabric : FabricId) (settings : InterfaceSettings) :
    ∃ fabrics number holds, s.openInterface fabric settings =
      ({ s with fabrics, interfaces := s.interfaces.push { fabric, number, settings }, holds },
        s.interfaces.next) := by
  simp only [Network.openInterface]
  rcases Network.keep_eq _ (.interface s.interfaces.next) with ⟨holds, kept⟩
  rw [kept]
  exact ⟨_, _, holds, rfl⟩

/-- The resources have the names that are specified, and their interfaces are open on a fabric with
the settings that are specified. -/
def Network.Stocked (s : Network) (fabric : FabricId) (specs : List ResourceSpec)
    (resources : List Resource) : Prop :=
  List.Forall₂ (fun spec r => r.name = spec.name ∧ ∃ i, s.interfaces.get? r.interface = some i ∧
    i.fabric = fabric ∧ i.settings = spec.settings) specs resources

namespace Network.Stocked

variable {fabric : FabricId} {specs : List ResourceSpec} {resources : List Resource}

theorem contains (h : s.Stocked fabric specs resources) :
    ∀ r ∈ resources, s.interfaces.contains r.interface = true := by
  intro r hr
  rcases List.mem_iff_getElem.1 hr with ⟨n, below, rfl⟩
  rcases (List.forall₂_iff_get.1 h).2 n (h.length_eq ▸ below) below with ⟨-, i, here, -⟩
  exact Table.contains_of_get? here

/-- Resources whose interfaces still live are as they were. -/
theorem later (h : s.Stocked fabric specs resources) (up : s.Upholds t)
    (live : ∀ r ∈ resources, t.interfaces.contains r.interface = true) :
    t.Stocked fabric specs resources := by
  induction h with
  | nil => exact .nil
  | cons same others ih =>
    refine .cons ⟨same.1, ?_⟩ (ih fun r hr => live r (List.mem_cons_of_mem _ hr))
    rcases same.2 with ⟨i, here, fabric, settings⟩
    rcases Table.contains_iff.1 (live _ List.mem_cons_self) with ⟨i', there⟩
    rcases up.same _ i' there (Table.lt_next_of_get? here) with ⟨j, here', fabric', settings'⟩
    cases here.symm.trans here'
    exact ⟨i', there, fabric'.symm.trans fabric, settings'.symm.trans settings⟩

end Network.Stocked

/-- Resources are opened as they are specified, and the workers are the same. -/
theorem openResources_blank (hs : Blank s) {fabric : FabricId} {specs : List ResourceSpec}
    {resources : List Resource}
    (ran : Scenario.openResources fabric specs s = .ok (resources, t)) :
    Blank t ∧ t.workers = s.workers ∧ s.Upholds t ∧
      (∀ i f, s.interfaces.get? i = some f → t.interfaces.get? i = some f) ∧
      t.Stocked fabric specs resources := by
  induction specs generalizing s resources with
  | nil =>
    rcases pure_done ran with ⟨rfl, rfl⟩
    exact ⟨hs, rfl, .refl _, fun _ _ here => here, .nil⟩
  | cons spec specs ih =>
    unfold Scenario.openResources at ran
    rcases bind_done ran with ⟨i, v, opened, ran⟩
    rcases bind_done ran with ⟨rest, v', others, ran⟩
    rcases pure_done ran with ⟨rfl, rfl⟩
    have made := update_done opened
    have blank := hs.openInterface fabric spec.settings
    have upholds := Network.Upholds.openInterface s fabric spec.settings
    rcases openInterface_eq s fabric spec.settings with ⟨fabrics, number, holds, eq⟩
    rw [eq] at made blank upholds
    cases made
    rcases ih blank others with ⟨blank', workers, upholds', keeps, stocked⟩
    refine ⟨blank', workers, upholds.trans upholds', fun k f here => keeps k f ?_,
      .cons ⟨rfl, ⟨fabric, number, spec.settings, [], [], 0⟩, keeps _ _ ?_, rfl, rfl⟩ stocked⟩
    · exact (Table.get?_push ..).trans ((if_neg (Table.lt_next_of_get? here).ne).trans here)
    · exact (Table.get?_push ..).trans (if_pos rfl)

/-- The holds on the interfaces are let go of. -/
theorem dropAll_blank (hs : Blank s) {resources : List Resource}
    (ran : (forIn resources PUnit.unit fun r _ => do
      Activity.drop (.interface r.interface)
      pure (ForInStep.yield PUnit.unit) : Activity PUnit) s = .ok (PUnit.unit, t)) :
    Blank t ∧ t.workers = s.workers ∧ s.Upholds t := by
  induction resources generalizing s with
  | nil =>
    rcases pure_done ran with ⟨-, rfl⟩
    exact ⟨hs, rfl, .refl _⟩
  | cons r rs ih =>
    rw [List.forIn_cons] at ran
    rcases bind_done ran with ⟨next, v, ran, others⟩
    rcases bind_done ran with ⟨⟨⟩, v', dropped, ran⟩
    rcases pure_done ran with ⟨rfl, rfl⟩
    rcases hs.drop (perform_done dropped) with ⟨blank, workers, upholds⟩
    rcases ih blank others with ⟨blank', workers', upholds'⟩
    exact ⟨blank', workers'.trans workers, upholds.trans upholds'⟩

theorem setWorkerHandler_workers (s : Network) (w : WorkerId) (messageId : UInt8) (h : Handler) :
    (s.setWorkerHandler w messageId h).workers = s.workers := by
  unfold Network.setWorkerHandler
  split
  · rfl
  · rename_i wk here
    rcases Network.foldl_setHandler s messageId h wk.resources with ⟨interfaces, -, same⟩
    rw [same]

theorem openWorker_workers (s : Network) (settings : WorkerSettings) (plan : Plan)
    (resources : List Resource) : (s.openWorker settings plan resources).1.workers = s.workers.push
      { uuid := settings.uuid.getD (Network.generatedUuid s.process s.generated)
        settings, plan, resources := resources.take Network.maxResources
        registry := s.registries.next } := by
  simp only [Network.openWorker]
  rcases Network.keep_eq _ (.worker s.workers.next) with ⟨holds, kept⟩
  rw [kept]
  exact setWorkerHandler_workers ..

/-- A worker is opened over the resources of a scenario that it can address, and the other workers
stay. -/
theorem openWorker_blank (hs : Blank s) {sc : Scenario} {fabric : FabricId} {name : String}
    {w : WorkerId} (ran : sc.openWorker fabric name s = .ok (.ok w, t)) :
    Blank t ∧ s.Upholds t ∧
      (∀ w' wk', s.workers.get? w' = some wk' → t.workers.get? w' = some wk') ∧
      ∃ wk, t.workers.get? w = some wk ∧ sc.plan = .ok wk.plan ∧ wk.settings.name = name ∧
        t.Stocked fabric (sc.resources.take Network.maxResources) wk.resources := by
  unfold Scenario.openWorker at ran
  rcases bind_done ran with ⟨resources, v, opened, planning⟩
  rcases openResources_blank hs opened with ⟨blank, workers, upholds, -, stocked⟩
  cases planned : sc.plan with
  | error why =>
    rw [planned] at planning
    rcases bind_done planning with ⟨o, v', made, dropping⟩
    cases (pure_done made).1
    rcases bind_done dropping with ⟨⟨⟩, v'', -, answer⟩
    cases (pure_done answer).1
  | ok plan =>
    rw [planned] at planning
    rcases bind_done planning with ⟨w', x, made, answering⟩
    rcases bind_done answering with ⟨o, x', same, dropping⟩
    cases (pure_done same).1
    cases (pure_done same).2
    rcases bind_done dropping with ⟨⟨⟩, x'', dropped, answer⟩
    cases (pure_done answer).1
    cases (pure_done answer).2
    have new := blank.openWorker { name } plan stocked.contains
    have upholds' := Network.Upholds.openWorker v { name } plan resources
    have books := openWorker_workers v { name } plan resources
    have id := congrArg Prod.snd (update_done made)
    rw [update_done made] at new upholds' books
    rcases dropAll_blank new dropped with ⟨blank', same, upholds''⟩
    let wk : Worker :=
      { uuid := Network.generatedUuid v.process v.generated, settings := { name }, plan
        resources := resources.take Network.maxResources, registry := v.registries.next }
    have here : t.workers.get? w = some wk := by
      rw [same, books, ← show v.workers.next = w from id]
      exact (Table.get?_push ..).trans (if_pos rfl)
    refine ⟨blank', (upholds.trans upholds').trans upholds'', fun w' wk' there => ?_, wk, here, rfl,
      rfl, ?_⟩
    · rw [same, books, workers]
      exact (Table.get?_push ..).trans ((if_neg (Table.lt_next_of_get? there).ne).trans there)
    · refine Network.Stocked.later (List.forall₂_take Network.maxResources stocked)
        (upholds'.trans upholds'') fun r hr => ?_
      exact blank'.rested.fit.sound.live _ (Network.isHeld_of_owned (Network.isOwned_iff.2
        (.inl ⟨w, wk, here, .inl ⟨r, hr, rfl⟩⟩)))

/-- The workers of a command have been opened. -/
structure Opened (sc : Scenario) (alpha beta : WorkerId) (s : Network) : Prop where
  done : ∃ fabric first second, Network.openFabric {} = (first, fabric) ∧
    sc.openWorker fabric "alpha" first = .ok (.ok alpha, second) ∧
    sc.openWorker fabric "beta" second = .ok (.ok beta, s)

/-- What the workers of a command are. -/
theorem Opened.stocked {sc : Scenario} {alpha beta : WorkerId} (h : Opened sc alpha beta s) :
    Blank s ∧ ∃ fabric wk wk', s.workers.get? alpha = some wk ∧ s.workers.get? beta = some wk' ∧
      sc.plan = .ok wk.plan ∧ s.Stocked fabric (sc.resources.take Network.maxResources) wk.resources ∧
      s.Stocked fabric (sc.resources.take Network.maxResources) wk'.resources := by
  rcases h.done with ⟨fabric, first, second, opened, one, two⟩
  have blank := (Blank.initial 1).openFabric
  rw [show Network.openFabric { process := 1 } = (first, fabric) from opened] at blank
  rcases openWorker_blank blank one with ⟨blank, -, -, wk, here, planned, -, stocked⟩
  rcases openWorker_blank blank two with ⟨blank, upholds, stays, wk', here', -, -, stocked'⟩
  have stays := stays alpha wk here
  refine ⟨blank, fabric, wk, wk', stays, here', planned, stocked.later upholds fun r hr => ?_,
    stocked'⟩
  exact blank.rested.fit.sound.live _ (Network.isHeld_of_owned (Network.isOwned_iff.2
    (.inl ⟨alpha, wk, stays, .inl ⟨r, hr, rfl⟩⟩)))

/-! ## Going round -/

/-- The numbers received are read off what the recorder has seen. -/
theorem received_eq (s : Network) : received s = (seen s.trace).filterMap fun payload =>
    if payload.length = 4 then some (Bytes.ofLittleEndian payload) else none := by
  unfold received seen
  induction s.trace.toList with
  | nil => rfl
  | cons x xs ih =>
    rw [List.filterMap_cons, List.flatMap_cons, List.filterMap_append, ← ih]
    cases x with
    | recorded log messageId content =>
      cases content with
      | bytes payload =>
        simp only [Happening.data, List.filterMap_cons, List.filterMap_nil]
        split <;> simp_all
      | signal decoded => simp [Happening.data]
    | _ => simp [Happening.data]

/-- The payloads of the numbers below a count. -/
def numbered (messages : Nat) : List Bytes := (List.range messages).map (Bytes.littleEndian 4)

/-- Numbers that fit into four bytes are read back. -/
theorem read_numbered {messages : Nat} (small : messages ≤ 2 ^ 32) :
    ((numbered messages).filterMap fun payload =>
      if payload.length = 4 then some (Bytes.ofLittleEndian payload) else none) =
      List.range messages := by
  unfold numbered
  rw [List.filterMap_map]
  have back : ∀ n ∈ List.range messages, ((fun payload : Bytes =>
      if payload.length = 4 then some (Bytes.ofLittleEndian payload) else none) ∘
        Bytes.littleEndian 4) n = some n := by
    intro n hn
    have below : n < 256 ^ 4 := (List.mem_range.1 hn).trans_le small
    simp only [Function.comp_apply, Bytes.littleEndian_length, if_true,
      Bytes.ofLittleEndian_littleEndian, Nat.mod_eq_of_lt below]
  rw [List.filterMap_congr back, List.filterMap_some]

variable {e : EndpointId} {messages : Nat}

/-- What has been received was sent, in that order. -/
theorem received_sublist (hs : Underway e (numbered messages) s) (small : messages ≤ 2 ^ 32) :
    (received s).Sublist (List.range messages) := by
  rw [received_eq, ← read_numbered small]
  exact hs.recorded.filterMap _

/-- If as much as was sent has been received, then all of it. -/
theorem received_all (hs : Underway e (numbered messages) s) (small : messages ≤ 2 ^ 32)
    (enough : messages ≤ (received s).length) : received s = List.range messages :=
  (received_sublist hs small).eq_of_length_le (by simpa using enough)

namespace RunSetup

variable {r : RunSetup} {back : Option EndpointId} {sent : List Bytes}

theorem back_underway (hs : Underway e sent s) (ran : r.back s = .ok (back, t)) :
    Underway e sent t := by
  have found := update_done ran
  split at found
  · rename_i w here
    have kept := hs.lookUp r.beta w.uuid
    rw [found] at kept
    exact kept
  · cases found
    exact hs

/-- Nothing that was received is forgotten. -/
theorem received_lengthens (h : Network.Moves True s t) : received s <+: received t :=
  h.lengthens.filterMap _

theorem drop_underway (hs : Underway e sent s) {ref : Ref} (ran : Activity.drop ref s = .ok ((), t)) :
    Underway e sent t ∧ received s <+: received t :=
  ⟨hs.drop (perform_done ran), received_lengthens (hs.rested.drop (perform_done ran)).moves⟩

theorem close_underway (hs : Underway e sent s) {w : WorkerId}
    (ran : Activity.perform (fun s => s.close w) s = .ok ((), t)) :
    Underway e sent t ∧ received s <+: received t :=
  ⟨hs.close w (perform_done ran), received_lengthens (hs.rested.close w (perform_done ran)).moves⟩

theorem dropBack_underway (hs : Underway e sent s) (ran : dropBack back s = .ok ((), t)) :
    Underway e sent t ∧ received s <+: received t := by
  cases back with
  | none =>
    cases (pure_done ran).2
    exact ⟨hs, List.prefix_rfl⟩
  | some b => exact drop_underway hs ran

theorem round_underway (hs : Underway e sent s) (ran : r.round back s = .ok ((), t)) :
    Underway e sent t := by
  unfold RunSetup.round at ran
  rcases bind_done ran with ⟨n, v, first, ran⟩
  rcases bind_done ran with ⟨n', v', second, ran⟩
  rcases bind_done ran with ⟨n'', v'', third, ran⟩
  have worked := ((hs.progressOf r.alpha (perform_done first)).progressOf r.beta
    (perform_done second)).progressEndpoint r.endpoint (perform_done third)
  cases back with
  | none => exact (dropBack_underway worked ran).1
  | some b =>
    rcases bind_done ran with ⟨n, x, fourth, ran⟩
    exact (dropBack_underway (worked.progressEndpoint b (perform_done fourth)) ran).1

/-- A run that is complete ends with the rounds that were done. -/
theorem ends_underway (hs : Underway e sent s) (complete : r.isComplete back s = true)
    {done rounds : Nat} (ran : (do dropBack back; return .ok done : Activity
      (Except CommandError Nat)) s = .ok (.ok rounds, t)) :
    Underway e sent t ∧ r.messages ≤ (received t).length ∧ rounds = done := by
  rcases bind_done ran with ⟨⟨⟩, x, dropped, answer⟩
  cases (pure_done answer).1
  cases (pure_done answer).2
  rcases dropBack_underway hs dropped with ⟨underway, more⟩
  simp only [isComplete, Bool.and_eq_true, decide_eq_true_eq] at complete
  exact ⟨underway, complete.2.trans more.length_le, rfl⟩

/-- Going round ends when everything has arrived. -/
theorem rounds_underway (hs : Underway e sent s) {done left rounds : Nat}
    (ran : r.rounds done left s = .ok (.ok rounds, t)) :
    Underway e sent t ∧ r.messages ≤ (received t).length ∧ rounds ≤ done + left := by
  induction left generalizing s done with
  | zero =>
    unfold RunSetup.rounds at ran
    rcases bind_done ran with ⟨back, v, found, testing⟩
    rcases bind_done testing with ⟨v', x, got, branch⟩
    cases (get_done got).1
    cases (get_done got).2
    have underway := back_underway hs found
    split at branch
    · rename_i complete
      rcases ends_underway underway complete branch with ⟨last, enough, rfl⟩
      exact ⟨last, enough, le_rfl⟩
    · rcases bind_done branch with ⟨w, y, -, giving⟩
      rcases bind_done giving with ⟨⟨⟩, y', -, dropping⟩
      rcases bind_done dropping with ⟨⟨⟩, y'', -, answer⟩
      cases (pure_done answer).1
  | succ left ih =>
    unfold RunSetup.rounds at ran
    rcases bind_done ran with ⟨back, v, found, testing⟩
    rcases bind_done testing with ⟨v', x, got, branch⟩
    cases (get_done got).1
    cases (get_done got).2
    have underway := back_underway hs found
    split at branch
    · rename_i complete
      rcases ends_underway underway complete branch with ⟨last, enough, rfl⟩
      exact ⟨last, enough, Nat.le_add_right _ _⟩
    · rcases bind_done branch with ⟨⟨⟩, y, once, again⟩
      rcases ih (round_underway underway once) again with ⟨last, enough, few⟩
      · exact ⟨last, enough, by omega⟩

/-- The numbers are sent one after the other. -/
theorem sendAll_poised {ρ : Route} (hs : Poised r.endpoint ρ sent s) {ns : List Nat}
    {handles : List HandleId} (ran : r.sendAll ns s = .ok (handles, t)) :
    Poised r.endpoint ρ (sent ++ ns.map (Bytes.littleEndian 4)) t := by
  induction ns generalizing s sent handles with
  | nil =>
    cases (pure_done ran).2
    simpa using hs
  | cons n ns ih =>
    rcases bind_done ran with ⟨h, v, first, others⟩
    rcases bind_done others with ⟨hs', v', more, answer⟩
    cases (pure_done answer).2
    simpa using ih (hs.sendMessage (by decide) (perform_done first)) more

/-- What a delivery reports is so. -/
theorem deliver_report {ρ : Route} (hs : Poised r.endpoint ρ [] s) (small : r.messages ≤ 2 ^ 32)
    {maxRounds : Nat} {report : RunReport}
    (ran : r.deliver maxRounds s = .ok (.ok report, t)) :
    report.sent = r.messages ∧ report.delivered = r.messages ∧ report.inOrder = true ∧
      report.rounds ≤ maxRounds ∧ received t = List.range r.messages := by
  unfold RunSetup.deliver at ran
  rcases bind_done ran with ⟨s', v, got, choosing⟩
  cases (get_done got).2
  rcases bind_done choosing with ⟨index, v', chosen, sending⟩
  cases congrArg Prod.fst (perform_done chosen)
  rcases bind_done sending with ⟨handles, x, sent, going⟩
  have poised := sendAll_poised hs sent
  rcases bind_done going with ⟨rounds, y, gone, ending⟩
  cases rounds with
  | error why => cases (pure_done ending).1
  | ok rounds =>
    rcases rounds_underway poised.underway gone with ⟨underway, enough, few⟩
    rcases bind_done ending with ⟨y', z, got, deciding⟩
    cases (get_done got).1
    cases (get_done got).2
    cases failed : firstFailure y handles with
    | some why =>
      rw [failed] at deciding
      rcases bind_done deciding with ⟨⟨⟩, z', -, answer⟩
      cases (pure_done answer).1
    | none =>
      rw [failed] at deciding
      rcases bind_done deciding with ⟨y', z, got, closing⟩
      cases (get_done got).1
      cases (get_done got).2
      rcases bind_done closing with ⟨⟨⟩, z₁, closed₁, closing₁⟩
      rcases bind_done closing₁ with ⟨⟨⟩, z₂, closed₂, dropping⟩
      rcases bind_done dropping with ⟨⟨⟩, z₃, dropped, answer⟩
      rcases bind_done dropped with ⟨⟨⟩, z₄, first, dropped₂⟩
      rcases bind_done dropped₂ with ⟨⟨⟩, z₅, second, third⟩
      cases (pure_done answer).1
      cases (pure_done answer).2
      -- nothing arrives after all has
      rcases close_underway underway closed₁ with ⟨close₁, more₁⟩
      rcases close_underway close₁ closed₂ with ⟨close₂, more₂⟩
      rcases drop_underway close₂ first with ⟨drop₁, more₃⟩
      rcases drop_underway drop₁ second with ⟨drop₂, more₄⟩
      rcases drop_underway drop₂ third with ⟨last, more₅⟩
      have more := (((more₁.trans more₂).trans more₃).trans more₄).trans more₅
      have numbers : [] ++ (List.range r.messages).map (Bytes.littleEndian 4) =
        numbered r.messages := rfl
      rw [numbers] at underway last
      have all := received_all underway small enough
      refine ⟨rfl, ?_, ?_, by simpa using few, received_all last small (enough.trans more.length_le)⟩
      · simp [all]
      · simp [all]

end RunSetup

/-- A run that reports has created an endpoint between the workers that it has opened, and has
delivered over it. -/
theorem runScenario_delivers {sc : Scenario} {messages maxRounds : Nat} {report : RunReport}
    (ran : runScenario sc messages maxRounds {} = .ok (.ok report, t)) :
    ∃ alpha beta s u v e, Opened sc alpha beta s ∧
      u = s.setWorkerHandler beta dataMessageId (.record "beta" none false) ∧
      u.createEndpoint alpha (((u.workers.get? beta).map u.workerAddress).getD default) =
        (v, .ok (.ok e)) ∧
      RunSetup.deliver ⟨alpha, beta, e, messages⟩ maxRounds v = .ok (.ok report, t) := by
  unfold runScenario at ran
  rcases bind_done ran with ⟨fabric, s₀, opened, opening⟩
  rcases bind_done opening with ⟨alpha, s₁, first, opening₁⟩
  cases alpha with
  | error why => cases (pure_done opening₁).1
  | ok alpha =>
    rcases bind_done opening₁ with ⟨beta, s₂, second, opening₂⟩
    cases beta with
    | error why =>
      rcases bind_done opening₂ with ⟨⟨⟩, s₃, -, answer⟩
      cases (pure_done answer).1
    | ok beta =>
      rcases bind_done opening₂ with ⟨⟨⟩, s₃, recorded, creating⟩
      rcases bind_done creating with ⟨created, s₄, asked, delivering⟩
      cases created with
      | error why =>
        rcases bind_done delivering with ⟨⟨⟩, s₅, -, dropping⟩
        rcases bind_done dropping with ⟨⟨⟩, s₆, -, answer⟩
        cases (pure_done answer).1
      | ok endpoint =>
        exact ⟨alpha, beta, s₂, s₃, s₄, endpoint,
          ⟨fabric, s₀, s₁, update_done opened, first, second⟩, modify_done recorded,
          perform_done asked, delivering⟩

/-- A report of a run is true of the network that the run ends in. -/
theorem runScenario_report (sc : Scenario) {messages maxRounds : Nat} (small : messages ≤ 2 ^ 32)
    {report : RunReport} (ran : runScenario sc messages maxRounds {} = .ok (.ok report, t)) :
    report.sent = messages ∧ report.delivered = messages ∧ report.inOrder = true ∧
      report.rounds ≤ maxRounds ∧ received t = List.range messages := by
  rcases runScenario_delivers ran with
    ⟨alpha, beta, s, u, v, endpoint, opened, rfl, asked, delivering⟩
  rcases opened.stocked with ⟨blank, fabric, wk, -, here, -⟩
  have data : dataMessageId ≠ Signal.messageId := by decide
  have recording := blank.setWorkerHandler beta data "beta" false
  have live : (s.setWorkerHandler beta dataMessageId (.record "beta" none false)).workers.contains
      alpha = true := by
    rw [setWorkerHandler_workers]
    exact Table.contains_of_get? here
  rcases recording.createEndpoint live asked with ⟨ρ, poised⟩
  exact RunSetup.deliver_report (r := ⟨alpha, beta, endpoint, messages⟩) poised small delivering

/-- A run that reports has sent all its messages, has received each of them once and in order, and
kept to its rounds. -/
theorem run_report_truthful (sc : Scenario) {messages maxRounds : Nat} (small : messages < 2 ^ 32)
    {report : RunReport}
    (ran : (Command.run messages maxRounds).execute sc = .ok (.ok (.run report))) :
    report.sent = messages ∧ report.delivered = messages ∧ report.inOrder = true ∧
      report.rounds ≤ maxRounds ∧ ∃ t, runScenario sc messages maxRounds {} = .ok (.ok report, t) ∧
        received t = List.range messages := by
  have ended : ∃ t, runScenario sc messages maxRounds {} = .ok (.ok report, t) := by
    simp only [Command.execute, StateT.run'] at ran
    cases outcome : runScenario sc messages maxRounds {} with
    | error v =>
      rw [outcome] at ran
      cases ran
    | ok p =>
      rw [outcome] at ran
      rcases p with ⟨why | r, t⟩
      · cases ran
      · cases ran
        exact ⟨t, rfl⟩
  rcases ended with ⟨t, ended⟩
  rcases runScenario_report sc small.le ended with ⟨sent, delivered, inOrder, rounds, all⟩
  exact ⟨sent, delivered, inOrder, rounds, t, ended, all⟩

/-- The report of a run among the answers to commands. -/
def runReport? : Except Violation (Except CommandError Report) → Option RunReport
  | .ok (.ok (.run report)) => some report
  | _ => none

theorem eq_of_runReport? {answer : Except Violation (Except CommandError Report)}
    {report : RunReport} (h : runReport? answer = some report) :
    answer = .ok (.ok (.run report)) := by
  unfold runReport? at h
  split at h
  · cases h
    rfl
  · cases h

/-- The default scenario, where each link carries one message at a time. -/
def narrowScenario : Scenario :=
  { Scenario.default with resources := Scenario.default.resources.map fun spec =>
      { spec with settings := { spec.settings with credits := 1 } } }

/-- Three numbers that are parked while links with one credit are wired up arrive within six
rounds. -/
theorem run_report_truthful_narrow : ∃ report,
    (Command.run 3 6).execute narrowScenario = .ok (.ok (.run report)) ∧ report.rounds = 5 ∧
      report.sent = 3 ∧ report.delivered = 3 ∧ report.inOrder = true ∧ report.rounds ≤ 6 ∧
        ∃ t, runScenario narrowScenario 3 6 {} = .ok (.ok report, t) ∧ received t = [0, 1, 2] := by
  have rounds : (runReport? ((Command.run 3 6).execute narrowScenario)).map RunReport.rounds =
      some 5 := by decide +kernel
  rcases Option.map_eq_some_iff.1 rounds with ⟨report, answered, five⟩
  have ran := eq_of_runReport? answered
  rcases run_report_truthful narrowScenario (by decide) ran with
    ⟨sent, delivered, inOrder, few, t, ended, all⟩
  exact ⟨report, ran, five, sent, delivered, inOrder, few, t, ended, all⟩

end Wiring
