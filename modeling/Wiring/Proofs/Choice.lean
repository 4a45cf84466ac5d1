import Mathlib
import Wiring.Proofs.Outset
import Wiring.Proofs.Reach
import Wiring.Proofs.Reporting
import Wiring.Proofs.Selection
import Wiring.Proofs.Session

/-!
# The choice of an auxiliary resource

Both workers of a command are opened over the same resources, so that each resource of the first
meets the one of the second that has its place, and the score of a pair is that of the resource. The
selection therefore picks the first resource of the listing whose positive score no other exceeds. A
run makes its endpoint in the network that the selection looks at.
-/
namespace Wiring

variable {s t u : Network}

/-! ## Listings -/

/-- How a resource scores by itself. -/
def ResourceSpec.scored (spec : ResourceSpec) : ScoredResource :=
  ⟨spec.name.text, Scorer.auxiliary.score spec.settings.attributes⟩

/-- A resource has a positive score that no other of the listing exceeds. -/
def ScoredResource.IsBest (listing : List ScoredResource) (c : ScoredResource) : Prop :=
  ∃ x, c.score = .ok x ∧ x > 0 ∧ ∀ d ∈ listing, ∀ y, d.score = .ok y → ¬y > x

/-- The first resource of a listing that is best. -/
structure IsChoice (listing : List ScoredResource) (n : Nat) (c : ScoredResource) : Prop where
  place : listing[n]? = some c
  best : c.IsBest listing
  first : ∀ m < n, ∀ d, listing[m]? = some d → ¬d.IsBest listing

theorem IsChoice.unique {listing : List ScoredResource} {n m : Nat} {c d : ScoredResource}
    (h : IsChoice listing n c) (g : IsChoice listing m d) : n = m ∧ c = d := by
  have same : n = m := by
    rcases Nat.lt_trichotomy n m with lt | eq | gt
    · exact absurd h.best (g.first n lt c h.place)
    · exact eq
    · exact absurd g.best (h.first m gt d g.place)
  subst same
  exact ⟨rfl, Option.some.inj (h.place.symm.trans g.place)⟩

/-! ## The ratings of workers over the same resources -/

namespace Network

/-- The entries of an address have the transports that are specified, on the devices of a fabric. -/
def Announces (s : Network) (fabric : FabricId) (specs : List ResourceSpec)
    (entries : List AddressEntry) : Prop :=
  List.Forall₂ (fun spec entry => entry.transport = spec.name.transport ∧
    entry.deviceAddress = Bytes.word (((s.fabrics.get? fabric).map Fabric.number).getD 0)) specs
    entries

variable {fabric : FabricId} {specs : List ResourceSpec} {resources : List Resource}
  {entries : List AddressEntry} {wk : Worker} {scorer : Scorer} {w : WorkerId}

theorem Stocked.scoredResources (h : Stocked s fabric specs wk.resources) :
    scoredResources s wk = specs.map ResourceSpec.scored := by
  unfold Wiring.scoredResources
  generalize wk.resources = resources at h
  induction h with
  | nil => rfl
  | cons same others ih =>
    rcases same with ⟨name, i, here, -, settings⟩
    rw [List.filterMap_cons, here, Option.map_some, ih, List.map_cons, ResourceSpec.scored, name,
      settings]

theorem Stocked.announced (h : Stocked s fabric specs wk.resources) :
    Announces s fabric specs (s.workerAddress wk).entries := by
  unfold workerAddress
  simp only
  generalize wk.resources = resources at h
  induction h with
  | nil => exact .nil
  | cons same others ih =>
    rcases same with ⟨name, i, here, fabric, -⟩
    rw [List.filterMap_cons, here, Option.map_some]
    refine .cons ⟨congrArg ResourceName.transport name, ?_⟩ ih
    rw [deviceAddress, fabricNumber, fabric]

/-- Related lists have related elements at the same places. -/
theorem forall₂_getElem? {α β : Type} {R : α → β → Prop} {as : List α} {bs : List β}
    (h : List.Forall₂ R as bs) (n : Nat) :
    (as[n]? = none ∧ bs[n]? = none) ∨ ∃ a b, as[n]? = some a ∧ bs[n]? = some b ∧ R a b := by
  induction h generalizing n with
  | nil => exact .inl ⟨rfl, rfl⟩
  | cons same others ih =>
    cases n with
    | zero => exact .inr ⟨_, _, rfl, rfl, same⟩
    | succ n => exact ih n

/-- A resource and an entry are rated if their transports are the same. -/
theorem rating?_stocked (h : Stocked s fabric specs wk.resources)
    (g : Announces s fabric specs entries) {n k : Nat} {r : Rating} :
    s.rating? wk entries scorer (n, k) = some r ↔
      ∃ spec spec', specs[n]? = some spec ∧ specs[k]? = some spec' ∧
        spec'.name.transport = spec.name.transport ∧
        r = ⟨n, k, spec.name, scorer.score spec.settings.attributes⟩ := by
  unfold rating?
  rcases forall₂_getElem? h n with ⟨none, none'⟩ | ⟨spec, rs, spec?, rs?, name, i, here, own, settings⟩
  · simp [none, none']
  rcases forall₂_getElem? g k with ⟨none, none'⟩ | ⟨spec', entry, spec'?, entry?, transport, device⟩
  · simp [none, none']
  have reach : s.reaches i entry.deviceAddress = true := by
    have word := Bytes.word?_append_word (((s.fabrics.get? fabric).map Fabric.number).getD 0) []
    rw [List.append_nil] at word
    rw [reaches, device, word, fabricNumber, own]
    exact beq_self_eq_true _
  simp only [rs?, entry?, here, reach, transport, name, settings, spec?, spec'?, and_true,
    Option.bind_eq_bind, Option.bind_some, Option.some.injEq, Option.ite_none_right_eq_some]
  constructor
  · rintro ⟨same, rfl⟩
    exact ⟨spec, spec', rfl, rfl, same, rfl⟩
  · rintro ⟨_, _, rfl, rfl, same, rfl⟩
    exact ⟨same, rfl⟩

theorem mem_ratings_stocked (h : Stocked s fabric specs wk.resources)
    (g : Announces s fabric specs entries) {r : Rating} :
    r ∈ s.ratings wk entries scorer ↔ ∃ n k spec spec', specs[n]? = some spec ∧
      specs[k]? = some spec' ∧ spec'.name.transport = spec.name.transport ∧
        r = ⟨n, k, spec.name, scorer.score spec.settings.attributes⟩ := by
  unfold ratings
  rw [List.mem_filterMap]
  constructor
  · rintro ⟨⟨n, k⟩, -, rated⟩
    exact ⟨n, k, (rating?_stocked h g).1 rated⟩
  · rintro ⟨n, k, spec, spec', hn, hk, rated⟩
    refine ⟨(n, k), ?_, (rating?_stocked h g).2 ⟨spec, spec', hn, hk, rated⟩⟩
    have below {as : List ResourceSpec} {a : ResourceSpec} {n : Nat} (place : as[n]? = some a) :
        n < as.length := (List.getElem?_eq_some_iff.1 place).1
    exact List.pair_mem_product.2 ⟨List.mem_range.2 (h.length_eq ▸ below hn),
      List.mem_range.2 (g.length_eq ▸ below hk)⟩

/-- The ratings are in the order of the resources. -/
theorem ratings_sorted (s : Network) (wk : Worker) (entries : List AddressEntry) (scorer : Scorer) :
    (s.ratings wk entries scorer).Pairwise fun a b => a.resource ≤ b.resource := by
  have places : (List.range wk.resources.length ×ˢ List.range entries.length).Pairwise
      fun a b => a.1 ≤ b.1 := by
    refine List.pairwise_flatMap.2 ⟨fun n _ => ?_, ?_⟩
    · exact List.pairwise_map.2 (List.pairwise_of_forall fun _ _ => le_rfl)
    · refine List.pairwise_lt_range.imp fun less a ha b hb => ?_
      rcases List.mem_map.1 ha with ⟨_, -, rfl⟩
      rcases List.mem_map.1 hb with ⟨_, -, rfl⟩
      exact less.le
  refine places.filterMap _ fun a b le r hr r' hr' => ?_
  have first {place : Nat × Nat} {r : Rating} (rated : s.rating? wk entries scorer place = some r) :
      r.resource = place.1 := by
    simp only [rating?, Option.bind_eq_bind, Option.bind_eq_some_iff] at rated
    rcases rated with ⟨_, -, _, -, _, -, rated⟩
    split at rated
    · cases rated
      rfl
    · cases rated
  rw [first hr, first hr']
  exact le

/-- The selection picks the first best resource of the listing, or fails if none scores. -/
theorem select_stocked (h : Stocked s fabric specs wk.resources)
    (g : Announces s fabric specs entries) (peer : String) :
    (∀ c ∈ specs.map ResourceSpec.scored, ∀ x, c.score = .ok x → ¬x > 0) ∧
      (∃ why, s.select wk peer entries .auxiliary = .error why) ∨
    ∃ n c best, IsChoice (specs.map ResourceSpec.scored) n c ∧
      s.select wk peer entries .auxiliary = .ok best ∧ best.resource = UInt8.ofNat n := by
  -- each resource of the listing meets its own entry
  have meets {n : Nat} {spec : ResourceSpec} (place : specs[n]? = some spec) :
      (⟨n, n, spec.name, spec.scored.score⟩ : Rating) ∈ s.ratings wk entries .auxiliary :=
    (mem_ratings_stocked h g).2 ⟨n, n, spec, spec, place, place, rfl, rfl⟩
  have listed {c : ScoredResource} (hc : c ∈ specs.map ResourceSpec.scored) :
      ∃ (n : Nat) (spec : ResourceSpec), specs[n]? = some spec ∧ spec.scored = c := by
    rcases List.mem_map.1 hc with ⟨spec, mem, rfl⟩
    rcases List.mem_iff_getElem?.1 mem with ⟨n, place⟩
    exact ⟨n, spec, place, rfl⟩
  rcases s.select_ratings wk peer entries .auxiliary with
    ⟨none, failed⟩ | ⟨before, r, x, after, split, best, first, chosen⟩
  · refine .inl ⟨fun c hc x scored => ?_, _, failed⟩
    rcases listed hc with ⟨n, spec, place, rfl⟩
    exact none _ (meets place) x scored
  · have mem : r ∈ s.ratings wk entries .auxiliary :=
      split ▸ List.mem_append_right _ List.mem_cons_self
    rcases (mem_ratings_stocked h g).1 mem with ⟨n, k, spec, spec', place, -, -, rfl⟩
    refine .inr ⟨n, spec.scored, _, ⟨?_, ⟨x, best.scored, best.positive, ?_⟩, ?_⟩, chosen, rfl⟩
    · rw [List.getElem?_map, place, Option.map_some]
    · intro d hd y scored
      rcases listed hd with ⟨m, spec', place', rfl⟩
      exact best.unexceeded _ (meets place') y scored
    · intro m earlier d hd other
      rw [List.getElem?_map, Option.map_eq_some_iff] at hd
      rcases hd with ⟨spec', place', rfl⟩
      rcases other with ⟨y, scored, positive, unexceeded⟩
      -- a rating of an earlier resource comes before the one that was chosen
      have sorted := s.ratings_sorted wk entries .auxiliary
      have mem' := meets place'
      rw [split] at mem' sorted
      rcases List.mem_append.1 mem' with there | later
      · refine first _ there y ⟨scored, positive, fun r' hr' z scored' => ?_⟩
        rcases (mem_ratings_stocked h g).1 hr' with ⟨i, j, spec'', -, place'', -, -, rfl⟩
        exact unexceeded spec''.scored (List.mem_map_of_mem (List.mem_of_getElem? place'')) z scored'
      · have le : n ≤ m := by
          rcases List.mem_cons.1 later with same | after'
          · exact (congrArg Rating.resource same).ge
          · exact (List.pairwise_cons.1 (List.pairwise_append.1 sorted).2.1).1 _ after'
        exact absurd earlier (Nat.not_lt.2 le)

/-! ## The lane for messages -/

theorem openAuxiliary_selected {peer : String} {index : ResourceIndex} {l : LinkId}
    (opened : s.openAuxiliary wk peer entries scorer = (t, .ok (index, l))) :
    ∃ best, s.select wk peer entries scorer = .ok best ∧ index = best.resource := by
  unfold openAuxiliary at opened
  split at opened
  · cases opened
  · rename_i best chosen
    split at opened
    · split at opened
      · cases opened
        exact ⟨best, chosen, rfl⟩
      · cases opened
    · cases opened

/-- The lane for messages is opened: its stub, if it has one, has an auxiliary link on the resource
that was selected. -/
theorem openLane_messages {e : EndpointId} {ep : Endpoint} {r : Resource} {i : Interface}
    {c : Carrier}
    (resource : ((ep.plan.resource .messages).bind fun index => wk.resources[index.toNat]?) = some r)
    (here : s.interfaces.get? r.interface = some i)
    (opened : s.openLane e ep wk .messages entries = (t, .ok c)) :
    if i.settings.capabilities.contains .connectToLink then
      ∃ x st best, c = .stub x ∧ t.stubs.get? x = some st ∧ st.auxiliary.isSome = true ∧
        st.auxiliaryResource = some best.resource ∧
        s.select wk ep.peer entries .auxiliary = .ok best
    else ∃ l, c = .link l := by
  unfold openLane at opened
  simp only [resource, here] at opened
  split at opened
  · rename_i able
    rw [if_pos able]
    unfold openStub at opened
    rcases s.openLink_built r.interface with ⟨why, refused⟩ | ⟨u, next, f, linked, -, built⟩
    · rw [refused] at opened
      cases opened
    rw [linked] at opened
    simp only [if_true] at opened
    have faces : Faces s u := .of_layout (by rw [built.layout]) (by rw [built.layout])
    have same : u.select wk ep.peer entries .auxiliary = s.select wk ep.peer entries .auxiliary :=
      faces.select rfl ep.peer
    cases chosen : u.openAuxiliary wk ep.peer entries .auxiliary with
    | mk v auxiliary =>
      rw [chosen] at opened
      cases auxiliary with
      | error why => cases opened
      | ok auxiliary =>
        rcases auxiliary with ⟨index, l⟩
        rcases openAuxiliary_selected chosen with ⟨best, selected, rfl⟩
        cases opened
        exact ⟨v.stubs.next, _, best, rfl, (Table.get?_push ..).trans (if_pos rfl), rfl, rfl,
          same ▸ selected⟩
  · rename_i unable
    rw [if_neg unable]
    split at opened
    · cases opened
    · split at opened
      · cases opened
        exact ⟨_, rfl⟩
      · cases opened

/-- Further lanes leave the stubs alone, and the slots of categories that do not share them. -/
theorem openLanes_apart {e : EndpointId} {ep : Endpoint} {category : Category}
    {lanes : List Category} (opened : s.openLanes e entries lanes = (t, .ok ()))
    (here : s.endpoints.get? e = some ep)
    (apart : ∀ lane ∈ lanes, ep.plan.shares lane category = false) :
    t.slot e category = ep.slots.get category ∧
      ∀ x st, s.stubs.get? x = some st → t.stubs.get? x = some st := by
  induction lanes generalizing s ep with
  | nil =>
    cases opened
    exact ⟨by rw [slot, here, Option.bind_some], fun _ _ stub => stub⟩
  | cons lane lanes ih =>
    unfold openLanes at opened
    simp only [here] at opened
    split at opened
    · cases opened
    rename_i w books
    rcases s.openLane_adds e ep w lane entries with ⟨u, why, -, refused⟩ | ⟨u, c, added, done⟩
    · rw [refused] at opened
      cases opened
    rw [done] at opened
    simp only at opened
    rcases added with ⟨-, new, added, -⟩
    have installed : (u.setSlots e (installLane ep lane c)).endpoints.get? e =
        some { ep with slots := installLane ep lane c } := by
      simp [setSlots, Table.get?_modify, added.same.1, here]
    rcases ih opened installed fun lane' later => apart lane' (List.mem_cons_of_mem _ later) with
      ⟨slot, stubs⟩
    refine ⟨slot.trans ?_, fun x st stub => stubs x st (added.stubs.get? stub)⟩
    rw [installLane, PerCategory.get_mapWith, if_neg (by simp [apart lane List.mem_cons_self])]

end Network

open Network Activity

/-- The plan of a scenario serves messages first, and nothing else is sent over that lane. -/
theorem Scenario.plan_messages {sc : Scenario} {p : Plan} (planned : sc.plan = .ok p) :
    p.resource .messages = some sc.messages ∧ sc.messages.toNat < sc.resources.length ∧
      ∃ lanes, p.lanes = .messages :: lanes ∧ ∀ lane ∈ lanes, p.shares lane .messages = false := by
  have served {p q : Plan} {category : Category} {index : Option ResourceIndex}
      (done : sc.serve p category index = .ok q) : q = p ∧ index = none ∨
        ∃ n, index = some n ∧ n.toNat < sc.resources.length ∧ q = p.withResource category n := by
    unfold Scenario.serve at done
    split at done
    · cases done
      exact .inl ⟨rfl, rfl⟩
    · rename_i n
      split at done
      · cases done
      · cases done
        exact .inr ⟨n, rfl, by omega, rfl⟩
  unfold Scenario.plan at planned
  cases first : sc.serve {} .messages (some sc.messages) with
  | error why =>
    rw [first] at planned
    cases planned
  | ok q =>
    rw [first] at planned
    rcases served first with ⟨-, none⟩ | ⟨n, same, below, rfl⟩
    · cases none
    cases same
    rcases served planned with ⟨rfl, -⟩ | ⟨m, -, -, rfl⟩
    · exact ⟨rfl, below, [], rfl, by simp⟩
    · exact ⟨rfl, below, [.memory], rfl, by simp [Plan.shares, Plan.withResource]⟩

/-! ## Commands -/

/-- There is one way to open the workers. -/
theorem Opened.unique {sc : Scenario} {alpha beta alpha' beta' : WorkerId}
    (h : Opened sc alpha beta s) (g : Opened sc alpha' beta' t) :
    alpha = alpha' ∧ beta = beta' ∧ s = t := by
  rcases h.done with ⟨fabric, first, second, opened, one, two⟩
  rcases g.done with ⟨fabric', first', second', opened', one', two'⟩
  cases opened.symm.trans opened'
  cases one.symm.trans one'
  cases two.symm.trans two'
  exact ⟨rfl, rfl, rfl⟩

/-- The resource that serves messages pairs links. -/
def Scenario.pairs (sc : Scenario) : Bool :=
  (sc.resources[sc.messages.toNat]?).any fun spec =>
    spec.settings.capabilities.contains .connectToLink

/-- A worker that has created its endpoint shows the resource that it selects, if it waits for its lane
for messages to be paired. -/
theorem created_auxiliary (hs : Blank s) {w : WorkerId} {wk : Worker} {sc : Scenario}
    {fabric : FabricId} (books : s.workers.get? w = some wk) (planned : sc.plan = .ok wk.plan)
    (stocked : s.Stocked fabric (sc.resources.take maxResources) wk.resources)
    {address : WorkerAddress} {e : EndpointId}
    (ran : s.createEndpoint w address = (t, .ok (.ok e))) :
    (∃ wk', t.workers.get? w = some wk' ∧ wk'.resources = wk.resources) ∧
    if sc.pairs then
      ∃ best, s.select wk address.name address.entries .auxiliary = .ok best ∧
        t.auxiliaryIndex (t.slot e .messages) = .ok (some best.resource)
    else t.auxiliaryIndex (t.slot e .messages) = .ok none := by
  rcases hs.asks books ran with ⟨v, holds, x, begun, founded, same, -, rfl⟩
  have enlisted := founded.enlisted
  rw [← same.workers] at enlisted
  refine ⟨⟨_, enlisted, rfl⟩, ?_⟩
  rcases sc.plan_messages planned with ⟨index, below, others, messages, apart⟩
  -- the resource that serves messages is one that the worker can address
  have kept : (sc.resources.take maxResources)[sc.messages.toNat]? =
      sc.resources[sc.messages.toNat]? := List.getElem?_take_of_lt sc.messages.toNat_lt
  rcases forall₂_getElem? stocked sc.messages.toNat with
    ⟨none, -⟩ | ⟨spec, r, spec?, r?, name, i, here, -, settings⟩
  · rw [kept, List.getElem?_eq_none_iff] at none
    omega
  rw [kept] at spec?
  rw [Scenario.pairs, spec?, Option.any_some, ← settings]
  -- the lane for messages is the first to be opened
  rcases begun.opened with ⟨u, opened, lanes⟩
  rw [openEndpoint, books] at opened
  cases opened
  set u : Network := note _ _
  let ep : Endpoint :=
    { worker := w, dest := address.uuid, peer := address.name, plan := wk.plan
      flushAttempts := wk.settings.flushAttempts }
  let wk' : Worker := { wk with directory :=
    (wk.directory.filter fun entry => entry.1 != address.uuid) ++ [(address.uuid, s.endpoints.next)] }
  have new : u.endpoints.get? s.endpoints.next = some ep := (Table.get?_push ..).trans (if_pos rfl)
  have books' : u.workers.get? w = some wk' := (Table.get?_set_of books _ _).trans (if_pos rfl)
  rw [books', Option.map_some, Option.getD_some, show wk'.plan = wk.plan from rfl, messages] at lanes
  unfold openLanes at lanes
  simp only [new, show ep.worker = w from rfl, books'] at lanes
  cases laid : u.openLane s.endpoints.next ep wk' .messages address.entries with
  | mk first c =>
    rw [laid] at lanes
    cases c with
    | error why => cases lanes
    | ok c =>
      simp only at lanes
      have endpoints : first.endpoints = u.endpoints := by
        rcases u.openLane_adds s.endpoints.next ep wk' .messages address.entries with
          ⟨_, why, -, refused⟩ | ⟨_, c', added, done⟩
        · cases laid.symm.trans refused
        · cases laid.symm.trans done
          rcases added with ⟨-, more, added, -⟩
          exact added.same.1
      have installed : (first.setSlots s.endpoints.next (installLane ep .messages c)).endpoints.get?
          s.endpoints.next = some { ep with slots := installLane ep .messages c } := by
        simp [setSlots, Table.get?_modify, endpoints, new]
      rcases openLanes_apart lanes installed apart with ⟨slot, stubs⟩
      have serves : Network.slot { x with holds } s.endpoints.next .messages = some c := by
        unfold Network.slot at slot ⊢
        rw [show ({ x with holds } : Network).endpoints = v.endpoints from same.endpoints, slot]
        rfl
      have resource : ((ep.plan.resource .messages).bind fun index => wk'.resources[index.toNat]?) =
          some r := by
        rw [show ep.plan.resource .messages = some sc.messages from index, Option.bind_some]
        exact r?
      have chosen := openLane_messages (s := u) resource here laid
      rw [serves]
      split at chosen
      · rename_i able
        rcases chosen with ⟨y, st, best, rfl, stub, auxiliary, index', selected⟩
        rw [if_pos able]
        refine ⟨best, selected, ?_⟩
        have stub' : ({ x with holds } : Network).stubs.get? y = some st := by
          rw [show ({ x with holds } : Network).stubs = v.stubs from same.stubs]
          exact stubs y st stub
        simp only [auxiliaryIndex, stub', auxiliary, if_true, index']
      · rename_i unable
        rcases chosen with ⟨l, rfl⟩
        rw [if_neg unable]
        rfl

/-- A selection is made between the workers that have been opened. -/
theorem selectScenario_opened {sc : Scenario} {report : SelectReport}
    (ran : selectScenario sc {} = .ok (.ok report, t)) : ∃ alpha beta s, Opened sc alpha beta s ∧
      report.candidates = ((s.workers.get? alpha).map (scoredResources s)).getD [] ∧
      report.selected =
        match s.selectFor alpha (((s.workers.get? beta).map s.workerAddress).getD default).name
          (((s.workers.get? beta).map s.workerAddress).getD default).entries .auxiliary with
        | .ok best => .ok (describe s alpha best.resource)
        | .error why => .error why.message := by
  unfold selectScenario at ran
  rcases bind_done ran with ⟨fabric, s₀, opened, opening⟩
  rcases bind_done opening with ⟨alpha, s₁, first, opening₁⟩
  cases alpha with
  | error why => cases (pure_done opening₁).1
  | ok alpha =>
    rcases bind_done opening₁ with ⟨beta, s₂, second, opening₂⟩
    cases beta with
    | error why =>
      rcases bind_done opening₂ with ⟨⟨⟩, s₃, -, answer⟩
      cases (pure_done answer).1
    | ok beta =>
      rcases bind_done opening₂ with ⟨s', s₃, got, closing⟩
      cases (get_done got).1
      cases (get_done got).2
      rcases bind_done closing with ⟨⟨⟩, z₁, -, closing₁⟩
      rcases bind_done closing₁ with ⟨⟨⟩, z₂, -, dropping⟩
      rcases bind_done dropping with ⟨⟨⟩, z₃, -, dropping₁⟩
      rcases bind_done dropping₁ with ⟨⟨⟩, z₄, -, answer⟩
      cases (pure_done answer).1
      exact ⟨alpha, beta, _, ⟨fabric, s₀, s₁, update_done opened, first, second⟩, rfl, rfl⟩

/-- A delivery reports the auxiliary resource that its endpoint shows. -/
theorem RunSetup.deliver_auxiliary {r : RunSetup} {maxRounds : Nat} {report : RunReport}
    (ran : r.deliver maxRounds s = .ok (.ok report, t)) :
    ∃ index, s.auxiliaryIndex (s.slot r.endpoint .messages) = .ok index ∧
      report.auxiliary = index.map (describe s r.alpha) := by
  unfold RunSetup.deliver at ran
  rcases bind_done ran with ⟨s', v, got, choosing⟩
  cases (get_done got).1
  cases (get_done got).2
  rcases bind_done choosing with ⟨index, v', chosen, sending⟩
  rcases bind_done sending with ⟨handles, x, -, going⟩
  rcases bind_done going with ⟨rounds, y, -, ending⟩
  refine ⟨index, congrArg Prod.snd (perform_done chosen), ?_⟩
  cases rounds with
  | error why => cases (pure_done ending).1
  | ok rounds =>
    rcases bind_done ending with ⟨y', z, got, deciding⟩
    cases failed : firstFailure y' handles with
    | some why =>
      rw [failed] at deciding
      rcases bind_done deciding with ⟨⟨⟩, z', -, answer⟩
      cases (pure_done answer).1
    | none =>
      rw [failed] at deciding
      rcases bind_done deciding with ⟨y'', z₀, -, closing⟩
      rcases bind_done closing with ⟨⟨⟩, z₁, -, closing₁⟩
      rcases bind_done closing₁ with ⟨⟨⟩, z₂, -, dropping⟩
      rcases bind_done dropping with ⟨⟨⟩, z₃, -, answer⟩
      cases (pure_done answer).1
      rfl

/-- What a command answers with, its activity has ended with. -/
theorem execute_done {α : Type} {x : Activity (Except CommandError α)} {f : α → Report}
    {report : Report} (ran : (x.run' {}).map (fun r => r.map f) = .ok (.ok report)) :
    ∃ r t, x {} = .ok (.ok r, t) ∧ report = f r := by
  simp only [StateT.run'] at ran
  cases outcome : x {} with
  | error v =>
    rw [outcome] at ran
    cases ran
  | ok p =>
    rw [outcome] at ran
    rcases p with ⟨why | r, t⟩
    · cases ran
    · cases ran
      exact ⟨r, t, rfl, rfl⟩

/-- What a report shows under a name. -/
def Report.shown (r : Report) (name : String) : Option Json.Value :=
  match r.toJson with
  | .object fields => fields.lookup name
  | _ => none

theorem describe_choice {w : WorkerId} {wk : Worker} {fabric : FabricId} {specs : List ResourceSpec}
    {n : Nat} {c : ScoredResource} (here : s.workers.get? w = some wk)
    (stocked : s.Stocked fabric specs wk.resources) (few : specs.length ≤ maxResources)
    (choice : IsChoice (specs.map ResourceSpec.scored) n c) :
    describe s w (UInt8.ofNat n) = "rsc[" ++ toString n ++ "] " ++ c.resource := by
  have place := choice.place
  rw [List.getElem?_map, Option.map_eq_some_iff] at place
  rcases place with ⟨spec, place, rfl⟩
  have below : n < specs.length := (List.getElem?_eq_some_iff.1 place).1
  have number : (UInt8.ofNat n).toNat = n := UInt8.toNat_ofNat_of_lt' (below.trans_le few)
  rcases forall₂_getElem? stocked n with ⟨none, -⟩ | ⟨spec', r, spec?, r?, name, -⟩
  · cases place.symm.trans none
  cases place.symm.trans spec?
  rw [describe, here, Option.bind_some, number, r?]
  simp only [ResourceIndex.text, number, name, ResourceSpec.scored, String.append_assoc]
  rfl

/-- Whether a worker has created its endpoint or not does not matter for its resources. -/
theorem describe_congr {w : WorkerId} {wk wk' : Worker} (here : s.workers.get? w = some wk)
    (there : t.workers.get? w = some wk') (same : wk'.resources = wk.resources)
    (index : ResourceIndex) : describe t w index = describe s w index := by
  rw [describe, describe, here, there, Option.bind_some, Option.bind_some, same]

/-- What a run shows is what the selection between its workers is. -/
theorem Opened.run_auxiliary {sc : Scenario} {alpha beta : WorkerId} (h : Opened sc alpha beta s)
    {wk : Worker} (here : s.workers.get? alpha = some wk) {messages maxRounds : Nat} {report : RunReport}
    (ran : runScenario sc messages maxRounds {} = .ok (.ok report, t)) :
    if sc.pairs then
      ∃ n c, IsChoice ((sc.resources.take maxResources).map ResourceSpec.scored) n c ∧
        report.auxiliary = some (describe s alpha (UInt8.ofNat n))
    else report.auxiliary = none := by
  rcases runScenario_delivers ran with
    ⟨alpha', beta', s', u, v, endpoint, opened, recorded, asked, delivering⟩
  rcases h.unique opened with ⟨rfl, rfl, rfl⟩
  rcases h.stocked with ⟨blank, fabric', wk', peer, here', there, planned, stocked, stocked'⟩
  cases here.symm.trans here'
  have data : dataMessageId ≠ Signal.messageId := by decide
  have recording := blank.setWorkerHandler beta data "beta" false
  have upholds := Upholds.setWorkerHandler s beta dataMessageId (.record "beta" none false)
  have books := setWorkerHandler_workers s beta dataMessageId (.record "beta" none false)
  rw [← recorded] at recording upholds books
  rw [← books] at here there
  have live {w : WorkerId} {wk : Worker} (here : u.workers.get? w = some wk) :
      ∀ r ∈ wk.resources, u.interfaces.contains r.interface = true := fun r hr =>
    recording.rested.fit.sound.live _ (isHeld_of_owned (isOwned_iff.2
      (.inl ⟨w, wk, here, .inl ⟨r, hr, rfl⟩⟩)))
  have stocked := stocked.later upholds (live here)
  have stocked' := stocked'.later upholds (live there)
  rcases created_auxiliary recording here planned stocked asked with ⟨⟨wk', after, same⟩, shown⟩
  rcases RunSetup.deliver_auxiliary delivering with ⟨index, answered, auxiliary⟩
  split
  · rename_i pairs
    rw [if_pos pairs] at shown
    rcases shown with ⟨best, selected, answered'⟩
    cases answered.symm.trans answered'
    rw [there, Option.map_some, Option.getD_some] at selected
    rcases select_stocked stocked stocked'.announced (u.workerAddress peer).name with
      ⟨-, why, failed⟩ | ⟨n, c, best', choice, selected', resource⟩
    · cases selected.symm.trans failed
    cases selected.symm.trans selected'
    refine ⟨n, c, choice, ?_⟩
    rw [auxiliary, Option.map_some, resource]
    exact congrArg some (describe_congr here' after same _)
  · rename_i direct
    rw [if_neg direct] at shown
    cases answered.symm.trans shown
    exact auxiliary

/-- The report of a selection lists how the resources that a worker can address score. It shows either
the selected resource or an error: the first resource whose positive score no other exceeds, or an
error if none has a positive score. A run of the same scenario reports the selected resource if its
lane for messages is paired, and none otherwise. -/
theorem select_report_agrees (sc : Scenario) {report : SelectReport}
    (ran : Command.select.execute sc = .ok (.ok (.select report))) :
    report.candidates = (sc.resources.take maxResources).map ResourceSpec.scored ∧
    ((Report.select report).shown "selected" = some .null ↔
      (Report.select report).shown "error" ≠ some .null) ∧
    (∀ text, report.selected = .ok text ↔ ∃ n c, IsChoice report.candidates n c ∧
      text = "rsc[" ++ toString n ++ "] " ++ c.resource) ∧
    ((∃ why, report.selected = .error why) ↔
      ∀ c ∈ report.candidates, ∀ x, c.score = .ok x → ¬x > 0) ∧
    ∀ messages maxRounds run, (Command.run messages maxRounds).execute sc = .ok (.ok (.run run)) →
      if sc.pairs then ∃ text, report.selected = .ok text ∧ run.auxiliary = some text
      else run.auxiliary = none := by
  have ended : ∃ t, selectScenario sc {} = .ok (.ok report, t) := by
    rcases execute_done ran with ⟨r, t, done, same⟩
    cases same
    exact ⟨t, done⟩
  rcases ended with ⟨t, ended⟩
  rcases selectScenario_opened ended with ⟨alpha, beta, s, opened, candidates, selected⟩
  rcases opened.stocked with ⟨blank, fabric, wk, peer, here, there, -, stocked, stocked'⟩
  have few : (sc.resources.take maxResources).length ≤ maxResources := List.length_take_le _ _
  rw [here, Option.map_some, Option.getD_some, stocked.scoredResources] at candidates
  simp only [there, Option.map_some, Option.getD_some, selectFor, here] at selected
  -- the selection of the command is the first best resource of its listing
  have choice : (∀ c ∈ report.candidates, ∀ x, c.score = .ok x → ¬x > 0) ∧
        (∃ why, report.selected = .error why) ∨
      ∃ n c, IsChoice report.candidates n c ∧
        report.selected = .ok ("rsc[" ++ toString n ++ "] " ++ c.resource) := by
    rw [candidates, selected]
    rcases select_stocked stocked stocked'.announced (s.workerAddress peer).name with
      ⟨none, why, failed⟩ | ⟨n, c, best, choice, chosen, resource⟩
    · exact .inl ⟨none, _, by rw [failed]⟩
    · refine .inr ⟨n, c, choice, ?_⟩
      rw [← describe_choice here stocked few choice, ← resource, chosen]
  have runs {messages maxRounds : Nat} {run : RunReport}
      (done : (Command.run messages maxRounds).execute sc = .ok (.ok (.run run))) :
      if sc.pairs then
        ∃ n c, IsChoice report.candidates n c ∧
          run.auxiliary = some ("rsc[" ++ toString n ++ "] " ++ c.resource)
      else run.auxiliary = none := by
    rcases execute_done done with ⟨r, v, done, same⟩
    cases same
    have shown := opened.run_auxiliary here done
    rw [candidates]
    split
    · rename_i pairs
      rw [if_pos pairs] at shown
      rcases shown with ⟨n, c, choice, auxiliary⟩
      exact ⟨n, c, choice, by rw [auxiliary, describe_choice here stocked few choice]⟩
    · rename_i direct
      rwa [if_neg direct] at shown
  refine ⟨candidates, ?_, ?_, ?_, fun messages maxRounds run done => ?_⟩
  · cases told : report.selected <;> simp [Report.shown, Report.toJson, told, List.lookup]
  · intro text
    rcases choice with ⟨none, why, failed⟩ | ⟨n, c, choice, chosen⟩
    · rw [failed]
      refine iff_of_false (fun same => nomatch same) ?_
      rintro ⟨n, c, choice, -⟩
      rcases choice.best with ⟨x, scored, positive, -⟩
      exact none c (List.mem_of_getElem? choice.place) x scored positive
    · rw [chosen, Except.ok.injEq]
      constructor
      · rintro rfl
        exact ⟨n, c, choice, rfl⟩
      · rintro ⟨m, d, choice', rfl⟩
        rcases choice.unique choice' with ⟨rfl, rfl⟩
        rfl
  · rcases choice with ⟨none, failed⟩ | ⟨n, c, choice, chosen⟩
    · exact iff_of_true failed none
    · rw [chosen]
      refine iff_of_false (fun failed => nomatch failed.choose_spec) fun none => ?_
      rcases choice.best with ⟨x, scored, positive, -⟩
      exact none c (List.mem_of_getElem? choice.place) x scored positive
  · have shown := runs done
    split
    · rename_i pairs
      rw [if_pos pairs] at shown
      rcases shown with ⟨m, d, choice', auxiliary⟩
      rcases choice with ⟨none, -⟩ | ⟨n, c, choice, chosen⟩
      · rcases choice'.best with ⟨x, scored, positive, -⟩
        exact absurd positive (none d (List.mem_of_getElem? choice'.place) x scored)
      · rcases choice.unique choice' with ⟨rfl, rfl⟩
        exact ⟨_, chosen, auxiliary⟩
    · rename_i direct
      rwa [if_neg direct] at shown

/-- The report of a selection among the answers to commands. -/
def selectReport? : Except Violation (Except CommandError Report) → Option SelectReport
  | .ok (.ok (.select report)) => some report
  | _ => none

theorem eq_of_selectReport? {answer : Except Violation (Except CommandError Report)}
    {report : SelectReport} (h : selectReport? answer = some report) :
    answer = .ok (.ok (.select report)) := by
  unfold selectReport? at h
  split at h
  · cases h
    rfl
  · cases h

/-- In the default scenario the resource that serves messages pairs links, and cannot carry the wire-up
itself: what is selected for it is what a run of two messages reports. -/
theorem select_report_agrees_default : ∃ report run,
    Command.select.execute Scenario.default = .ok (.ok (.select report)) ∧
      (Command.run 2 9).execute Scenario.default = .ok (.ok (.run run)) ∧
      Scenario.default.pairs = true ∧
      ∃ text, report.selected = .ok text ∧ run.auxiliary = some text := by
  have selects : (selectReport? (Command.select.execute Scenario.default)).isSome = true := by
    decide +kernel
  have runs : (runReport? ((Command.run 2 9).execute Scenario.default)).isSome = true := by
    decide +kernel
  have pairs : Scenario.default.pairs = true := by decide +kernel
  rcases Option.isSome_iff_exists.1 selects with ⟨report, answered⟩
  rcases Option.isSome_iff_exists.1 runs with ⟨run, done⟩
  have answered := eq_of_selectReport? answered
  have done := eq_of_runReport? done
  rcases select_report_agrees Scenario.default answered with ⟨-, -, -, -, agree⟩
  have shown := agree 2 9 run done
  rw [if_pos pairs] at shown
  exact ⟨report, run, answered, done, pairs, shown⟩

end Wiring
