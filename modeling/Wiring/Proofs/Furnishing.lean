import Mathlib
import Wiring.Proofs.Outfit

/-!
# Lanes that can be opened

Between parties that are fitted out alike every lane of the plan can be opened: a resource that
pairs links gets a stub, and one that does not a link to the first interface with its transport. For
messages there is a link for signals from the start, to an interface of the other party.
-/
namespace Wiring

/-- The resources of an outfit are fit for its plan: there is one for each lane, which can pair links
or connect to interfaces, and one that can carry signals if that of the messages pairs links. Each of
them has credits, and takes numbers and signals up to a size. -/
structure Outfit.Fair (o : Outfit) (size : Nat) : Prop where
  unaliased : ∀ c, o.plan.aliases.get c = none
  messages : .messages ∈ o.plan.lanes
  served : ∀ c ∈ o.plan.lanes, ∃ index, o.plan.resource c = some index ∧
    index.toNat < o.specs.length
  few : o.specs.length ≤ 256
  bulk : (o.settings (o.serves .messages)).capabilities.contains .bulkMessages = true
  direct : ∀ c ∈ o.plan.lanes, o.paired c = false →
    (o.settings (o.serves c)).capabilities.contains .connectToInterface = true
  auxiliary : o.paired .messages = true → ∃ n < o.specs.length, ∃ score,
    Scorer.auxiliary.score (o.settings n).attributes = .ok score ∧ 0 < score
  credits : ∀ n < o.specs.length, 1 ≤ (o.settings n).credits
  room : ∀ n < o.specs.length, 4 ≤ (o.settings n).maxBulk ∧ size ≤ (o.settings n).maxBulk ∧
    (o.settings n).maxBulk < UInt64.size

namespace Outfit.Fair

variable {o : Outfit} {p : Party} {c : Category} {size : Nat}

theorem serves_lt (h : o.Fair size) (hc : c ∈ o.plan.lanes) : o.serves c < o.specs.length := by
  rcases h.served c hc with ⟨index, found, small⟩
  rw [Outfit.serves, found]
  exact small

theorem meets_lt (h : o.Fair size) (hc : c ∈ o.plan.lanes) : o.meets c < o.specs.length :=
  (Outfit.meets_le (h.serves_lt hc)).trans_lt (h.serves_lt hc)

/-- No category uses the lane of another. -/
theorem shares (h : o.Fair size) (lane c : Category) : o.plan.shares lane c = (c == lane) := by
  simp [Plan.shares, h.unaliased]

/-- The resource of a party that serves a lane. -/
theorem resource (h : o.Fair size) (hc : c ∈ o.plan.lanes) :
    ((o.plan.resource c).bind fun index => (o.resources p)[index.toNat]?) =
      some ⟨(o.spec (o.serves c)).name, p.at (o.serves c)⟩ := by
  rcases h.served c hc with ⟨index, found, small⟩
  rw [found, Option.bind_some, Outfit.serves, found]
  exact Outfit.getElem?_resources small

end Outfit.Fair

/-- What can be scored as an auxiliary can carry signals and connects to interfaces. -/
theorem auxiliary_able {a : Attributes} {score : Float}
    (h : Scorer.auxiliary.score a = .ok score) :
    a.capabilities.contains .bulkMessages = true ∧
      a.capabilities.contains .connectToInterface = true := by
  have needs : ∀ need ∈ auxiliaryNeeds, a.capabilities.contains need.1 = true := by
    unfold Scorer.auxiliary at h
    simp only at h
    split at h
    · cases h
    · rename_i none
      simpa using List.find?_eq_none.1 none
  exact ⟨needs (.bulkMessages, "am_bcopy for wireup") (by simp [auxiliaryNeeds]),
    needs (.connectToInterface, "connecting to iface") (by simp [auxiliaryNeeds])⟩

namespace Network

variable {o : Outfit} {ps : List Party} {p q : Party} {s t u : Network} {i : InterfaceId}
  {f : Interface} {n m size : Nat} {c : Category} {carrier : Carrier} {l v : LinkId}

/-! ## What is opened beside -/

/-- Links and stubs are opened, and nothing else changes. -/
structure Opened (s t : Network) : Prop where
  frame : t = { s with
    interfaces := t.interfaces, links := t.links, stubs := t.stubs, gates := t.gates }
  stations : ∀ i, (t.interfaces.get? i).map Interface.plain =
    (s.interfaces.get? i).map Interface.plain
  links : s.links.Keeps t.links
  stubs : s.stubs.Keeps t.stubs
  gates : ∀ g n, t.gates.get? g = some n → s.gates.get? g = some n ∨ n = 0

namespace Opened

theorem refl (s : Network) : Opened s s := ⟨rfl, fun _ => rfl, .refl _, .refl _, fun _ _ => .inl⟩

theorem trans (h : Opened s t) (g : Opened t u) : Opened s u where
  frame := by rw [g.frame, h.frame]
  stations i := (g.stations i).trans (h.stations i)
  links := h.links.trans g.links
  stubs := h.stubs.trans g.stubs
  gates k n here := by
    rcases g.gates k n here with old | zero
    · exact h.gates k n old
    · exact .inr zero

theorem newLink (here : s.interfaces.get? i = some f) (dest : Option InterfaceId) :
    Opened s (s.newLink i f dest).1 where
  frame := rfl
  stations k := by
    simp only [Network.newLink, Table.get?_set_of here]
    split
    · subst k
      rw [here]
      rfl
    · rfl
  links := (Table.Keeps.refl _).push _
  stubs := .refl _
  gates _ _ here := .inl here

theorem newStub (s : Network) (endpoint : EndpointId) (lane : Category) (next : LinkId)
    (auxiliary : Option (ResourceIndex × LinkId)) :
    Opened s (s.newStub endpoint lane next auxiliary).1 where
  frame := rfl
  stations _ := rfl
  links := .refl _
  stubs := (Table.Keeps.refl _).push _
  gates g n here := by
    rcases Table.get?_of_push here with ⟨-, zero⟩ | here
    · exact .inr zero
    · exact .inl here

theorem scene (h : Opened s t) (scene : Scene o ps s) : Scene o ps t := by
  refine scene.next ?_ ?_ h.stations h.gates (fun well => ?_) (fun w held => ?_) fun l held => ?_
  · rw [h.frame]
  · rw [h.frame]
  · rw [h.frame]
    exact well
  · rw [h.frame]
    exact held
  · rw [h.frame] at held
    exact held

theorem course (h : Opened s t) {l : LinkId} {c : Course} (here : s.layout.course l = some c) :
    t.layout.course l = some c := by
  rcases Option.map_eq_some_iff.1 here with ⟨lk, link, rfl⟩
  exact Option.map_eq_some_iff.2 ⟨lk, h.links.get? link, rfl⟩

theorem stub (h : Opened s t) {x : StubId} {st : Stub} (here : s.layout.stub x = some st) :
    t.layout.stub x = some st := by
  rcases Option.map_eq_some_iff.1 here with ⟨st', stub, rfl⟩
  exact Option.map_eq_some_iff.2 ⟨st', h.stubs.get? stub, rfl⟩

end Opened

theorem newLink_course (s : Network) (i : InterfaceId) (f : Interface) (dest : Option InterfaceId) :
    (s.newLink i f dest).1.layout.course s.links.next = some ⟨i, f.settings, dest⟩ := by
  exact Option.map_eq_some_iff.2 ⟨_, (Table.get?_push ..).trans (if_pos rfl), rfl⟩

theorem newStub_stub (s : Network) (endpoint : EndpointId) (lane : Category) (next : LinkId)
    (auxiliary : Option (ResourceIndex × LinkId)) :
    (s.newStub endpoint lane next auxiliary).1.layout.stub s.stubs.next =
      some
        { endpoint, category := lane, auxiliaryResource := auxiliary.map Prod.fst,
          gate := s.gates.next, next := some next, auxiliary := auxiliary.map Prod.snd } :=
  Option.map_eq_some_iff.2 ⟨_, (Table.get?_push ..).trans (if_pos rfl), rfl⟩

/-! ## Lanes -/

/-- A lane is opened, and the lane of the messages with a link for signals. -/
structure LaneOpened (o : Outfit) (p q : Party) (s : Network) (c : Category) (t : Network)
    (carrier : Carrier) (l : LinkId) : Prop extends Opened s t where
  few : t.links.next ≤ s.links.next + 2
  new : s.links.next ≤ l
  lane : LaneAt o p q t.layout false false c (some carrier) l
  voice : c = .messages → ∃ v n m, Voice o p q t.layout carrier v n m ∧ s.links.next ≤ v ∧
    (o.paired c = true → v ≠ l) ∧
    (o.paired c = false → v = l ∧ n = o.serves c ∧ m = o.meets c)

namespace Scene

/-- The entry of a resource is reached from every interface. -/
theorem fits (h : Scene o ps s) (here : s.interfaces.get? i = some f) (spec : ResourceSpec)
    (transport : String) (k : InterfaceId) :
    ((Outfit.entry spec k).transport == transport && s.reaches f (Outfit.entry spec k).deviceAddress) =
      (spec.name.transport == transport) := by
  have reached : s.reaches f (Outfit.entry spec k).deviceAddress = true := h.reaches here
  rw [reached, Bool.and_true]
  rfl

/-- The first entry that fits a resource is that of the first one with its transport. -/
theorem finds_first (h : Scene o ps s) (here : s.interfaces.get? i = some f)
    (small : o.serves c < o.specs.length) :
    (o.entries q).find? (fun entry =>
      entry.transport == (o.spec (o.serves c)).name.transport &&
        s.reaches f entry.deviceAddress) =
      some (Outfit.entry (o.spec (o.first c)) (q.at (o.first c))) := by
  have below : o.first c < o.specs.length := (Outfit.first_le small).trans_lt small
  refine List.find?_eq_some_iff_getElem.2 ⟨?_, o.first c, by simpa [Outfit.entries] using below,
    ?_, ?_⟩
  · rw [h.fits here, Outfit.transport_first small, beq_self_eq_true]
  · have := Outfit.getElem?_entries (p := q) below
    exact (List.getElem?_eq_some_iff.1 this).2
  · intro k hk
    have inside : k < o.specs.length := hk.trans below
    have entry := (List.getElem?_eq_some_iff.1 (Outfit.getElem?_entries (p := q) inside)).2
    rw [entry, h.fits here]
    have := List.not_of_lt_findIdx hk
    simpa [Outfit.spec, inside] using this

/-- There is an auxiliary resource that can carry signals to an entry of the other party. -/
theorem selects (h : Scene o ps s) (fair : o.Fair size) (hp : p ∈ ps)
    (paired : o.paired .messages = true) (peer : String) {wk : Worker}
    (resources : wk.resources = o.resources p) :
    ∃ n m x, n < o.specs.length ∧ m < o.specs.length ∧
      (o.settings n).capabilities.contains .bulkMessages = true ∧
      (o.settings n).capabilities.contains .connectToInterface = true ∧
      s.select wk peer (o.entries q) .auxiliary = .ok ⟨UInt8.ofNat n, m, x⟩ := by
  rcases s.select_ratings wk peer (o.entries q) .auxiliary with ⟨none, -⟩ |
    ⟨before, r, x, after, ratings, best, -, selected⟩
  · rcases fair.auxiliary paired with ⟨n, small, score, scored, positive⟩
    rcases h.stations p hp n small with ⟨f, here, settings, -⟩
    have rated : s.rating? wk (o.entries q) .auxiliary (n, n) =
        some ⟨n, n, (o.spec n).name, .ok score⟩ := by
      simp only [rating?, resources, Outfit.getElem?_resources small, Outfit.getElem?_entries small,
        Option.bind_eq_bind, Option.bind_some, here, settings, scored]
      rw [if_pos ⟨rfl, h.reaches here⟩]
    have mem : ⟨n, n, (o.spec n).name, .ok score⟩ ∈ s.ratings wk (o.entries q) .auxiliary := by
      refine List.mem_filterMap.2 ⟨(n, n), ?_, rated⟩
      rw [List.mem_product, List.mem_range, List.mem_range, resources, Outfit.resources_length,
        Outfit.entries_length]
      exact ⟨small, small⟩
    exact absurd positive (none _ mem score rfl)
  · have mem : r ∈ s.ratings wk (o.entries q) .auxiliary := by simp [ratings]
    rcases List.mem_filterMap.1 mem with ⟨place, there, rated⟩
    rw [List.mem_product, List.mem_range, List.mem_range, resources, Outfit.resources_length,
      Outfit.entries_length] at there
    rcases h.stations p hp place.1 there.1 with ⟨f, here, settings, -⟩
    simp only [rating?, resources, Outfit.getElem?_resources there.1,
      Outfit.getElem?_entries there.2, Option.bind_eq_bind, Option.bind_some, here] at rated
    split at rated
    · cases rated
      have able := auxiliary_able best.scored
      rw [settings] at able
      exact ⟨place.1, place.2, x, there.1, there.2, able.1, able.2, selected⟩
    · cases rated

/-- A link to the best entry can be opened. -/
theorem openAuxiliary (h : Scene o ps s) (fair : o.Fair size) (hp : p ∈ ps) (hq : q ∈ ps)
    (paired : o.paired .messages = true) (peer : String) {wk : Worker}
    (resources : wk.resources = o.resources p) :
    ∃ n m f r, n < o.specs.length ∧ m < o.specs.length ∧ s.interfaces.get? (p.at n) = some f ∧
      f.settings = o.settings n ∧ (o.settings n).capabilities.contains .bulkMessages = true ∧
      s.openAuxiliary wk peer (o.entries q) .auxiliary =
        ((s.newLink (p.at n) f (some (q.at m))).1, .ok (r, s.links.next)) := by
  rcases h.selects (q := q) fair hp paired peer resources with
    ⟨n, m, x, hn, hm, bulk, connects, selected⟩
  rcases h.stations p hp n hn with ⟨f, here, settings, -⟩
  refine ⟨n, m, f, UInt8.ofNat n, hn, hm, here, settings, bulk, ?_⟩
  have index : (UInt8.ofNat n).toNat = n := by
    have := fair.few
    exact UInt8.toNat_ofNat_of_lt' (by change n < 256; omega)
  have opened := h.openConnectedLink hq hm here (by rw [settings]; exact connects)
  simp only [Network.openAuxiliary, selected, index, resources, Outfit.getElem?_resources hn,
    Outfit.getElem?_entries hm, Outfit.entry, opened]

/-- A lane whose resource pairs links gets a stub with a link of that resource. -/
theorem openStub (h : Scene o ps s) (fair : o.Fair size) (hp : p ∈ ps) (hq : q ∈ ps)
    (hc : c ∈ o.plan.lanes) (paired : o.paired c = true) (ep : Endpoint) {wk : Worker}
    (resources : wk.resources = o.resources p) :
    ∃ u x l, s.openStub p.endpoint ep wk c (p.at (o.serves c)) (o.entries q) = (u, .ok x) ∧
      LaneOpened o p q s c u (.stub x) l := by
  rcases h.stations p hp (o.serves c) (fair.serves_lt hc) with ⟨f, here, settings, -⟩
  have able : f.settings.capabilities.contains .connectToLink = true := by
    rw [settings]
    exact paired
  have first := Opened.newLink here none
  have linked : s.openLink (p.at (o.serves c)) =
      ((s.newLink (p.at (o.serves c)) f none).1, .ok s.links.next) := by
    simp only [openLink, here, require, able, if_true]
    rfl
  have course := s.newLink_course (p.at (o.serves c)) f none
  have counted : (s.newLink (p.at (o.serves c)) f none).1.links.next = s.links.next + 1 :=
    Table.next_push ..
  rw [settings] at course
  by_cases messages : c = .messages
  · subst c
    rcases (first.scene h).openAuxiliary fair hp hq paired ep.peer resources with
      ⟨n, m, f', r, hn, hm, here', settings', bulk, opened⟩
    have second := Opened.newLink here' (some (q.at m))
    have third := Opened.newStub (Network.newLink (s.newLink (p.at (o.serves .messages)) f none).1
      (p.at n) f' (some (q.at m))).1 p.endpoint .messages s.links.next (some (r, s.links.next + 1))
    refine ⟨_, s.stubs.next, s.links.next, ?_, ⟨(first.trans second).trans third, ?_, le_rfl, ?_, fun _ => ?_⟩⟩
    · simp only [Network.openStub, linked, if_true, opened, counted]
      rfl
    · exact (Table.next_push ..).le.trans (by rw [counted])
    · refine .waiting _ _ s.links.next paired (newStub_stub ..) rfl rfl rfl ⟨rfl, by simp⟩ ⟨rfl, rfl⟩ ?_
      exact third.course (second.course course)
    · refine ⟨s.links.next + 1, n, m, ⟨.inr ⟨_, _, rfl, newStub_stub .., rfl, rfl⟩, ?_, ⟨hn, hm⟩,
        bulk⟩, Nat.le_succ _, fun _ => Nat.succ_ne_self _, fun unpaired => ?_⟩
      · refine third.course ?_
        have course' := Network.newLink_course (s.newLink (p.at (o.serves .messages)) f none).1
          (p.at n) f' (some (q.at m))
        rw [counted, settings'] at course'
        exact course'
      · rw [unpaired] at paired
        cases paired
  · have second := Opened.newStub (s.newLink (p.at (o.serves c)) f none).1 p.endpoint c
      s.links.next none
    refine ⟨_, s.stubs.next, s.links.next, ?_, ⟨first.trans second, ?_, le_rfl, ?_, fun same => ?_⟩⟩
    · simp only [Network.openStub, linked, if_neg messages]
      rfl
    · exact counted.le.trans (Nat.le_succ _)
    · refine .waiting _ _ s.links.next paired (newStub_stub ..) rfl rfl rfl ⟨rfl, by simp⟩ ⟨rfl, rfl⟩ ?_
      exact second.course course
    · exact absurd same messages

/-- Every lane of the plan can be opened. -/
theorem openLane (h : Scene o ps s) (fair : o.Fair size) (hp : p ∈ ps) (hq : q ∈ ps)
    (hc : c ∈ o.plan.lanes) {wk : Worker} (ep : Endpoint) (plan : ep.plan = o.plan)
    (resources : wk.resources = o.resources p) :
    ∃ u carrier l, s.openLane p.endpoint ep wk c (o.entries q) = (u, .ok carrier) ∧
      LaneOpened o p q s c u carrier l := by
  have small := fair.serves_lt hc
  rcases h.stations p hp (o.serves c) small with ⟨f, here, settings, -⟩
  have resource := fair.resource (p := p) hc
  rw [← plan, ← resources] at resource
  cases paired : o.paired c with
  | true =>
    have able : f.settings.capabilities.contains .connectToLink = true := by
      rw [settings]
      exact paired
    rcases h.openStub fair hp hq hc paired ep resources with ⟨u, x, l, opened, lane⟩
    refine ⟨u, .stub x, l, ?_, lane⟩
    simp only [Network.openLane, resource, here, able, if_true, opened]
  | false =>
    have unable : f.settings.capabilities.contains .connectToLink = false := by
      rw [settings]
      exact paired
    have first : o.meets c = o.first c := by simp [Outfit.meets, paired]
    have inside : o.first c < o.specs.length := (Outfit.first_le small).trans_lt small
    have opened := h.openConnectedLink hq inside here (by
      rw [settings]
      exact fair.direct c hc paired)
    have course := s.newLink_course (p.at (o.serves c)) f (some (q.at (o.first c)))
    rw [settings, ← first] at course
    refine ⟨_, .link s.links.next, s.links.next, ?_, ⟨Opened.newLink here (some (q.at (o.first c))),
      ?_, le_rfl, ?_, fun messages => ?_⟩⟩
    · have found := h.finds_first (q := q) here small
      simp only [Network.openLane, resource, here, unable, found, Outfit.entry, opened]
      rfl
    · exact (Table.next_push ..).le.trans (Nat.le_succ _)
    · rw [first] at course
      refine .linked s.links.next (.inl paired) ?_
      rw [first]
      exact course
    · subst c
      rw [first] at course
      refine ⟨s.links.next, o.serves .messages, o.meets .messages, ⟨.inl rfl, ?_,
        ⟨small, fair.meets_lt hc⟩, fair.bulk⟩, le_rfl, fun paired' => ?_, fun _ => ⟨rfl, rfl, rfl⟩⟩
      · rw [first]
        exact course
      · rw [paired] at paired'
        cases paired'

/-- The lanes of an endpoint can be opened one after another. -/
theorem openLanes (fair : o.Fair size) (hp : p ∈ ps) (hq : q ∈ ps) (lanes : List Category) :
    ∀ {s done slots links}, Scene o ps s → (∀ c ∈ lanes, c ∈ o.plan.lanes) → (done ++ lanes).Nodup →
    Aboard o p q s.layout done (fun _ => false) (fun _ => false) slots links →
    (.messages ∈ done → ∃ v n m, Vocal o p q s.layout done slots links v n m) →
    ∃ t slots' links', s.openLanes p.endpoint (o.entries q) lanes = (t, .ok ()) ∧ Scene o ps t ∧
      Aboard o p q t.layout (done ++ lanes) (fun _ => false) (fun _ => false) slots' links' ∧
      (.messages ∈ done ++ lanes →
        ∃ v n m, Vocal o p q t.layout (done ++ lanes) slots' links' v n m) ∧
      t.links.next ≤ s.links.next + 2 * lanes.length ∧ t = { s with
        interfaces := t.interfaces, links := t.links, stubs := t.stubs, gates := t.gates
        endpoints := t.endpoints } := by
  induction lanes with
  | nil =>
    intro s done slots links scene _ _ aboard vocal
    rw [List.append_nil]
    exact ⟨s, slots, links, rfl, scene, aboard, vocal, le_rfl, rfl⟩
  | cons c lanes ih =>
    intro s done slots links scene planned once aboard vocal
    have hc := planned c List.mem_cons_self
    rcases List.nodup_append.1 once with ⟨_, later, disjoint⟩
    have new : c ∉ done := fun old => disjoint c old c List.mem_cons_self rfl
    rcases Option.map_eq_some_iff.1 aboard.worker with ⟨wk, books, seat⟩
    have resources : wk.resources = o.resources p := (congrArg Worker.resources seat :)
    have here : s.endpoints.get? p.endpoint = some (o.endpoint p q slots) := aboard.endpoint
    rcases scene.openLane (q := q) fair hp hq hc (o.endpoint p q slots) rfl resources
      with ⟨u, carrier, l, opened, lane⟩
    have here' : u.endpoints.get? p.endpoint = some (o.endpoint p q slots) := by
      rw [lane.frame]
      exact here
    let slots₁ : PerCategory Slot := installLane (o.endpoint p q slots) c carrier
    have installed (c' : Category) :
        slots₁.get c' = if c' = c then some carrier else slots.get c' := by
      simp only [slots₁, installLane, PerCategory.get_mapWith]
      change (if o.plan.shares c c' = true then _ else slots.get c') = _
      simp only [fair.shares, beq_iff_eq]
    have layout := setSlots_layout here' slots₁
    have aboard₁ : Aboard o p q (u.setSlots p.endpoint slots₁).layout (done ++ [c])
        (fun _ => false) (fun _ => false) slots₁ (Function.update links c l) := by
      have keeps {c'} {slot} {k} (h : LaneAt o p q s.layout false false c' slot k) :
          LaneAt o p q (u.setSlots p.endpoint slots₁).layout false false c' slot k :=
        h.keep (fun _ _ course => lane.course course) fun _ _ stub => lane.stub stub
      refine ⟨?_, ?_, fun c' hc' => ?_, fun c' hc' => ?_, fun a ha b hb same => ?_⟩
      · rw [layout, ← aboard.worker, lane.frame]
        rfl
      · rw [layout]
        exact Function.update_self ..
      · rw [installed, Function.update_apply]
        rcases List.mem_append.1 hc' with old | same
        · have other : c' ≠ c := fun same => new (same ▸ old)
          rw [if_neg other, if_neg other]
          exact keeps (aboard.lanes c' old)
        · rw [List.mem_singleton.1 same, if_pos rfl, if_pos rfl]
          exact lane.lane.keep (fun _ _ h => h) fun _ _ h => h
      · rw [List.mem_append, List.mem_singleton, not_or] at hc'
        rw [installed, if_neg hc'.2]
        exact aboard.others c' hc'.1
      · have before {a} (ha : a ∈ done) : links a ≠ l := by
          rcases (aboard.lanes a ha).course with ⟨dest, course⟩
          rcases Option.map_eq_some_iff.1 course with ⟨lk, link, -⟩
          exact ((Table.lt_next_of_get? link).trans_le lane.new).ne
        rw [Function.update_apply, Function.update_apply] at same
        split at same
        · rename_i first
          split at same
          · rename_i second
            exact first.trans second.symm
          · rename_i second
            rcases List.mem_append.1 hb with old | hb
            · exact absurd same.symm (before old)
            · exact absurd (List.mem_singleton.1 hb) second
        · rename_i first
          rcases List.mem_append.1 ha with old | ha
          · split at same
            · exact absurd same (before old)
            · rename_i second
              rcases List.mem_append.1 hb with old' | hb
              · exact aboard.apart a old b old' same
              · exact absurd (List.mem_singleton.1 hb) second
          · exact absurd (List.mem_singleton.1 ha) first
    have scene₁ : Scene o ps (u.setSlots p.endpoint slots₁) :=
      (lane.scene scene).next rfl rfl (fun _ => rfl) (fun _ _ => .inl) id (fun _ => id) fun _ => id
    have vocal₁ (messages : .messages ∈ done ++ [c]) :
        ∃ v n m, Vocal o p q (u.setSlots p.endpoint slots₁).layout (done ++ [c]) slots₁
          (Function.update links c l) v n m := by
      rcases List.mem_append.1 messages with old | same
      · rcases vocal old with ⟨v, n, m, vocal⟩
        have other : Category.messages ≠ c := fun same => new (same ▸ old)
        rcases vocal.voice with ⟨carrier', slot, voice⟩
        have voice' : Voice o p q (u.setSlots p.endpoint slots₁).layout carrier' v n m :=
          voice.keep (fun _ _ course => lane.course course) fun _ _ stub => lane.stub stub
        refine ⟨v, n, m, ⟨carrier', ?_, voice'⟩, fun c' hc' paired => ?_, fun unpaired => ?_⟩
        · exact (installed .messages).trans ((if_neg other).trans slot)
        · rw [Function.update_apply]
          split
          · rcases Option.map_eq_some_iff.1 voice.course with ⟨lk, link, -⟩
            exact ((Table.lt_next_of_get? link).trans_le lane.new).ne'
          · rename_i others
            rcases List.mem_append.1 hc' with old' | same
            · exact vocal.aside c' old' paired
            · exact absurd (List.mem_singleton.1 same) others
        · rw [Function.update_of_ne other]
          exact vocal.direct unpaired
      · have same : c = .messages := (List.mem_singleton.1 same).symm
        rcases lane.voice same with ⟨v, n, m, voice, later, beside, direct⟩
        have voice' : Voice o p q (u.setSlots p.endpoint slots₁).layout carrier v n m :=
          voice.keep (fun _ _ h => h) fun _ _ h => h
        refine ⟨v, n, m, ⟨carrier, ?_, voice'⟩, fun c' hc' paired => ?_, fun unpaired => ?_⟩
        · exact (installed .messages).trans (if_pos same.symm)
        · rw [Function.update_apply]
          split
          · rename_i chosen
            exact (beside (chosen ▸ paired)).symm
          · rename_i others
            rcases List.mem_append.1 hc' with old | same'
            · rcases (aboard.lanes c' old).course with ⟨dest, course⟩
              rcases Option.map_eq_some_iff.1 course with ⟨lk, link, -⟩
              exact ((Table.lt_next_of_get? link).trans_le later).ne
            · exact absurd (List.mem_singleton.1 same') others
        · subst same
          rw [Function.update_self]
          exact direct unpaired
    rw [show done ++ c :: lanes = (done ++ [c]) ++ lanes by simp] at once ⊢
    rcases ih scene₁ (fun c' hc' => planned c' (List.mem_cons_of_mem _ hc')) once aboard₁ vocal₁ with
      ⟨t, slots', links', opened', scene', aboard', vocal', few, frame⟩
    refine ⟨t, slots', links', ?_, scene', aboard', vocal', ?_, ?_⟩
    · have worker : (o.endpoint p q slots).worker = p.worker := rfl
      rw [Network.openLanes]
      simp only [here, worker, books, opened]
      exact opened'
    · have few' := lane.few
      have same : (u.setSlots p.endpoint slots₁).links = u.links := rfl
      rw [same] at few
      rw [List.length_cons]
      omega
    · rw [frame, setSlots, lane.frame]

end Scene

end Network

end Wiring
