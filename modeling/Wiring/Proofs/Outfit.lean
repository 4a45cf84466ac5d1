import Mathlib
import Wiring.Proofs.Freight
import Wiring.Proofs.Selection

/-!
# The parties of a run

The workers of a run are fitted out alike: they have the same resources in the same order and
follow the same plan, each on interfaces of its own that are numbered one after another. Whatever
is sent and opened, the interfaces stay what they are, and their addresses lead to them.
-/
namespace Wiring

/-- An interface apart from its traffic and the number of its links. -/
def Interface.plain (i : Interface) : Interface := { i with inbox := [], linksOpened := 0 }

/-- What the workers of a run have in common: the resources that they can address, and the plan. -/
structure Outfit where
  specs : List ResourceSpec
  plan : Plan

/-- One of the workers of a run, and the endpoint that it has to the other one. Its interfaces have
the numbers from `base` on. -/
structure Party where
  worker : WorkerId
  uuid : UInt64
  name : String
  registry : RegistryId
  base : Nat
  endpoint : EndpointId
  handlers : List (UInt8 × Handler)

/-- The interface of a resource. -/
def Party.at (p : Party) (n : Nat) : InterfaceId := p.base + n

namespace Outfit

variable (o : Outfit) (p q : Party)

def spec (n : Nat) : ResourceSpec := o.specs.getD n default

def settings (n : Nat) : InterfaceSettings := (o.spec n).settings

/-- The number of the resource that serves a lane. -/
def serves (c : Category) : Nat := ((o.plan.resource c).map UInt8.toNat).getD 0

/-- The resource of a lane pairs links. -/
def paired (c : Category) : Bool :=
  (o.settings (o.serves c)).capabilities.contains .connectToLink

/-- The first resource with the transport of the one that serves a lane. -/
def first (c : Category) : Nat :=
  o.specs.findIdx fun spec => spec.name.transport == (o.spec (o.serves c)).name.transport

/-- The resource of the other side that a lane leads to. -/
def meets (c : Category) : Nat := if o.paired c then o.serves c else o.first c

def resources : List Resource := o.specs.mapIdx fun n spec => ⟨spec.name, p.at n⟩

/-- The entry of an address for an interface of the fabric. -/
def entry (spec : ResourceSpec) (i : InterfaceId) : AddressEntry :=
  ⟨spec.name.transport, spec.name.device, Bytes.word 1, Bytes.word (UInt64.ofNat (i + 1))⟩

def entries : List AddressEntry := o.specs.mapIdx fun n spec => entry spec (p.at n)

/-- The worker with its endpoints, apart from what is parked on its stubs. -/
def seat (directory : List (UInt64 × EndpointId)) : Worker :=
  { uuid := p.uuid, settings := { name := p.name }, plan := o.plan, resources := o.resources p
    registry := p.registry, directory }

/-- The endpoint of a party to another one. -/
def endpoint (slots : PerCategory Slot) : Endpoint :=
  { worker := p.worker, dest := q.uuid, peer := q.name, plan := o.plan, flushAttempts := 1024, slots }

/-- The course of a link of a resource. -/
def course (n : Nat) (dest : Option InterfaceId) : Course := ⟨p.at n, o.settings n, dest⟩

variable {o p q} {c : Category} {n : Nat}

theorem getElem?_resources (h : n < o.specs.length) :
    (o.resources p)[n]? = some ⟨(o.spec n).name, p.at n⟩ := by
  simp [resources, spec, h]

theorem getElem?_entries (h : n < o.specs.length) :
    (o.entries p)[n]? = some (entry (o.spec n) (p.at n)) := by
  simp [entries, spec, h]

theorem resources_length : (o.resources p).length = o.specs.length := by simp [resources]

theorem entries_length : (o.entries p).length = o.specs.length := by simp [entries]

theorem spec_mem (h : n < o.specs.length) : o.spec n ∈ o.specs := by
  simp [spec, h]

theorem first_le (h : o.serves c < o.specs.length) : o.first c ≤ o.serves c := by
  refine Nat.le_of_not_lt fun later => ?_
  have := List.not_of_lt_findIdx later
  simp [spec, h] at this

theorem meets_le (h : o.serves c < o.specs.length) : o.meets c ≤ o.serves c := by
  unfold meets
  split
  · exact le_rfl
  · exact first_le h

theorem transport_first (h : o.serves c < o.specs.length) :
    (o.spec (o.first c)).name.transport = (o.spec (o.serves c)).name.transport := by
  have below : o.first c < o.specs.length := (first_le h).trans_lt h
  have found := List.findIdx_getElem (w := below)
  rw [spec, List.getD_eq_getElem _ _ below]
  exact beq_iff_eq.1 found

end Outfit

/-! ## Lanes -/

/-- How far a lane of a party is: it has a link to the other party, or a stub that waits for the
switchover to one, its next link and no other. Of the two marks of the stub the first says that the
link is connected. -/
inductive LaneAt (o : Outfit) (p q : Party) (k : Layout) (loc rem : Bool) (c : Category) :
    Slot → LinkId → Prop
  | linked (l : LinkId) (free : o.paired c = false ∨ (loc && rem) = true)
      (course : k.course l = some (o.course p (o.serves c) (some (q.at (o.meets c))))) :
      LaneAt o p q k loc rem c (some (.link l)) l
  | waiting (x : StubId) (st : Stub) (l : LinkId) (paired : o.paired c = true)
      (stub : k.stub x = some st) (own : st.endpoint = p.endpoint) (category : st.category = c)
      (next : st.next = some l) (sole : st.promoted = none ∧ st.auxiliary ≠ some l)
      (marks : st.localConnected = loc ∧ st.remoteConnected = rem)
      (course : k.course l =
        some (o.course p (o.serves c) (if loc then some (q.at (o.meets c)) else none))) :
      LaneAt o p q k loc rem c (some (.stub x)) l

/-- A party has its endpoint to the other one, and the lanes in `done` are open. -/
structure Aboard (o : Outfit) (p q : Party) (k : Layout) (done : List Category)
    (loc rem : Category → Bool) (slots : PerCategory Slot) (links : Category → LinkId) : Prop where
  worker : k.worker p.worker = some (o.seat p [(q.uuid, p.endpoint)])
  endpoint : k.endpoint p.endpoint = some (o.endpoint p q slots)
  lanes : ∀ c ∈ done, LaneAt o p q k (loc c) (rem c) c (slots.get c) (links c)
  others : ∀ c, c ∉ done → slots.get c = none
  apart : ∀ c ∈ done, ∀ c' ∈ done, links c = links c' → c = c'

/-- The link that carries the signals of a party leads to the other one. -/
structure Voice (o : Outfit) (p q : Party) (k : Layout) (carrier : Carrier) (v : LinkId)
    (n m : Nat) : Prop where
  carries : carrier = .link v ∨ ∃ x st, carrier = .stub x ∧ k.stub x = some st ∧
    st.endpoint = p.endpoint ∧ st.signalLink = some v
  course : k.course v = some (o.course p n (some (q.at m)))
  inside : n < o.specs.length ∧ m < o.specs.length
  bulk : (o.settings n).capabilities.contains .bulkMessages = true

/-- A party has a link for its signals, which is none of those that are to be paired. -/
structure Vocal (o : Outfit) (p q : Party) (k : Layout) (done : List Category)
    (slots : PerCategory Slot) (links : Category → LinkId) (v : LinkId) (n m : Nat) : Prop where
  voice : ∃ carrier, slots.messages = some carrier ∧ Voice o p q k carrier v n m
  aside : ∀ c ∈ done, o.paired c = true → links c ≠ v
  direct : o.paired .messages = false →
    v = links .messages ∧ n = o.serves .messages ∧ m = o.meets .messages

/-- Two parties have nothing in common. -/
structure Strangers (o : Outfit) (p q : Party) : Prop where
  worker : p.worker ≠ q.worker
  endpoint : p.endpoint ≠ q.endpoint
  uuid : p.uuid ≠ q.uuid
  faces : ∀ n < o.specs.length, ∀ m < o.specs.length, p.at n ≠ q.at m

/-- What has changed is not of a party. -/
structure ClearOf (o : Outfit) (p : Party) (k k' : Layout) : Prop where
  worker : k'.worker p.worker = k.worker p.worker
  endpoint : k'.endpoint p.endpoint = k.endpoint p.endpoint
  course : ∀ l c, k.course l = some c → (∃ n < o.specs.length, c.owner = p.at n) →
    k'.course l = some c
  stub : ∀ x st, k.stub x = some st → st.endpoint = p.endpoint → k'.stub x = some st

section

variable {o : Outfit} {p q : Party} {k k' k'' : Layout} {done : List Category}
  {loc rem : Category → Bool} {slots : PerCategory Slot} {links : Category → LinkId}
  {slot : Slot} {b b' : Bool} {c : Category} {carrier : Carrier} {l v : LinkId} {n m : Nat}

theorem Strangers.symm (h : Strangers o p q) : Strangers o q p :=
  ⟨h.worker.symm, h.endpoint.symm, h.uuid.symm, fun n hn m hm => (h.faces m hm n hn).symm⟩

theorem ClearOf.refl (o : Outfit) (p : Party) (k : Layout) : ClearOf o p k k :=
  ⟨rfl, rfl, fun _ _ here _ => here, fun _ _ here _ => here⟩

theorem ClearOf.trans (h : ClearOf o p k k') (g : ClearOf o p k' k'') : ClearOf o p k k'' where
  worker := g.worker.trans h.worker
  endpoint := g.endpoint.trans h.endpoint
  course l c here own := g.course l c (h.course l c here own) own
  stub x st here own := g.stub x st (h.stub x st here own) own

namespace LaneAt

/-- What is opened beside does not matter. -/
theorem keep (h : LaneAt o p q k b b' c slot l)
    (course : ∀ l c, k.course l = some c → k'.course l = some c)
    (stub : ∀ x st, k.stub x = some st → k'.stub x = some st) : LaneAt o p q k' b b' c slot l := by
  cases h with
  | linked l free here => exact .linked l free (course _ _ here)
  | waiting x st l paired here own category next sole marks here' =>
    exact .waiting x st l paired (stub _ _ here) own category next sole marks
      (course _ _ here')

theorem clear (h : LaneAt o p q k b b' c slot l) (inside : o.serves c < o.specs.length)
    (clear : ClearOf o p k k') : LaneAt o p q k' b b' c slot l := by
  cases h with
  | linked l free course => exact .linked l free (clear.course _ _ course ⟨_, inside, rfl⟩)
  | waiting x st l paired stub own category next sole marks course =>
    exact .waiting x st l paired (clear.stub x st stub own) own category next sole marks
      (clear.course _ _ course ⟨_, inside, rfl⟩)

/-- The link of a lane is on the resource that serves it. -/
theorem course (h : LaneAt o p q k b b' c slot l) :
    ∃ dest, k.course l = some (o.course p (o.serves c) dest) := by
  cases h with
  | linked l free course => exact ⟨_, course⟩
  | waiting x st l paired stub own category next sole marks course => exact ⟨_, course⟩

/-- A lane that pairs links and is not connected on both sides has a stub. -/
theorem stub (h : LaneAt o p q k b b' c slot l) (paired : o.paired c = true)
    (unready : (b && b') = false) : ∃ x st, slot = some (.stub x) ∧ k.stub x = some st ∧
      st.endpoint = p.endpoint ∧ st.category = c ∧ st.next = some l ∧
      (st.promoted = none ∧ st.auxiliary ≠ some l) ∧ st.localConnected = b ∧ st.remoteConnected = b' := by
  cases h with
  | linked l free course =>
    rcases free with free | free
    · rw [paired] at free
      cases free
    · rw [unready] at free
      cases free
  | waiting x st l paired stub own category next sole marks course =>
    exact ⟨x, st, rfl, stub, own, category, next, sole, marks.1, marks.2⟩

/-- A lane that does not pair links has its link. -/
theorem direct (h : LaneAt o p q k b b' c slot l) (unpaired : o.paired c = false) :
    slot = some (.link l) ∧
      k.course l = some (o.course p (o.serves c) (some (q.at (o.meets c)))) := by
  cases h with
  | linked l free course => exact ⟨rfl, course⟩
  | waiting x st l paired stub own category next sole marks course =>
    rw [unpaired] at paired
    cases paired

end LaneAt

theorem Aboard.clear (h : Aboard o p q k done loc rem slots links)
    (inside : ∀ c ∈ done, o.serves c < o.specs.length) (clear : ClearOf o p k k') :
    Aboard o p q k' done loc rem slots links where
  worker := clear.worker.trans h.worker
  endpoint := clear.endpoint.trans h.endpoint
  lanes c hc := (h.lanes c hc).clear (inside c hc) clear
  others := h.others
  apart := h.apart

theorem Voice.keep (h : Voice o p q k carrier v n m)
    (course : ∀ l c, k.course l = some c → k'.course l = some c)
    (stub : ∀ x st, k.stub x = some st → k'.stub x = some st) : Voice o p q k' carrier v n m where
  carries := by
    rcases h.carries with same | ⟨x, st, same, here, own, signal⟩
    · exact .inl same
    · exact .inr ⟨x, st, same, stub x st here, own, signal⟩
  course := course _ _ h.course
  inside := h.inside
  bulk := h.bulk

theorem Voice.clear (h : Voice o p q k carrier v n m) (clear : ClearOf o p k k') :
    Voice o p q k' carrier v n m where
  carries := by
    rcases h.carries with same | ⟨x, st, same, stub, own, signal⟩
    · exact .inl same
    · exact .inr ⟨x, st, same, clear.stub x st stub own, own, signal⟩
  course := clear.course _ _ h.course ⟨n, h.inside.1, rfl⟩
  inside := h.inside
  bulk := h.bulk

end

namespace Network

variable {o : Outfit} {ps : List Party} {p q : Party} {s t u : Network} {i : InterfaceId}
  {f : Interface} {n : Nat} {ref : Ref}

/-- What holds of a run throughout: nothing has gone wrong, the interfaces of the parties are open
on the first fabric, no signal waits to be sent, and the application holds on to the workers. -/
structure Scene (o : Outfit) (ps : List Party) (s : Network) : Prop where
  calm : s.violation = none
  fabric : ∃ fb, s.fabrics.get? 0 = some fb ∧ fb.number = 1
  numbers : ∀ i f, s.interfaces.get? i = some f →
    f.fabric = 0 ∧ f.number = UInt64.ofNat (i + 1) ∧ i + 1 < UInt64.size
  stations : ∀ p ∈ ps, ∀ n < o.specs.length, ∃ f, s.interfaces.get? (p.at n) = some f ∧
    f.settings = o.settings n ∧ f.handlers = p.handlers
  gates : ∀ g n, s.gates.get? g = some n → n = 0
  well : s.ledger.AllWell
  attended : ∀ p ∈ ps, .worker p.worker ∈ s.holds
  unheld : ∀ l, .link l ∉ s.holds

namespace Scene

theorem fabricNumber (h : Scene o ps s) (here : s.interfaces.get? i = some f) :
    s.fabricNumber f = 1 := by
  rcases h.fabric with ⟨fb, fabric, number⟩
  rw [Network.fabricNumber, (h.numbers i f here).1, fabric, Option.map_some, number]
  rfl

theorem deviceAddress (h : Scene o ps s) (here : s.interfaces.get? i = some f) :
    s.deviceAddress f = Bytes.word 1 := by
  rw [Network.deviceAddress, h.fabricNumber here]

theorem reaches (h : Scene o ps s) (here : s.interfaces.get? i = some f) :
    s.reaches f (Bytes.word 1) = true := by
  have word := Bytes.word?_append_word 1 []
  rw [List.append_nil] at word
  rw [Network.reaches, h.fabricNumber here, word]
  exact beq_self_eq_true _

/-- The number of an interface leads to it. -/
theorem finds (h : Scene o ps s) (here : s.interfaces.get? i = some f) :
    s.findInterface? 0 (UInt64.ofNat (i + 1)) = some i := by
  have only : ∀ k ∈ s.interfaces.keysWhere fun g =>
      g.fabric == 0 && g.number == UInt64.ofNat (i + 1), k = i := by
    intro k hk
    rcases Table.mem_keysWhere hk with ⟨g, there, same⟩
    simp only [Bool.and_eq_true, beq_iff_eq] at same
    rcases h.numbers k g there with ⟨-, number, small⟩
    have := congrArg UInt64.toNat (number.symm.trans same.2)
    rw [UInt64.toNat_ofNat_of_lt' small, UInt64.toNat_ofNat_of_lt' (h.numbers i f here).2.2] at this
    omega
  have mem : i ∈ s.interfaces.keysWhere fun g =>
      g.fabric == 0 && g.number == UInt64.ofNat (i + 1) := by
    refine Table.mem_keysWhere_iff.2 ⟨f, here, ?_⟩
    simp [(h.numbers i f here).1, (h.numbers i f here).2.1]
  unfold findInterface?
  cases keys : s.interfaces.keysWhere fun g =>
      g.fabric == 0 && g.number == UInt64.ofNat (i + 1) with
  | nil =>
    rw [keys] at mem
    cases mem
  | cons k ks =>
    rw [keys] at only
    rw [List.head?_cons, only k List.mem_cons_self]

/-- The address of a party lists its interfaces. -/
theorem workerAddress (h : Scene o ps s) (hp : p ∈ ps) {directory : List (UInt64 × EndpointId)}
    {wk : Worker} (seat : wk = { o.seat p directory with parkedCount := wk.parkedCount }) :
    s.workerAddress wk = ⟨p.uuid, p.name, o.entries p⟩ := by
  rw [seat]
  simp only [Network.workerAddress, Outfit.seat, Outfit.resources, Outfit.entries,
    List.mapIdx_eq_zipIdx_map, List.filterMap_map]
  congr 1
  rw [← List.filterMap_eq_map]
  refine List.filterMap_congr fun x hx => ?_
  have there := List.mem_zipIdx_iff_getElem?.1 hx
  rcases h.stations p hp x.2 (List.getElem?_eq_some_iff.1 there).1 with ⟨f, here, -⟩
  simp only [Function.comp_apply, here, Option.map_some, h.deviceAddress here, Outfit.entry,
    interfaceAddress, (h.numbers _ f here).2.1]

/-- A link of one party to an interface of another can be opened if the resource connects to
interfaces. -/
theorem openConnectedLink (h : Scene o ps s) {m : Nat} (hq : q ∈ ps) (hm : m < o.specs.length)
    (here : s.interfaces.get? i = some f)
    (able : f.settings.capabilities.contains .connectToInterface = true) :
    s.openConnectedLink i (Bytes.word 1) (Bytes.word (UInt64.ofNat (q.at m + 1))) =
      ((s.newLink i f (some (q.at m))).1, .ok s.links.next) := by
  rcases h.stations q hq m hm with ⟨f', there, -⟩
  have word := Bytes.word?_append_word (UInt64.ofNat (q.at m + 1)) []
  rw [List.append_nil] at word
  have found : s.remoteInterface f (Bytes.word 1) (Bytes.word (UInt64.ofNat (q.at m + 1))) =
      .ok (q.at m) := by
    simp only [remoteInterface, require, able, if_true, h.reaches here, word,
      (h.numbers i f here).1, h.finds there]
    rfl
  simp only [Network.openConnectedLink, here, found]
  rfl

/-- A change of what is on its way, or of what is opened beside, leaves all this as it is. -/
theorem next (h : Scene o ps s) (calm : t.violation = s.violation) (fabrics : t.fabrics = s.fabrics)
    (stations : ∀ i, (t.interfaces.get? i).map Interface.plain =
      (s.interfaces.get? i).map Interface.plain)
    (gates : ∀ g n, t.gates.get? g = some n → s.gates.get? g = some n ∨ n = 0)
    (well : s.ledger.AllWell → t.ledger.AllWell)
    (attended : ∀ w, .worker w ∈ s.holds → .worker w ∈ t.holds)
    (holds : ∀ l, .link l ∈ t.holds → .link l ∈ s.holds) : Scene o ps t where
  calm := calm.trans h.calm
  fabric := fabrics ▸ h.fabric
  numbers i f here := by
    have same := stations i
    rw [here] at same
    rcases Option.map_eq_some_iff.1 same.symm with ⟨f', there, plain⟩
    have fabric : f'.plain.fabric = f.plain.fabric := congrArg _ plain
    have number : f'.plain.number = f.plain.number := congrArg _ plain
    rcases h.numbers i f' there with ⟨first, numbered, small⟩
    exact ⟨fabric.symm.trans first, number.symm.trans numbered, small⟩
  stations p hp n hn := by
    rcases h.stations p hp n hn with ⟨f, there, settings, handlers⟩
    have same := stations (p.at n)
    rw [there] at same
    rcases Option.map_eq_some_iff.1 same with ⟨f', here, plain⟩
    have settings' : f'.plain.settings = f.plain.settings := congrArg _ plain
    have handlers' : f'.plain.handlers = f.plain.handlers := congrArg _ plain
    exact ⟨f', here, settings'.trans settings, handlers'.trans handlers⟩
  gates g n here := by
    rcases gates g n here with old | zero
    · exact h.gates g n old
    · exact zero
  well := well h.well
  attended p hp := attended _ (h.attended p hp)
  unheld l held := h.unheld l (holds l held)

end Scene

/-! ## Traffic -/

/-- Every link that lives is owned. -/
def Housed (s : Network) : Prop := ∀ l, s.links.contains l = true → s.isOwned (.link l) = true

/-- The wiring owns what it owns. -/
theorem isOwned_of_layout (same : t.layout = s.layout) (owned : s.isOwned ref = true) :
    t.isOwned ref = true := by
  refine isOwned_mono (fun w wk here => ?_) (fun e ep here => ?_) (fun x st here => ?_) owned
  · have there : t.layout.worker w = some wk.seat := by
      rw [same]
      exact Option.map_eq_some_iff.2 ⟨wk, here, rfl⟩
    rcases Option.map_eq_some_iff.1 there with ⟨wk', here', seat⟩
    have resources : wk'.seat.resources = wk.seat.resources := congrArg _ seat
    have directory : wk'.seat.directory = wk.seat.directory := congrArg _ seat
    exact ⟨wk', here', fun r hr => resources.symm ▸ hr, fun r hr => directory.symm ▸ hr⟩
  · have there : t.layout.endpoint e = some ep := by
      rw [same]
      exact here
    exact ⟨ep, there, fun _ h => h⟩
  · have there : t.layout.stub x = some st.stand := by
      rw [same]
      exact Option.map_eq_some_iff.2 ⟨st, here, rfl⟩
    rcases Option.map_eq_some_iff.1 there with ⟨st', here', stand⟩
    have next : st'.stand.next = st.stand.next := congrArg _ stand
    have auxiliary : st'.stand.auxiliary = st.stand.auxiliary := congrArg _ stand
    have promoted : st'.stand.promoted = st.stand.promoted := congrArg _ stand
    refine ⟨st', here', fun l own => ?_⟩
    rcases own with own | own | own
    · exact .inl (next.trans own)
    · exact .inr (.inl (auxiliary.trans own))
    · exact .inr (.inr (promoted.trans own))

/-- Messages come and go, sends end and requests are parked; the wiring stays as it is. -/
structure Trades (s t : Network) : Prop where
  frame : t = { s with
    interfaces := t.interfaces, links := t.links, stubs := t.stubs, workers := t.workers
    registries := t.registries, handles := t.handles, trace := t.trace, tally := t.tally }
  layout : t.layout = s.layout
  stations : ∀ i, (t.interfaces.get? i).map Interface.plain =
    (s.interfaces.get? i).map Interface.plain
  well : s.ledger.AllWell → t.ledger.AllWell
  given : t.links.next = s.links.next ∧ t.stubs.next = s.stubs.next

namespace Trades

theorem refl (s : Network) : Trades s s := ⟨rfl, rfl, fun _ => rfl, id, rfl, rfl⟩

theorem trans (h : Trades s t) (g : Trades t u) : Trades s u where
  frame := by rw [g.frame, h.frame]
  layout := g.layout.trans h.layout
  stations i := (g.stations i).trans (h.stations i)
  well := g.well ∘ h.well
  given := ⟨g.given.1.trans h.given.1, g.given.2.trans h.given.2⟩

theorem scene (h : Trades s t) (scene : Scene o ps s) : Scene o ps t := by
  refine scene.next ?_ ?_ h.stations (fun g n here => .inl ?_) h.well (fun w held => ?_)
    fun l held => ?_
  · rw [h.frame]
  · rw [h.frame]
  · rw [h.frame] at here
    exact here
  · rw [h.frame]
    exact held
  · rw [h.frame] at held
    exact held

theorem firm (h : Trades s t) (firm : s.Firm ref) : t.Firm ref := by
  rcases firm with held | owned
  · refine .inl ?_
    rw [h.frame]
    exact held
  · exact .inr (isOwned_of_layout h.layout owned)

theorem housed (h : Trades s t) (housed : s.Housed) : t.Housed := by
  intro l live
  rcases Table.contains_iff.1 live with ⟨lk, here⟩
  have there : s.layout.course l = some lk.course := by
    rw [← h.layout]
    exact Option.map_eq_some_iff.2 ⟨lk, here, rfl⟩
  rcases Option.map_eq_some_iff.1 there with ⟨lk', here', -⟩
  exact isOwned_of_layout h.layout (housed l (Table.contains_of_get? here'))

/-- Messages of a link come into an inbox or leave it. -/
theorem traded {l : LinkId} {lk lk' : Link} {d : InterfaceId} {f f' : Interface} {g : Ledger}
    {k : Nat} (link : s.links.get? l = some lk) (face : s.interfaces.get? d = some f)
    (course : lk'.course = lk.course) (plain : f'.plain = f.plain) (grows : s.ledger.Extends k g) :
    Trades s (s.traded l lk' d f' g) where
  frame := rfl
  layout := by
    have faced : f'.plain.face = f.plain.face := congrArg _ plain
    have faces (i : InterfaceId) : ((s.interfaces.set d f').get? i).map Interface.face =
        (s.interfaces.get? i).map Interface.face :=
      Table.map_get?_set face (show f'.face = f.face from faced) i
    have courses (k : LinkId) : ((s.links.set l lk').get? k).map Link.course =
        (s.links.get? k).map Link.course := Table.map_get?_set link course k
    have seats := grows.seats
    simp only [Network.layout, Network.traded, faces, courses]
    simp only [ledger] at seats
    simp only [seats]
  stations i := Table.map_get?_set face plain i
  well := grows.well
  given := ⟨by simp [Network.traded], rfl⟩

end Trades

end Network

end Wiring
