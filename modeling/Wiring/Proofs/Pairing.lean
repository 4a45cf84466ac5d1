import Mathlib
import Wiring.Proofs.Layout

/-!
# Pairing

Two workers whose resources for a lane can both pair links wire the lane up by pairing a link of
each with the interface of the other. What such a layout has to look like is said here for all its
endpoints at once: which links and stubs belong to the lanes, and what follows for the other side
once a stub is connected, marked or switched over.
-/
namespace Wiring

namespace Layout

variable {k m : Layout} {a b : WorkerId} {lane : Category}

/-- The interface of a worker's resource for a lane, if it can pair links. -/
def pairing? (k : Layout) (w : Worker) (lane : Category) : Option InterfaceId := do
  let index ← w.plan.resource lane
  let r ← w.resources[index.toNat]?
  let f ← k.face r.interface
  if f.settings.capabilities.contains .connectToLink then some r.interface else none

/-- The link that serves a slot, now or after the switchover. -/
def link? (k : Layout) : Slot → Option LinkId
  | some (.link l) => some l
  | some (.stub x) => (k.stub x).bind Stub.next
  | none => none

/-- The slot holds a link, or a stub that is connected to the remote side. -/
def isJoined (k : Layout) : Slot → Bool
  | some (.link _) => true
  | some (.stub x) => (k.stub x).any Stub.localConnected
  | none => false

def dest? (k : Layout) (l : LinkId) : Option InterfaceId := (k.course l).bind Course.dest

/-- What is sent through the slot comes to the interface. -/
def Leads (k : Layout) (slot : Slot) (i : InterfaceId) : Prop :=
  k.isJoined slot = true ∧ ∃ l, k.link? slot = some l ∧ k.dest? l = some i

/-- A worker has an endpoint to another one, and its slot for a lane that both can pair leads to
the interface of the other one's resource. -/
def Linked (k : Layout) (b a : WorkerId) (lane : Category) : Prop :=
  ∃ vk wk e ep i, k.worker b = some vk ∧ k.worker a = some wk ∧ lane ∈ vk.plan.lanes ∧
    (k.pairing? vk lane).isSome = true ∧ k.pairing? wk lane = some i ∧
    (wk.uuid, e) ∈ vk.directory ∧ k.endpoint e = some ep ∧ k.Leads (ep.slots.get lane) i

/-- A lane of some endpoint that needed a stub holds the link now. -/
def Switched (k : Layout) (l : LinkId) : Prop :=
  ∃ w wk e ep lane, k.worker w = some wk ∧ (∃ dest, (dest, e) ∈ wk.directory) ∧
    k.endpoint e = some ep ∧ lane ∈ wk.plan.lanes ∧ (k.pairing? wk lane).isSome = true ∧
    ep.slots.get lane = some (.link l)

/-- The worker with a uuid. -/
def Bears (k : Layout) (b : WorkerId) (vk : Worker) (uuid : UInt64) : Prop :=
  k.worker b = some vk ∧ vk.uuid = uuid

/-- What becomes of a lane of an endpoint. -/
inductive Lane (k : Layout) (w : WorkerId) (wk : Worker) (e : EndpointId) (ep : Endpoint)
    (lane : Category) : Prop
  /-- The resource cannot pair links, so no stub is needed. -/
  | direct (unpaired : k.pairing? wk lane = none)
      (slot : ∀ x, ep.slots.get lane ≠ some (.stub x))
  /-- A stub stands in for a link of the lane's interface. -/
  | waiting (x : StubId) (st : Stub) (l : LinkId) (c : Course) (f : Face)
      (slot : ep.slots.get lane = some (.stub x)) (here : k.stub x = some st)
      (own : st.endpoint = e ∧ st.category = lane) (next : st.next = some l)
      (course : k.course l = some c) (paired : k.pairing? wk lane = some c.owner)
      (face : k.face c.owner = some f) (settings : c.settings = f.settings)
  /-- The lane was switched over to a link that leads to the peer, which leads back. -/
  | promoted (l : LinkId) (b : WorkerId) (vk : Worker) (i j : InterfaceId)
      (slot : ep.slots.get lane = some (.link l)) (paired : k.pairing? wk lane = some i)
      (peer : k.Bears b vk ep.dest) (there : k.pairing? vk lane = some j)
      (dest : k.dest? l = some j) (linked : k.Linked b w lane)

/-- What is known of an unswitched stub that is connected. -/
def Connected (k : Layout) (x : StubId) (st : Stub) (ep : Endpoint) (l : LinkId) : Prop :=
  st.category ∈ ep.plan.lanes ∧ ep.slots.get st.category = some (.stub x) ∧
    ∃ b vk j, k.Bears b vk ep.dest ∧ k.pairing? vk st.category = some j ∧ k.dest? l = some j

/-- What is known of an unswitched stub that is marked by the remote side. -/
def Acknowledged (k : Layout) (st : Stub) (ep : Endpoint) : Prop :=
  ∃ b vk, k.Bears b vk ep.dest ∧
    ((k.pairing? vk st.category).isSome = true → k.Linked b ep.worker st.category)

/-- All interfaces are on one fabric and told apart by their numbers there, and all workers follow
one plan and are told apart by their uuids. -/
structure Site (plan : Plan) (k : Layout) : Prop where
  faces : ∀ i j f g, k.face i = some f → k.face j = some g → f.number = g.number → i = j
  numbers : ∀ i f, k.face i = some f → ∃ fb, k.fabric 0 = some fb ∧ f.number.toNat ≤ fb.opened
  plans : ∀ w wk, k.worker w = some wk → wk.plan = plan
  resources : ∀ w wk, k.worker w = some wk → ∀ r ∈ wk.resources, ∃ f, k.face r.interface = some f
  uuids : ∀ w wk v vk, k.worker w = some wk → k.worker v = some vk → wk.uuid = vk.uuid → w = v

/-- How far the endpoints of such a site may have come. The lanes of an endpoint that is about to
be destroyed need not be complete. -/
structure Charted (plan : Plan) (k : Layout) (doomed : Option EndpointId) : Prop
    extends Site plan k where
  peers : ∀ e ep, k.endpoint e = some ep → ep.plan = plan ∧ ∃ b vk, k.Bears b vk ep.dest
  known : ∀ w wk, k.worker w = some wk → ∀ entry ∈ wk.directory,
    ∃ ep, k.endpoint entry.2 = some ep ∧ ep.worker = w ∧ ep.dest = entry.1
  listed : ∀ e ep lane c, k.endpoint e = some ep → ep.slots.get lane = some c →
    ∃ wk, k.worker ep.worker = some wk ∧ (ep.dest, e) ∈ wk.directory
  lanes : ∀ w wk, k.worker w = some wk → ∀ entry ∈ wk.directory, some entry.2 ≠ doomed →
    ∀ ep, k.endpoint entry.2 = some ep → ∀ lane ∈ plan.lanes, Lane k w wk entry.2 ep lane
  single : ∀ e ep lane e' ep' lane' l, k.endpoint e = some ep → k.endpoint e' = some ep' →
    lane ∈ plan.lanes → lane' ∈ plan.lanes → k.link? (ep.slots.get lane) = some l →
    k.link? (ep'.slots.get lane') = some l → e = e' ∧ lane = lane'
  connected : ∀ x st ep l, k.stub x = some st → k.endpoint st.endpoint = some ep →
    st.next = some l → st.localConnected = true → Connected k x st ep l
  marked : ∀ x st ep l, k.stub x = some st → k.endpoint st.endpoint = some ep →
    st.next = some l → st.remoteConnected = true → Acknowledged k st ep

/-- No stub of the endpoint is connected or marked, and no lane of it was switched over. -/
structure Unused (k : Layout) (e : EndpointId) : Prop where
  stubs : ∀ x st, k.stub x = some st → st.endpoint = e →
    st.localConnected = false ∧ st.remoteConnected = false
  slots : ∀ ep, k.endpoint e = some ep → ∀ lane ∈ ep.plan.lanes,
    (∀ x st, ep.slots.get lane = some (.stub x) → k.stub x = some st → st.endpoint = e) ∧
    ∀ l wk, ep.slots.get lane = some (.link l) → k.worker ep.worker = some wk →
      k.pairing? wk lane = none

/-! ## What lasts -/

/-- Workers stay what they are, and what is linked or switched over stays so. -/
structure Lasts (k m : Layout) : Prop where
  face : ∀ i f, k.face i = some f → m.face i = some f
  worker : ∀ w wk, k.worker w = some wk → ∃ wk', m.worker w = some wk' ∧ wk'.uuid = wk.uuid ∧
    wk'.plan = wk.plan ∧ wk'.resources = wk.resources
  linked : ∀ b a lane, k.Linked b a lane → m.Linked b a lane
  switched : ∀ l, k.Switched l → m.Switched l

theorem Lasts.refl (k : Layout) : Lasts k k where
  face _ _ h := h
  worker _ wk h := ⟨wk, h, rfl, rfl, rfl⟩
  linked _ _ _ h := h
  switched _ h := h

theorem Lasts.trans {n : Layout} (h : Lasts k m) (g : Lasts m n) : Lasts k n where
  face i f hf := g.face i f (h.face i f hf)
  worker w wk hw := by
    rcases h.worker w wk hw with ⟨wk', hw', huuid, hplan, hres⟩
    rcases g.worker w wk' hw' with ⟨wk'', hw'', huuid', hplan', hres'⟩
    exact ⟨wk'', hw'', huuid'.trans huuid, hplan'.trans hplan, hres'.trans hres⟩
  linked b a lane hl := g.linked b a lane (h.linked b a lane hl)
  switched l hl := g.switched l (h.switched l hl)

/-- Workers whose resources all live pair the same lanes for good. -/
theorem pairing?_congr {w v : Worker} (plan : v.plan = w.plan) (resources : v.resources = w.resources)
    (face : ∀ r ∈ w.resources, m.face r.interface = k.face r.interface) :
    m.pairing? v lane = k.pairing? w lane := by
  unfold pairing?
  rw [plan, resources]
  cases w.plan.resource lane with
  | none => rfl
  | some index =>
    simp only [Option.bind_eq_bind, Option.bind_some]
    cases hr : w.resources[index.toNat]? with
    | none => rfl
    | some r => simp only [Option.bind_some, face r (List.mem_of_getElem? hr)]

/-- A lane that can be paired belongs to an interface. -/
theorem pairing?_eq_some {w : Worker} {i : InterfaceId} (h : k.pairing? w lane = some i) :
    ∃ index r f, w.plan.resource lane = some index ∧ w.resources[index.toNat]? = some r ∧
      r.interface = i ∧ k.face i = some f ∧ f.settings.capabilities.contains .connectToLink = true := by
  unfold pairing? at h
  simp only [Option.bind_eq_bind, Option.bind_eq_some_iff] at h
  rcases h with ⟨index, hi, r, hr, f, hf, h⟩
  split at h
  · rename_i able
    cases h
    exact ⟨index, r, f, hi, hr, rfl, hf, able⟩
  · cases h

section

variable {plan : Plan} {doomed : Option EndpointId}

/-- Nothing is said about endpoints. -/
theorem Site.congr (hk : Site plan k) (fabric : m.fabric = k.fabric) (face : m.face = k.face)
    (worker : ∀ w wk, m.worker w = some wk → ∃ wk', k.worker w = some wk' ∧
      wk.uuid = wk'.uuid ∧ wk.plan = wk'.plan ∧ wk.resources = wk'.resources) : Site plan m where
  faces i j f g hi hj := by
    rw [face] at hi hj
    exact hk.faces i j f g hi hj
  numbers i f hf := by
    rw [fabric]
    exact hk.numbers i f (face ▸ hf)
  plans w wk hw := by
    rcases worker w wk hw with ⟨wk', hw', -, same, -⟩
    exact same.trans (hk.plans w wk' hw')
  resources w wk hw r hr := by
    rcases worker w wk hw with ⟨wk', hw', -, -, same⟩
    rw [face]
    exact hk.resources w wk' hw' r (same ▸ hr)
  uuids w wk v vk hw hv huuid := by
    rcases worker w wk hw with ⟨wk', hw', same, -, -⟩
    rcases worker v vk hv with ⟨vk', hv', same', -, -⟩
    exact hk.uuids w wk' v vk' hw' hv' (same.symm.trans (huuid.trans same'))

theorem Lasts.pairing? (h : Lasts k m) (hk : Site plan k) {w : WorkerId} {wk : Worker}
    (hw : k.worker w = some wk) {wk' : Worker} (same : wk'.plan = wk.plan)
    (resources : wk'.resources = wk.resources) (lane : Category) :
    m.pairing? wk' lane = k.pairing? wk lane := by
  refine pairing?_congr same resources fun r hr => ?_
  rcases hk.resources w wk hw r hr with ⟨f, hf⟩
  rw [hf, h.face _ f hf]

theorem Lasts.bears (h : Lasts k m) {vk : Worker} {uuid : UInt64} (hb : k.Bears b vk uuid) :
    ∃ vk', m.Bears b vk' uuid ∧ vk'.plan = vk.plan ∧ vk'.resources = vk.resources := by
  rcases h.worker b vk hb.1 with ⟨vk', hv, huuid, hplan, hres⟩
  exact ⟨vk', ⟨hv, huuid.trans hb.2⟩, hplan, hres⟩

theorem Acknowledged.lasts {st : Stub} {ep : Endpoint} (ha : Acknowledged k st ep) (h : Lasts k m)
    (hk : Site plan k) : Acknowledged m st ep := by
  rcases ha with ⟨b, vk, peer, linked⟩
  rcases h.bears peer with ⟨vk', peer', same, resources⟩
  refine ⟨b, vk', peer', fun paired => h.linked _ _ _ (linked ?_)⟩
  rwa [h.pairing? hk peer.1 same resources] at paired

/-- Only one worker has a uuid. -/
theorem Site.bears_unique (hk : Site plan k) {uuid : UInt64} {vk wk : Worker}
    (hb : k.Bears b vk uuid) (ha : k.Bears a wk uuid) : b = a ∧ vk = wk := by
  have same := hk.uuids b vk a wk hb.1 ha.1 (hb.2.trans ha.2.symm)
  subst same
  exact ⟨rfl, Option.some.inj (hb.1.symm.trans ha.1)⟩

end

/-! ## Changes below the endpoints -/

/-- Links and stubs change, come and go, and so do interfaces and workers, but what serves the
slots stays, and so does what was linked. -/
structure Refits (k m : Layout) : Prop where
  face : ∀ i f, k.face i = some f → m.face i = some f
  worker : ∀ w wk, k.worker w = some wk → m.worker w = some wk
  known : ∀ w wk, m.worker w = some wk → k.worker w = some wk ∨ wk.directory = []
  endpoint : ∀ e ep, m.endpoint e = some ep → k.endpoint e = some ep
  kept : ∀ w wk, k.worker w = some wk → ∀ entry ∈ wk.directory,
    m.endpoint entry.2 = k.endpoint entry.2
  link? : ∀ e ep, m.endpoint e = some ep → ∀ lane,
    m.link? (ep.slots.get lane) = k.link? (ep.slots.get lane)
  stub : ∀ e ep, m.endpoint e = some ep → ∀ lane x st, ep.slots.get lane = some (.stub x) →
    k.stub x = some st → ∃ st', m.stub x = some st' ∧ st'.endpoint = st.endpoint ∧
      st'.category = st.category ∧ st'.next = st.next
  course : ∀ e ep, m.endpoint e = some ep → ∀ lane l c,
    k.link? (ep.slots.get lane) = some l → k.course l = some c →
      ∃ c', m.course l = some c' ∧ c'.owner = c.owner ∧ c'.settings = c.settings
  dest : ∀ e ep, m.endpoint e = some ep → ∀ lane ∈ ep.plan.lanes, ∀ l i,
    ep.slots.get lane = some (.link l) → k.dest? l = some i → m.dest? l = some i
  linked : ∀ b a lane, k.Linked b a lane → m.Linked b a lane

section

variable {plan : Plan} {doomed : Option EndpointId}

theorem Refits.lasts (h : Refits k m) (hk : Site plan k) : Lasts k m where
  face := h.face
  worker w wk hw := ⟨wk, h.worker w wk hw, rfl, rfl, rfl⟩
  linked := h.linked
  switched l switched := by
    rcases switched with ⟨w, wk, e, ep, lane, hw, ⟨dest, hd⟩, he, hl, paired, slot⟩
    refine ⟨w, wk, e, ep, lane, h.worker w wk hw, ⟨dest, hd⟩, ?_, hl, ?_, slot⟩
    · rw [h.kept w wk hw _ hd]
      exact he
    · have same : m.pairing? wk lane = k.pairing? wk lane := by
        refine pairing?_congr rfl rfl fun r hr => ?_
        rcases hk.resources w wk hw r hr with ⟨f, hf⟩
        rw [hf, h.face _ f hf]
      rwa [same]

theorem Refits.bears (h : Refits k m) {vk : Worker} {uuid : UInt64} (hb : k.Bears b vk uuid) :
    m.Bears b vk uuid := ⟨h.worker b vk hb.1, hb.2⟩

theorem Refits.pairing? (h : Refits k m) (hk : Site plan k) {w : WorkerId} {wk : Worker}
    (hw : k.worker w = some wk) (lane : Category) : m.pairing? wk lane = k.pairing? wk lane :=
  (h.lasts hk).pairing? hk hw rfl rfl lane

theorem Lane.refit {w : WorkerId} {wk : Worker} {e : EndpointId} {ep : Endpoint}
    (hl : Lane k w wk e ep lane) (h : Refits k m) (hk : Site plan k) (hw : k.worker w = some wk)
    (he : m.endpoint e = some ep) (planned : lane ∈ ep.plan.lanes) : Lane m w wk e ep lane := by
  cases hl with
  | direct unpaired free => exact .direct (by rwa [h.pairing? hk hw]) free
  | waiting x st l c f slot here own next course paired face settings =>
    rcases h.stub _ ep he lane x st slot here with ⟨st', here', hse, hsc, hsn⟩
    have served : k.link? (ep.slots.get lane) = some l := by simp [slot, Layout.link?, here, next]
    rcases h.course _ ep he lane l c served course with ⟨c', hc, ho, hs⟩
    refine .waiting x st' l c' f slot here' ⟨hse.trans own.1, hsc.trans own.2⟩
      (hsn.trans next) hc ?_ ?_ (hs.trans settings)
    · rwa [h.pairing? hk hw, ho]
    · rw [ho]
      exact h.face _ f face
  | promoted l b vk i j slot paired peer there dest linked =>
    refine .promoted l b vk i j slot ?_ (h.bears peer) ?_
      (h.dest _ ep he lane planned l j slot dest) (h.linked _ _ _ linked)
    · rwa [h.pairing? hk hw]
    · rwa [h.pairing? hk peer.1]

/-- What is known of a layout stays known if it stays so of the stubs that are connected or
marked. -/
theorem Charted.refit (hk : Charted plan k doomed) (h : Refits k m) (site : Site plan m)
    (connected : ∀ x st ep l, m.stub x = some st → m.endpoint st.endpoint = some ep →
      st.next = some l → st.localConnected = true → Connected m x st ep l)
    (marked : ∀ x st ep l, m.stub x = some st → m.endpoint st.endpoint = some ep →
      st.next = some l → st.remoteConnected = true → Acknowledged m st ep) :
    Charted plan m doomed where
  toSite := site
  peers e ep he := by
    rcases hk.peers e ep (h.endpoint e ep he) with ⟨same, b, vk, hb⟩
    exact ⟨same, b, vk, h.bears hb⟩
  known w wk hw entry hentry := by
    rcases h.known w wk hw with hw | none
    · rw [h.kept w wk hw entry hentry]
      exact hk.known w wk hw entry hentry
    · rw [none] at hentry
      cases hentry
  listed e ep lane c he slot := by
    rcases hk.listed e ep lane c (h.endpoint e ep he) slot with ⟨wk, hw, entry⟩
    exact ⟨wk, h.worker _ wk hw, entry⟩
  lanes w wk hw entry hentry safe ep he lane hl := by
    rcases h.known w wk hw with hw | none
    · have old := h.endpoint _ ep he
      have planned : lane ∈ ep.plan.lanes := by rwa [(hk.peers _ ep old).1]
      exact (hk.lanes w wk hw entry hentry safe ep old lane hl).refit h hk.toSite hw he planned
    · rw [none] at hentry
      cases hentry
  single e ep lane e' ep' lane' l he he' hl hl' hs hs' := by
    rw [h.link? e ep he] at hs
    rw [h.link? e' ep' he'] at hs'
    exact hk.single e ep lane e' ep' lane' l (h.endpoint e ep he) (h.endpoint e' ep' he') hl hl'
      hs hs'
  connected := connected
  marked := marked

end

/-! ## Opening and closing -/

/-- What serves the slots stays as it is. Beside it links, stubs, interfaces and workers come and
go, and endpoints go that no worker has; a stub that comes is neither connected nor marked. -/
structure Shifts (k m : Layout) : Prop where
  face : ∀ i f, k.face i = some f → m.face i = some f
  worker : ∀ w wk, k.worker w = some wk → m.worker w = some wk
  known : ∀ w wk, m.worker w = some wk → k.worker w = some wk ∨ wk.directory = []
  endpoint : ∀ e ep, m.endpoint e = some ep → k.endpoint e = some ep
  kept : ∀ w wk, k.worker w = some wk → ∀ entry ∈ wk.directory,
    m.endpoint entry.2 = k.endpoint entry.2
  stub : ∀ e ep, m.endpoint e = some ep → ∀ lane x, ep.slots.get lane = some (.stub x) →
    m.stub x = k.stub x
  course : ∀ e ep, m.endpoint e = some ep → ∀ lane l, k.link? (ep.slots.get lane) = some l →
    m.course l = k.course l
  blank : ∀ x st, m.stub x = some st → k.stub x = some st ∨
    st.localConnected = false ∧ st.remoteConnected = false

section

variable {plan : Plan} {doomed : Option EndpointId}

theorem Shifts.link? (h : Shifts k m) {e : EndpointId} {ep : Endpoint} (he : m.endpoint e = some ep)
    (lane : Category) : m.link? (ep.slots.get lane) = k.link? (ep.slots.get lane) := by
  cases slot : ep.slots.get lane with
  | none => rfl
  | some c =>
    cases c with
    | link l => rfl
    | stub x => simp only [Layout.link?, h.stub e ep he lane x slot]

theorem Shifts.isJoined (h : Shifts k m) {e : EndpointId} {ep : Endpoint}
    (he : m.endpoint e = some ep) (lane : Category) :
    m.isJoined (ep.slots.get lane) = k.isJoined (ep.slots.get lane) := by
  cases slot : ep.slots.get lane with
  | none => rfl
  | some c =>
    cases c with
    | link l => rfl
    | stub x => simp only [Layout.isJoined, h.stub e ep he lane x slot]

theorem Shifts.refits (h : Shifts k m) (hk : Charted plan k doomed) : Refits k m where
  face := h.face
  worker := h.worker
  known := h.known
  endpoint := h.endpoint
  kept := h.kept
  link? _ _ he lane := h.link? he lane
  stub e ep he lane x st slot here := by
    refine ⟨st, ?_, rfl, rfl, rfl⟩
    rw [h.stub e ep he lane x slot]
    exact here
  course e ep he lane l c served here := by
    refine ⟨c, ?_, rfl, rfl⟩
    rw [h.course e ep he lane l served]
    exact here
  dest e ep he lane hl l i slot dest := by
    have served : k.link? (ep.slots.get lane) = some l := by rw [slot]; rfl
    unfold Layout.dest?
    rw [h.course e ep he lane l served]
    exact dest
  linked b a lane linked := by
    rcases linked with ⟨vk, wk, e, ep, i, hv, hw, hl, hp, hi, hd, he, joined, l, served, dest⟩
    have same (u : WorkerId) (uk : Worker) (hu : k.worker u = some uk) :
        m.pairing? uk lane = k.pairing? uk lane := by
      refine pairing?_congr rfl rfl fun r hr => ?_
      rcases hk.resources u uk hu r hr with ⟨f, hf⟩
      rw [hf, h.face _ f hf]
    have he' : m.endpoint e = some ep := (h.kept b vk hv _ hd).trans he
    refine ⟨vk, wk, e, ep, i, h.worker b vk hv, h.worker a wk hw, hl, ?_, ?_, hd, he', ?_, l, ?_, ?_⟩
    · rwa [same b vk hv]
    · rwa [same a wk hw]
    · rwa [h.isJoined he']
    · rwa [h.link? he']
    · unfold Layout.dest?
      rw [h.course e ep he' lane l served]
      exact dest

theorem Charted.shift (hk : Charted plan k doomed) (h : Shifts k m) (site : Site plan m) :
    Charted plan m doomed := by
  have refits := h.refits hk
  refine hk.refit refits site (fun x st ep l hx he hn joined => ?_) fun x st ep l hx he hn marked => ?_
  · rcases h.blank x st hx with hx | ⟨blank, -⟩
    · rcases hk.connected x st ep l hx (h.endpoint _ ep he) hn joined
        with ⟨hl, hs, b, vk, j, hb, hj, hd⟩
      refine ⟨hl, hs, b, vk, j, refits.bears hb, ?_, ?_⟩
      · rwa [refits.pairing? hk.toSite hb.1]
      · have served : k.link? (ep.slots.get st.category) = some l := by simp [hs, Layout.link?, hx, hn]
        unfold Layout.dest?
        rw [h.course _ ep he _ l served]
        exact hd
    · rw [blank] at joined
      cases joined
  · rcases h.blank x st hx with hx | ⟨-, blank⟩
    · exact (hk.marked x st ep l hx (h.endpoint _ ep he) hn marked).lasts (refits.lasts hk.toSite) hk.toSite
    · rw [blank] at marked
      cases marked

end

/-! ## Connecting -/

section

variable {plan : Plan} {doomed : Option EndpointId} {x : StubId} {st : Stub} {ep : Endpoint}
  {l : LinkId} {c : Course} {vk : Worker} {i : InterfaceId}

/-- The layout in which a link leads to an interface and its stub is connected. -/
def join (k : Layout) (x : StubId) (st : Stub) (l : LinkId) (c : Course) (i : InterfaceId) :
    Layout :=
  { k with
    course := Function.update k.course l (some { c with dest := some i })
    stub := Function.update k.stub x (some { st with localConnected := true }) }

theorem join_link? (here : k.stub x = some st) (slot : Slot) :
    (k.join x st l c i).link? slot = k.link? slot := by
  cases slot with
  | none => rfl
  | some carrier =>
    cases carrier with
    | link l' => rfl
    | stub y =>
      simp only [link?, join, Function.update_apply]
      split
      · rename_i h
        rw [h, here]
        rfl
      · rfl

theorem join_isJoined {slot : Slot} (h : k.isJoined slot = true) :
    (k.join x st l c i).isJoined slot = true := by
  cases slot with
  | none => exact h
  | some carrier =>
    cases carrier with
    | link l' => rfl
    | stub y =>
      simp only [isJoined, join, Function.update_apply] at h ⊢
      split
      · rfl
      · exact h

theorem join_dest? (l' : LinkId) :
    (k.join x st l c i).dest? l' = if l' = l then some i else k.dest? l' := by
  simp only [dest?, join, Function.update_apply]
  split <;> rfl

theorem join_leads (next : st.next = some l) :
    (k.join x st l c i).Leads (some (.stub x)) i := by
  refine ⟨by simp [isJoined, join], l, ?_, ?_⟩
  · simp [link?, join, next]
  · simp [join_dest?]

/-- A link serves one lane of one endpoint. -/
theorem Charted.alone (hk : Charted plan k doomed) {e : EndpointId} {ep ep' : Endpoint}
    {lane lane' : Category} {e' : EndpointId} (he : k.endpoint e = some ep)
    (hl : lane ∈ plan.lanes) (h : k.link? (ep.slots.get lane) = some l)
    (he' : k.endpoint e' = some ep') (hl' : lane' ∈ plan.lanes)
    (h' : k.link? (ep'.slots.get lane') = some l) : e' = e ∧ ep' = ep ∧ lane' = lane := by
  have same := hk.single e' ep' lane' e ep lane l he' he hl' hl h' h
  rw [same.1] at he'
  exact ⟨same.1, Option.some.inj (he'.symm.trans he), same.2⟩

/-- What the stub of a lane needs in order to be connected to the interface that its peer has for
the lane. -/
structure Joins (plan : Plan) (k : Layout) (x : StubId) (st : Stub) (ep : Endpoint) (l : LinkId)
    (c : Course) (vk : Worker) (i : InterfaceId) : Prop where
  here : k.stub x = some st
  owner : k.endpoint st.endpoint = some ep
  slot : ep.slots.get st.category = some (.stub x)
  lane : st.category ∈ plan.lanes
  next : st.next = some l
  course : k.course l = some c
  peer : ∃ b, k.Bears b vk ep.dest
  paired : k.pairing? vk st.category = some i

theorem Joins.serves (h : Joins plan k x st ep l c vk i) :
    k.link? (ep.slots.get st.category) = some l := by
  simp [h.slot, link?, h.here, h.next]

/-- What was linked stays so when another lane is connected. -/
theorem Joins.linked (h : Joins plan k x st ep l c vk i) (hk : Charted plan k doomed)
    {lane : Category} (linked : k.Linked b a lane) : (k.join x st l c i).Linked b a lane := by
  rcases linked with ⟨vk', wk, e, ep', j, hv, hw, hl, hp, hj, hd, he, joined, l', hl', hdest⟩
  refine ⟨vk', wk, e, ep', j, hv, hw, hl, hp, hj, hd, he, join_isJoined joined, l', ?_, ?_⟩
  · rw [join_link? h.here, hl']
  · rw [join_dest?]
    split
    · -- the connected lane already led there
      rename_i same
      rw [hk.plans b vk' hv] at hl
      rcases hk.alone h.owner h.lane h.serves he hl (same ▸ hl') with ⟨rfl, rfl, rfl⟩
      rcases hk.known b vk' hv _ hd with ⟨ep'', he', -, hdest'⟩
      cases he.symm.trans he'
      rcases h.peer with ⟨b', peer⟩
      rcases hk.toSite.bears_unique peer ⟨hw, hdest'.symm⟩ with ⟨-, rfl⟩
      exact h.paired.symm.trans hj
    · exact hdest

theorem Joins.refits (h : Joins plan k x st ep l c vk i) (hk : Charted plan k doomed) :
    Refits k (k.join x st l c i) where
  face _ _ h := h
  worker _ _ h := h
  known _ _ h := .inl h
  endpoint _ _ h := h
  kept _ _ _ _ _ := rfl
  link? _ _ _ _ := join_link? h.here _
  stub e ep' _ lane y st' slot here := by
    simp only [join, Function.update_apply]
    split
    · rename_i hy
      rw [hy] at here
      cases h.here.symm.trans here
      exact ⟨_, rfl, rfl, rfl, rfl⟩
    · exact ⟨st', here, rfl, rfl, rfl⟩
  course e ep' _ lane l' c' _ here := by
    simp only [join, Function.update_apply]
    split
    · rename_i hl
      rw [hl] at here
      cases h.course.symm.trans here
      exact ⟨_, rfl, rfl, rfl⟩
    · exact ⟨c', here, rfl, rfl⟩
  dest e ep' he lane hl l' j slot dest := by
    rw [join_dest?, if_neg]
    · exact dest
    · rintro rfl
      rw [(hk.peers e ep' he).1] at hl
      rcases hk.alone h.owner h.lane h.serves he hl (by rw [slot]; rfl) with ⟨-, rfl, rfl⟩
      cases h.slot.symm.trans slot
  linked _ _ _ := h.linked hk

/-- Connecting a stub to the interface that its peer has for the lane keeps what is known. -/
theorem Charted.join (hk : Charted plan k doomed) (h : Joins plan k x st ep l c vk i) :
    Charted plan (k.join x st l c i) doomed := by
  have refits := h.refits hk
  have site : Site plan (k.join x st l c i) :=
    hk.toSite.congr rfl rfl fun w wk hw => ⟨wk, hw, rfl, rfl, rfl⟩
  refine hk.refit refits site (fun y st' ep' l' hy he hn joined => ?_)
    fun y st' ep' l' hy he hn marked => ?_
  · simp only [Layout.join, Function.update_apply] at hy
    split at hy
    · rename_i same
      cases hy
      cases h.next.symm.trans hn
      cases h.owner.symm.trans he
      rcases h.peer with ⟨b, peer⟩
      refine ⟨?_, same ▸ h.slot, b, vk, i, peer, h.paired, by simp [join_dest?]⟩
      rw [(hk.peers _ _ h.owner).1]
      exact h.lane
    · rename_i other
      rcases hk.connected y st' ep' l' hy he hn joined with ⟨hl, hs, b', vk', j, hb, hj, hd⟩
      refine ⟨hl, hs, b', vk', j, hb, hj, ?_⟩
      rw [join_dest?, if_neg]
      · exact hd
      · rintro rfl
        rw [(hk.peers _ _ he).1] at hl
        rcases hk.alone h.owner h.lane h.serves he hl (by simp [hs, link?, hy, hn])
          with ⟨-, rfl, same⟩
        rw [same] at hs
        cases h.slot.symm.trans hs
        exact other rfl
  · simp only [Layout.join, Function.update_apply] at hy
    split at hy
    · cases hy
      exact Acknowledged.lasts (hk.marked x st ep' l' h.here he hn marked) (refits.lasts hk.toSite) hk.toSite
    · exact (hk.marked y st' ep' l' hy he hn marked).lasts (refits.lasts hk.toSite) hk.toSite

end

/-! ## Marking -/

section

variable {plan : Plan} {doomed : Option EndpointId} {x : StubId} {st : Stub}

/-- The layout in which a stub is marked by the remote side. -/
def mark (k : Layout) (x : StubId) (st : Stub) : Layout :=
  { k with stub := Function.update k.stub x (some { st with remoteConnected := true }) }

theorem mark_link? (here : k.stub x = some st) (slot : Slot) :
    (k.mark x st).link? slot = k.link? slot := by
  cases slot with
  | none => rfl
  | some carrier =>
    cases carrier with
    | link l' => rfl
    | stub y =>
      simp only [link?, mark, Function.update_apply]
      split
      · rename_i h
        rw [h, here]
        rfl
      · rfl

theorem mark_isJoined (here : k.stub x = some st) (slot : Slot) :
    (k.mark x st).isJoined slot = k.isJoined slot := by
  cases slot with
  | none => rfl
  | some carrier =>
    cases carrier with
    | link l' => rfl
    | stub y =>
      simp only [isJoined, mark, Function.update_apply]
      split
      · rename_i h
        rw [h, here]
        rfl
      · rfl

theorem mark_refits (here : k.stub x = some st) : Refits k (k.mark x st) where
  face _ _ h := h
  worker _ _ h := h
  known _ _ h := .inl h
  endpoint _ _ h := h
  kept _ _ _ _ _ := rfl
  link? _ _ _ _ := mark_link? here _
  stub e ep' _ lane y st' slot here' := by
    simp only [mark, Function.update_apply]
    split
    · rename_i hy
      rw [hy] at here'
      cases here.symm.trans here'
      exact ⟨_, rfl, rfl, rfl, rfl⟩
    · exact ⟨st', here', rfl, rfl, rfl⟩
  course _ _ _ _ _ c _ hc := ⟨c, hc, rfl, rfl⟩
  dest _ _ _ _ _ _ _ _ hd := hd
  linked b a lane h := by
    rcases h with ⟨vk, wk, e, ep, j, hv, hw, hl, hp, hj, hd, he, joined, l, hs, hdest⟩
    refine ⟨vk, wk, e, ep, j, hv, hw, hl, hp, hj, hd, he, ?_, l, ?_, hdest⟩
    · rwa [mark_isJoined here]
    · rwa [mark_link? here]

/-- Marking a stub whose peer is linked keeps what is known. -/
theorem Charted.mark (hk : Charted plan k doomed) (here : k.stub x = some st)
    (acknowledged : ∀ ep, k.endpoint st.endpoint = some ep → Acknowledged k st ep) :
    Charted plan (k.mark x st) doomed := by
  have refits := mark_refits here
  have site : Site plan (k.mark x st) :=
    hk.toSite.congr rfl rfl fun w wk hw => ⟨wk, hw, rfl, rfl, rfl⟩
  refine hk.refit refits site (fun y st' ep l hy he hn joined => ?_)
    fun y st' ep l hy he hn marked => ?_
  · simp only [Layout.mark, Function.update_apply] at hy
    split at hy
    · rename_i same
      cases hy
      rw [same]
      exact hk.connected x st ep l here he hn joined
    · exact hk.connected y st' ep l hy he hn joined
  · simp only [Layout.mark, Function.update_apply] at hy
    split at hy
    · cases hy
      exact Acknowledged.lasts (acknowledged ep he) (refits.lasts hk.toSite) hk.toSite
    · exact (hk.marked y st' ep l hy he hn marked).lasts (refits.lasts hk.toSite) hk.toSite

end

end Layout

end Wiring
