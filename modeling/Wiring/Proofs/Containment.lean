import Mathlib
import Wiring.Proofs.Directory
import Wiring.Proofs.Shelving

/-!
# Signals are contained

A signal comes as bytes from a peer, and what it makes a worker do stays with the endpoint to that
peer: its stubs are connected and marked, and its messages carry the answer. A peer without an
endpoint may get one; if that fails everything is as it was before.
-/
namespace Wiring

/-- All of an interface but its messages and the number of links that it has opened. -/
def Interface.shell (i : Interface) : Interface := { i with inbox := [], linksOpened := 0 }

namespace Network

variable {s t u : Network} {e : EndpointId} {ep : Endpoint} {w : WorkerId} {wk : Worker}
  {peer : UInt64} {rest : List Job}

/-! ## What belongs to an endpoint -/

/-- The carriers of an endpoint, and the links of its stubs. -/
def Uses (s : Network) (e : EndpointId) : Ref → Prop
  | .link l => ∃ ep, s.endpoints.get? e = some ep ∧
      (ep.owns (.link l) ∨ ∃ x st, ep.owns (.stub x) ∧ s.stubs.get? x = some st ∧ st.owns l)
  | .stub x => ∃ ep, s.endpoints.get? e = some ep ∧ ep.owns (.stub x)
  | _ => False

/-- The messages that wait in an inbox. -/
def inbox (s : Network) (i : InterfaceId) : List Message :=
  ((s.interfaces.get? i).map Interface.inbox).getD []

/-- The requests that a link has queued. -/
def queue (s : Network) (l : LinkId) : List Request :=
  ((s.links.get? l).map Link.queue).getD []

/-- A stub whose flags may be set. -/
def flagged (st : Stub) (a b : Bool) : Stub :=
  { st with localConnected := st.localConnected || a, remoteConnected := st.remoteConnected || b }

theorem flagged_false (st : Stub) : flagged st false false = st := by simp [flagged]

/-- Nothing changes but what belongs to an endpoint, and interfaces, which get messages. -/
structure Within (e : EndpointId) (s t : Network) : Prop where
  frame : t = { s with
    interfaces := t.interfaces, links := t.links, stubs := t.stubs, gates := t.gates
    handles := t.handles, trace := t.trace, agenda := t.agenda }
  interfaces : ∀ i, (t.interfaces.get? i).map Interface.shell =
    (s.interfaces.get? i).map Interface.shell
  links : ∀ l, ¬s.Uses e (.link l) → t.links.get? l = s.links.get? l
  stubs : ∀ x, ∃ a b, t.stubs.get? x = (s.stubs.get? x).map (flagged · a b) ∧
    (¬s.Uses e (.stub x) → a = false ∧ b = false)
  gates : ∀ g, (∀ x st, s.Uses e (.stub x) → s.stubs.get? x = some st → st.gate ≠ g) →
    t.gates.get? g = s.gates.get? g
  handles : s.handles.Keeps t.handles

/-- No message comes to an inbox, and none leaves it; no request is queued. -/
structure Silent (s t : Network) : Prop where
  inboxes : ∀ i, t.inbox i = s.inbox i
  queues : ∀ l, t.queue l = s.queue l

theorem Silent.refl (s : Network) : Silent s s := ⟨fun _ => rfl, fun _ => rfl⟩

theorem Silent.trans (h : Silent s t) (g : Silent t u) : Silent s u :=
  ⟨fun i => (g.inboxes i).trans (h.inboxes i), fun l => (g.queues l).trans (h.queues l)⟩

namespace Within

theorem refl (e : EndpointId) (s : Network) : Within e s s where
  frame := rfl
  interfaces _ := rfl
  links _ _ := rfl
  stubs x := ⟨false, false, by simp [flagged], fun _ => ⟨rfl, rfl⟩⟩
  gates _ _ := rfl
  handles := .refl _

theorem endpoints (h : Within e s t) : t.endpoints = s.endpoints := by rw [h.frame]

theorem workers (h : Within e s t) : t.workers = s.workers := by rw [h.frame]

/-- What belongs to the endpoint is the same. -/
theorem uses (h : Within e s t) (ref : Ref) : t.Uses e ref ↔ s.Uses e ref := by
  have links (x : StubId) (l : LinkId) : (∃ st, t.stubs.get? x = some st ∧ st.owns l) ↔
      ∃ st, s.stubs.get? x = some st ∧ st.owns l := by
    rcases h.stubs x with ⟨a, b, stub, -⟩
    rw [stub]
    constructor
    · rintro ⟨st', there, owns⟩
      rcases Option.map_eq_some_iff.1 there with ⟨st, here, rfl⟩
      exact ⟨st, here, owns⟩
    · rintro ⟨st, here, owns⟩
      exact ⟨flagged st a b, by rw [here, Option.map_some], owns⟩
  cases ref with
  | link l =>
    simp only [Uses, h.endpoints]
    refine exists_congr fun ep => and_congr_right fun _ => or_congr_right ?_
    refine exists_congr fun x => ?_
    have same := links x l
    constructor
    · rintro ⟨st, owns, here, own⟩
      rcases same.1 ⟨st, here, own⟩ with ⟨st', here', own'⟩
      exact ⟨st', owns, here', own'⟩
    · rintro ⟨st, owns, here, own⟩
      rcases same.2 ⟨st, here, own⟩ with ⟨st', here', own'⟩
      exact ⟨st', owns, here', own'⟩
  | stub x => simp only [Uses, h.endpoints]
  | _ => exact Iff.rfl

theorem trans (h : Within e s t) (g : Within e t u) : Within e s u where
  frame := by rw [g.frame, h.frame]
  interfaces i := (g.interfaces i).trans (h.interfaces i)
  links l foreign := (g.links l (mt (h.uses _).1 foreign)).trans (h.links l foreign)
  stubs x := by
    rcases h.stubs x with ⟨a, b, first, still⟩
    rcases g.stubs x with ⟨a', b', second, still'⟩
    refine ⟨a || a', b || b', ?_, fun foreign => ?_⟩
    · rw [second, first, Option.map_map]
      simp only [Function.comp_def, flagged, Bool.or_assoc]
    · rcases still foreign with ⟨rfl, rfl⟩
      rcases still' (mt (h.uses _).1 foreign) with ⟨rfl, rfl⟩
      exact ⟨rfl, rfl⟩
  gates g' foreign := by
    refine (g.gates g' fun x st uses there => ?_).trans (h.gates g' foreign)
    rcases h.stubs x with ⟨a, b, stub, -⟩
    rw [stub] at there
    rcases Option.map_eq_some_iff.1 there with ⟨st', here, rfl⟩
    exact foreign x st' ((h.uses _).1 uses) here
  handles := h.handles.trans g.handles

/-- What there is to do does not matter. -/
theorem withAgenda (h : Within e s t) (agenda : List Job) : Within e s { t with agenda } :=
  { h with frame := by rw [h.frame] }

end Within

/-! ## Connecting and marking -/

/-- A stub of the endpoint is connected or marked. -/
theorem within_modifyStub {x : StubId} (uses : s.Uses e (.stub x)) (a b : Bool)
    (trace : Array Happening) :
    Within e s { s with stubs := s.stubs.modify x (flagged · a b), trace } :=
  { Within.refl e s with
    frame := rfl
    stubs := fun y => by
      rw [Table.get?_modify]
      split
      · rename_i same
        subst y
        exact ⟨a, b, rfl, fun foreign => absurd uses foreign⟩
      · exact ⟨false, false, by simp [flagged], fun _ => ⟨rfl, rfl⟩⟩ }

theorem connect_within {x : StubId} (uses : s.Uses e (.stub x)) (device address : Bytes) :
    Within e s (s.connect (.stub x) device address).1 ∧
      Silent s (s.connect (.stub x) device address).1 := by
  unfold connect
  simp only
  split
  · exact ⟨.refl e s, .refl s⟩
  · rename_i next hn
    unfold connectLink
    cases s.destination next device address with
    | error why => exact ⟨.refl e s, .refl s⟩
    | ok dest =>
      simp only [note]
      rcases Option.bind_eq_some_iff.1 hn with ⟨st, stub, leads⟩
      have owned : s.Uses e (.link next) := by
        rcases uses with ⟨ep, here, owns⟩
        exact ⟨ep, here, .inr ⟨x, st, owns, stub, .inl leads⟩⟩
      have paired : Within e s
          { s with links := s.links.modify next fun lk => { lk with dest := some dest } } :=
        { Within.refl e s with
          frame := rfl
          links := fun l foreign => by
            rw [Table.get?_modify, if_neg]
            rintro rfl
            exact foreign owned }
      have flags : (fun st => flagged st true false) =
          fun st : Stub => { st with localConnected := true } := by
        funext st
        simp [flagged]
      have connected := within_modifyStub (s := { s with
        links := s.links.modify next fun lk => { lk with dest := some dest } }) uses true false
        (s.trace.push (.connected x))
      rw [flags] at connected
      refine ⟨paired.trans connected, fun i => rfl, fun l => ?_⟩
      simp only [queue, Table.get?_modify]
      split
      · cases s.links.get? l <;> rfl
      · rfl

theorem uses_of_slot {category : Category} {x : StubId} (slot : s.slot e category = some (.stub x)) :
    s.Uses e (.stub x) := by
  rcases Option.bind_eq_some_iff.1 slot with ⟨ep, here, slot⟩
  exact ⟨ep, here, Endpoint.owns_iff.2 ⟨category, slot⟩⟩

theorem connectLanes_within (s : Network) (e : EndpointId) (lanes : List LaneAddress) :
    Within e s (s.connectLanes e lanes).1 ∧ Silent s (s.connectLanes e lanes).1 := by
  induction lanes generalizing s with
  | nil => exact ⟨.refl e s, .refl s⟩
  | cons lane lanes ih =>
    unfold connectLanes
    split
    · rename_i x slot
      have connected := connect_within (uses_of_slot slot) lane.deviceAddress lane.linkAddress
      split
      · rename_i t h
        rw [h] at connected
        have later := ih t
        exact ⟨connected.1.trans later.1, connected.2.trans later.2⟩
      · rename_i t why h
        rw [h] at connected
        exact connected
    · exact ih s

theorem markLanes_within (s : Network) (e : EndpointId) :
    Within e s (s.markLanes e) ∧ Silent s (s.markLanes e) := by
  unfold markLanes
  cases here : s.endpoints.get? e with
  | none => exact ⟨.refl e s, .refl s⟩
  | some ep =>
    simp only
    induction ep.plan.lanes generalizing s with
    | nil => exact ⟨.refl e s, .refl s⟩
    | cons lane lanes ih =>
      have marked : Within e s (s.markSlot (ep.slots.get lane)) ∧
          Silent s (s.markSlot (ep.slots.get lane)) := by
        unfold markSlot
        split
        · rename_i x slot
          have flags : (fun st => flagged st false true) =
              fun st : Stub => { st with remoteConnected := true } := by
            funext st
            simp [flagged]
          have uses : s.Uses e (.stub x) := ⟨ep, here, Endpoint.owns_iff.2 ⟨lane, slot⟩⟩
          have marked := within_modifyStub uses false true (s.trace.push (.marked x))
          rw [flags] at marked
          exact ⟨marked, ⟨fun _ => rfl, fun _ => rfl⟩⟩
        · exact ⟨.refl e s, .refl s⟩
      have later := ih (s.markSlot (ep.slots.get lane)) (by rw [marked.1.endpoints, here])
      exact ⟨marked.1.trans later.1, marked.2.trans later.2⟩

/-! ## Answering -/

/-- One signal of the endpoint was put into an inbox, or queued, by one of its links. -/
inductive Signalled (s t : Network) (e : EndpointId) (payload : Bytes) : Prop
  | sent (l : LinkId) (dest : InterfaceId) (uses : t.Uses e (.link l))
      (inboxes : ∀ i, t.inbox i =
        if i = dest then s.inbox i ++ [⟨Signal.messageId, payload, l⟩] else s.inbox i)
      (queues : ∀ k, t.queue k = s.queue k)
  | queued (l : LinkId) (m : Send) (r : Request) (uses : t.Uses e (.link l)) (own : m.endpoint = e)
      (signal : m.messageId = Signal.messageId ∧ m.payload = payload)
      (covers : r = .send m ∨ ∃ g, r = .counted g (.send m))
      (inboxes : ∀ i, t.inbox i = s.inbox i)
      (queues : ∀ k, t.queue k = if k = l then s.queue k ++ [r] else s.queue k)

theorem uses_of_carries {c : Carrier} {l : LinkId} (here : s.endpoints.get? e = some ep)
    (slot : ep.slots.messages = some c) (carries : s.CarriesSignals c l) : s.Uses e (.link l) := by
  have owns : ep.owns c := Endpoint.owns_iff.2 ⟨.messages, slot⟩
  rcases carries with rfl | ⟨x, st, rfl, stub, link⟩
  · exact ⟨ep, here, .inl owns⟩
  · refine ⟨ep, here, .inr ⟨x, st, owns, stub, ?_⟩⟩
    unfold Stub.signalLink at link
    split at link
    · exact .inl link
    · exact .inr (.inl link)

theorem inbox_set {i dest : InterfaceId} {f f' : Interface} (there : s.interfaces.get? dest = some f) :
    (((s.interfaces.set dest f').get? i).map Interface.inbox).getD [] =
      if i = dest then f'.inbox else s.inbox i := by
  rw [Table.get?_set_of there]
  by_cases same : i = dest
  · simp [same]
  · simp [same, Ne.symm same, inbox]

theorem queue_set {k l : LinkId} {lk lk' : Link} (here : s.links.get? l = some lk) :
    (((s.links.set l lk').get? k).map Link.queue).getD [] =
      if k = l then lk'.queue else s.queue k := by
  rw [Table.get?_set_of here]
  by_cases same : k = l
  · simp [same]
  · simp [same, Ne.symm same, queue]

/-- A link of the endpoint changes. -/
theorem within_setLink {l : LinkId} (uses : s.Uses e (.link l)) (lk' : Link) :
    Within e s { s with links := s.links.set l lk' } :=
  { Within.refl e s with
    frame := rfl
    links := fun k foreign => by
      have other : l ≠ k := by
        rintro rfl
        exact foreign uses
      rw [Table.get?_set, if_neg fun same => other same.1] }

theorem Transmitted.within {l : LinkId} {payload : Bytes} {source : Option HandleId}
    (h : Transmitted s l Signal.messageId payload source t) (uses : s.Uses e (.link l)) :
    Within e s t ∧ Signalled s t e payload := by
  cases h with
  | intro lk credits dest f here credit leads there =>
    have within : Within e s { s with
        links := s.links.set l { lk with credits }
        interfaces := s.interfaces.set dest
          { f with inbox := f.inbox ++ [⟨Signal.messageId, payload, l⟩] }
        trace := s.trace.push (.accepted l dest Signal.messageId payload source) } :=
      { within_setLink uses { lk with credits } with
        frame := rfl
        interfaces := fun i => by
          rw [Table.get?_set_of there]
          split
          · rename_i same
            subst i
            rw [there]
            rfl
          · rfl }
    refine ⟨within, .sent l dest ((within.uses _).2 uses) (fun i => ?_) fun k => ?_⟩
    · refine (inbox_set there).trans ?_
      split
      · rename_i same
        rw [same, inbox, there]
        rfl
      · rfl
    · refine (queue_set here).trans ?_
      split
      · rename_i same
        rw [same, queue, here]
        rfl
      · rfl

theorem QueuedSignal.within {m : Send} {c : Carrier} (h : QueuedSignal s m c t)
    (here : s.endpoints.get? e = some ep) (slot : ep.slots.messages = some c)
    (own : m.endpoint = e) (signal : m.messageId = Signal.messageId) :
    Within e s t ∧ Signalled s t e m.payload := by
  have queued {l : LinkId} {lk : Link} (r : Request) (there : s.links.get? l = some lk) (k : LinkId) :
      (((s.links.set l { lk with queue := lk.queue ++ [r] }).get? k).map Link.queue).getD [] =
        if k = l then s.queue k ++ [r] else s.queue k := by
    refine (queue_set there).trans ?_
    split
    · rename_i same
      rw [same, queue, there]
      rfl
    · rfl
  cases h with
  | link l lk there empty =>
    have uses := uses_of_carries here slot (.inl rfl)
    have within := within_setLink uses { lk with queue := lk.queue ++ [.send m] }
    exact ⟨within, .queued l m _ ((within.uses _).2 uses) own ⟨signal, rfl⟩ (.inl rfl)
      (fun _ => rfl) (queued _ there)⟩
  | stub x st l lk stub carries there empty =>
    have uses := uses_of_carries here slot (.inr ⟨x, st, rfl, stub, carries⟩)
    have within : Within e s { s with
        gates := s.gates.modify st.gate (· + 1)
        links := s.links.set l { lk with queue := lk.queue ++ [.counted st.gate (.send m)] } } :=
      { within_setLink uses { lk with queue := lk.queue ++ [.counted st.gate (.send m)] } with
        frame := rfl
        gates := fun g foreign => by
          have other := foreign x st ⟨ep, here, Endpoint.owns_iff.2 ⟨.messages, slot⟩⟩ stub
          rw [Table.get?_modify, if_neg other] }
    exact ⟨within, .queued l m _ ((within.uses _).2 uses) own ⟨signal, rfl⟩ (.inr ⟨_, rfl⟩)
      (fun _ => rfl) (queued _ there)⟩

end Network

end Wiring
