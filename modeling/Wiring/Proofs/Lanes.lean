import Mathlib
import Wiring.Proofs.Release

/-!
# Opening lanes

A link is opened with nothing in its queue and nobody to hold it; a stub gets a fresh gate. The
lanes of a new endpoint are opened and put into its slots one after another, before it has sent
anything.
-/
namespace Wiring.Network

variable {s t u : Network} {wild : Prop}

/-- A new link with nothing in its queue. -/
def LinkOpened (s u : Network) (l : LinkId) : Prop :=
  ∃ mid lk, Aside s mid ∧ mid.links = s.links ∧ mid.trace = s.trace ∧ lk.queue = [] ∧
    l = s.links.next ∧ u = { mid with links := mid.links.push lk }

namespace LinkOpened

variable {l : LinkId}

theorem moves (h : LinkOpened s u l) : Moves wild s u := by
  obtain ⟨mid, lk, ha, -, -, empty, -, rfl⟩ := h
  exact (Moves.aside ha).trans (Moves.wire (.openLink lk empty))

theorem here (h : LinkOpened s u l) : ∃ lk, u.links.get? l = some lk ∧ lk.queue = [] := by
  obtain ⟨mid, lk, -, hl, -, empty, rfl, rfl⟩ := h
  exact ⟨lk, by simp [Table.get?_push, hl], empty⟩

theorem contains (h : LinkOpened s u l) : u.links.contains l = true := by
  obtain ⟨lk, hl, -⟩ := h.here
  exact Table.contains_of_get? hl

theorem grows (h : LinkOpened s u l) {k : LinkId} (hk : s.links.contains k = true) :
    u.links.contains k = true := by
  obtain ⟨mid, lk, -, hl, -, -, -, rfl⟩ := h
  simp [Table.contains_push, hl, hk]

theorem trace (h : LinkOpened s u l) : u.trace = s.trace := by
  obtain ⟨mid, lk, -, -, ht, -, -, rfl⟩ := h
  exact ht

theorem endpoints (h : LinkOpened s u l) : u.endpoints = s.endpoints := by
  obtain ⟨mid, lk, ha, -, -, -, -, rfl⟩ := h
  exact ha.endpoints

/-- Nothing holds a new link. -/
theorem free (h : LinkOpened s u l) (hs : Live s) : u.isHeld (.link l) = false := by
  obtain ⟨mid, lk, ha, hl, -, -, rfl, rfl⟩ := h
  rw [Bool.eq_false_iff]
  intro hh
  have hh : mid.isHeld (.link s.links.next) = true := hh
  have := hs _ (ha.isHeld hh)
  simp [isLive, Table.contains] at this

end LinkOpened

theorem newLink_opened {owner : InterfaceId} {i : Interface}
    (here : s.interfaces.get? owner = some i) (dest : Option InterfaceId) :
    LinkOpened s (s.newLink owner i dest).1 (s.newLink owner i dest).2 :=
  ⟨_, _, Aside.setInterface here _, rfl, rfl, rfl, rfl, rfl⟩

theorem openLink_cases (s : Network) (owner : InterfaceId) :
    (∃ why, s.openLink owner = (s, .error why)) ∨
    ∃ u l, LinkOpened s u l ∧ s.openLink owner = (u, .ok l) := by
  unfold openLink
  split
  · exact .inl ⟨_, rfl⟩
  · rename_i i here
    split
    · exact .inl ⟨_, rfl⟩
    · exact .inr ⟨_, _, newLink_opened here none, rfl⟩

theorem openConnectedLink_cases (s : Network) (owner : InterfaceId) (device address : Bytes) :
    (∃ why, s.openConnectedLink owner device address = (s, .error why)) ∨
    ∃ u l, LinkOpened s u l ∧ s.openConnectedLink owner device address = (u, .ok l) := by
  unfold openConnectedLink
  split
  · exact .inl ⟨_, rfl⟩
  · rename_i i here
    split
    · exact .inl ⟨_, rfl⟩
    · rename_i dest hd
      exact .inr ⟨_, _, newLink_opened here (some dest), rfl⟩

theorem openAuxiliary_cases (s : Network) (w : Worker) (peer : String)
    (entries : List AddressEntry) (scorer : Scorer) :
    (∃ why, s.openAuxiliary w peer entries scorer = (s, .error why)) ∨
    ∃ u r l, LinkOpened s u l ∧ s.openAuxiliary w peer entries scorer = (u, .ok (r, l)) := by
  unfold openAuxiliary
  split
  · exact .inl ⟨_, rfl⟩
  · rename_i best hb
    split
    · rename_i r entry hr he
      obtain ⟨why, h⟩ | ⟨u, l, hu, h⟩ :=
        s.openConnectedLink_cases r.interface entry.deviceAddress entry.interfaceAddress
      · exact .inl ⟨.refused why, by rw [h]⟩
      · exact .inr ⟨u, best.resource, l, hu, by rw [h]⟩
    · exact .inl ⟨_, rfl⟩

/-- What opening a lane leaves as it was, and the moves that it makes. -/
structure Furnished (wild : Prop) (s u : Network) : Prop where
  moves : Moves wild s u
  trace : u.trace = s.trace
  endpoints : u.endpoints = s.endpoints

theorem Furnished.trans (h : Furnished wild s t) (g : Furnished wild t u) : Furnished wild s u :=
  ⟨h.moves.trans g.moves, g.trace.trans h.trace, g.endpoints.trans h.endpoints⟩

theorem LinkOpened.furnished {l : LinkId} (h : LinkOpened s u l) : Furnished wild s u :=
  ⟨h.moves, h.trace, h.endpoints⟩

/-- A link that was opened in vain is closed again. -/
theorem LinkOpened.abandon {l : LinkId} (h : LinkOpened s u l) (hs : Live s) :
    Furnished wild s (u.retireLink l) := by
  obtain ⟨lk, here, empty⟩ := h.here
  refine ⟨h.moves.trans (retireLink_moves (h.free hs)), ?_, ?_⟩
  · simp [retireLink, here, empty, h.trace]
  · simp [retireLink, here, empty, h.endpoints]

theorem newStub_furnished {endpoint : EndpointId} (lane : Category) {next : LinkId}
    {auxiliary : Option (ResourceIndex × LinkId)}
    (he : s.endpoints.contains endpoint = true) (hn : s.links.contains next = true)
    (ha : ∀ r l, auxiliary = some (r, l) → s.links.contains l = true) :
    Furnished wild s (s.newStub endpoint lane next auxiliary).1 := by
  refine ⟨Moves.wire (.openStub _ rfl rfl ⟨rfl, rfl⟩ rfl ⟨next, rfl, hn⟩ (fun l hl => ?_) he),
    rfl, rfl⟩
  obtain ⟨⟨r, k⟩, hr, rfl⟩ := Option.map_eq_some_iff.1 hl
  exact ha r k hr

/-- A stub that an endpoint has just opened for a lane. -/
def NewStub (s : Network) (endpoint : EndpointId) (lane : Category) (x : StubId) : Prop :=
  ∃ t, s.stubs.get? x = some t ∧ t.endpoint = endpoint ∧ t.category = lane ∧ t.next ≠ none ∧
    t.promoted = none

theorem newStub_new (s : Network) (endpoint : EndpointId) (lane : Category) (next : LinkId)
    (auxiliary : Option (ResourceIndex × LinkId)) :
    NewStub (s.newStub endpoint lane next auxiliary).1 endpoint lane
      (s.newStub endpoint lane next auxiliary).2 :=
  ⟨_, by rw [newStub, Table.get?_push, if_pos rfl], rfl, rfl, by simp, rfl⟩

theorem openStub_furnished (hs : Sound wild s) {endpoint : EndpointId} (e : Endpoint) (w : Worker)
    (lane : Category) (interface : InterfaceId) (entries : List AddressEntry)
    (he : s.endpoints.contains endpoint = true) :
    Furnished wild s (s.openStub endpoint e w lane interface entries).1 ∧
    ∀ x, (s.openStub endpoint e w lane interface entries).2 = .ok x →
      NewStub (s.openStub endpoint e w lane interface entries).1 endpoint lane x := by
  unfold openStub
  obtain ⟨why, h⟩ | ⟨u, next, hu, h⟩ := s.openLink_cases interface
  · simp only [h]
    exact ⟨⟨.refl, rfl, rfl⟩, fun x hx => by cases hx⟩
  · simp only [h]
    have heu : u.endpoints.contains endpoint = true := hu.endpoints ▸ he
    split
    · obtain ⟨why, h⟩ | ⟨v, r, aux, hv, h⟩ :=
        u.openAuxiliary_cases w e.peer entries .auxiliary
      · simp only [h]
        exact ⟨hu.abandon hs.live, fun x hx => by cases hx⟩
      · simp only [h]
        refine ⟨(hu.furnished.trans hv.furnished).trans (newStub_furnished lane
          (hv.endpoints ▸ heu) (hv.grows hu.contains) fun r' l hl => ?_), fun x hx => ?_⟩
        · cases hl
          exact hv.contains
        · cases hx
          exact newStub_new ..
    · refine ⟨hu.furnished.trans (newStub_furnished lane heu hu.contains fun r' l hl => ?_),
        fun x hx => ?_⟩
      · cases hl
      · cases hx
        exact newStub_new ..

theorem openLane_furnished (hs : Sound wild s) {endpoint : EndpointId} (e : Endpoint) (w : Worker)
    (lane : Category) (entries : List AddressEntry)
    (he : s.endpoints.contains endpoint = true) :
    Furnished wild s (s.openLane endpoint e w lane entries).1 ∧
    ∀ c, (s.openLane endpoint e w lane entries).2 = .ok c →
      (s.openLane endpoint e w lane entries).1.isLive c.ref = true ∧
      ∀ x, c = .stub x → NewStub (s.openLane endpoint e w lane entries).1 endpoint lane x := by
  unfold openLane
  split
  · exact ⟨⟨.refl, rfl, rfl⟩, fun c hc => by cases hc⟩
  · rename_i r hr
    split
    · exact ⟨⟨.refl, rfl, rfl⟩, fun c hc => by cases hc⟩
    · rename_i i hi
      split
      · obtain ⟨furnished, new⟩ := openStub_furnished hs e w lane r.interface entries he
        split
        · rename_i v x h
          rw [h] at furnished new
          refine ⟨furnished, fun c hc => ?_⟩
          cases hc
          obtain ⟨t, here, rest⟩ := new x rfl
          refine ⟨Table.contains_of_get? here, fun y hy => ?_⟩
          cases hy
          exact ⟨t, here, rest⟩
        · rename_i v why h
          rw [h] at furnished
          exact ⟨furnished, fun c hc => by cases hc⟩
      · simp only
        split
        · exact ⟨⟨.refl, rfl, rfl⟩, fun c hc => by cases hc⟩
        · rename_i entry hentry
          obtain ⟨why, h⟩ | ⟨u, l, hu, h⟩ :=
            s.openConnectedLink_cases r.interface entry.deviceAddress entry.interfaceAddress
          · simp only [h]
            exact ⟨⟨.refl, rfl, rfl⟩, fun c hc => by cases hc⟩
          · simp only [h]
            refine ⟨hu.furnished, fun c hc => ?_⟩
            cases hc
            exact ⟨hu.contains, fun x hx => by cases hx⟩

/-- The lanes of an endpoint that has not sent anything are opened by moves. -/
theorem openLanes_moves (hs : Sound wild s) {endpoint : EndpointId} (entries : List AddressEntry)
    (lanes : List Category)
    (unsent : ∀ h messageId payload, .sent h endpoint messageId payload ∉ s.trace) :
    Moves wild s (s.openLanes endpoint entries lanes).1 := by
  induction lanes generalizing s with
  | nil => exact .refl
  | cons lane lanes ih =>
    unfold openLanes
    split
    · exact .refl
    · rename_i e he
      split
      · exact .refl
      · rename_i w hw
        obtain ⟨furnished, new⟩ :=
          openLane_furnished hs e w lane entries (Table.contains_of_get? he)
        split
        · rename_i v why h
          rw [h] at furnished
          exact furnished.moves
        · rename_i v c h
          rw [h] at furnished new
          obtain ⟨live, own⟩ := new c rfl
          have he' : v.endpoints.get? endpoint = some e := furnished.endpoints ▸ he
          have unsent' := furnished.trace.symm ▸ unsent
          have installed : Moves wild s (v.setSlots endpoint (installLane e lane c)) :=
            furnished.moves.trans
              (Moves.wire (.install endpoint e lane c he' live own unsent'))
          exact installed.trans (ih (hs.moves installed) unsent')

/-- Endpoints live on while lanes are opened. -/
theorem openLanes_contains (hs : Sound wild s) (endpoint : EndpointId)
    (entries : List AddressEntry) (lanes : List Category)
    (unsent : ∀ h messageId payload, .sent h endpoint messageId payload ∉ s.trace)
    (e : EndpointId) :
    (s.openLanes endpoint entries lanes).1.endpoints.contains e = s.endpoints.contains e := by
  induction lanes generalizing s with
  | nil => rfl
  | cons lane lanes ih =>
    unfold openLanes
    split
    · rfl
    · rename_i ep he
      split
      · rfl
      · rename_i w hw
        obtain ⟨furnished, new⟩ : Furnished wild s _ ∧ _ :=
          openLane_furnished hs ep w lane entries (Table.contains_of_get? he)
        split
        · rename_i v why h
          rw [h] at furnished
          exact congrArg (Table.contains · e) furnished.endpoints
        · rename_i v c h
          rw [h] at furnished new
          obtain ⟨live, own⟩ := new c rfl
          have he' : v.endpoints.get? endpoint = some ep := furnished.endpoints ▸ he
          have unsent' := furnished.trace.symm ▸ unsent
          have installed : Moves wild s (v.setSlots endpoint (installLane ep lane c)) :=
            furnished.moves.trans
              (Moves.wire (.install endpoint ep lane c he' live own unsent'))
          rw [ih (hs.moves installed) unsent', setSlots, Table.contains_modify]
          exact congrArg (Table.contains · e) furnished.endpoints

end Wiring.Network
