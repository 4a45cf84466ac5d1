import Mathlib
import Wiring.Proofs.Lanes
import Wiring.Proofs.Table

/-!
# What is raised beside a network

Opening an endpoint raises links, stubs and the endpoint itself beside what was there before.
Nothing of that is touched, except that interfaces number their links. What is raised is idle, and
it hangs together: whatever of it lives is held by something, so that it can be taken down again
by letting go of the endpoint.
-/
namespace Wiring

/-- All of an interface but how many links it has numbered. -/
def Interface.unnumbered (i : Interface) : Interface := { i with linksOpened := 0 }

/-- Nothing of the link is in flight or waiting. -/
def Link.Idle (l : Link) : Prop := l.credits = l.settings.credits ∧ l.queue = []

namespace Network

variable {b s t u : Network} {ref : Ref} {new : List Ref}

/-! ## What was there before -/

/-- A network without what is raised in it and what is done there. -/
def ground (s : Network) : Network :=
  { s with
    interfaces := {}, links := {}, stubs := {}, endpoints := {}, gates := {}, handles := {}
    trace := #[], agenda := [], tally := 0 }

/-- Everything of a network is in another as it was. Numbers that were not given may mean anything
there, and there may be work to do. -/
structure Spares (s t : Network) : Prop where
  frame : t.ground = s.ground
  interfaces : ∀ i, (t.interfaces.get? i).map Interface.unnumbered =
    (s.interfaces.get? i).map Interface.unnumbered
  links : s.links.Keeps t.links
  stubs : s.stubs.Keeps t.stubs
  endpoints : s.endpoints.Keeps t.endpoints
  gates : s.gates.Keeps t.gates
  handles : s.handles.Keeps t.handles

/-- A number that was not given in a network. -/
def IsNew (s : Network) : Ref → Prop
  | .link l => s.links.next ≤ l
  | .stub x => s.stubs.next ≤ x
  | .endpoint e => s.endpoints.next ≤ e
  | _ => False

namespace Spares

theorem refl (s : Network) : Spares s s :=
  ⟨rfl, fun _ => rfl, .refl _, .refl _, .refl _, .refl _, .refl _⟩

theorem trans (h : Spares s t) (g : Spares t u) : Spares s u where
  frame := g.frame.trans h.frame
  interfaces i := (g.interfaces i).trans (h.interfaces i)
  links := h.links.trans g.links
  stubs := h.stubs.trans g.stubs
  endpoints := h.endpoints.trans g.endpoints
  gates := h.gates.trans g.gates
  handles := h.handles.trans g.handles

theorem workers (h : Spares s t) : t.workers = s.workers :=
  show t.ground.workers = s.ground.workers from congrArg Network.workers h.frame

theorem holds (h : Spares s t) : t.holds = s.holds :=
  show t.ground.holds = s.ground.holds from congrArg Network.holds h.frame

theorem callbacks (h : Spares s t) : t.callbacks = s.callbacks :=
  show t.ground.callbacks = s.ground.callbacks from congrArg Network.callbacks h.frame

theorem isNew (h : Spares s t) (fresh : IsNew t ref) : IsNew s ref := by
  cases ref with
  | link l => exact h.links.next.trans fresh
  | stub x => exact h.stubs.next.trans fresh
  | endpoint e => exact h.endpoints.next.trans fresh
  | _ => exact fresh

/-- What lives was there before, or its number is new. -/
theorem live_or_new (h : Spares s t) (live : t.isLive ref = true) :
    s.isLive ref = true ∨ IsNew s ref := by
  cases ref with
  | interface i =>
    have same := congrArg Option.isSome (h.interfaces i)
    simp only [Option.isSome_map] at same
    exact .inl (same.symm.trans live)
  | link l =>
    rcases Nat.lt_or_ge l s.links.next with old | new
    · simp only [isLive, Table.contains, h.links.same l old] at live
      exact .inl live
    · exact .inr new
  | stub x =>
    rcases Nat.lt_or_ge x s.stubs.next with old | new
    · simp only [isLive, Table.contains, h.stubs.same x old] at live
      exact .inl live
    · exact .inr new
  | endpoint e =>
    rcases Nat.lt_or_ge e s.endpoints.next with old | new
    · simp only [isLive, Table.contains, h.endpoints.same e old] at live
      exact .inl live
    · exact .inr new
  | worker w =>
    simp only [isLive, h.workers] at live
    exact .inl live
  | callback c =>
    simp only [isLive, h.callbacks] at live
    exact .inl live

/-- What was owned is owned by the same things. -/
theorem isOwned (h : Spares s t) (owned : s.isOwned ref = true) : t.isOwned ref = true := by
  apply isOwned_mono _ _ _ owned
  · intro w wk hw
    exact ⟨wk, h.workers ▸ hw, fun _ h => h, fun _ h => h⟩
  · intro e ep he
    exact ⟨ep, h.endpoints.get? he, fun _ h => h⟩
  · intro x st hx
    exact ⟨st, h.stubs.get? hx, fun _ h => h⟩

theorem isHeld (h : Spares s t) (agenda : ∀ j ∈ s.agenda, j ∈ t.agenda)
    (held : s.isHeld ref = true) : t.isHeld ref = true := by
  rcases isHeld_iff.1 held with held | planned | owned
  · exact isHeld_of_holds (h.holds ▸ held)
  · exact isHeld_of_release (agenda _ planned)
  · exact isHeld_of_owned (h.isOwned owned)

end Spares

/-- What lives was given its number. -/
theorem not_live_of_new (new : IsNew s ref) : s.isLive ref = false := by
  cases ref with
  | link l => simp [isLive, Table.contains, Table.get?_of_next_le new]
  | stub x => simp [isLive, Table.contains, Table.get?_of_next_le new]
  | endpoint e => simp [isLive, Table.contains, Table.get?_of_next_le new]
  | _ => cases new

/-! ## What is added -/

/-- What has come to a network is idle, and refers to what has come with it only. -/
structure Beside (s t : Network) : Prop extends Spares s t where
  idle : ∀ l lk, s.links.next ≤ l → t.links.get? l = some lk → lk.Idle
  empty : ∀ x st, s.stubs.next ≤ x → t.stubs.get? x = some st →
    st.parked = [] ∧ ∀ l, st.owns l → s.links.next ≤ l
  unmarked : ∀ x st, s.stubs.next ≤ x → t.stubs.get? x = some st → st.isConnected = false

theorem Beside.trans (h : Beside b s) (g : Beside s t) : Beside b t where
  toSpares := h.toSpares.trans g.toSpares
  idle l lk new here := by
    rcases Nat.lt_or_ge l s.links.next with old | later
    · rw [g.links.same l old] at here
      exact h.idle l lk new here
    · exact g.idle l lk later here
  empty x st new here := by
    rcases Nat.lt_or_ge x s.stubs.next with old | later
    · rw [g.stubs.same x old] at here
      exact h.empty x st new here
    · rcases g.empty x st later here with ⟨parked, own⟩
      exact ⟨parked, fun l hl => h.links.next.trans (own l hl)⟩
  unmarked x st new here := by
    rcases Nat.lt_or_ge x s.stubs.next with old | later
    · rw [g.stubs.same x old] at here
      exact h.unmarked x st new here
    · exact g.unmarked x st later here

/-- Links and stubs have come to a network, and nothing else has. -/
structure Adds (s t : Network) (new : List Ref) : Prop extends Beside s t where
  same : t.endpoints = s.endpoints ∧ t.agenda = s.agenda
  known : ∀ ref, IsNew s ref → t.isLive ref = true → ref ∈ new

namespace Adds

theorem refl (s : Network) : Adds s s [] where
  toSpares := .refl s
  idle l lk new here := absurd (Table.lt_next_of_get? here) (Nat.not_lt.2 new)
  empty x st new here := absurd (Table.lt_next_of_get? here) (Nat.not_lt.2 new)
  unmarked x st new here := absurd (Table.lt_next_of_get? here) (Nat.not_lt.2 new)
  same := ⟨rfl, rfl⟩
  known ref new live := absurd live (by simp [not_live_of_new new])

theorem newLink (h : Adds s t new) {owner : InterfaceId} {i : Interface}
    (here : t.interfaces.get? owner = some i) (dest : Option InterfaceId) :
    Adds s (t.newLink owner i dest).1 (.link (t.newLink owner i dest).2 :: new) where
  frame := h.frame
  interfaces k := by
    rw [← h.interfaces k]
    simp only [Network.newLink, Table.get?_set_of here]
    split
    · subst k
      rw [here]
      rfl
    · rfl
  links := h.links.push _
  stubs := h.stubs
  endpoints := h.endpoints
  gates := h.gates
  handles := h.handles
  idle l lk new here := by
    rcases Table.get?_of_push here with ⟨-, rfl⟩ | here
    · exact ⟨rfl, rfl⟩
    · exact h.idle l lk new here
  empty := h.empty
  unmarked := h.unmarked
  same := h.same
  known ref new live := by
    cases ref with
    | link l =>
      have live : (t.links.push _).contains l = true := live
      rw [Table.contains_push, Bool.or_eq_true, decide_eq_true_eq] at live
      rcases live with rfl | live
      · exact List.mem_cons_self
      · exact List.mem_cons_of_mem _ (h.known (.link l) new live)
    | interface | worker | callback => cases new
    | _ => exact List.mem_cons_of_mem _ (h.known _ new live)

theorem openLink (h : Adds s t new) (owner : InterfaceId) :
    (∃ why, t.openLink owner = (t, .error why)) ∨
    ∃ u l, Adds s u (.link l :: new) ∧ s.links.next ≤ l ∧ t.openLink owner = (u, .ok l) := by
  unfold Network.openLink
  split
  · exact .inl ⟨_, rfl⟩
  · rename_i i here
    split
    · exact .inl ⟨_, rfl⟩
    · exact .inr ⟨_, _, h.newLink here none, h.links.next, rfl⟩

theorem openConnectedLink (h : Adds s t new) (owner : InterfaceId) (device address : Bytes) :
    (∃ why, t.openConnectedLink owner device address = (t, .error why)) ∨
    ∃ u l, Adds s u (.link l :: new) ∧ s.links.next ≤ l ∧
      t.openConnectedLink owner device address = (u, .ok l) := by
  unfold Network.openConnectedLink
  split
  · exact .inl ⟨_, rfl⟩
  · rename_i i here
    split
    · exact .inl ⟨_, rfl⟩
    · rename_i dest hd
      exact .inr ⟨_, _, h.newLink here (some dest), h.links.next, rfl⟩

theorem openAuxiliary (h : Adds s t new) (w : Worker) (peer : String)
    (entries : List AddressEntry) (scorer : Scorer) :
    (∃ why, t.openAuxiliary w peer entries scorer = (t, .error why)) ∨
    ∃ u r l, Adds s u (.link l :: new) ∧ s.links.next ≤ l ∧
      t.openAuxiliary w peer entries scorer = (u, .ok (r, l)) := by
  unfold Network.openAuxiliary
  split
  · exact .inl ⟨_, rfl⟩
  · rename_i best hb
    split
    · rename_i r entry hr he
      rcases h.openConnectedLink r.interface entry.deviceAddress entry.interfaceAddress with
        ⟨why, refused⟩ | ⟨u, l, added, new, opened⟩
      · exact .inl ⟨.refused why, by rw [refused]⟩
      · exact .inr ⟨u, best.resource, l, added, new, by rw [opened]⟩
    · exact .inl ⟨_, rfl⟩

/-- A link that was added in vain is taken away again. -/
theorem retireLink {l : LinkId} (h : Adds s t (.link l :: new)) (fresh : s.links.next ≤ l) :
    Adds s (t.retireLink l) new := by
  unfold Network.retireLink
  cases here : t.links.get? l with
  | none =>
    refine { h with known := fun ref new live => ?_ }
    rcases List.mem_cons.1 (h.known ref new live) with rfl | known
    · simp [isLive, Table.contains, here] at live
    · exact known
  | some lk =>
    simp only [(h.idle l lk fresh here).2, List.foldl_nil]
    refine { h with links := h.links.erase fresh, idle := ?_, known := ?_ }
    · intro k lk' new hk
      exact h.idle k lk' new (Table.get?_of_erase hk)
    · intro ref new live
      have before : t.isLive ref = true ∧ ref ≠ .link l := by
        cases ref with
        | link k =>
          have live : (t.links.erase l).contains k = true := live
          rw [Table.contains_erase, Bool.and_eq_true, decide_eq_true_eq] at live
          exact ⟨live.2, fun same => live.1 (by cases same; rfl)⟩
        | _ => exact ⟨live, by simp⟩
      rcases List.mem_cons.1 (h.known ref new before.1) with same | known
      · exact absurd same before.2
      · exact known

theorem newStub (h : Adds s t new) (endpoint : EndpointId) (lane : Category) {next : LinkId}
    {auxiliary : Option (ResourceIndex × LinkId)} (fresh : s.links.next ≤ next)
    (fresh' : ∀ r l, auxiliary = some (r, l) → s.links.next ≤ l) :
    Adds s (t.newStub endpoint lane next auxiliary).1
      (.stub (t.newStub endpoint lane next auxiliary).2 :: new) where
  frame := h.frame
  interfaces := h.interfaces
  links := h.links
  stubs := h.stubs.push _
  endpoints := h.endpoints
  gates := h.gates.push _
  handles := h.handles
  idle := h.idle
  empty x st new here := by
    rcases Table.get?_of_push here with ⟨-, rfl⟩ | here
    · refine ⟨rfl, fun l owns => ?_⟩
      rcases owns with owns | owns | owns
      · cases owns
        exact fresh
      · rcases Option.map_eq_some_iff.1 owns with ⟨⟨r, k⟩, opened, rfl⟩
        exact fresh' r k opened
      · cases owns
    · exact h.empty x st new here
  unmarked x st new here := by
    rcases Table.get?_of_push here with ⟨-, rfl⟩ | here
    · rfl
    · exact h.unmarked x st new here
  same := h.same
  known ref new live := by
    cases ref with
    | stub x =>
      have live : (t.stubs.push _).contains x = true := live
      rw [Table.contains_push, Bool.or_eq_true, decide_eq_true_eq] at live
      rcases live with rfl | live
      · exact List.mem_cons_self
      · exact List.mem_cons_of_mem _ (h.known (.stub x) new live)
    | _ => exact List.mem_cons_of_mem _ (h.known _ new live)

end Adds

/-- A carrier has come to a network with the links that belong to it, and nothing else has. -/
def AddsCarrier (s t : Network) (c : Carrier) : Prop :=
  IsNew s c.ref ∧ ∃ new, Adds s t new ∧ ∀ ref ∈ new, ref = c.ref ∨ t.isOwned ref = true

/-- The links of a stub that was just opened are its own. -/
theorem newStub_owns (s : Network) (endpoint : EndpointId) (lane : Category) (next : LinkId)
    (auxiliary : Option (ResourceIndex × LinkId)) {l : LinkId}
    (own : l = next ∨ ∃ r, auxiliary = some (r, l)) :
    (s.newStub endpoint lane next auxiliary).1.isOwned (.link l) = true := by
  apply isOwned_iff.2
  have here : ∃ st, (s.newStub endpoint lane next auxiliary).1.stubs.get? s.stubs.next = some st ∧
      st.next = some next ∧ st.auxiliary = auxiliary.map Prod.snd :=
    ⟨_, by rw [newStub, Table.get?_push, if_pos rfl], rfl, rfl⟩
  rcases here with ⟨st, here, next', auxiliary'⟩
  refine .inr (.inr ⟨s.stubs.next, st, l, here, ?_, rfl⟩)
  rcases own with rfl | ⟨r, rfl⟩
  · exact .inl next'
  · exact .inr (.inl auxiliary')

theorem openStub_adds (s : Network) (endpoint : EndpointId) (e : Endpoint) (w : Worker)
    (lane : Category) (interface : InterfaceId) (entries : List AddressEntry) :
    (∃ u why, Adds s u [] ∧
      s.openStub endpoint e w lane interface entries = (u, .error why)) ∨
    ∃ u x, AddsCarrier s u (.stub x) ∧
      s.openStub endpoint e w lane interface entries = (u, .ok x) := by
  unfold openStub
  rcases (Adds.refl s).openLink interface with ⟨why, refused⟩ | ⟨t, next, added, fresh, opened⟩
  · simp only [refused]
    exact .inl ⟨s, _, .refl s, rfl⟩
  · simp only [opened]
    split
    · rcases added.openAuxiliary w e.peer entries .auxiliary with
        ⟨why, refused⟩ | ⟨u, r, l, added', fresh', opened'⟩
      · simp only [refused]
        exact .inl ⟨_, _, added.retireLink fresh, rfl⟩
      · simp only [opened']
        refine .inr ⟨_, _, ⟨added'.stubs.next, _, added'.newStub endpoint lane fresh ?_, ?_⟩, rfl⟩
        · rintro r' l' ⟨⟩
          exact fresh'
        · intro ref known
          simp only [List.mem_cons, List.not_mem_nil, or_false] at known
          rcases known with rfl | rfl | rfl
          · exact .inl rfl
          · exact .inr (newStub_owns _ _ _ _ _ (.inr ⟨r, rfl⟩))
          · exact .inr (newStub_owns _ _ _ _ _ (.inl rfl))
    · refine .inr ⟨_, _, ⟨added.stubs.next, _, added.newStub endpoint lane fresh ?_, ?_⟩, rfl⟩
      · rintro r' l' ⟨⟩
      · intro ref known
        simp only [List.mem_cons, List.not_mem_nil, or_false] at known
        rcases known with rfl | rfl
        · exact .inl rfl
        · exact .inr (newStub_owns _ _ _ _ _ (.inl rfl))

/-- A lane that cannot be opened leaves nothing behind. -/
theorem openLane_adds (s : Network) (endpoint : EndpointId) (e : Endpoint) (w : Worker)
    (lane : Category) (entries : List AddressEntry) :
    (∃ u why, Adds s u [] ∧ s.openLane endpoint e w lane entries = (u, .error why)) ∨
    ∃ u c, AddsCarrier s u c ∧ s.openLane endpoint e w lane entries = (u, .ok c) := by
  unfold openLane
  split
  · exact .inl ⟨s, _, .refl s, rfl⟩
  · rename_i r hr
    split
    · exact .inl ⟨s, _, .refl s, rfl⟩
    · rename_i i hi
      split
      · rcases s.openStub_adds endpoint e w lane r.interface entries with
          ⟨u, why, added, refused⟩ | ⟨u, x, added, opened⟩
        · exact .inl ⟨u, why, added, by rw [refused]⟩
        · exact .inr ⟨u, .stub x, added, by rw [opened]⟩
      · simp only
        split
        · exact .inl ⟨s, _, .refl s, rfl⟩
        · rename_i entry found
          rcases (Adds.refl s).openConnectedLink r.interface entry.deviceAddress
            entry.interfaceAddress with ⟨why, refused⟩ | ⟨u, l, added, fresh, opened⟩
          · exact .inl ⟨s, .refused why, .refl s, by rw [refused]⟩
          · refine .inr ⟨u, .link l, ⟨fresh, _, added, fun ref known => ?_⟩, by rw [opened]⟩
            exact .inl (List.mem_singleton.1 known)

/-! ## What is raised -/

/-- What has come to a network is idle, its endpoints hold nothing else, and whatever of it lives
is held. -/
structure Raised (b t : Network) : Prop extends Beside b t where
  carries : ∀ e ep, b.endpoints.next ≤ e → t.endpoints.get? e = some ep →
    ∀ c, ep.owns c → IsNew b c.ref
  secured : ∀ ref, IsNew b ref → t.isLive ref = true → t.isHeld ref = true

/-- An attempt to open a lane that has left nothing behind. -/
theorem Raised.adds (h : Raised b s) (g : Adds s t []) : Raised b t where
  toBeside := h.toBeside.trans g.toBeside
  carries e ep new here := by
    rw [g.same.1] at here
    exact h.carries e ep new here
  secured ref new live := by
    rcases g.live_or_new live with before | later
    · exact g.isHeld (fun j hj => g.same.2.symm ▸ hj) (h.secured ref new before)
    · cases g.known ref later live

/-- A carrier that comes into empty slots of a new endpoint secures what belongs to it. -/
theorem Raised.install (h : Raised b s) {c : Carrier} (g : AddsCarrier s t c) {e : EndpointId}
    {ep : Endpoint} {lane : Category} (new : b.endpoints.next ≤ e)
    (here : s.endpoints.get? e = some ep)
    (vacant : ∀ category, ep.plan.shares lane category = true → ep.slots.get category = none) :
    Raised b (t.setSlots e (installLane ep lane c)) := by
  rcases g with ⟨fresh, refs, added, known⟩
  have beside := h.toBeside.trans added.toBeside
  have here' : t.endpoints.get? e = some ep := by rw [added.same.1, here]
  have slots : (t.setSlots e (installLane ep lane c)).endpoints.get? e =
      some { ep with slots := installLane ep lane c } := by
    simp [setSlots, Table.get?_modify, here']
  have installed : (t.setSlots e (installLane ep lane c)).isOwned c.ref = true := by
    apply isOwned_iff.2
    refine .inr (.inl ⟨e, _, c, slots, Endpoint.owns_iff.2 ⟨lane, ?_⟩, rfl⟩)
    simp [installLane, Plan.shares]
  -- no slot that held something gets another carrier
  have grown {ref : Ref} (owned : t.isOwned ref = true) :
      (t.setSlots e (installLane ep lane c)).isOwned ref = true := by
    apply isOwned_mono _ _ _ owned
    · intro w wk hw
      exact ⟨wk, hw, fun _ h => h, fun _ h => h⟩
    · intro e' ep' he
      by_cases same : e = e'
      · subst e'
        cases here'.symm.trans he
        refine ⟨_, slots, fun c' owns => ?_⟩
        rcases Endpoint.owns_iff.1 owns with ⟨category, slot⟩
        refine Endpoint.owns_iff.2 ⟨category, ?_⟩
        have apart : ep.plan.shares lane category ≠ true := by
          intro shared
          rw [vacant category shared] at slot
          cases slot
        simp [installLane, apart, slot]
      · refine ⟨ep', ?_, fun _ h => h⟩
        simp [setSlots, Table.get?_modify, same, he]
    · intro x st hx
      exact ⟨st, hx, fun _ h => h⟩
  exact {
    frame := beside.frame
    interfaces := beside.interfaces
    links := beside.links
    stubs := beside.stubs
    endpoints := beside.endpoints.modify new _
    gates := beside.gates
    handles := beside.handles
    idle := beside.idle
    empty := beside.empty
    unmarked := beside.unmarked
    carries := by
      intro e' ep' new' he c' owns
      by_cases same : e = e'
      · subst e'
        cases slots.symm.trans he
        rcases Endpoint.owns_iff.1 owns with ⟨category, slot⟩
        simp only [installLane, PerCategory.get_mapWith] at slot
        split at slot
        · cases slot
          exact h.isNew fresh
        · exact h.carries e ep new here c' (Endpoint.owns_iff.2 ⟨category, slot⟩)
      · simp only [setSlots, Table.get?_modify, if_neg same, added.same.1] at he
        exact h.carries e' ep' new' he c' owns
    secured := by
      intro ref new' live
      have live : t.isLive ref = true := by
        cases ref <;> simpa [isLive, setSlots] using live
      rcases added.live_or_new live with before | later
      · rcases isHeld_iff.1 (added.isHeld (fun j hj => added.same.2.symm ▸ hj)
          (h.secured ref new' before)) with held | planned | owned
        · exact isHeld_of_holds held
        · exact isHeld_of_release planned
        · exact isHeld_of_owned (grown owned)
      · rcases known ref (added.known ref later live) with rfl | owned
        · exact isHeld_of_owned installed
        · exact isHeld_of_owned (grown owned) }

end Network

end Wiring
