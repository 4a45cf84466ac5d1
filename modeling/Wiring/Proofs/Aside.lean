import Mathlib
import Wiring.Network.Operations
import Wiring.Proofs.Sound

/-!
# What goes on aside

Messages, credits, destinations, handlers, callbacks and events come and go without a change of
what is held, carried or counted.
-/
namespace Wiring.Network

variable {s t u : Network} {wild : Prop}

namespace Aside

theorem refl (s : Network) : Aside s s where
  interfaces _ h := h
  callbacks _ h := h
  linksNext := rfl
  queues _ := rfl
  stubs := rfl
  endpoints := rfl
  workersNext := rfl
  books _ := rfl
  registriesNext := le_rfl
  registered _ _ _ := rfl
  unregistered _ _ := le_rfl
  gates := rfl
  handles := rfl
  held := rfl
  holds := rfl
  agenda := rfl
  trace := ⟨[], by simp, by simp⟩

theorem trans (h : Aside s t) (g : Aside t u) : Aside s u where
  interfaces i hi := g.interfaces i (h.interfaces i hi)
  callbacks c hc := g.callbacks c (h.callbacks c hc)
  linksNext := g.linksNext.trans h.linksNext
  queues l := (g.queues l).trans (h.queues l)
  stubs := g.stubs.trans h.stubs
  endpoints := g.endpoints.trans h.endpoints
  workersNext := g.workersNext.trans h.workersNext
  books w := (g.books w).trans (h.books w)
  registriesNext := h.registriesNext.trans g.registriesNext
  registered r x hx := (g.registered r x (h.stubs ▸ hx)).trans (h.registered r x hx)
  unregistered r x := (g.unregistered r x).trans (h.unregistered r x)
  gates := g.gates.trans h.gates
  handles := g.handles.trans h.handles
  held := g.held.trans h.held
  holds := g.holds.trans h.holds
  agenda := g.agenda.trans h.agenda
  trace := by
    obtain ⟨marks, ht, hm⟩ := h.trace
    obtain ⟨marks', hu, hm'⟩ := g.trace
    refine ⟨marks ++ marks', by simp [hu, ht], fun x hx => ?_⟩
    obtain hx | hx := List.mem_append.1 hx
    · exact hm x hx
    · exact hm' x hx

/-- The agenda plays no part. -/
theorem withAgenda (h : Aside s t) (agenda : List Job) :
    Aside { s with agenda } { t with agenda } :=
  { h with agenda := rfl }

theorem noteAll (s : Network) {marks : List Happening} (h : ∀ x ∈ marks, x.isPlain = true) :
    Aside s (s.noteAll marks) :=
  { refl s with trace := ⟨marks, rfl, h⟩ }

theorem note (s : Network) {x : Happening} (h : x.isPlain = true) : Aside s (s.note x) := by
  rw [note_eq]
  exact noteAll s (by simpa using h)

theorem setInterface {i : InterfaceId} {x : Interface} (here : s.interfaces.get? i = some x)
    (y : Interface) : Aside s { s with interfaces := s.interfaces.set i y } :=
  { refl s with interfaces := fun k hk => (Table.contains_set here y k).trans hk }

theorem modifyInterface (s : Network) (i : InterfaceId) (f : Interface → Interface) :
    Aside s { s with interfaces := s.interfaces.modify i f } :=
  { refl s with interfaces := fun k hk => (Table.contains_modify _ _ _ k).trans hk }

theorem setLink {l : LinkId} {lk lk' : Link} (here : s.links.get? l = some lk)
    (queue : lk'.queue = lk.queue) : Aside s { s with links := s.links.set l lk' } := by
  refine { refl s with linksNext := Table.next_set _ _ _, queues := fun k => ?_ }
  rw [Table.get?_set_of here]
  split
  · subst k
    simp [here, queue]
  · rfl

theorem modifyLink (s : Network) (l : LinkId) {f : Link → Link}
    (queue : ∀ lk, (f lk).queue = lk.queue) :
    Aside s { s with links := s.links.modify l f } := by
  refine { refl s with linksNext := Table.next_modify _ _ _, queues := fun k => ?_ }
  rw [Table.get?_modify]
  split
  · cases s.links.get? k with
    | none => rfl
    | some lk => simp [queue]
  · rfl

theorem modifyWorker (s : Network) (w : WorkerId) {f : Worker → Worker}
    (books : ∀ wk, (f wk).books = wk.books) :
    Aside s { s with workers := s.workers.modify w f } := by
  refine { refl s with workersNext := Table.next_modify _ _ _, books := fun k => ?_ }
  rw [Table.get?_modify]
  split
  · cases s.workers.get? k with
    | none => rfl
    | some wk => simp [books]
  · rfl

/-- Stubs are not concerned with the registrations of callbacks. -/
theorem setRegistry (s : Network) (id : RegistryId) {r : Registry}
    (same : ∀ x, s.stubs.contains x = true → r.count (.stub x) = s.registrations id (.stub x))
    (less : ∀ x, r.count (.stub x) ≤ s.registrations id (.stub x)) :
    Aside s { s with registries := s.registries.set id r } := by
  refine { refl s with
    registriesNext := (Table.next_set _ _ _).ge
    registered := fun i x hx => ?_
    unregistered := fun i x => ?_ }
  · simp only [registrations_eq] at same ⊢
    by_cases hid : id < s.registries.next
    · rw [registered_set hid]
      split
      · subst i
        exact same x hx
      · rfl
    · rw [registered_set_out hid]
  · simp only [registrations_eq] at less ⊢
    by_cases hid : id < s.registries.next
    · rw [registered_set hid]
      split
      · subst i
        exact less x
      · exact le_rfl
    · rw [registered_set_out hid]

theorem registerCallback (s : Network) (id : RegistryId) (c : CallbackId) :
    Aside s (s.register id (.callback c)).1 := by
  have (x : StubId) : ((s.registry id).add (.callback c) (s.isLive (.callback c))).1.count (.stub x)
      = s.registrations id (.stub x) := Registry.count_add_ne _ _ (by simp)
  exact setRegistry s id (fun x _ => this x) fun x => (this x).le

theorem unregisterCallback (s : Network) (id : RegistryId) (c : CallbackId) :
    Aside s (s.unregister id (.callback c)).1 := by
  have (x : StubId) : ((s.registry id).remove (.callback c)).1.count (.stub x)
      = s.registrations id (.stub x) := Registry.count_remove_ne _ (by simp)
  exact setRegistry s id (fun x _ => this x) fun x => (this x).le

/-- Pruning keeps the registrations of what lives. -/
theorem prune (s : Network) (id : RegistryId) : Aside s (s.prune id) := by
  refine { refl s with
    registriesNext := (Table.next_modify _ _ _).ge
    registered := fun i x hx => ?_
    unregistered := fun i x => ?_ }
  · simp only [registrations_eq, Network.registered, Network.prune, Table.get?_modify]
    split
    · cases s.registries.get? i with
      | none => rfl
      | some r =>
        have := Registry.lookup_filter r (fun y => s.isLive y.ref) (.stub x)
        simp only [Option.map_some, Option.getD_some, Registry.count]
        rw [this, if_pos (by exact hx)]
    · rfl
  · simp only [registrations_eq, Network.registered, Network.prune, Table.get?_modify]
    split
    · cases s.registries.get? i with
      | none => exact le_rfl
      | some r =>
        have := Registry.lookup_filter r (fun y => s.isLive y.ref) (.stub x)
        simp only [Option.map_some, Option.getD_some, Registry.count]
        rw [this]
        split
        · exact le_rfl
        · exact Nat.zero_le _
    · exact le_rfl

end Aside

/-! ## Sending -/

/-- The network after a link has put a message into an inbox for one of its credits. -/
inductive Transmitted (s : Network) (l : LinkId) (messageId : UInt8) (payload : Bytes)
    (source : Option HandleId) : Network → Prop
  | intro (lk : Link) (credits : Nat) (dest : InterfaceId) (f : Interface)
      (here : s.links.get? l = some lk) (credit : lk.credits = credits + 1)
      (leads : lk.dest = some dest) (there : s.interfaces.get? dest = some f) :
      Transmitted s l messageId payload source { s with
        links := s.links.set l { lk with credits }
        interfaces := s.interfaces.set dest
          { f with inbox := f.inbox ++ [⟨messageId, payload, l⟩] }
        trace := s.trace.push (.accepted l dest messageId payload source) }

/-- A link refuses a message and changes nothing, or puts it into an inbox. -/
theorem transmit_transmitted (s : Network) (l : LinkId) (messageId : UInt8) (payload : Bytes)
    (source : Option HandleId) :
    (∃ why, s.transmit l messageId payload source = (s, .error why)) ∨
    ∃ t, Transmitted s l messageId payload source t ∧
      s.transmit l messageId payload source = (t, .ok ()) := by
  unfold transmit
  split
  · exact .inl ⟨_, rfl⟩
  · rename_i lk here
    split
    · exact .inl ⟨_, rfl⟩
    · rename_i dest leads
      split
      · exact .inl ⟨_, rfl⟩
      · exact .inl ⟨_, rfl⟩
      · rename_i f credits there credit
        exact .inr ⟨_, .intro lk credits dest f here credit leads there, rfl⟩

theorem sendBulk_transmitted (s : Network) (l : LinkId) (messageId : UInt8) (payload : Bytes)
    (source : Option HandleId) :
    (∃ why, s.sendBulk l messageId payload source = (s, .error why)) ∨
    ∃ t, Transmitted s l messageId payload source t ∧
      s.sendBulk l messageId payload source = (t, .ok ()) := by
  unfold sendBulk
  split
  · exact .inl ⟨_, rfl⟩
  · unfold sendWithin
    split
    · exact .inl ⟨_, rfl⟩
    · split
      · exact .inl ⟨_, rfl⟩
      · exact s.transmit_transmitted l messageId payload source

theorem sendShort_transmitted (s : Network) (l : LinkId) (messageId : UInt8) (header : UInt64)
    (payload : Bytes) :
    (∃ why, s.sendShort l messageId header payload = (s, .error why)) ∨
    ∃ t, Transmitted s l messageId (Bytes.word header ++ payload) none t ∧
      s.sendShort l messageId header payload = (t, .ok ()) := by
  unfold sendShort
  split
  · exact .inl ⟨_, rfl⟩
  · unfold sendWithin
    split
    · exact .inl ⟨_, rfl⟩
    · split
      · exact .inl ⟨_, rfl⟩
      · exact s.transmit_transmitted l messageId (Bytes.word header ++ payload) none

/-- Nothing is changed but messages and credits. -/
theorem Transmitted.aside {l : LinkId} {messageId : UInt8} {payload : Bytes}
    {source : Option HandleId} (h : Transmitted s l messageId payload source t) :
    ∃ dest u, Aside s u ∧ t = u.note (.accepted l dest messageId payload source) := by
  cases h with
  | intro lk credits dest f here credit leads there =>
    have taken : Aside s { s with links := s.links.set l { lk with credits } } :=
      Aside.setLink here rfl
    exact ⟨dest, _, taken.trans (Aside.setInterface (by exact there) _), rfl⟩

theorem transmit_cases (s : Network) (l : LinkId) (messageId : UInt8) (payload : Bytes)
    (source : Option HandleId) :
    (∃ why, s.transmit l messageId payload source = (s, .error why)) ∨
    ∃ dest u, Aside s u ∧ s.transmit l messageId payload source =
      (u.note (.accepted l dest messageId payload source), .ok ()) := by
  rcases s.transmit_transmitted l messageId payload source with refused | ⟨t, sent, h⟩
  · exact .inl refused
  · rcases sent.aside with ⟨dest, u, aside, rfl⟩
    exact .inr ⟨dest, u, aside, h⟩

theorem sendWithin_cases (s : Network) (l : LinkId) (check : Outcome) (limit : Nat)
    (messageId : UInt8) (payload : Bytes) (source : Option HandleId) :
    (∃ why, s.sendWithin l check limit messageId payload source = (s, .error why)) ∨
    ∃ dest u, Aside s u ∧ s.sendWithin l check limit messageId payload source =
      (u.note (.accepted l dest messageId payload source), .ok ()) := by
  unfold sendWithin
  split
  · exact .inl ⟨_, rfl⟩
  · split
    · exact .inl ⟨_, rfl⟩
    · exact s.transmit_cases l messageId payload source

theorem sendBulk_cases (s : Network) (l : LinkId) (messageId : UInt8) (payload : Bytes)
    (source : Option HandleId) :
    (∃ why, s.sendBulk l messageId payload source = (s, .error why)) ∨
    ∃ dest u, Aside s u ∧ s.sendBulk l messageId payload source =
      (u.note (.accepted l dest messageId payload source), .ok ()) := by
  unfold sendBulk
  split
  · exact .inl ⟨_, rfl⟩
  · exact s.sendWithin_cases ..

theorem Aside.sendShort (s : Network) (l : LinkId) (messageId : UInt8) (header : UInt64)
    (payload : Bytes) : Aside s (s.sendShort l messageId header payload).1 := by
  unfold Network.sendShort
  split
  · exact .refl s
  · rename_i lk hl
    obtain ⟨why, h⟩ | ⟨dest, u, hu, h⟩ := s.sendWithin_cases l
      (require lk.settings .shortMessages "am_short") lk.settings.maxShort messageId
      (Bytes.word header ++ payload) none
    · rw [h]
      exact .refl s
    · rw [h]
      exact hu.trans (.note u rfl)

/-- A carrier refuses a message, or its link puts it into an inbox, or a stub holds it off. -/
theorem sendOver_cases (s : Network) (c : Carrier) (messageId : UInt8) (payload : Bytes)
    (source : Option HandleId) :
    (messageId ≠ Signal.messageId ∧ (∃ id, c = .stub id) ∧
      s.sendOver c messageId payload source = (s, none)) ∨
    (∃ why, s.sendOver c messageId payload source = (s, some (.error why))) ∨
    ∃ l dest u, Aside s u ∧ (messageId ≠ Signal.messageId → c = .link l) ∧
      s.sendOver c messageId payload source =
        (u.note (.accepted l dest messageId payload source), some (.ok ())) := by
  cases c with
  | link l =>
    obtain ⟨why, h⟩ | ⟨dest, u, hu, h⟩ := s.sendBulk_cases l messageId payload source
    · exact .inr (.inl ⟨why, by simp [sendOver, h]⟩)
    · exact .inr (.inr ⟨l, dest, u, hu, fun _ => rfl, by simp [sendOver, h]⟩)
  | stub id =>
    by_cases hm : messageId = Signal.messageId
    · subst hm
      cases hl : (s.stubs.get? id).bind Stub.signalLink with
      | none => exact .inr (.inl ⟨.notConnected, by simp [sendOver, hl]⟩)
      | some l =>
        obtain ⟨why, h⟩ | ⟨dest, u, hu, h⟩ := s.sendBulk_cases l Signal.messageId payload source
        · exact .inr (.inl ⟨why, by simp [sendOver, hl, h]⟩)
        · exact .inr (.inr ⟨l, dest, u, hu, fun h => absurd rfl h, by simp [sendOver, hl, h]⟩)
    · exact .inl ⟨hm, ⟨id, rfl⟩, by simp [sendOver, hm]⟩

end Wiring.Network
