import Mathlib
import Wiring.Proofs.Deeds

/-!
# The veil over the links of a stub

Until a stub is switched over its links are its own: nothing else names them. They carry signals
only, and what waits in their queues is covered by the gate of the stub. The link that is being
wired up carries nothing before both sides have connected.
-/
namespace Wiring

/-- The links that the stub keeps to itself. -/
def Stub.Owns (st : Stub) (l : LinkId) : Prop := st.next = some l ∨ st.auxiliary = some l

theorem Stub.owns_signalLink (st : Stub) {l : LinkId} (h : st.signalLink = some l) : st.Owns l := by
  unfold signalLink at h
  split at h
  · exact .inl h
  · exact .inr h

/-- The request is covered by the gate. -/
def Request.CoveredBy (r : Request) (g : GateId) : Prop := ∃ inner, r = .counted g inner

/-- What is hidden in a network: the links given so far, those that a stub with a gate keeps to
itself, and those among them that are not to be used yet. -/
structure Veil where
  given : Nat
  hidden : LinkId → GateId → Prop
  unused : LinkId → Prop

namespace Veil

variable {V W : Veil}

/-- What was given before is hidden and unused later only if it was so before. -/
structure Later (V W : Veil) : Prop where
  given : V.given ≤ W.given
  hidden : ∀ l < V.given, ∀ g, W.hidden l g → V.hidden l g
  unused : ∀ l < V.given, W.unused l → V.unused l

/-- Traffic may go over the link if every gate that hides it allows so. -/
structure Bears (V : Veil) (l : LinkId) (allows : GateId → Prop) : Prop where
  given : l < V.given
  sealed : ∀ g, V.hidden l g → allows g
  used : ¬V.unused l

/-- Everyone may name the carrier. -/
def Shows (V : Veil) : Carrier → Prop
  | .link l => l < V.given ∧ (∀ g, ¬V.hidden l g) ∧ ¬V.unused l
  | .stub _ => True

/-- The script of a request names nothing hidden. -/
def Admits (V : Veil) (r : Request) : Prop :=
  ∀ c send, r.inner? = some (.scripted c) → c.sending = some send → V.Shows send.carrier

def AdmitsHandler (V : Veil) : Handler → Prop
  | .record _ forward _ => ∀ c, forward = some c → V.Shows c
  | .signals _ => True

/-- What waits for a request may get it back. -/
def Awaits (V : Veil) (r : Request) : Waiter → Prop
  | .queue l => V.Bears l r.CoveredBy
  | .retry c => V.Shows c
  | _ => True

def AdmitsJob (V : Veil) : Job → Prop
  | .attempt r w | .conclude r _ w => V.Admits r ∧ V.Awaits r w
  | .add c r => V.Shows c ∧ V.Admits r
  | .handle h _ => V.AdmitsHandler h
  | _ => True

namespace Later

theorem refl (V : Veil) : Later V V := ⟨le_rfl, fun _ _ _ h => h, fun _ _ h => h⟩

theorem trans {X : Veil} (h : Later V W) (g : Later W X) : Later V X where
  given := h.given.trans g.given
  hidden l small k hidden := h.hidden l small k (g.hidden l (small.trans_le h.given) k hidden)
  unused l small unused := h.unused l small (g.unused l (small.trans_le h.given) unused)

variable (h : Later V W)

include h

theorem bears {l : LinkId} {allows : GateId → Prop} (hl : V.Bears l allows) : W.Bears l allows where
  given := hl.given.trans_le h.given
  sealed g hidden := hl.sealed g (h.hidden l hl.given g hidden)
  used unused := hl.used (h.unused l hl.given unused)

theorem shows {c : Carrier} (hc : V.Shows c) : W.Shows c := by
  cases c with
  | link l =>
    rcases hc with ⟨given, open_, used⟩
    exact ⟨given.trans_le h.given, fun g hidden => open_ g (h.hidden l given g hidden),
      fun unused => used (h.unused l given unused)⟩
  | stub x => trivial

theorem admits {r : Request} (hr : V.Admits r) : W.Admits r := fun c send inner sending =>
  h.shows (hr c send inner sending)

theorem admitsHandler {handler : Handler} (hh : V.AdmitsHandler handler) :
    W.AdmitsHandler handler := by
  cases handler with
  | record log forward decode => exact fun c hc => h.shows (hh c hc)
  | signals w => trivial

theorem awaits {r : Request} {w : Waiter} (hw : V.Awaits r w) : W.Awaits r w := by
  cases w with
  | queue l => exact h.bears hw
  | retry c => exact h.shows hw
  | _ => trivial

theorem admitsJob {j : Job} (hj : V.AdmitsJob j) : W.AdmitsJob j := by
  cases j with
  | attempt r w => exact ⟨h.admits hj.1, h.awaits hj.2⟩
  | conclude r o w => exact ⟨h.admits hj.1, h.awaits hj.2⟩
  | add c r => exact ⟨h.shows hj.1, h.admits hj.2⟩
  | handle handler m => exact h.admitsHandler hj
  | _ => trivial

end Later

theorem Bears.of_shows {l : LinkId} (h : V.Shows (.link l)) (allows : GateId → Prop) :
    V.Bears l allows := ⟨h.1, fun g hidden => absurd hidden (h.2.1 g), h.2.2⟩

theorem admitsJob_of_bare {j : Job} (bare : j.isBare = true) : V.AdmitsJob j := by
  cases j with
  | attempt r w => cases bare
  | conclude r o w => cases bare
  | add c r => cases bare
  | handle h m => cases bare
  | _ => trivial

end Veil

/-! ## Requests -/

namespace Request

theorem isSignal_unfinished (r : Request) : r.unfinished.isSignal = r.isSignal := by
  cases r <;> rfl

theorem CoveredBy.isSignal {r : Request} {g : GateId} (h : r.CoveredBy g) : r.isSignal = true := by
  rcases h with ⟨inner, rfl⟩
  rfl

theorem CoveredBy.unfinished {r : Request} {g : GateId} (h : r.CoveredBy g) :
    r.unfinished.CoveredBy g := by
  rcases h with ⟨inner, rfl⟩
  exact ⟨inner.unfinished, rfl⟩

theorem CoveredBy.taken {r : Request} {g : GateId} (h : r.CoveredBy g) : r.taken.CoveredBy g := by
  rcases h with ⟨inner, rfl⟩
  unfold Request.taken
  split
  · exact ⟨_, rfl⟩
  · exact ⟨inner, rfl⟩

theorem isSignal_withInner {r : Request} {c c' : Script} (h : r.inner? = some (.scripted c))
    (same : c'.wireup = c.wireup) : (withInner (.scripted c') r).isSignal = r.isSignal := by
  cases r with
  | scripted c'' =>
    cases h
    exact same
  | send m => cases h
  | counted g inner => rfl
  | spent g => cases h

theorem isSignal_taken (r : Request) : r.taken.isSignal = r.isSignal := by
  unfold taken
  rcases r.inner?_cases with ⟨c, h⟩ | ⟨m, h⟩ | h
  · simp only [h]
    refine isSignal_withInner h ?_
    unfold Script.take
    split <;> rfl
  · simp only [h]
  · simp only [h]

theorem inner?_taken {r : Request} {c' : Script} (h : r.taken.inner? = some (.scripted c')) :
    ∃ c, r.inner? = some (.scripted c) ∧ c'.sending = c.sending := by
  unfold taken at h
  rcases r.inner?_cases with ⟨c, hc⟩ | ⟨m, hm⟩ | none
  · simp only [hc, inner?_withInner hc] at h
    cases h
    exact ⟨c, hc, Network.take_sending c⟩
  · simp only [hm] at h
    cases h
  · simp only [none] at h
    cases h

theorem inner?_unfinished {r : Request} {c' : Script}
    (h : r.unfinished.inner? = some (.scripted c')) :
    ∃ c, r.inner? = some (.scripted c) ∧ c'.sending = c.sending := by
  induction r with
  | scripted c =>
    cases h
    exact ⟨c, rfl, rfl⟩
  | send m => cases h
  | counted g inner ih => exact ih h
  | spent g => cases h

theorem inner?_finished {r : Request} {c' : Script} (h : r.finished.inner? = some (.scripted c')) :
    ∃ c, r.inner? = some (.scripted c) ∧ c'.sending = c.sending := by
  cases r with
  | scripted c =>
    cases h
    exact ⟨c, rfl, rfl⟩
  | _ => cases h

end Request

namespace Veil

variable {V : Veil} {r r' : Request}

/-- What follows the script of a request names no more than the request does. -/
theorem Admits.heir (h : V.Admits r) (heir : ∀ c', r'.inner? = some (.scripted c') →
    ∃ c, r.inner? = some (.scripted c) ∧ c'.sending = c.sending) : V.Admits r' := by
  intro c' send inner sending
  rcases heir c' inner with ⟨c, inner, same⟩
  exact h c send inner (same ▸ sending)

theorem Admits.taken (h : V.Admits r) : V.Admits r.taken := h.heir fun _ => Request.inner?_taken

theorem Admits.unfinished (h : V.Admits r) : V.Admits r.unfinished :=
  h.heir fun _ => Request.inner?_unfinished

theorem Admits.finished (h : V.Admits r) : V.Admits r.finished :=
  h.heir fun _ => Request.inner?_finished

theorem Admits.covered (h : V.Admits r) (covered : r' = r ∨ (r.isSignal = true ∧
    ∃ g, r' = .counted g r)) : V.Admits r' := by
  rcases covered with rfl | ⟨-, g, rfl⟩
  · exact h
  · exact h

theorem Bears.unfinished {l : LinkId} (h : V.Bears l r.CoveredBy) :
    V.Bears l r.unfinished.CoveredBy :=
  ⟨h.given, fun g hidden => (h.sealed g hidden).unfinished, h.used⟩

theorem admits_send (m : Send) : V.Admits (.send m) := fun c send inner => by cases inner

theorem Awaits.taken {w : Waiter} (h : V.Awaits r w) : V.Awaits r.taken w := by
  cases w with
  | queue l => exact ⟨h.given, fun g hidden => (h.sealed g hidden).taken, h.used⟩
  | _ => exact h

end Veil

/-! ## What is veiled -/

namespace Traffic

variable {s t u : Traffic} {V W : Veil}

def veil (s : Traffic) : Veil where
  given := s.links.next
  hidden l g := ∃ x st, s.stubs.get? x = some st ∧ st.Owns l ∧ st.gate = g
  unused l := ∃ x st, s.stubs.get? x = some st ∧ st.next = some l ∧ st.isConnected = false

/-- Every stub has links of its own, and two of them. -/
structure Proper (s : Traffic) : Prop where
  given : ∀ x st l, s.stubs.get? x = some st → st.Owns l → l < s.links.next
  own : ∀ x y st st' l, s.stubs.get? x = some st → s.stubs.get? y = some st' → st.Owns l →
    st'.Owns l → x = y
  apart : ∀ x st l, s.stubs.get? x = some st → st.next = some l → st.auxiliary ≠ some l

/-- Whatever goes over a link, and whatever names one, respects the veil. -/
structure Covered (V : Veil) (s : Traffic) : Prop where
  queued : ∀ l lk, s.links.get? l = some lk → ∀ r ∈ lk.queue,
    V.Bears l r.CoveredBy ∧ V.Admits r
  parked : ∀ x st, s.stubs.get? x = some st → ∀ r ∈ st.parked, r.isSignal = false ∧ V.Admits r
  promoted : ∀ x st l, s.stubs.get? x = some st → st.promoted = some l → V.Shows (.link l)
  slots : ∀ e ep category c, s.endpoints.get? e = some ep → ep.slots.get category = some c →
    V.Shows c
  held : ∀ h r, s.held.get? h = some r → V.Admits r
  arrived : ∀ i f, s.interfaces.get? i = some f → ∀ m ∈ f.inbox,
    V.Bears m.sender fun _ => m.id = Signal.messageId
  handlers : ∀ i f, s.interfaces.get? i = some f → ∀ entry ∈ f.handlers, V.AdmitsHandler entry.2
  jobs : ∀ j ∈ s.agenda, V.AdmitsJob j
  accepted : ∀ l dest messageId payload source,
    .accepted l dest messageId payload source ∈ s.trace →
      V.Bears l fun _ => messageId = Signal.messageId

structure Veiled (s : Traffic) : Prop extends Proper s where
  covered : Covered s.veil s

theorem Covered.later (hs : Covered V s) (h : V.Later W) : Covered W s where
  queued l lk here r hr := ⟨h.bears (hs.queued l lk here r hr).1, h.admits (hs.queued l lk here r hr).2⟩
  parked x st here r hr := ⟨(hs.parked x st here r hr).1, h.admits (hs.parked x st here r hr).2⟩
  promoted x st l here hl := h.shows (hs.promoted x st l here hl)
  slots e ep category c here hc := h.shows (hs.slots e ep category c here hc)
  held k r here := h.admits (hs.held k r here)
  arrived i f here m hm := h.bears (hs.arrived i f here m hm)
  handlers i f here entry hentry := h.admitsHandler (hs.handlers i f here entry hentry)
  jobs j hj := h.admitsJob (hs.jobs j hj)
  accepted l dest messageId payload source h' :=
    h.bears (hs.accepted l dest messageId payload source h')

/-- Stubs may go, give up links and be connected; no stub gets a link. -/
structure Sheds (s t : Traffic) : Prop where
  given : s.links.next ≤ t.links.next
  stubs : ∀ x st', t.stubs.get? x = some st' → ∃ st, s.stubs.get? x = some st ∧
    st'.gate = st.gate ∧ (∀ l, st'.next = some l → st.next = some l) ∧
    (∀ l, st'.auxiliary = some l → st.auxiliary = some l) ∧
    (st'.isConnected = false → st.isConnected = false)

theorem Sheds.of_stubs (given : s.links.next ≤ t.links.next) (stubs : t.stubs = s.stubs) :
    Sheds s t :=
  ⟨given, fun _ st here => ⟨st, stubs ▸ here, rfl, fun _ h => h, fun _ h => h, fun h => h⟩⟩

theorem Sheds.later (h : Sheds s t) : s.veil.Later t.veil where
  given := h.given
  hidden l _ g := by
    rintro ⟨x, st', here, owns, same⟩
    rcases h.stubs x st' here with ⟨st, here, gate, next, auxiliary, -⟩
    exact ⟨x, st, here, owns.imp (next l) (auxiliary l), gate.symm.trans same⟩
  unused l _ := by
    rintro ⟨x, st', here, next', unconnected⟩
    rcases h.stubs x st' here with ⟨st, here, -, next, -, connected⟩
    exact ⟨x, st, here, next l next', connected unconnected⟩

theorem Sheds.proper (h : Sheds s t) (hs : Proper s) : Proper t where
  given x st' l here owns := by
    rcases h.stubs x st' here with ⟨st, here, -, next, auxiliary, -⟩
    exact (hs.given x st l here (owns.imp (next l) (auxiliary l))).trans_le h.given
  own x y st' st'' l hx hy owns owns' := by
    rcases h.stubs x st' hx with ⟨st, hx, -, next, auxiliary, -⟩
    rcases h.stubs y st'' hy with ⟨su, hy, -, next', auxiliary', -⟩
    exact hs.own x y st su l hx hy (owns.imp (next l) (auxiliary l))
      (owns'.imp (next' l) (auxiliary' l))
  apart _ st' l here hn ha := by
    rcases h.stubs _ st' here with ⟨st, here, -, next, auxiliary, -⟩
    exact hs.apart _ st l here (next l hn) (auxiliary l ha)

theorem Veiled.sheds (hs : Veiled s) (h : Sheds s t) (covers : Covered t.veil s → Covered t.veil t) :
    Veiled t := ⟨h.proper hs.toProper, covers (hs.covered.later h.later)⟩

/-- Unused links are hidden. -/
theorem hidden_of_unused {l : LinkId} (h : s.veil.unused l) : ∃ g, s.veil.hidden l g := by
  rcases h with ⟨x, st, here, next, -⟩
  exact ⟨st.gate, x, st, here, .inl next, rfl⟩

/-- What a carrier that everyone may name takes to a link respects the veil. -/
theorem Veiled.carries (hs : Veiled s) {l : LinkId} {messageId : UInt8} {c : Carrier}
    (shows : s.veil.Shows c) (carries : s.Carries l messageId c) :
    s.veil.Bears l fun _ => messageId = Signal.messageId := by
  cases carries with
  | link => exact .of_shows shows _
  | stub x st here link signal =>
    have owns := st.owns_signalLink link
    refine ⟨hs.given x st l here owns, fun _ _ => signal, ?_⟩
    rintro ⟨y, st', there, next, unconnected⟩
    cases hs.own x y st st' l here there owns (.inl next)
    cases here.symm.trans there
    rw [Stub.signalLink, if_neg (by simp [unconnected])] at link
    exact hs.apart x st l here next link

theorem Veiled.sends (hs : Veiled s) {r : Request} {c : Carrier} {messageId : UInt8}
    {payload : Bytes} {source : Option HandleId} (admits : s.veil.Admits r)
    (sends : s.Sends r c messageId payload source) : s.veil.Shows c := by
  cases sends with
  | send m ep c inner here slot => exact hs.covered.slots m.endpoint ep .messages c here slot
  | script c send inner sending => exact admits c send inner sending

/-! ## Rigging keeps the veil -/

theorem Veiled.setLink (hs : Veiled s) (l : LinkId) (lk' : Link)
    (queued : ∀ r ∈ lk'.queue, s.veil.Bears l r.CoveredBy ∧ s.veil.Admits r) :
    Veiled { s with links := s.links.set l lk' } := by
  have sheds : Sheds s { s with links := s.links.set l lk' } := .of_stubs (by simp) rfl
  refine hs.sheds sheds fun c => { c with queued := fun k k' here r hr => ?_ }
  rcases Table.get?_of_set here with ⟨rfl, rfl⟩ | here
  · exact ⟨sheds.later.bears (queued r hr).1, sheds.later.admits (queued r hr).2⟩
  · exact c.queued k k' here r hr

theorem Veiled.setInterface (hs : Veiled s) {i : InterfaceId} {f : Interface}
    (here : s.interfaces.get? i = some f) (f' : Interface) (handlers : f'.handlers = f.handlers)
    (inbox : ∀ m ∈ f'.inbox, s.veil.Bears m.sender fun _ => m.id = Signal.messageId) :
    Veiled { s with interfaces := s.interfaces.set i f' } := by
  have sheds : Sheds s { s with interfaces := s.interfaces.set i f' } := .of_stubs le_rfl rfl
  refine hs.sheds sheds fun c => { c with
    arrived := fun k k' hk m hm => ?_, handlers := fun k k' hk entry he => ?_ }
  · rcases Table.get?_of_set hk with ⟨rfl, rfl⟩ | hk
    · exact inbox m hm
    · exact c.arrived k k' hk m hm
  · rcases Table.get?_of_set hk with ⟨rfl, rfl⟩ | hk
    · exact c.handlers k f here entry (handlers ▸ he)
    · exact c.handlers k k' hk entry he

theorem Veiled.note (hs : Veiled s) {x : Happening} (bears : ∀ l dest messageId payload source,
    x = .accepted l dest messageId payload source →
      s.veil.Bears l fun _ => messageId = Signal.messageId) :
    Veiled { s with trace := s.trace.push x } := by
  refine hs.sheds (.of_stubs le_rfl rfl) fun c => { c with
    accepted := fun l dest messageId payload source h => ?_ }
  rcases Array.mem_push.1 h with h | h
  · exact c.accepted l dest messageId payload source h
  · exact bears l dest messageId payload source h.symm

theorem Veiled.notes (hs : Veiled s) {marks : List Happening}
    (mute : ∀ x ∈ marks, x.isMute = true) :
    Veiled { s with trace := s.trace ++ marks.toArray } := by
  refine hs.sheds (.of_stubs le_rfl rfl) fun c => { c with
    accepted := fun l dest messageId payload source h => ?_ }
  rcases Array.mem_append.1 h with h | h
  · exact c.accepted l dest messageId payload source h
  · cases mute _ (List.mem_toArray.1 h)

theorem Veiled.tell (hs : Veiled s) (handles : Table (Option Outcome)) :
    Veiled { s with handles } := hs.sheds (.of_stubs le_rfl rfl) fun c => { c with }

theorem Veiled.cancel (hs : Veiled s) (r : Request) : Veiled (s.cancel r) :=
  (hs.tell (Network.endHandle s.handles r (.error .canceled))).notes r.mute_cancelNotes

theorem Veiled.withAgenda (hs : Veiled s) (agenda : List Job)
    (jobs : ∀ j ∈ agenda, s.veil.AdmitsJob j) : Veiled { s with agenda } :=
  hs.sheds (.of_stubs le_rfl rfl) fun c => { c with jobs }

theorem Veiled.keepHeld (hs : Veiled s) (h : HeldId) {r : Request} (admits : s.veil.Admits r) :
    Veiled { s with held := s.held.set h r } :=
  hs.sheds (.of_stubs le_rfl rfl) fun c => { c with
    held := fun k r' hk => by
      rcases Table.get?_of_set hk with ⟨-, rfl⟩ | hk
      · exact admits
      · exact c.held k r' hk }

/-- A new link is shown to everyone. -/
theorem Veiled.shows_new (hs : Veiled s) {lk : Link} :
    ({ s with links := s.links.push lk } : Traffic).veil.Shows (.link s.links.next) := by
  have fresh (g : GateId) :
      ¬({ s with links := s.links.push lk } : Traffic).veil.hidden s.links.next g := by
    rintro ⟨x, st, here, owns, -⟩
    exact absurd (hs.given x st _ here owns) (lt_irrefl _)
  refine ⟨?_, fresh, fun unused => (hidden_of_unused unused).elim fresh⟩
  change s.links.next < (s.links.push lk).next
  rw [Table.next_push]
  exact Nat.lt_succ_self _

theorem Veiled.openLink (hs : Veiled s) {lk : Link} (empty : lk.queue = []) :
    Veiled { s with links := s.links.push lk } := by
  refine hs.sheds (.of_stubs (by simp [Table.next_push]) rfl) fun c => { c with
    queued := fun k k' here r hr => ?_ }
  rcases Table.get?_of_push here with ⟨-, rfl⟩ | here
  · rw [empty] at hr
    cases hr
  · exact c.queued k k' here r hr

/-- The slots of an endpoint are changed, and hold nothing new but what everyone may name. -/
theorem Veiled.modifySlots (hs : Veiled s) (id : EndpointId) (f : Endpoint → Endpoint)
    (slots : ∀ ep category c, s.endpoints.get? id = some ep → (f ep).slots.get category = some c →
      ep.slots.get category = some c ∨ s.veil.Shows c) :
    Veiled { s with endpoints := s.endpoints.modify id f } := by
  refine hs.sheds (.of_stubs le_rfl rfl) fun c => { c with
    slots := fun e ep category k here hk => ?_ }
  rw [Table.get?_modify] at here
  split at here
  · rename_i same
    rcases Option.map_eq_some_iff.1 here with ⟨ep', there, rfl⟩
    rw [← same] at there
    rcases slots ep' category k there hk with hk | shows
    · exact c.slots id ep' category k there hk
    · exact shows
  · exact c.slots e ep category k here hk

theorem installLane_get_cases {ep : Endpoint} {lane category : Category} {c k : Carrier}
    (h : (Network.installLane ep lane c).get category = some k) :
    ep.slots.get category = some k ∨ k = c := by
  rw [Network.installLane, PerCategory.get_mapWith] at h
  split at h
  · exact .inr (Option.some.inj h).symm
  · exact .inl h

theorem Veiled.installLane (hs : Veiled s) {id : EndpointId} {ep : Endpoint}
    (here : s.endpoints.get? id = some ep) (lane : Category) {c : Carrier}
    (shows : s.veil.Shows c) :
    Veiled { s with endpoints := s.endpoints.modify id fun e =>
      { e with slots := Network.installLane ep lane c } } := by
  refine hs.modifySlots _ _ fun ep' category k here' hk => ?_
  cases here.symm.trans here'
  rcases installLane_get_cases hk with old | rfl
  · exact .inl old
  · exact .inr shows

/-- Stubs are changed, but give up links and parked requests at most. -/
theorem Veiled.modifyStub (hs : Veiled s) {x : StubId} {f : Stub → Stub}
    (kept : ∀ st, (f st).gate = st.gate ∧ (f st).next = st.next ∧
      (f st).auxiliary = st.auxiliary ∧ (f st).promoted = st.promoted ∧
      (f st).parked = st.parked ∧ ((f st).isConnected = false → st.isConnected = false)) :
    Veiled { s with stubs := s.stubs.modify x f } := by
  have sheds : Sheds s { s with stubs := s.stubs.modify x f } := by
    refine ⟨le_rfl, fun y st' here => ?_⟩
    rcases Table.get?_of_modify here with ⟨st, there, rfl | rfl⟩
    · exact ⟨st', there, rfl, fun _ h => h, fun _ h => h, fun h => h⟩
    · rcases kept st with ⟨gate, next, auxiliary, -, -, connected⟩
      exact ⟨st, there, gate, fun l h => next ▸ h, fun l h => auxiliary ▸ h, connected⟩
  refine hs.sheds sheds fun c => { c with
    parked := fun y st' here r hr => ?_, promoted := fun y st' l here hl => ?_ }
  · rcases Table.get?_of_modify here with ⟨st, there, rfl | rfl⟩
    · exact c.parked y st' there r hr
    · exact c.parked y st there r ((kept st).2.2.2.2.1 ▸ hr)
  · rcases Table.get?_of_modify here with ⟨st, there, rfl | rfl⟩
    · exact c.promoted y st' l there hl
    · exact c.promoted y st l there ((kept st).2.2.2.1 ▸ hl)

/-- A new stub keeps its new links to itself. -/
theorem Veiled.openStub (hs : Veiled s) {st : Stub} {links : Table Link}
    (given : s.links.next ≤ links.next)
    (queues : ∀ l lk, links.get? l = some lk → s.links.get? l = some lk ∨ lk.queue = [])
    (next : st.next = some s.links.next) (room : s.links.next < links.next)
    (auxiliary : ∀ l, st.auxiliary = some l → s.links.next < l ∧ l < links.next)
    (unparked : st.parked = []) (unswitched : st.promoted = none) :
    Veiled { s with links, stubs := s.stubs.push st } := by
  have fresh {l : LinkId} (owns : st.Owns l) : s.links.next ≤ l ∧ l < links.next := by
    rcases owns with owns | owns
    · cases next.symm.trans owns
      exact ⟨le_rfl, room⟩
    · exact ⟨(auxiliary l owns).1.le, (auxiliary l owns).2⟩
  have later : s.veil.Later ({ s with links, stubs := s.stubs.push st } : Traffic).veil := by
    refine ⟨given, fun l small g => ?_, fun l small => ?_⟩
    · rintro ⟨x, st', here, owns, gate⟩
      rcases Table.get?_of_push here with ⟨-, rfl⟩ | here
      · exact absurd small (Nat.not_lt.2 (fresh owns).1)
      · exact ⟨x, st', here, owns, gate⟩
    · rintro ⟨x, st', here, hn, unconnected⟩
      rcases Table.get?_of_push here with ⟨-, rfl⟩ | here
      · exact absurd small (Nat.not_lt.2 (fresh (.inl hn)).1)
      · exact ⟨x, st', here, hn, unconnected⟩
  have old {y : StubId} {st' : Stub} {l : LinkId} (here : s.stubs.get? y = some st')
      (owns : st'.Owns l) (owns' : st.Owns l) : False := by
    exact absurd (hs.given y st' l here owns) (Nat.not_lt.2 (fresh owns').1)
  have c := hs.covered.later later
  refine { given := ?_, own := ?_, apart := ?_, covered := { c with
    queued := ?_, parked := ?_, promoted := ?_ } }
  · intro x st' l here owns
    rcases Table.get?_of_push here with ⟨-, rfl⟩ | here
    · exact (fresh owns).2
    · exact (hs.given x st' l here owns).trans_le given
  · intro x y st' st'' l hx hy owns owns'
    rcases Table.get?_of_push hx with ⟨rfl, rfl⟩ | kx
    · rcases Table.get?_of_push hy with ⟨rfl, rfl⟩ | ky
      · rfl
      · exact (old ky owns' owns).elim
    · rcases Table.get?_of_push hy with ⟨rfl, rfl⟩ | ky
      · exact (old kx owns owns').elim
      · exact hs.own x y st' st'' l kx ky owns owns'
  · intro x st' l here hn ha
    rcases Table.get?_of_push here with ⟨-, rfl⟩ | here
    · cases next.symm.trans hn
      exact absurd (auxiliary _ ha).1 (lt_irrefl _)
    · exact hs.apart x st' l here hn ha
  · intro l lk here r hr
    rcases queues l lk here with here | empty
    · exact c.queued l lk here r hr
    · rw [empty] at hr
      cases hr
  · intro x st' here r hr
    rcases Table.get?_of_push here with ⟨-, rfl⟩ | here
    · rw [unparked] at hr
      cases hr
    · exact c.parked x st' here r hr
  · intro x st' l here hl
    rcases Table.get?_of_push here with ⟨-, rfl⟩ | here
    · rw [unswitched] at hl
      cases hl
    · exact c.promoted x st' l here hl

theorem Veiled.rig (hs : Veiled s) (h : Rig s t) : Veiled t := by
  cases h with
  | note x still => exact hs.note fun l dest messageId payload source hx => by rw [hx] at still; cases still
  | pair x st l dest here next =>
    have led : Veiled { s with links := s.links.modify l fun lk => { lk with dest := some dest } } := by
      cases hl : s.links.get? l with
      | none =>
        rw [Table.modify_of_none hl]
        exact hs
      | some lk =>
        rw [Table.modify_eq_set hl]
        exact hs.setLink _ _ fun r hr => hs.covered.queued l lk hl r hr
    exact led.modifyStub fun st => ⟨rfl, rfl, rfl, rfl, rfl, fun h => by
      simp only [Stub.isConnected, Bool.true_and] at h
      simp [Stub.isConnected, h]⟩
  | mark x =>
    exact hs.modifyStub fun st => ⟨rfl, rfl, rfl, rfl, rfl, fun h => by
      simp only [Stub.isConnected, Bool.and_true] at h
      simp [Stub.isConnected, h]⟩
  | number i f n here => exact hs.setInterface here _ rfl fun m hm => hs.covered.arrived i f here m hm
  | openLink lk new => exact hs.openLink new.empty
  | openEndpoint e empty =>
    refine hs.sheds (.of_stubs le_rfl rfl) fun c => { c with
      slots := fun e' ep category k here hk => ?_ }
    rcases Table.get?_of_push here with ⟨-, rfl⟩ | here
    · rw [empty, PerCategory.get_const] at hk
      cases hk
    · exact c.slots e' ep category k here hk
  | linkLane id e lane lk here new =>
    exact (hs.openLink new.empty).installLane here lane hs.shows_new
  | stubLane id e lane st lk auxiliary here new new' next aside unmarked unparked unswitched
      able =>
    have opened : Veiled { s with
        links := auxiliary.toList.foldl Table.push (s.links.push lk)
        stubs := s.stubs.push st } := by
      cases auxiliary with
      | none =>
        refine hs.openStub ?_ (fun l k hl => ?_) next ?_ (fun l hl => ?_) unparked unswitched
        · simp [Table.next_push]
        · rcases Table.get?_of_push hl with ⟨-, rfl⟩ | hl
          · exact .inr new.empty
          · exact .inl hl
        · simp [Table.next_push]
        · rw [aside] at hl
          cases hl
      | some lk' =>
        refine hs.openStub ?_ (fun l k hl => ?_) next ?_ (fun l hl => ?_) unparked unswitched
        · simp only [Option.toList_some, List.foldl_cons, List.foldl_nil, Table.next_push]
          omega
        · rcases Table.get?_of_push hl with ⟨-, rfl⟩ | hl
          · exact .inr (new' k rfl).empty
          · rcases Table.get?_of_push hl with ⟨-, rfl⟩ | hl
            · exact .inr new.empty
            · exact .inl hl
        · simp only [Option.toList_some, List.foldl_cons, List.foldl_nil, Table.next_push]
          omega
        · rw [aside] at hl
          cases hl
          simp [Table.next_push]
    exact opened.installLane here lane trivial
  | clear id =>
    refine hs.modifySlots _ _ fun ep category c here hc => ?_
    rw [PerCategory.get_const] at hc
    cases hc
  | cancelFront l lk r queue here front =>
    have taken : Veiled { s with links := s.links.set l { lk with queue } } :=
      hs.setLink l _ fun r' hr => hs.covered.queued l lk here r' (front ▸ List.mem_cons_of_mem _ hr)
    exact taken.cancel r
  | closeInterface i f here =>
    refine hs.sheds (.of_stubs le_rfl rfl) fun c => { c with
      arrived := fun k k' hk => c.arrived k k' (Table.get?_of_erase hk)
      handlers := fun k k' hk => c.handlers k k' (Table.get?_of_erase hk)
      accepted := fun l dest messageId payload source h => ?_ }
    rcases Array.mem_append.1 h with h | h
    · exact c.accepted l dest messageId payload source h
    · rcases List.mem_map.1 (List.mem_toArray.1 h) with ⟨m, -, h⟩
      cases h
  | closeLink l =>
    exact hs.sheds (.of_stubs (by simp) rfl) fun c => { c with
      queued := fun k k' hk => c.queued k k' (Table.get?_of_erase hk) }
  | closeStub x =>
    have sheds : Sheds s { s with stubs := s.stubs.erase x } :=
      ⟨le_rfl, fun y st here =>
        ⟨st, Table.get?_of_erase here, rfl, fun _ h => h, fun _ h => h, fun h => h⟩⟩
    exact hs.sheds sheds fun c => { c with
      parked := fun y st here => c.parked y st (Table.get?_of_erase here)
      promoted := fun y st l here => c.promoted y st l (Table.get?_of_erase here) }
  | closeEndpoint id =>
    exact hs.sheds (.of_stubs le_rfl rfl) fun c => { c with
      slots := fun e ep category k here => c.slots e ep category k (Table.get?_of_erase here) }

theorem Veiled.rigs (hs : Veiled s) (h : Rigs s t) : Veiled t := by
  induction h with
  | refl => exact hs
  | tail _ g ih => exact ih.rig g

/-! ## Deeds keep the veil -/

theorem Veiled.transmits (hs : Veiled s) {l : LinkId} {messageId : UInt8} {payload : Bytes}
    {source : Option HandleId} (bears : s.veil.Bears l fun _ => messageId = Signal.messageId)
    (h : Transmits s l messageId payload source t) : Veiled t := by
  cases h with
  | intro lk credits dest f here credit leads there =>
    have paid := hs.setLink l { lk with credits } fun r hr => hs.covered.queued l lk here r hr
    have sheds : Sheds s { s with links := s.links.set l { lk with credits } } :=
      .of_stubs (by simp) rfl
    have arrived := paid.setInterface there { f with
      inbox := f.inbox ++ [⟨messageId, payload, l⟩] } rfl fun m hm => by
        rcases List.mem_append.1 hm with hm | hm
        · exact paid.covered.arrived dest f there m hm
        · rw [List.mem_singleton.1 hm]
          exact sheds.later.bears bears
    refine arrived.note fun l' dest' messageId' payload' source' same => ?_
    cases same
    exact sheds.later.bears bears

/-- A carrier that everyone may name keeps the veil, whether it takes a request over or hands it
back. -/
theorem Veiled.offers (hs : Veiled s) {c : Carrier} {r : Request} {back : Option Request}
    (shows : s.veil.Shows c) (admits : s.veil.Admits r) (h : Offers s c r t back) :
    Veiled t ∧ ∀ r', back = some r' → t = s ∧ s.veil.Admits r' := by
  have queue {l : LinkId} {lk : Link} {r' : Request} (here : s.links.get? l = some lk)
      (bears : s.veil.Bears l r'.CoveredBy) (admits : s.veil.Admits r') :
      Veiled { s with links := s.links.set l { lk with queue := lk.queue ++ [r'] } } := by
    refine hs.setLink _ _ fun r'' hr => ?_
    rcases List.mem_append.1 hr with hr | hr
    · exact hs.covered.queued l lk here r'' hr
    · rw [List.mem_singleton.1 hr]
      exact ⟨bears, admits⟩
  cases h with
  | queue r l lk here => exact ⟨queue here (.of_shows shows _) admits, by simp⟩
  | cover r x st l lk stub signal link here =>
    have owns := st.owns_signalLink link
    have bears := hs.carries (c := .stub x) trivial (.stub x st stub link rfl)
    refine ⟨queue here ⟨bears.given, ?_, bears.used⟩ admits, by simp⟩
    -- the link is hidden by the gate of its stub only
    rintro g ⟨y, st', there, owns', rfl⟩
    cases hs.own x y st st' l stub there owns owns'
    cases stub.symm.trans there
    exact ⟨r, rfl⟩
  | promoted r x st l lk stub data switched link here =>
    exact ⟨queue here (.of_shows (hs.covered.promoted x st l stub link) _) admits, by simp⟩
  | park r x st here data unswitched =>
    have sheds : Sheds s { s with stubs := s.stubs.set x { st with parked := st.parked ++ [r] } } := by
      refine ⟨le_rfl, fun y st' there => ?_⟩
      rcases Table.get?_of_set there with ⟨rfl, rfl⟩ | there
      · exact ⟨st, here, rfl, fun _ h => h, fun _ h => h, fun h => h⟩
      · exact ⟨st', there, rfl, fun _ h => h, fun _ h => h, fun h => h⟩
    have parked := hs.sheds sheds fun c => { c with
      parked := fun y st' there r' hr => by
        rcases Table.get?_of_set there with ⟨rfl, rfl⟩ | there
        · rcases List.mem_append.1 hr with hr | hr
          · exact c.parked y st here r' hr
          · rw [List.mem_singleton.1 hr]
            exact ⟨data, sheds.later.admits admits⟩
        · exact c.parked y st' there r' hr
      promoted := fun y st' l there hl => by
        rcases Table.get?_of_set there with ⟨rfl, rfl⟩ | there
        · exact c.promoted y st l here hl
        · exact c.promoted y st' l there hl }
    exact ⟨parked.note (by simp), by simp⟩
  | back c r r' covered free =>
    refine ⟨hs, fun r'' same => ?_⟩
    cases same
    exact ⟨rfl, admits.covered covered⟩

/-- A switchover shows the link that it promotes. -/
theorem Veiled.switch (hs : Veiled s) {x : StubId} {st : Stub} {next : LinkId} {w : WorkerId}
    (here : s.stubs.get? x = some st) (unswitched : st.next = some next) :
    Veiled { s with
      stubs := s.stubs.set x
        { st with next := none, auxiliary := none, parked := [], promoted := some next }
      endpoints := s.endpoints.modify st.endpoint fun e =>
        Network.promoteSlots e x st.category next
      trace := s.trace.push (.switched x next)
      agenda := Network.replay st w next ++ s.agenda } := by
  let emptied : Stub := { st with next := none, auxiliary := none, parked := [], promoted := some next }
  let bared : Traffic := { s with stubs := s.stubs.set x emptied }
  have sheds : Sheds s bared := by
    refine ⟨le_rfl, fun y st' there => ?_⟩
    rcases Table.get?_of_set there with ⟨rfl, rfl⟩ | there
    · exact ⟨st, here, rfl, by simp [emptied], by simp [emptied], fun h => h⟩
    · exact ⟨st', there, rfl, fun _ h => h, fun _ h => h, fun h => h⟩
  have shows : bared.veil.Shows (.link next) := by
    have open_ (g : GateId) : ¬bared.veil.hidden next g := by
      rintro ⟨y, st', there, owns, -⟩
      have stub : (s.stubs.set x emptied).get? y = some st' := there
      rw [Table.get?_set_of here] at stub
      split at stub
      · cases stub
        rcases owns with owns | owns <;> cases owns
      · rename_i other
        exact other (hs.own x y st st' next here stub (.inl unswitched) owns)
    exact ⟨hs.given x st next here (.inl unswitched), open_,
      fun h => (hidden_of_unused h).elim open_⟩
  have switched : Veiled bared := hs.sheds sheds fun c => { c with
    parked := fun y st' there r hr => by
      rcases Table.get?_of_set there with ⟨rfl, rfl⟩ | there
      · cases hr
      · exact c.parked y st' there r hr
    promoted := fun y st' l there hl => by
      rcases Table.get?_of_set there with ⟨rfl, rfl⟩ | there
      · cases hl
        exact shows
      · exact c.promoted y st' l there hl }
  have promoted := switched.modifySlots st.endpoint
    (fun e => Network.promoteSlots e x st.category next) fun ep category c _ hc => by
      simp only [Network.promoteSlots, PerCategory.get_mapWith] at hc
      split at hc
      · cases hc
        exact .inr shows
      · exact .inl hc
  refine (promoted.note (x := .switched x next) (by simp)).withAgenda _ fun j hj => ?_
  rcases List.mem_append.1 hj with hj | hj
  · simp only [Network.replay, List.mem_append, List.mem_flatMap, List.mem_cons, List.not_mem_nil,
      or_false] at hj
    rcases hj with (hj | ⟨r, hr, rfl | rfl⟩) | rfl | rfl | rfl
    · exact Veil.admitsJob_of_bare (Network.releaseLink?_bare _ j hj)
    · exact ⟨shows, sheds.later.admits (hs.covered.parked x st here r hr).2⟩
    all_goals trivial
  · exact switched.covered.jobs j hj

/-- One step keeps the veil. -/
theorem Veiled.deed (hs : Veiled s) (h : Deed s t) : Veiled t := by
  have below {j : Job} {rest : List Job} (top : s.agenda = j :: rest) :
      Veiled { s with agenda := rest } := hs.withAgenda _ fun k hk =>
    hs.covered.jobs k (top ▸ List.mem_cons_of_mem _ hk)
  have first {j : Job} {rest : List Job} (top : s.agenda = j :: rest) : s.veil.AdmitsJob j :=
    hs.covered.jobs j (by rw [top]; exact List.mem_cons_self)
  have plan {u : Traffic} (hu : Veiled u) (jobs : List Job) (admits : ∀ j ∈ jobs, u.veil.AdmitsJob j) :
      Veiled { u with agenda := jobs ++ u.agenda } := hu.withAgenda _ fun k hk => by
    rcases List.mem_append.1 hk with hk | hk
    · exact admits k hk
    · exact hu.covered.jobs k hk
  cases h with
  | work j rest jobs u top light free rigged bare =>
    exact plan ((below top).rigs rigged) _ fun k hk => Veil.admitsJob_of_bare (bare k hk)
  | close j r rest jobs marks handles top ends bare =>
    exact plan (((below top).tell handles).notes ends.mute) _ fun k hk =>
      Veil.admitsJob_of_bare (bare k hk)
  | ask w message m rest jobs u top rigged bare signal handle =>
    refine plan (((below top).rigs rigged).tell (u.handles.push none)) (_ :: jobs) fun k hk => ?_
    rcases List.mem_cons.1 hk with rfl | hk
    · exact ⟨Veil.admits_send m, trivial⟩
    · exact Veil.admitsJob_of_bare (bare k hk)
  | deliver i f m inbox left rest top here front =>
    have taken := (below top).setInterface here { f with inbox } rfl fun m' hm =>
      hs.covered.arrived i f here m' (front ▸ List.mem_cons_of_mem _ hm)
    refine plan (taken.note (x := .delivered i m) (by simp)) _ fun k hk => ?_
    simp only [List.mem_append, List.mem_map, Option.mem_toList, List.mem_cons, List.not_mem_nil,
      or_false] at hk
    rcases hk with ⟨h, hh, rfl⟩ | rfl | rfl
    · exact hs.covered.handlers i f here _ (Network.lookup_mem hh)
    all_goals trivial
  | giveBack l rest top =>
    cases here : s.links.get? l with
    | none =>
      rw [Table.modify_of_none here]
      exact below top
    | some lk =>
      rw [Table.modify_eq_set here]
      exact (below top).setLink _ _ fun r hr => hs.covered.queued l lk here r hr
  | record log forward decode m rest jobs marks top bare still =>
    have seen := (below top).note (x := .recorded log m.id (Network.content decode m.payload))
      (by simp)
    exact plan (seen.notes fun x hx => Happening.isMute_of_isStill (still x hx)) _ fun k hk =>
      Veil.admitsJob_of_bare (bare k hk)
  | relay log c decode m l rest x t top carries sent still =>
    have seen := (below top).note (x := .recorded log m.id (Network.content decode m.payload))
      (by simp)
    have bears := hs.carries (first top c rfl) carries
    refine (seen.transmits bears sent).note fun l dest messageId payload source hx => ?_
    rw [hx] at still
    cases still
  | answer r o w rest top =>
    refine (below top).withAgenda _ fun k hk => ?_
    rcases List.mem_cons.1 hk with rfl | hk
    · exact ⟨(first top).1.taken, (first top).2.taken⟩
    · exact (below top).covered.jobs k hk
  | accept r w rest c messageId payload source l t top sends carries sent =>
    have bears := hs.carries (hs.sends (first top).1 sends) carries
    have concluded := (below top).withAgenda (.conclude r.taken (.ok ()) w :: rest)
      fun k hk => by
        rcases List.mem_cons.1 hk with rfl | hk
        · exact ⟨(first top).1.taken, (first top).2.taken⟩
        · exact (below top).covered.jobs k hk
    exact concluded.transmits bears sent
  | holdOff r w rest x messageId payload source jobs top sends data bare =>
    refine (below top).withAgenda _ fun k hk => ?_
    rcases List.mem_append.1 hk with hk | hk
    · exact Veil.admitsJob_of_bare (bare k hk)
    · rcases List.mem_cons.1 hk with rfl | hk
      · exact ⟨(first top).1.taken, (first top).2.taken⟩
      · exact (below top).covered.jobs k hk
  | requeue r l lk rest top here =>
    refine ((below top).setLink l { lk with queue := r.unfinished :: lk.queue }
      fun r' hr => ?_).notes (r.mute_answerNotes _)
    rcases List.mem_cons.1 hr with rfl | hr
    · exact ⟨(first top).2.unfinished, (first top).1.unfinished⟩
    · exact hs.covered.queued l lk here r' hr
  | again r c rest top =>
    refine ((below top).notes (r.mute_answerNotes _)).withAgenda _ fun k hk => ?_
    rcases List.mem_cons.1 hk with rfl | hk
    · exact ⟨(first top).2, (first top).1.unfinished⟩
    · exact (below top).covered.jobs k hk
  | first r e ep c rest top here slot =>
    refine ((below top).notes (r.mute_answerNotes _)).withAgenda _ fun k hk => ?_
    rcases List.mem_cons.1 hk with rfl | hk
    · exact ⟨hs.covered.slots e ep .messages c here slot, (first top).1.unfinished⟩
    · rcases List.mem_cons.1 hk with rfl | hk
      · trivial
      · exact (below top).covered.jobs k hk
  | returned r h rest top =>
    exact ((below top).keepHeld h (first top).1.unfinished).notes (r.mute_answerNotes _)
  | completed r o h rest top done =>
    exact (((below top).keepHeld h (first top).1.finished).tell
      (Network.endHandle s.handles r o)).notes (r.mute_answerNotes _)
  | add r c rest t top taken => exact ((below top).offers (first top).1 (first top).2 taken).1
  | handBack r r' c rest t top back =>
    rcases (below top).offers (first top).1 (first top).2 back with ⟨-, handed⟩
    rcases handed r' rfl with ⟨rfl, admits⟩
    refine (below top).withAgenda _ fun k hk => ?_
    rcases List.mem_cons.1 hk with rfl | hk
    · exact ⟨admits, (first top).1⟩
    · exact (below top).covered.jobs k hk
  | dequeue r l lk queue rest top here front =>
    have taken := (below top).setLink l { lk with queue } fun r' hr =>
      hs.covered.queued l lk here r' (front ▸ List.mem_cons_of_mem _ hr)
    have sheds : Sheds s { s with links := s.links.set l { lk with queue }, agenda := rest } :=
      .of_stubs (by simp) rfl
    have waited := hs.covered.queued l lk here r (by simp [front])
    refine taken.withAgenda _ fun k hk => ?_
    rcases List.mem_cons.1 hk with rfl | hk
    · exact ⟨sheds.later.admits waited.2, sheds.later.bears waited.1⟩
    · exact taken.covered.jobs k hk
  | switch x st next w rest u top rigged here unswitched connected =>
    exact ((below top).rigs rigged).switch here unswitched

theorem Veiled.initial (process : UInt32) : Veiled (Network.traffic { process }) := by
  constructor
  · constructor <;> simp [Network.traffic]
  · constructor <;> simp [Network.traffic]

end Traffic

end Wiring
