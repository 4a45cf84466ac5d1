import Mathlib
import Wiring.Proofs.Layout
import Wiring.Proofs.Veil

/-!
# The stream of an endpoint

The data messages of one endpoint are a stream as long as they have one way to go: first they are
all parked on a stub, and later they all go over one link to one interface. Whatever is done to the
traffic, what was recorded, what has arrived, what waits in the queue and what is still to be added
stand in the order in which the messages were sent. Some of them may get lost.
-/
namespace Wiring

/-! ## Data -/

def Message.data (m : Message) : List Bytes := if m.id = Signal.messageId then [] else [m.payload]

/-- The payload that a request sends, if it is no signal. -/
def Request.data (r : Request) : List Bytes :=
  if r.isSignal then [] else (r.send?.map Send.payload).toList

/-- The payload that a recorder has seen. -/
def Happening.data : Happening → List Bytes
  | .recorded _ _ (.bytes payload) => [payload]
  | _ => []

namespace Job

/-- The data of a message that is being handled. -/
def handled : Job → List Bytes
  | .handle _ m => m.data
  | _ => []

/-- The data of an attempt that may still send it. -/
def attempted : Job → List Bytes
  | .attempt r _ => r.data
  | .conclude r o _ => if o.isNoResource then r.data else []
  | _ => []

/-- The data of a request on its way to a carrier. -/
def added : Job → List Bytes
  | .add _ r => r.data
  | _ => []

end Job

/-- The data that was recorded. -/
def seen (trace : Array Happening) : List Bytes := trace.toList.flatMap Happening.data

theorem seen_push (trace : Array Happening) (x : Happening) :
    seen (trace.push x) = seen trace ++ x.data := by simp [seen]

theorem Happening.data_of_mute {x : Happening} (mute : x.isMute = true) : x.data = [] := by
  cases x with
  | recorded => cases mute
  | _ => rfl

/-- Nothing is recorded. -/
theorem seen_append {marks : List Happening} (mute : ∀ x ∈ marks, x.data = [])
    (trace : Array Happening) : seen (trace ++ marks.toArray) = seen trace := by
  have none : marks.flatMap Happening.data = [] := List.flatMap_eq_nil_iff.2 mute
  simp [seen, none]

theorem seen_mute {marks : List Happening} (mute : ∀ x ∈ marks, x.isMute = true)
    (trace : Array Happening) : seen (trace ++ marks.toArray) = seen trace :=
  seen_append (fun x hx => Happening.data_of_mute (mute x hx)) trace

theorem Request.data_of_signal {r : Request} (signal : r.isSignal = true) : r.data = [] :=
  if_pos signal

theorem Request.data_ne_nil {r : Request} (plain : r.IsPlain) (data : r.isSignal = false) :
    r.data ≠ [] := by
  cases r with
  | scripted c => exact absurd rfl (plain c)
  | send m => simp [Request.data, data, Request.send?, Request.inner?]
  | counted | spent => cases data

theorem Request.data_unfinished (r : Request) : r.unfinished.data = r.data := by
  simp [data, isSignal_unfinished]

/-- A request of an endpoint that sends data, or a signal of whomever. -/
structure Request.Sends (e : EndpointId) (r : Request) : Prop where
  plain : r.IsPlain
  signal : ∀ m, r.inner? = some (.send m) → r.isSignal = true → m.messageId = Signal.messageId
  own : ∀ m, r.inner? = some (.send m) → r.isSignal = false → m.endpoint = e

namespace Request.Sends

variable {e : EndpointId} {r r' : Request}

theorem unfinished (h : r.Sends e) : r.unfinished.Sends e := by
  have same (m : Send) (inner : r.unfinished.inner? = some (.send m)) :
      r.inner? = some (.send m) := by
    apply inner?_of_send?
    rw [← send?_unfinished]
    exact send?_of_inner? inner
  refine ⟨isPlain_unfinished h.plain, fun m inner => ?_, fun m inner => ?_⟩
  · rw [isSignal_unfinished]
    exact h.signal m (same m inner)
  · rw [isSignal_unfinished]
    exact h.own m (same m inner)

theorem counted (h : r.Sends e) (signal : r.isSignal = true) (g : GateId) :
    (Request.counted g r).Sends e where
  plain := isPlain_counted h.plain
  signal m inner _ := h.signal m inner signal
  own m inner data := by cases data

theorem covered (h : r.Sends e) (covered : r' = r ∨ (r.isSignal = true ∧ ∃ g, r' = .counted g r)) :
    r'.Sends e ∧ r'.isSignal = r.isSignal ∧ r'.data = r.data := by
  rcases covered with rfl | ⟨signal, g, rfl⟩
  · exact ⟨h, rfl, rfl⟩
  · refine ⟨h.counted signal g, signal.symm, ?_⟩
    rw [data_of_signal signal, data_of_signal rfl]

theorem taken (h : r.Sends e) : r.taken = r := by
  unfold Request.taken
  split
  · rename_i c inner
    exact absurd inner (h.plain c)
  · rfl

end Request.Sends

/-- Recorders of data that send nothing on, and handlers of signals. -/
def Handler.Records (messageId : UInt8) : Handler → Prop
  | .record _ forward _ => forward = none ∧ messageId ≠ Signal.messageId
  | .signals _ => True

/-! ## Routes -/

/-- Where the data of an endpoint goes: to a stub that parks it, or over a link to an interface. -/
inductive Route where
  | stub (id : StubId)
  | link (id : LinkId) (dest : InterfaceId)

namespace Route

/-- The data in the inbox that the link leads to. -/
def arrived (interfaces : Table Interface) : Route → List Bytes
  | stub _ => []
  | link _ i => interfaces.listAt (fun f => f.inbox.flatMap Message.data) i

/-- The data in the queue of the link. -/
def queued (links : Table Link) : Route → List Bytes
  | stub _ => []
  | link l _ => links.listAt (fun lk => lk.queue.flatMap Request.data) l

/-- The data parked on the stub. -/
def parked (stubs : Table Stub) : Route → List Bytes
  | stub x => stubs.listAt (fun st => st.parked.flatMap Request.data) x
  | link _ _ => []

/-- The data on its way, in the order in which it is seen. -/
def stream (ρ : Route) (s : Traffic) : List Bytes :=
  seen s.trace ++ (s.agenda.flatMap Job.handled
    ++ (ρ.arrived s.interfaces ++ (s.agenda.flatMap Job.attempted
      ++ (ρ.queued s.links ++ (s.agenda.flatMap Job.added ++ ρ.parked s.stubs)))))

/-- Who waits for an attempt at data gives it back to the link it came from. What the link has handed
back is attempted before anything else is queued. -/
inductive Awaits (links : Table Link) : Route → Waiter → Prop
  | queue (l : LinkId) (i : InterfaceId) : Awaits links (link l i) (.queue l)
  | retry (l : LinkId) (i : InterfaceId) (clear : (link l i).queued links = []) :
      Awaits links (link l i) (.retry (.link l))

/-- What may be left to do below the work under way: data goes to the link. -/
def Leaves (ρ : Route) (e : EndpointId) : Job → Prop
  | .add c r => r.Sends e ∧ (r.isSignal = false → ∃ l i, ρ = link l i ∧ c = .link l)
  | .attempt _ _ | .conclude _ _ _ | .handle _ _ => False
  | _ => True

/-- What may be done next. -/
def Does (ρ : Route) (e : EndpointId) (links : Table Link) : Job → Prop
  | .attempt r w | .conclude r _ w => r.Sends e ∧ (r.isSignal = false → ρ.Awaits links w)
  | .handle h m => h.Records m.id
  | j => ρ.Leaves e j

end Route

namespace Traffic

open Route

variable {s t u : Traffic} {e : EndpointId} {ρ : Route} {sent : List Bytes}

/-- Data is nowhere but on its route, and goes to recorders. -/
structure Confined (e : EndpointId) (ρ : Route) (s : Traffic) : Prop where
  queued : ∀ l lk, s.links.get? l = some lk → ∀ r ∈ lk.queue,
    r.Sends e ∧ (r.isSignal = false → ∃ i, ρ = .link l i)
  parked : ∀ x st, s.stubs.get? x = some st → ∀ r ∈ st.parked, r.Sends e ∧ ρ = .stub x
  arrived : ∀ i f, s.interfaces.get? i = some f → ∀ m ∈ f.inbox,
    m.id = Signal.messageId ∨ ∃ l, ρ = .link l i
  handlers : ∀ i f, s.interfaces.get? i = some f → ∀ entry ∈ f.handlers, entry.2.Records entry.1
  /-- The link belongs to no stub. -/
  shown : ∀ l i, ρ = .link l i → l < s.links.next ∧
    ∀ x st, s.stubs.get? x = some st → ¬st.Owns l
  leads : ∀ l i, ρ = .link l i → ∀ lk dest, s.links.get? l = some lk → lk.dest = some dest → dest = i

/-- Data goes along its route in the order in which it was sent. -/
structure Flows (e : EndpointId) (ρ : Route) (sent : List Bytes) (s : Traffic) : Prop
    extends Confined e ρ s where
  work : ∀ j rest, s.agenda = j :: rest → ρ.Does e s.links j ∧ ∀ k ∈ rest, ρ.Leaves e k
  order : (ρ.stream s).Sublist sent

/-! ## What keeps data on its route -/

namespace Confined

theorem setLink (hs : Confined e ρ s) {l : LinkId} {lk : Link} (here : s.links.get? l = some lk)
    (lk' : Link) (dest : lk'.dest = lk.dest)
    (queue : ∀ r ∈ lk'.queue, r ∈ lk.queue ∨
      r.Sends e ∧ (r.isSignal = false → ∃ i, ρ = .link l i)) :
    Confined e ρ { s with links := s.links.set l lk' } :=
  { hs with
    queued := fun k k' there r hr => by
      rcases Table.get?_of_set there with ⟨rfl, rfl⟩ | there
      · rcases queue r hr with old | new
        · exact hs.queued k lk here r old
        · exact new
      · exact hs.queued k k' there r hr
    shown := fun k i way => by simpa using hs.shown k i way
    leads := fun k i way k' there => by
      intro at_ leads
      rcases Table.get?_of_set at_ with ⟨rfl, rfl⟩ | at_
      · exact hs.leads k i way lk there here (dest ▸ leads)
      · exact hs.leads k i way k' there at_ leads }

theorem setInterface (hs : Confined e ρ s) {i : InterfaceId} {f : Interface}
    (here : s.interfaces.get? i = some f) (f' : Interface) (handlers : f'.handlers = f.handlers)
    (inbox : ∀ m ∈ f'.inbox, m ∈ f.inbox ∨ m.id = Signal.messageId ∨ ∃ l, ρ = .link l i) :
    Confined e ρ { s with interfaces := s.interfaces.set i f' } :=
  { hs with
    arrived := fun k k' there m hm => by
      rcases Table.get?_of_set there with ⟨rfl, rfl⟩ | there
      · rcases inbox m hm with old | new
        · exact hs.arrived k f here m old
        · exact new
      · exact hs.arrived k k' there m hm
    handlers := fun k k' there entry hentry => by
      rcases Table.get?_of_set there with ⟨rfl, rfl⟩ | there
      · exact hs.handlers k f here entry (handlers ▸ hentry)
      · exact hs.handlers k k' there entry hentry }

/-- Stubs are marked or connected. -/
theorem modifyStub (hs : Confined e ρ s) (x : StubId) (f : Stub → Stub)
    (kept : ∀ st, (f st).next = st.next ∧ (f st).auxiliary = st.auxiliary ∧
      (f st).parked = st.parked) : Confined e ρ { s with stubs := s.stubs.modify x f } :=
  { hs with
    parked := fun y st there r hr => by
      rcases Table.get?_of_modify there with ⟨st', here, rfl | rfl⟩
      · exact hs.parked y st here r hr
      · exact hs.parked y st' here r ((kept st').2.2 ▸ hr)
    shown := fun l i way => by
      refine ⟨(hs.shown l i way).1, fun y st there owns => ?_⟩
      rcases Table.get?_of_modify there with ⟨st', here, rfl | rfl⟩
      · exact (hs.shown l i way).2 y st here owns
      · refine (hs.shown l i way).2 y st' here ?_
        rcases kept st' with ⟨next, auxiliary, -⟩
        exact owns.imp (next ▸ ·) (auxiliary ▸ ·) }

theorem openLink (hs : Confined e ρ s) {lk : Link} (empty : lk.queue = []) :
    Confined e ρ { s with links := s.links.push lk } :=
  { hs with
    queued := fun k k' there r hr => by
      rcases Table.get?_of_push there with ⟨-, rfl⟩ | there
      · rw [empty] at hr
        cases hr
      · exact hs.queued k k' there r hr
    shown := fun l i way =>
      ⟨(hs.shown l i way).1.trans (by simp [Table.next_push]), (hs.shown l i way).2⟩
    leads := fun l i way k' dest there => by
      rcases Table.get?_of_push there with ⟨rfl, -⟩ | there
      · exact absurd (hs.shown _ i way).1 (lt_irrefl _)
      · exact hs.leads l i way k' dest there }

/-- A new stub has new links only. -/
theorem openStub (hs : Confined e ρ s) {st : Stub} (unparked : st.parked = [])
    (new : ∀ l i, ρ = .link l i → ¬st.Owns l) :
    Confined e ρ { s with stubs := s.stubs.push st } :=
  { hs with
    parked := fun y st' there r hr => by
      rcases Table.get?_of_push there with ⟨-, rfl⟩ | there
      · rw [unparked] at hr
        cases hr
      · exact hs.parked y st' there r hr
    shown := fun l i way => by
      refine ⟨(hs.shown l i way).1, fun y st' there => ?_⟩
      rcases Table.get?_of_push there with ⟨-, rfl⟩ | there
      · exact new l i way
      · exact (hs.shown l i way).2 y st' there }

/-- Other links may be paired. -/
theorem pair (hs : Confined e ρ s) (l : LinkId) (dest : InterfaceId)
    (other : ∀ l' i, ρ = .link l' i → l' ≠ l) :
    Confined e ρ { s with links := s.links.modify l fun lk => { lk with dest := some dest } } :=
  { hs with
    queued := fun k k' there r hr => by
      rcases Table.get?_of_modify there with ⟨lk, here, rfl | rfl⟩
      · exact hs.queued k k' here r hr
      · exact hs.queued k lk here r hr
    shown := fun k i way => by simpa using hs.shown k i way
    leads := fun k i way k' dest' there => by
      rw [Table.get?_modify, if_neg (Ne.symm (other k i way))] at there
      exact hs.leads k i way k' dest' there }

end Confined

theorem sublist_of_eq {α : Type} {as bs : List α} (h : as = bs) : as.Sublist bs := h ▸ .refl _

/-- Data stays on its route, and nothing is added to it. -/
structure Thins (e : EndpointId) (ρ : Route) (s t : Traffic) : Prop where
  confined : Confined e ρ t
  recorded : seen t.trace = seen s.trace
  arrived : (ρ.arrived t.interfaces).Sublist (ρ.arrived s.interfaces)
  queued : (ρ.queued t.links).Sublist (ρ.queued s.links)
  parked : (ρ.parked t.stubs).Sublist (ρ.parked s.stubs)

namespace Thins

theorem trans (h : Thins e ρ s t) (g : Thins e ρ t u) : Thins e ρ s u where
  confined := g.confined
  recorded := g.recorded.trans h.recorded
  arrived := g.arrived.trans h.arrived
  queued := g.queued.trans h.queued
  parked := g.parked.trans h.parked

theorem refl (hs : Confined e ρ s) : Thins e ρ s s := ⟨hs, rfl, .refl _, .refl _, .refl _⟩

end Thins

theorem queued_modify (links : Table Link) (l : LinkId) {g : Link → Link}
    (kept : ∀ lk, (g lk).queue = lk.queue) : ρ.queued (links.modify l g) = ρ.queued links := by
  cases ρ with
  | stub x => rfl
  | link k i => exact Table.listAt_modify (fun lk => by rw [kept]) k

theorem parked_modify (stubs : Table Stub) (x : StubId) {g : Stub → Stub}
    (kept : ∀ st, (g st).parked = st.parked) : ρ.parked (stubs.modify x g) = ρ.parked stubs := by
  cases ρ with
  | stub y => exact Table.listAt_modify (fun st => by rw [kept]) y
  | link k i => rfl

theorem queued_push {links : Table Link} {lk : Link} (empty : lk.queue = []) :
    ρ.queued (links.push lk) = ρ.queued links := by
  cases ρ with
  | stub x => rfl
  | link l i => exact Table.listAt_push (by simp [empty]) l

theorem queued_set {l : LinkId} {lk : Link} (here : s.links.get? l = some lk) (lk' : Link) :
    (∃ i, ρ = .link l i ∧ ρ.queued s.links = lk.queue.flatMap Request.data ∧
      ρ.queued (s.links.set l lk') = lk'.queue.flatMap Request.data) ∨
    (∀ i, ρ ≠ .link l i) ∧ ρ.queued (s.links.set l lk') = ρ.queued s.links := by
  cases ρ with
  | stub x => exact .inr ⟨fun i => by simp, rfl⟩
  | link k i =>
    by_cases same : l = k
    · subst same
      refine .inl ⟨i, rfl, Table.listAt_of here, ?_⟩
      exact (Table.listAt_set here lk' l).trans (if_pos rfl)
    · refine .inr ⟨fun j way => same (Route.link.inj way).1.symm, ?_⟩
      exact (Table.listAt_set here lk' k).trans (if_neg same)

/-- What is noted of requests and told by handles is no data. -/
theorem Confined.tell (hs : Confined e ρ s) (handles : Table (Option Outcome))
    {marks : List Happening} (mute : ∀ x ∈ marks, x.isMute = true) :
    Thins e ρ s { s with handles, trace := s.trace ++ marks.toArray } :=
  ⟨{ hs with }, seen_mute mute _, .refl _, .refl _, .refl _⟩

theorem Confined.rig (hs : Confined e ρ s) (h : Rig s t) : Thins e ρ s t := by
  cases h with
  | note x still =>
    refine ⟨{ hs with }, ?_, .refl _, .refl _, .refl _⟩
    rw [seen_push, Happening.data_of_mute (Happening.isMute_of_isStill still), List.append_nil]
  | pair x st l dest here next =>
    have paired := hs.pair l dest fun l' i way same => by
      subst same
      exact (hs.shown l' i way).2 x st here (.inl next)
    have connected := paired.modifyStub x (fun t => { t with localConnected := true })
      fun st => ⟨rfl, rfl, rfl⟩
    exact ⟨connected, rfl, .refl _, sublist_of_eq (queued_modify _ _ fun _ => rfl),
      sublist_of_eq (parked_modify _ _ fun _ => rfl)⟩
  | mark x =>
    have marked := hs.modifyStub x (fun t => { t with remoteConnected := true })
      fun st => ⟨rfl, rfl, rfl⟩
    exact ⟨marked, rfl, .refl _, .refl _, sublist_of_eq (parked_modify _ _ fun _ => rfl)⟩
  | number i f n here =>
    refine ⟨hs.setInterface here _ rfl fun m hm => .inl hm, rfl, sublist_of_eq ?_, .refl _, .refl _⟩
    cases ρ with
    | stub y => rfl
    | link l k => exact Table.listAt_set_same here (by rfl) k
  | openLink lk new =>
    exact ⟨hs.openLink new.empty, rfl, .refl _, sublist_of_eq (queued_push new.empty), .refl _⟩
  | openEndpoint ep empty => exact ⟨{ hs with }, rfl, .refl _, .refl _, .refl _⟩
  | linkLane id ep lane lk here new =>
    exact ⟨{ hs.openLink new.empty with }, rfl, .refl _, sublist_of_eq (queued_push new.empty),
      .refl _⟩
  | stubLane id ep lane st lk auxiliary here new new' next aside unmarked unparked unswitched
      able =>
    have later : ∀ l, st.Owns l → s.links.next ≤ l := by
      rintro l (own | own)
      · exact (Option.some.inj (next.symm.trans own)).le
      · rw [aside, Option.map_eq_some_iff] at own
        rcases own with ⟨-, -, rfl⟩
        exact Nat.le_succ _
    have opened := hs.openStub unparked fun l i way own =>
      absurd (hs.shown l i way).1 (Nat.not_lt.2 (later l own))
    have waiting : ρ.parked (s.stubs.push st) = ρ.parked s.stubs := by
      cases ρ with
      | stub y => exact Table.listAt_push (by simp [unparked]) y
      | link l i => rfl
    cases auxiliary with
    | none =>
      exact ⟨{ opened.openLink new.empty with }, rfl, .refl _, sublist_of_eq (queued_push new.empty),
        sublist_of_eq waiting⟩
    | some lk' =>
      have queued : ρ.queued ((s.links.push lk).push lk') = ρ.queued s.links :=
        (queued_push (new' lk' rfl).empty).trans (queued_push new.empty)
      exact ⟨{ (opened.openLink new.empty).openLink (new' lk' rfl).empty with }, rfl, .refl _,
        sublist_of_eq queued, sublist_of_eq waiting⟩
  | clear id => exact ⟨{ hs with }, rfl, .refl _, .refl _, .refl _⟩
  | cancelFront l lk r queue here front =>
    have taken : Confined e ρ { s with links := s.links.set l { lk with queue } } :=
      hs.setLink here _ rfl fun r' hr => .inl (front ▸ List.mem_cons_of_mem _ hr)
    refine Thins.trans ⟨taken, rfl, .refl _, ?_, .refl _⟩ (taken.tell _ r.mute_cancelNotes)
    rcases queued_set (ρ := ρ) here { lk with queue } with ⟨i, -, before, after⟩ | ⟨-, same⟩
    · rw [before, after, front]
      exact List.sublist_append_right _ _
    · rw [same]
  | closeInterface i f here =>
    refine ⟨{ hs with
        arrived := fun k k' there => hs.arrived k k' (Table.get?_of_erase there)
        handlers := fun k k' there => hs.handlers k k' (Table.get?_of_erase there) },
      ?_, ?_, .refl _, .refl _⟩
    · refine seen_append (fun x hx => ?_) _
      rcases List.mem_map.1 hx with ⟨m, -, rfl⟩
      rfl
    · cases ρ with
      | stub y => exact .refl _
      | link k j => exact Table.listAt_erase_sublist _ _ _ _
  | closeLink l =>
    refine ⟨{ hs with
        queued := fun k k' there => hs.queued k k' (Table.get?_of_erase there)
        shown := fun k i way => by simpa using hs.shown k i way
        leads := fun k i way k' dest there => hs.leads k i way k' dest (Table.get?_of_erase there) },
      rfl, .refl _, ?_, .refl _⟩
    cases ρ with
    | stub y => exact .refl _
    | link k i => exact Table.listAt_erase_sublist _ _ _ _
  | closeStub x =>
    refine ⟨{ hs with
        parked := fun y st there => hs.parked y st (Table.get?_of_erase there)
        shown := fun l i way => ⟨(hs.shown l i way).1, fun y st there =>
          (hs.shown l i way).2 y st (Table.get?_of_erase there)⟩ },
      rfl, .refl _, .refl _, ?_⟩
    cases ρ with
    | stub y => exact Table.listAt_erase_sublist _ _ _ _
    | link k i => exact .refl _
  | closeEndpoint id => exact ⟨{ hs with }, rfl, .refl _, .refl _, .refl _⟩

theorem Confined.rigs (hs : Confined e ρ s) (h : Rigs s t) : Thins e ρ s t := by
  induction h with
  | refl => exact .refl hs
  | tail _ g ih => exact ih.trans (ih.confined.rig g)

/-! ## What comes onto a link and leaves it -/

theorem queued_credits {l : LinkId} {lk : Link} (here : s.links.get? l = some lk) (credits : Nat) :
    ρ.queued (s.links.set l { lk with credits }) = ρ.queued s.links := by
  rcases queued_set (ρ := ρ) here { lk with credits } with ⟨i, -, before, after⟩ | ⟨-, same⟩
  · rw [before, after]
  · exact same

/-- What comes to a link off the route is no data. -/
theorem data_off {l : LinkId} {r : Request} (way : r.isSignal = false → ∃ i, ρ = .link l i)
    (off : ∀ i, ρ ≠ .link l i) : r.data = [] := by
  apply Request.data_of_signal
  by_contra data
  rcases way (Bool.eq_false_iff.2 data) with ⟨i, h⟩
  exact off i h

theorem queued_snoc {l : LinkId} {lk : Link} (here : s.links.get? l = some lk) {r : Request}
    (way : r.isSignal = false → ∃ i, ρ = .link l i) :
    ρ.queued (s.links.set l { lk with queue := lk.queue ++ [r] }) = ρ.queued s.links ++ r.data := by
  rcases queued_set (ρ := ρ) here { lk with queue := lk.queue ++ [r] } with
    ⟨i, -, before, after⟩ | ⟨off, same⟩
  · rw [before, after]
    simp
  · rw [same, data_off way off, List.append_nil]

theorem queued_cons {l : LinkId} {lk : Link} (here : s.links.get? l = some lk) {r : Request}
    (way : r.isSignal = false → ∃ i, ρ = .link l i) :
    ρ.queued (s.links.set l { lk with queue := r :: lk.queue }) = r.data ++ ρ.queued s.links := by
  rcases queued_set (ρ := ρ) here { lk with queue := r :: lk.queue } with
    ⟨i, -, before, after⟩ | ⟨off, same⟩
  · rw [before, after]
    rfl
  · rw [same, data_off way off, List.nil_append]

theorem queued_front {l : LinkId} {lk : Link} (here : s.links.get? l = some lk) {r : Request}
    {queue : List Request} (front : lk.queue = r :: queue)
    (way : r.isSignal = false → ∃ i, ρ = .link l i) :
    ρ.queued s.links = r.data ++ ρ.queued (s.links.set l { lk with queue }) := by
  rcases queued_set (ρ := ρ) here { lk with queue } with ⟨i, -, before, after⟩ | ⟨off, same⟩
  · rw [before, after, front]
    rfl
  · rw [same, data_off way off, List.nil_append]

theorem arrived_set {i : InterfaceId} {f : Interface} (here : s.interfaces.get? i = some f)
    (f' : Interface) :
    (∃ l, ρ = .link l i ∧ ρ.arrived s.interfaces = f.inbox.flatMap Message.data ∧
      ρ.arrived (s.interfaces.set i f') = f'.inbox.flatMap Message.data) ∨
    (∀ l, ρ ≠ .link l i) ∧ ρ.arrived (s.interfaces.set i f') = ρ.arrived s.interfaces := by
  cases ρ with
  | stub x => exact .inr ⟨fun l => by simp, rfl⟩
  | link l k =>
    by_cases same : i = k
    · subst same
      refine .inl ⟨l, rfl, Table.listAt_of here, ?_⟩
      exact (Table.listAt_set here f' i).trans (if_pos rfl)
    · refine .inr ⟨fun j way => same (Route.link.inj way).2.symm, ?_⟩
      exact (Table.listAt_set here f' k).trans (if_neg same)

theorem arrived_snoc {i : InterfaceId} {f : Interface} (here : s.interfaces.get? i = some f)
    {m : Message} (way : m.id = Signal.messageId ∨ ∃ l, ρ = .link l i) :
    ρ.arrived (s.interfaces.set i { f with inbox := f.inbox ++ [m] }) =
      ρ.arrived s.interfaces ++ m.data := by
  rcases arrived_set (ρ := ρ) here { f with inbox := f.inbox ++ [m] } with
    ⟨l, -, before, after⟩ | ⟨off, same⟩
  · rw [before, after]
    simp
  · rcases way with signal | ⟨l, h⟩
    · rw [same, Message.data, if_pos signal, List.append_nil]
    · exact absurd h (off l)

theorem arrived_front {i : InterfaceId} {f : Interface} (here : s.interfaces.get? i = some f)
    {m : Message} {inbox : List Message} (front : f.inbox = m :: inbox)
    (way : m.id = Signal.messageId ∨ ∃ l, ρ = .link l i) :
    ρ.arrived s.interfaces = m.data ++ ρ.arrived (s.interfaces.set i { f with inbox }) := by
  rcases arrived_set (ρ := ρ) here { f with inbox } with ⟨l, -, before, after⟩ | ⟨off, same⟩
  · rw [before, after, front]
    rfl
  · rcases way with signal | ⟨l, h⟩
    · rw [same, Message.data, if_pos signal, List.nil_append]
    · exact absurd h (off l)

/-! ## Work to do -/

theorem leaves_of_bare {j : Job} (bare : j.isBare = true) : ρ.Leaves e j := by
  cases j with
  | attempt | conclude | add | handle => cases bare
  | _ => trivial

theorem added_of_bare {jobs : List Job} (bare : ∀ k ∈ jobs, k.isBare = true) :
    jobs.flatMap Job.added = [] :=
  List.flatMap_eq_nil_iff.2 fun k hk => by
    cases k with
    | add => cases bare _ hk
    | _ => rfl

theorem does_of_leaves {j : Job} {links : Table Link} (h : ρ.Leaves e j) : ρ.Does e links j := by
  cases j with
  | attempt | conclude | handle => exact absurd h id
  | _ => exact h

theorem idle_of_leaves {jobs : List Job} (h : ∀ k ∈ jobs, ρ.Leaves e k) :
    jobs.flatMap Job.handled = [] ∧ jobs.flatMap Job.attempted = [] := by
  constructor <;>
  · refine List.flatMap_eq_nil_iff.2 fun k hk => ?_
    cases k with
    | attempt | conclude | handle => exact absurd (h _ hk) id
    | _ => rfl

theorem stream_cons {j : Job} {rest : List Job} (top : s.agenda = j :: rest)
    (leaves : ∀ k ∈ rest, ρ.Leaves e k) :
    ρ.stream s = seen s.trace ++ (j.handled ++ (ρ.arrived s.interfaces ++ (j.attempted
      ++ (ρ.queued s.links ++ ((j.added ++ rest.flatMap Job.added) ++ ρ.parked s.stubs))))) := by
  rcases idle_of_leaves leaves with ⟨handled, attempted⟩
  simp [Route.stream, top, handled, attempted]

theorem stream_leaves (leaves : ∀ k ∈ s.agenda, ρ.Leaves e k) :
    ρ.stream s = seen s.trace ++ (ρ.arrived s.interfaces ++ (ρ.queued s.links
      ++ (s.agenda.flatMap Job.added ++ ρ.parked s.stubs))) := by
  rcases idle_of_leaves leaves with ⟨handled, attempted⟩
  simp [Route.stream, handled, attempted]

theorem stream_idle (idle : s.agenda = []) : ρ.stream s =
    seen s.trace ++ (ρ.arrived s.interfaces ++ (ρ.queued s.links ++ ρ.parked s.stubs)) := by
  simp [Route.stream, idle]

namespace Flows

/-- A job that is busy with data stands above what is left to do. -/
theorem of_top (confined : Confined e ρ s) {j : Job} {rest : List Job} (top : s.agenda = j :: rest)
    (does : ρ.Does e s.links j) (leaves : ∀ k ∈ rest, ρ.Leaves e k)
    (order : (seen s.trace ++ (j.handled ++ (ρ.arrived s.interfaces ++ (j.attempted
      ++ (ρ.queued s.links ++ ((j.added ++ rest.flatMap Job.added) ++ ρ.parked s.stubs)))))).Sublist
        sent) : Flows e ρ sent s where
  toConfined := confined
  work j' rest' top' := by
    rw [top] at top'
    cases top'
    exact ⟨does, leaves⟩
  order := by
    rw [stream_cons top leaves]
    exact order

theorem of_leaves (confined : Confined e ρ s) (leaves : ∀ k ∈ s.agenda, ρ.Leaves e k)
    (order : (seen s.trace ++ (ρ.arrived s.interfaces ++ (ρ.queued s.links
      ++ (s.agenda.flatMap Job.added ++ ρ.parked s.stubs)))).Sublist sent) : Flows e ρ sent s where
  toConfined := confined
  work j rest top := by
    rw [top] at leaves
    exact ⟨does_of_leaves (leaves j List.mem_cons_self),
      fun k hk => leaves k (List.mem_cons_of_mem _ hk)⟩
  order := by
    rw [stream_leaves leaves]
    exact order

end Flows

/-- What is left once the job on top is given up. -/
theorem Thins.stream (h : Thins e ρ s t) (handled attempted added left : List Bytes) :
    (seen t.trace ++ (ρ.arrived t.interfaces ++ (ρ.queued t.links
      ++ (left ++ ρ.parked t.stubs)))).Sublist
    (seen s.trace ++ (handled ++ (ρ.arrived s.interfaces ++ (attempted
      ++ (ρ.queued s.links ++ ((added ++ left) ++ ρ.parked s.stubs)))))) := by
  have waiting := (List.sublist_append_right added left).append h.parked
  have queued := (h.queued.append waiting).trans (List.sublist_append_right attempted _)
  have arrived := (h.arrived.append queued).trans (List.sublist_append_right handled _)
  exact (sublist_of_eq h.recorded).append arrived

theorem awaits_way {links : Table Link} {w : Waiter} (h : ρ.Awaits links w) :
    ∃ l i, ρ = .link l i := by
  cases h <;> exact ⟨_, _, rfl⟩

/-- Nothing waits in the queue of a link that has handed data back. -/
theorem retry_order {links : Table Link} {r : Request} {c : Carrier}
    (h : r.isSignal = false → ρ.Awaits links (.retry c)) :
    r.data ++ ρ.queued links = ρ.queued links ++ r.data := by
  cases data : r.isSignal with
  | true => simp [Request.data_of_signal data]
  | false =>
    cases h data with
    | retry l i clear => simp [clear]

theorem awaits_congr {links links' : Table Link} {w : Waiter} (h : ρ.Awaits links w)
    (same : ρ.queued links' = ρ.queued links) : ρ.Awaits links' w := by
  cases h with
  | queue l i => exact .queue l i
  | retry l i clear => exact .retry l i (same.trans clear)

/-! ## Deeds -/

namespace Flows

variable {j : Job} {rest : List Job}

theorem leaves (hs : Flows e ρ sent s) (top : s.agenda = j :: rest) : ∀ k ∈ rest, ρ.Leaves e k :=
  (hs.work j rest top).2

/-- The stream up to the job on top, the job, and what comes after it. -/
theorem line (hs : Flows e ρ sent s) (top : s.agenda = j :: rest) :
    (seen s.trace ++ (j.handled ++ (ρ.arrived s.interfaces ++ (j.attempted
      ++ (ρ.queued s.links ++ ((j.added ++ rest.flatMap Job.added) ++ ρ.parked s.stubs)))))).Sublist
        sent := by
  rw [← stream_cons top (hs.leaves top)]
  exact hs.order

/-- The job on top is given up while nothing is added to what is on its way. -/
theorem giveUp (hs : Flows e ρ sent s) (top : s.agenda = j :: rest) (thins : Thins e ρ s u)
    (agenda : u.agenda = rest) {jobs : List Job} (bare : ∀ k ∈ jobs, k.isBare = true) :
    Flows e ρ sent { u with agenda := jobs ++ u.agenda } := by
  refine .of_leaves { thins.confined with } (fun k hk => ?_) ?_
  · rcases List.mem_append.1 hk with hk | hk
    · exact leaves_of_bare (bare k hk)
    · exact hs.leaves top k (agenda ▸ hk)
  · simp only [List.flatMap_append, added_of_bare bare, List.nil_append, agenda]
    exact (thins.stream j.handled j.attempted j.added _).trans (hs.line top)

/-- An attempt at a signal stands above what is left to do. -/
theorem of_signal (confined : Confined e ρ s) {m : Send} {w : Waiter}
    (top : s.agenda = .attempt (.send m) w :: rest) (signal : m.messageId = Signal.messageId)
    (leaves : ∀ k ∈ rest, ρ.Leaves e k)
    (order : (seen s.trace ++ (ρ.arrived s.interfaces ++ (ρ.queued s.links
      ++ (rest.flatMap Job.added ++ ρ.parked s.stubs)))).Sublist sent) : Flows e ρ sent s := by
  have isSignal : (Request.send m).isSignal = true := by simp [Request.isSignal, signal]
  have sends : (Request.send m).Sends e := by
    refine ⟨Request.isPlain_send m, fun m' inner _ => ?_, fun m' inner data => ?_⟩
    · cases inner
      exact signal
    · rw [isSignal] at data
      cases data
  refine .of_top confined top ⟨sends, fun data => ?_⟩ leaves ?_
  · rw [isSignal] at data
    cases data
  · have none : (Job.attempt (.send m) w).attempted = [] := Request.data_of_signal isSignal
    simpa only [none, Job.handled, Job.added, List.nil_append] using order

theorem ask (hs : Flows e ρ sent s) (top : s.agenda = j :: rest) (thins : Thins e ρ s u)
    (agenda : u.agenda = rest) {jobs : List Job} (bare : ∀ k ∈ jobs, k.isBare = true) {m : Send}
    (signal : m.messageId = Signal.messageId) :
    Flows e ρ sent { u with
      handles := u.handles.push none
      agenda := .attempt (.send m) (.endpoint m.endpoint) :: jobs ++ u.agenda } := by
  refine .of_signal { thins.confined with } List.cons_append signal (fun k hk => ?_) ?_
  · rcases List.mem_append.1 hk with hk | hk
    · exact leaves_of_bare (bare k hk)
    · exact hs.leaves top k (agenda ▸ hk)
  · simp only [List.flatMap_append, added_of_bare bare, agenda, List.nil_append]
    exact (thins.stream j.handled j.attempted j.added _).trans (hs.line top)

theorem deliver (hs : Flows e ρ sent s) {i : InterfaceId} {f : Interface} {m : Message}
    {inbox : List Message} {left : Nat} (top : s.agenda = .deliver i (left + 1) :: rest)
    (here : s.interfaces.get? i = some f) (front : f.inbox = m :: inbox) :
    Flows e ρ sent { s with
      interfaces := s.interfaces.set i { f with inbox }
      trace := s.trace.push (.delivered i m)
      agenda := (f.handlers.lookup m.id).toList.map (fun h => .handle h m)
        ++ [.giveBack m.sender, .deliver i left] ++ rest } := by
  have line := hs.line top
  rw [arrived_front here front (hs.arrived i f here m (by simp [front]))] at line
  have confined : Confined e ρ { s with interfaces := s.interfaces.set i { f with inbox } } :=
    hs.setInterface here _ rfl fun m' hm => .inl (front ▸ List.mem_cons_of_mem _ hm)
  have recorded : seen (s.trace.push (.delivered i m)) = seen s.trace := by
    rw [seen_push]
    exact List.append_nil _
  have leaves : ∀ k ∈ Job.giveBack m.sender :: .deliver i left :: rest, ρ.Leaves e k := by
    intro k hk
    rcases List.mem_cons.1 hk with rfl | hk
    · trivial
    · rcases List.mem_cons.1 hk with rfl | hk
      · trivial
      · exact hs.leaves top k hk
  cases found : f.handlers.lookup m.id with
  | none =>
    refine .of_leaves { confined with } leaves ?_
    refine List.Sublist.trans ?_ line
    rw [recorded]
    refine (List.Sublist.refl _).append ?_
    simp only [Job.handled, Job.attempted, Job.added, List.nil_append, List.append_assoc]
    exact List.sublist_append_right _ _
  | some h =>
    have records := hs.handlers i f here _ (Network.lookup_mem found)
    refine .of_top (j := .handle h m) { confined with } rfl records leaves ?_
    refine List.Sublist.trans (sublist_of_eq ?_) line
    rw [recorded]
    simp [Job.handled, Job.attempted, Job.added]

theorem giveBack (hs : Flows e ρ sent s) {l : LinkId} (top : s.agenda = .giveBack l :: rest) :
    Flows e ρ sent { s with
      links := s.links.modify l fun lk => { lk with credits := lk.credits + 1 }
      agenda := rest } := by
  have thins : Thins e ρ s { s with
      links := s.links.modify l fun lk => { lk with credits := lk.credits + 1 }, agenda := rest } := by
    cases here : s.links.get? l with
    | none =>
      rw [Table.modify_of_none here]
      exact ⟨{ hs.toConfined with }, rfl, .refl _, .refl _, .refl _⟩
    | some lk =>
      rw [Table.modify_eq_set here]
      exact ⟨{ hs.setLink here { lk with credits := lk.credits + 1 } rfl fun r hr => .inl hr with },
        rfl, .refl _, sublist_of_eq (queued_credits here _), .refl _⟩
  exact hs.giveUp top thins rfl (List.forall_mem_nil _)

theorem record (hs : Flows e ρ sent s) {log : String} {forward : Option Carrier} {decode : Bool}
    {m : Message} {jobs : List Job} {marks : List Happening}
    (top : s.agenda = .handle (.record log forward decode) m :: rest)
    (bare : ∀ k ∈ jobs, k.isBare = true) (still : ∀ x ∈ marks, x.isStill = true) :
    Flows e ρ sent { s with
      trace := s.trace.push (.recorded log m.id (Network.content decode m.payload))
        ++ marks.toArray
      agenda := jobs ++ rest } := by
  have records : forward = none ∧ m.id ≠ Signal.messageId := (hs.work _ rest top).1
  have recorded : (seen (s.trace.push (.recorded log m.id (Network.content decode m.payload))
      ++ marks.toArray)).Sublist (seen s.trace ++ m.data) := by
    rw [seen_mute fun x hx => Happening.isMute_of_isStill (still x hx), seen_push, Message.data,
      if_neg records.2]
    refine (List.Sublist.refl _).append ?_
    cases decode with
    | true => exact List.nil_sublist _
    | false => exact .refl _
  refine .of_leaves { hs.toConfined with } (fun k hk => ?_) ?_
  · rcases List.mem_append.1 hk with hk | hk
    · exact leaves_of_bare (bare k hk)
    · exact hs.leaves top k hk
  · refine List.Sublist.trans ?_ (hs.line top)
    simp only [Job.handled, Job.attempted, Job.added, List.flatMap_append, added_of_bare bare,
      List.nil_append]
    exact (recorded.append (.refl _)).trans (sublist_of_eq (List.append_assoc ..))

/-- An attempt ends without a message. -/
theorem answer (hs : Flows e ρ sent s) {r : Request} {w : Waiter}
    (top : s.agenda = .attempt r w :: rest) (o : Outcome) :
    Flows e ρ sent { s with agenda := .conclude r.taken o w :: rest } := by
  have does : r.Sends e ∧ (r.isSignal = false → ρ.Awaits s.links w) := (hs.work _ rest top).1
  rw [does.1.taken]
  refine .of_top { hs.toConfined with } rfl does (hs.leaves top) ?_
  refine List.Sublist.trans ?_ (hs.line top)
  have less : (Job.conclude r o w).attempted.Sublist (Job.attempt r w).attempted := by
    simp only [Job.attempted]
    split
    · exact .refl _
    · exact List.nil_sublist _
  exact (List.Sublist.refl _).append ((List.Sublist.refl _).append ((List.Sublist.refl _).append
    (less.append (.refl _))))

/-- What an attempt sends over the link of the route is a signal, or data of the endpoint. -/
theorem accept (hs : Flows e ρ sent s) {r : Request} {w : Waiter} {c : Carrier} {messageId : UInt8}
    {payload : Bytes} {source : Option HandleId} {l : LinkId}
    (serves : ∀ k i, ρ = .link k i → ∀ ep c, s.endpoints.get? e = some ep →
      ep.slots.messages = some c → c = .link k)
    (top : s.agenda = .attempt r w :: rest) (sends : Traffic.Sends s r c messageId payload source)
    (carries : Carries s l messageId c)
    (transmits : Transmits { s with agenda := .conclude r.taken (.ok ()) w :: rest } l messageId
      payload source t) : Flows e ρ sent t := by
  have does : r.Sends e ∧ (r.isSignal = false → ρ.Awaits s.links w) := (hs.work _ rest top).1
  rw [does.1.taken] at transmits
  cases transmits with
  | intro lk credits dest f here credit leads there =>
    -- data goes where the route leads
    have route : r.data = (Message.mk messageId payload l).data ∧
        (messageId = Signal.messageId ∨ ∃ k, ρ = .link k dest) := by
      cases sends with
      | script c send inner sending => exact absurd inner (does.1.plain c)
      | send m ep c inner at_ slot =>
        cases data : r.isSignal with
        | true =>
          have signal := does.1.signal m inner data
          rw [Request.data_of_signal data, Message.data, if_pos signal]
          exact ⟨rfl, .inl signal⟩
        | false =>
          rw [does.1.own m inner data] at at_
          rcases awaits_way (does.2 data) with ⟨k, i, rfl⟩
          cases serves k i rfl ep c at_ slot
          cases carries
          cases hs.leads _ i rfl lk dest here leads
          refine ⟨?_, .inr ⟨_, rfl⟩⟩
          cases r with
          | send m' =>
            cases inner
            have other : m.messageId ≠ Signal.messageId := by simpa [Request.isSignal] using data
            simp [Request.data, data, Message.data, other]
          | scripted c => exact absurd inner (by simp [Request.inner?])
          | counted | spent => cases data
    have sent' := hs.setLink here { lk with credits } rfl fun r hr => .inl hr
    have confined := sent'.setInterface there
      { f with inbox := f.inbox ++ [⟨messageId, payload, l⟩] } rfl fun m hm => by
        rcases List.mem_append.1 hm with old | new
        · exact .inl old
        · rw [List.mem_singleton.1 new]
          exact .inr route.2
    have same := queued_credits (ρ := ρ) here credits
    refine .of_top (j := .conclude r (.ok ()) w) { confined with } rfl
      ⟨does.1, fun data => awaits_congr (does.2 data) same⟩ (hs.leaves top) ?_
    refine List.Sublist.trans (sublist_of_eq ?_) (hs.line top)
    have arrived := arrived_snoc (ρ := ρ) there (m := ⟨messageId, payload, l⟩) route.2
    simp only [arrived, same]
    simp [seen_push, Happening.data, Job.handled, Job.attempted, Job.added, Outcome.isNoResource,
      route.1]

/-- A request that ran out of resources goes back to the front of the queue. -/
theorem requeue (hs : Flows e ρ sent s) {r : Request} {l : LinkId} {lk : Link}
    (top : s.agenda = .conclude r (.error .noResource) (.queue l) :: rest)
    (here : s.links.get? l = some lk) :
    Flows e ρ sent { s with
      links := s.links.set l { lk with queue := r.unfinished :: lk.queue }
      trace := s.trace ++ (r.answerNotes (.error .noResource)).toArray
      agenda := rest } := by
  have does : r.Sends e ∧ (r.isSignal = false → ρ.Awaits s.links (.queue l)) :=
    (hs.work _ rest top).1
  have way : r.unfinished.isSignal = false → ∃ i, ρ = .link l i := fun data => by
    rcases does.2 (by rwa [Request.isSignal_unfinished] at data) with ⟨-, i⟩
    exact ⟨i, rfl⟩
  have confined := hs.setLink here { lk with queue := r.unfinished :: lk.queue } rfl fun r' hr => by
    rcases List.mem_cons.1 hr with rfl | old
    · exact .inr ⟨does.1.unfinished, way⟩
    · exact .inl old
  refine .of_leaves { confined with } (hs.leaves top) ?_
  refine List.Sublist.trans (sublist_of_eq ?_) (hs.line top)
  simp only [seen_mute (r.mute_answerNotes _), queued_cons here way]
  simp [Job.handled, Job.attempted, Job.added, Outcome.isNoResource, Refusal.isNoResource,
    Request.data_unfinished]

/-- A request that ran out of resources is added again. -/
theorem again (hs : Flows e ρ sent s) {r : Request} {c : Carrier}
    (top : s.agenda = .conclude r (.error .noResource) (.retry c) :: rest) :
    Flows e ρ sent { s with
      trace := s.trace ++ (r.answerNotes (.error .noResource)).toArray
      agenda := .add c r.unfinished :: rest } := by
  have does : r.Sends e ∧ (r.isSignal = false → ρ.Awaits s.links (.retry c)) :=
    (hs.work _ rest top).1
  refine .of_leaves { hs.toConfined with } (fun k hk => ?_) ?_
  · rcases List.mem_cons.1 hk with rfl | hk
    · refine ⟨does.1.unfinished, fun data => ?_⟩
      rcases does.2 (by rwa [Request.isSignal_unfinished] at data) with - | ⟨l, i, -⟩
      exact ⟨l, i, rfl, rfl⟩
    · exact hs.leaves top k hk
  · refine List.Sublist.trans (sublist_of_eq ?_) (hs.line top)
    simp only [seen_mute (r.mute_answerNotes _)]
    simp only [Job.handled, Job.attempted, Job.added, Outcome.isNoResource, Refusal.isNoResource,
      if_true, List.flatMap_cons, Request.data_unfinished, List.nil_append]
    rw [← List.append_assoc r.data, retry_order does.2]
    simp

/-- What does not wait for the link of the route is a signal. -/
theorem concluded (hs : Flows e ρ sent s) {r : Request} {o : Outcome} {w : Waiter}
    (top : s.agenda = .conclude r o w :: rest) (off : ¬ρ.Awaits s.links w) :
    r.Sends e ∧ r.isSignal = true := by
  have does : r.Sends e ∧ (r.isSignal = false → ρ.Awaits s.links w) := (hs.work _ rest top).1
  refine ⟨does.1, ?_⟩
  by_contra data
  exact off (does.2 (Bool.eq_false_iff.2 data))

theorem queueUp (hs : Flows e ρ sent s) {c : Carrier} {r r' : Request} {l : LinkId} {lk : Link}
    (top : s.agenda = .add c r :: rest) (here : s.links.get? l = some lk)
    (sends : r'.Sends e) (same : r'.data = r.data)
    (way : r'.isSignal = false → ∃ i, ρ = .link l i) :
    Flows e ρ sent { s with
      links := s.links.set l { lk with queue := lk.queue ++ [r'] }, agenda := rest } := by
  have confined := hs.setLink here { lk with queue := lk.queue ++ [r'] } rfl fun r'' hr => by
    rcases List.mem_append.1 hr with old | new
    · exact .inl old
    · rw [List.mem_singleton.1 new]
      exact .inr ⟨sends, way⟩
  refine .of_leaves { confined with } (hs.leaves top) ?_
  refine List.Sublist.trans (sublist_of_eq ?_) (hs.line top)
  simp only [queued_snoc here way, same]
  simp [Job.handled, Job.attempted, Job.added]

/-- A carrier takes a request over. -/
theorem add (hs : Flows e ρ sent s) {c : Carrier} {r : Request} (top : s.agenda = .add c r :: rest)
    (taken : Offers { s with agenda := rest } c r t none) : Flows e ρ sent t := by
  have leaves : r.Sends e ∧ (r.isSignal = false → ∃ l i, ρ = .link l i ∧ c = .link l) :=
    (hs.work _ rest top).1
  cases taken with
  | queue r l lk here =>
    refine hs.queueUp top here leaves.1 rfl fun data => ?_
    rcases leaves.2 data with ⟨k, i, way, same⟩
    cases same
    exact ⟨i, way⟩
  | cover r x st l lk stub signal link here =>
    have covered := leaves.1.covered (.inr ⟨signal, st.gate, rfl⟩)
    exact hs.queueUp top here covered.1 covered.2.2 fun data => by cases data
  | promoted r x st l lk stub data switched link here =>
    rcases leaves.2 data with ⟨k, i, -, same⟩
    cases same
  | park r x st here data unswitched =>
    rcases leaves.2 data with ⟨k, i, -, same⟩
    cases same

/-- A carrier hands a request back. -/
theorem handBack (hs : Flows e ρ sent s) {c : Carrier} {r r' : Request}
    (top : s.agenda = .add c r :: rest)
    (back : Offers { s with agenda := rest } c r t (some r')) :
    Flows e ρ sent { t with agenda := .attempt r' (.retry c) :: t.agenda } := by
  have leaves : r.Sends e ∧ (r.isSignal = false → ∃ l i, ρ = .link l i ∧ c = .link l) :=
    (hs.work _ rest top).1
  cases back with
  | back c r r' covered free =>
    rcases leaves.1.covered covered with ⟨sends, signal, data⟩
    have clear : r.isSignal = false → ρ.Awaits s.links (.retry c) := fun data => by
      rcases leaves.2 data with ⟨l, i, rfl, rfl⟩
      refine .retry l i ?_
      cases here : s.links.get? l with
      | none => simp [Route.queued, Table.listAt, here]
      | some lk => simp [Route.queued, Table.listAt, here, free l lk rfl here]
    refine .of_top (j := .attempt r' (.retry c)) { hs.toConfined with } rfl
      ⟨sends, fun h => clear (signal ▸ h)⟩ (hs.leaves top) ?_
    refine List.Sublist.trans (sublist_of_eq ?_) (hs.line top)
    simp only [Job.handled, Job.attempted, Job.added, data, List.nil_append]
    rw [← List.append_assoc r.data, retry_order clear]
    simp

theorem dequeue (hs : Flows e ρ sent s) {r : Request} {l : LinkId} {lk : Link}
    {queue : List Request} (top : s.agenda = .dispatch l :: rest)
    (here : s.links.get? l = some lk) (front : lk.queue = r :: queue) :
    Flows e ρ sent { s with
      links := s.links.set l { lk with queue }, agenda := .attempt r (.queue l) :: rest } := by
  have queued := hs.queued l lk here r (by simp [front])
  have confined := hs.setLink here { lk with queue } rfl fun r' hr =>
    .inl (front ▸ List.mem_cons_of_mem _ hr)
  refine .of_top (j := .attempt r (.queue l)) { confined with } rfl
    ⟨queued.1, fun data => ?_⟩ (hs.leaves top) ?_
  · rcases queued.2 data with ⟨i, rfl⟩
    exact .queue l i
  · have line := hs.line top
    rw [queued_front here front queued.2] at line
    refine List.Sublist.trans (sublist_of_eq ?_) line
    simp [Job.handled, Job.attempted, Job.added]

end Flows

/-! ## Switchovers -/

/-- A stub gives up its links and what it has parked, which is to be added to one of them. -/
def switchedOver (u : Traffic) (x : StubId) (st : Stub) (next : LinkId) (w : WorkerId) : Traffic :=
  { u with
    stubs := u.stubs.set x
      { st with next := none, auxiliary := none, parked := [], promoted := some next }
    endpoints := u.endpoints.modify st.endpoint fun e => Network.promoteSlots e x st.category next
    trace := u.trace.push (.switched x next)
    agenda := Network.replay st w next ++ u.agenda }

theorem added_replay (st : Stub) (w : WorkerId) (next : LinkId) :
    (Network.replay st w next).flatMap Job.added = st.parked.flatMap Request.data := by
  have released : (Network.releaseLink? st.auxiliary).flatMap Job.added = [] :=
    added_of_bare (Network.releaseLink?_bare _)
  simp only [Network.replay, List.flatMap_append, released, List.nil_append, List.flatMap_assoc]
  simp [Job.added]

theorem leaves_replay {st : Stub} {next : LinkId} (w : WorkerId)
    (adds : ∀ r ∈ st.parked, ρ.Leaves e (.add (.link next) r)) :
    ∀ k ∈ Network.replay st w next, ρ.Leaves e k := by
  intro k hk
  simp only [Network.replay, List.mem_append, List.mem_flatMap, List.mem_cons, List.not_mem_nil,
    or_false] at hk
  rcases hk with (hk | ⟨r, hr, rfl | rfl⟩) | rfl | rfl | rfl
  · exact leaves_of_bare (Network.releaseLink?_bare _ k hk)
  · exact adds r hr
  all_goals trivial

/-- A stub that parks nothing may be switched over. -/
theorem Flows.switchAside (hs : Flows e ρ sent s) {x : StubId} {st : Stub} {next : LinkId}
    {w : WorkerId} {rest : List Job} (top : s.agenda = .switchover x :: rest)
    (thins : Thins e ρ s u) (agenda : u.agenda = rest) (here : u.stubs.get? x = some st)
    (unparked : st.parked = []) : Flows e ρ sent (u.switchedOver x st next w) := by
  have leaves : ∀ k ∈ Network.replay st w next ++ u.agenda, ρ.Leaves e k := by
    intro k hk
    rcases List.mem_append.1 hk with hk | hk
    · exact leaves_replay w (by simp [unparked]) k hk
    · exact hs.leaves top k (agenda ▸ hk)
  have confined : Confined e ρ (u.switchedOver x st next w) :=
    { thins.confined with
      parked := fun y st' there r hr => by
        rcases Table.get?_of_set there with ⟨rfl, rfl⟩ | there
        · cases hr
        · exact thins.confined.parked y st' there r hr
      shown := fun l i way => by
        refine ⟨(thins.confined.shown l i way).1, fun y st' there => ?_⟩
        rcases Table.get?_of_set there with ⟨rfl, rfl⟩ | there
        · simp [Stub.Owns]
        · exact (thins.confined.shown l i way).2 y st' there }
  refine .of_leaves confined leaves ?_
  have parked : ρ.parked (u.switchedOver x st next w).stubs = ρ.parked u.stubs := by
    cases ρ with
    | stub y => exact Table.listAt_set_same here (by simp [unparked]) y
    | link l i => rfl
  have recorded : seen (u.switchedOver x st next w).trace = seen u.trace := by
    simp [switchedOver, seen_push, Happening.data]
  have added : (u.switchedOver x st next w).agenda.flatMap Job.added = rest.flatMap Job.added := by
    simp [switchedOver, added_replay, unparked, agenda]
  rw [parked, recorded, added]
  exact (thins.stream _ _ _ _).trans (hs.line top)

/-- Nothing is added while the data is parked. -/
theorem added_parked {x : StubId} {jobs : List Job} (h : ∀ k ∈ jobs, (Route.stub x).Leaves e k) :
    jobs.flatMap Job.added = [] := by
  refine List.flatMap_eq_nil_iff.2 fun k hk => ?_
  cases k with
  | add c r =>
    have leaves : r.Sends e ∧ (r.isSignal = false → ∃ l i, Route.stub x = .link l i ∧ c = .link l) :=
      h _ hk
    apply Request.data_of_signal
    by_contra data
    rcases leaves.2 (Bool.eq_false_iff.2 data) with ⟨l, i, way, -⟩
    cases way
  | _ => rfl

/-- While the data is parked there is none anywhere else. -/
theorem Confined.elsewhere {x : StubId} (hs : Confined e (.stub x) s) (l : LinkId)
    (i : InterfaceId) :
    (Route.link l i).arrived s.interfaces = [] ∧ (Route.link l i).queued s.links = [] := by
  constructor
  · cases here : s.interfaces.get? i with
    | none => simp [Route.arrived, Table.listAt, here]
    | some f =>
      refine (Table.listAt_of here).trans (List.flatMap_eq_nil_iff.2 fun m hm => ?_)
      rcases hs.arrived i f here m hm with signal | ⟨k, way⟩
      · exact if_pos signal
      · cases way
  · cases here : s.links.get? l with
    | none => simp [Route.queued, Table.listAt, here]
    | some lk =>
      refine (Table.listAt_of here).trans (List.flatMap_eq_nil_iff.2 fun r hr => ?_)
      exact data_off (hs.queued l lk here r hr).2 fun k => by simp

/-- The switchover of the stub that parks the data takes all of it to the link that it promotes. -/
theorem Flows.switch {x : StubId} (hs : Flows e (.stub x) sent s) {st : Stub} {next : LinkId}
    {w : WorkerId} {rest : List Job} (top : s.agenda = .switchover x :: rest)
    (thins : Thins e (.stub x) s u) (agenda : u.agenda = rest) (here : u.stubs.get? x = some st)
    (unswitched : st.next = some next) (proper : Proper u) :
    ∃ i, Flows e (.link next i) sent (u.switchedOver x st next w) := by
  let i := ((u.links.get? next).bind Link.dest).getD 0
  have leaves := hs.leaves top
  have confined : Confined e (.link next i) (u.switchedOver x st next w) :=
    { queued := fun l lk there r hr => by
        refine ⟨(thins.confined.queued l lk there r hr).1, fun data => ?_⟩
        rcases (thins.confined.queued l lk there r hr).2 data with ⟨k, way⟩
        cases way
      parked := fun y st' there r hr => by
        have stub : (u.stubs.set x _).get? y = some st' := there
        rw [Table.get?_set_of here] at stub
        split at stub
        · cases stub
          cases hr
        · rename_i apart
          cases (thins.confined.parked y st' stub r hr).2
          exact absurd rfl apart
      arrived := fun k f there m hm => by
        rcases thins.confined.arrived k f there m hm with signal | ⟨l, way⟩
        · exact .inl signal
        · cases way
      handlers := thins.confined.handlers
      shown := fun l k way => by
        cases way
        refine ⟨proper.given x st next here (.inl unswitched), fun y st' there owns => ?_⟩
        have stub : (u.stubs.set x _).get? y = some st' := there
        rw [Table.get?_set_of here] at stub
        split at stub
        · cases stub
          simp [Stub.Owns] at owns
        · rename_i apart
          exact apart (proper.own x y st st' next here stub (.inl unswitched) owns)
      leads := fun l k way lk dest there leads => by
        cases way
        have link : u.links.get? next = some lk := there
        simp [i, link, leads] }
  refine ⟨i, .of_leaves confined (fun k hk => ?_) ?_⟩
  · rcases List.mem_append.1 hk with hk | hk
    · exact leaves_replay w (fun r hr => ⟨(thins.confined.parked x st here r hr).1,
        fun _ => ⟨next, i, rfl, rfl⟩⟩) k hk
    · have old := leaves k (agenda ▸ hk)
      cases k with
      | add c r =>
        refine ⟨old.1, fun data => ?_⟩
        rcases old.2 data with ⟨l, k, way, -⟩
        cases way
      | _ => exact old
  · rcases thins.confined.elsewhere next i with ⟨arrived, queued⟩
    have recorded : seen (u.switchedOver x st next w).trace = seen u.trace := by
      simp [switchedOver, seen_push, Happening.data]
    have added : (u.switchedOver x st next w).agenda.flatMap Job.added =
        st.parked.flatMap Request.data := by
      simp [switchedOver, added_replay, agenda, added_parked leaves]
    have parked : (Route.stub x).parked u.stubs = st.parked.flatMap Request.data :=
      Table.listAt_of here
    have stream := (thins.stream [] [] [] (rest.flatMap Job.added)).trans (hs.line top)
    rw [added_parked leaves, parked] at stream
    have arrived' : (Route.link next i).arrived (u.switchedOver x st next w).interfaces = [] := arrived
    have queued' : (Route.link next i).queued (u.switchedOver x st next w).links = [] := queued
    rw [recorded, added, arrived', queued']
    refine List.Sublist.trans (sublist_of_eq ?_) stream
    simp [Route.arrived, Route.queued, Route.parked]

/-! ## One step -/

/-- The endpoint sends its messages over the link of the route, if there is one. -/
def Serves (e : EndpointId) (ρ : Route) (s : Traffic) : Prop :=
  ∀ l i, ρ = .link l i → ∀ ep c, s.endpoints.get? e = some ep → ep.slots.messages = some c →
    c = .link l

/-- The stub that parks the data gave way to its link, which is the new route. -/
structure Diverted (e : EndpointId) (ρ : Route) (sent : List Bytes) (s t : Traffic) (x : StubId)
    (l : LinkId) (i : InterfaceId) : Prop where
  parked : ρ = .stub x ∧ ρ.parked s.stubs ≠ []
  switched : .switched x l ∈ t.trace ∧ ∃ st, t.stubs.get? x = some st ∧ st.next = none
  flows : Flows e (.link l i) sent t

/-- Every deed keeps the order of the data. The switchover of the stub that parks it changes the
route. -/
theorem Flows.deed (hs : Flows e ρ sent s) (veiled : Veiled s) (serves : Serves e ρ s)
    (h : Deed s t) : Flows e ρ sent t ∨ ∃ x l i, Diverted e ρ sent s t x l i := by
  have below {j : Job} {rest : List Job} (top : s.agenda = j :: rest) {u : Traffic}
      (rigged : Rigs { s with agenda := rest } u) : Thins e ρ s u ∧ u.agenda = rest := by
    have popped : Thins e ρ s { s with agenda := rest } :=
      ⟨{ hs.toConfined with }, rfl, .refl _, .refl _, .refl _⟩
    exact ⟨popped.trans (popped.confined.rigs rigged), rigged.agenda⟩
  have ended {j : Job} {rest : List Job} (top : s.agenda = j :: rest)
      (handles : Table (Option Outcome)) (held : Table Request) {marks : List Happening}
      (mute : ∀ x ∈ marks, x.isMute = true) : Thins e ρ s { s with
        handles, held, trace := s.trace ++ marks.toArray, agenda := rest } :=
    ⟨{ hs.toConfined with }, seen_mute mute _, .refl _, .refl _, .refl _⟩
  cases h with
  | work j rest jobs u top light free rigged bare =>
    exact .inl (hs.giveUp top (below top rigged).1 (below top rigged).2 bare)
  | close j r rest jobs marks handles top ends bare =>
    exact .inl (hs.giveUp top (ended top handles s.held ends.mute) rfl bare)
  | ask w message m rest jobs u top rigged bare signal handle =>
    exact .inl (hs.ask top (below top rigged).1 (below top rigged).2 bare signal)
  | deliver i f m inbox left rest top here front => exact .inl (hs.deliver top here front)
  | giveBack l rest top => exact .inl (hs.giveBack top)
  | record log forward decode m rest jobs marks top bare still =>
    exact .inl (hs.record top bare still)
  | relay log c decode m l rest x t top carries sent still =>
    have records : some c = none ∧ m.id ≠ Signal.messageId := (hs.work _ rest top).1
    cases records.1
  | answer r o w rest top => exact .inl (hs.answer top o)
  | accept r w rest c messageId payload source l t top sends carries sent =>
    exact .inl (hs.accept serves top sends carries sent)
  | holdOff r w rest x messageId payload source jobs top sends data bare =>
    -- signals are not held off, and data is on its way only once the link serves
    have does : r.Sends e ∧ (r.isSignal = false → ρ.Awaits s.links w) := (hs.work _ rest top).1
    generalize stub : Carrier.stub x = c at sends
    cases sends with
    | script c send inner sending => exact absurd inner (does.1.plain c)
    | send m ep c inner here slot =>
      cases signal : r.isSignal with
      | true => exact absurd (does.1.signal m inner signal) data
      | false =>
        rw [does.1.own m inner signal] at here
        rcases awaits_way (does.2 signal) with ⟨l, i, way⟩
        cases stub.trans (serves l i way ep c here slot)
  | requeue r l lk rest top here => exact .inl (hs.requeue top here)
  | again r c rest top => exact .inl (hs.again top)
  | first r e' ep c rest top here slot =>
    rcases hs.concluded top (by rintro ⟨⟩) with ⟨sends, signal⟩
    have unfinished : r.unfinished.data = [] := by
      rw [Request.data_unfinished, Request.data_of_signal signal]
    refine .inl (.of_leaves { hs.toConfined with } (fun k hk => ?_) ?_)
    · rcases List.mem_cons.1 hk with rfl | hk
      · refine ⟨sends.unfinished, fun data => ?_⟩
        rw [Request.isSignal_unfinished, signal] at data
        cases data
      · rcases List.mem_cons.1 hk with rfl | hk
        · trivial
        · exact hs.leaves top k hk
    · refine List.Sublist.trans (sublist_of_eq ?_) (hs.line top)
      simp only [seen_mute (r.mute_answerNotes _)]
      simp [Job.handled, Job.attempted, Job.added, unfinished, Request.data_of_signal signal]
  | returned r h rest top =>
    have thins := ended top s.handles (s.held.set h r.unfinished)
      (r.mute_answerNotes (.error .noResource))
    exact .inl (hs.giveUp top thins rfl (List.forall_mem_nil _))
  | completed r o h rest top done =>
    have thins := ended top (Network.endHandle s.handles r o) (s.held.set h r.finished)
      (r.mute_answerNotes o)
    exact .inl (hs.giveUp top thins rfl (List.forall_mem_nil _))
  | add r c rest t top taken => exact .inl (hs.add top taken)
  | handBack r r' c rest t top back => exact .inl (hs.handBack top back)
  | dequeue r l lk queue rest top here front => exact .inl (hs.dequeue top here front)
  | switch x st next w rest u top rigged here unswitched connected =>
    rcases below top rigged with ⟨thins, agenda⟩
    have lifted : Veiled { s with agenda := rest } := veiled.withAgenda _ fun k hk =>
      veiled.covered.jobs k (top ▸ List.mem_cons_of_mem _ hk)
    have proper := lifted.rigs rigged
    cases waiting : st.parked with
    | nil => exact .inl (hs.switchAside top thins agenda here waiting)
    | cons r rs =>
      -- what a stub parks is data, so that it is the stub of the route
      have first : r ∈ st.parked := waiting ▸ List.mem_cons_self
      rcases thins.confined.parked x st here r first with ⟨sends, way⟩
      have data := Request.data_ne_nil sends.plain (proper.covered.parked x st here r first).1
      have parked : ρ.parked s.stubs ≠ [] := fun none => by
        have thinned := thins.parked
        rw [none, List.sublist_nil, way] at thinned
        have all := (Table.listAt_of here).symm.trans thinned
        exact data (List.flatMap_eq_nil_iff.1 all r first)
      subst way
      rcases hs.switch (w := w) top thins agenda here unswitched proper.toProper with ⟨i, flows⟩
      refine .inr ⟨x, next, i, ⟨rfl, parked⟩, ⟨Array.mem_push_self, ?_⟩, flows⟩
      exact ⟨_, (Table.get?_set_of here _ x).trans (if_pos rfl), rfl⟩

end Traffic

end Wiring
