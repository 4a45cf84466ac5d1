import Mathlib
import Wiring.Proofs.Jobs

/-!
# The layout of a network

The layout of a network says what is wired to what: where links lead, what serves the categories
of the endpoints, how far stubs have come. Messages, credits, queues and parked requests are not
in it. Where nobody handles signals or switches stubs over, work leaves the layout alone, and what
it puts on the agenda is as harmless as what was there.
-/
namespace Wiring

/-- What stays of an interface as long as it lives. -/
structure Face where
  fabric : FabricId
  number : UInt64
  settings : InterfaceSettings

/-- What stays of a link while messages go over it. -/
structure Course where
  owner : InterfaceId
  settings : InterfaceSettings
  dest : Option InterfaceId

def Interface.face (i : Interface) : Face := ⟨i.fabric, i.number, i.settings⟩

def Link.course (l : Link) : Course := ⟨l.owner, l.settings, l.dest⟩

/-- A stub apart from what is parked on it. -/
def Stub.stand (t : Stub) : Stub := { t with parked := [] }

/-- A worker apart from what is parked on its stubs. -/
def Worker.seat (w : Worker) : Worker := { w with parkedCount := 0 }

structure Layout where
  fabric : FabricId → Option Fabric
  face : InterfaceId → Option Face
  course : LinkId → Option Course
  stub : StubId → Option Stub
  endpoint : EndpointId → Option Endpoint
  worker : WorkerId → Option Worker

namespace Table

variable {α β : Type}

theorem map_get?_set {t : Table α} {k : Nat} {a b : α} {f : α → β} (here : t.get? k = some a)
    (same : f b = f a) (i : Nat) : ((t.set k b).get? i).map f = (t.get? i).map f := by
  rw [get?_set_of here]
  split
  · rename_i hk
    rw [← hk, here, Option.map_some, Option.map_some, same]
  · rfl

theorem map_get?_modify {t : Table α} {k : Nat} {f : α → β} {g : α → α}
    (same : ∀ a, f (g a) = f a) (i : Nat) : ((t.modify k g).get? i).map f = (t.get? i).map f := by
  rw [get?_modify]
  split
  · cases t.get? i <;> simp [same]
  · rfl

end Table

/-! ## Harmless requests, messages and jobs -/

/-- The request is no script of the application. -/
def Request.IsPlain (r : Request) : Prop := ∀ c, r.inner? ≠ some (.scripted c)

namespace Request

theorem isPlain_send (m : Send) : (send m).IsPlain := fun c h => by cases h

theorem isPlain_counted {g : GateId} {r : Request} (h : r.IsPlain) : (counted g r).IsPlain := h

theorem isPlain_unfinished {r : Request} (h : r.IsPlain) : r.unfinished.IsPlain := by
  induction r with
  | scripted c => exact absurd rfl (h c)
  | send m => exact h
  | counted g inner ih => exact ih h
  | spent g => exact h

end Request

/-- Recorders that send nothing on, and handlers of signals. -/
def Handler.IsLocal (messageId : UInt8) : Handler → Prop
  | .record _ forward _ => forward = none
  | .signals _ => messageId = Signal.messageId

/-- A message has been put into the inbox of an interface. -/
def Network.Accepted (trace : Array Happening) (dest : InterfaceId) (m : Message) : Prop :=
  ∃ source, .accepted m.sender dest m.id m.payload source ∈ trace

/-- Happenings that make no signal and no switchover. The signals that come into inboxes are sends
of endpoints, and short enough to be read. -/
def Happening.Idle : Happening → Prop
  | .sent _ _ messageId _ => messageId ≠ Signal.messageId
  | .switched _ _ => False
  | .accepted _ _ messageId payload source =>
    messageId = Signal.messageId → source ≠ none ∧ payload.length < UInt64.size
  | _ => True

/-- Work that may be left to do while the layout stays as it is, apart from signals that are
handled and stubs that are switched over. -/
def Job.Tame (trace : Array Happening) : Job → Prop
  | .attempt r _ | .conclude r _ _ | .add _ r => r.IsPlain
  | .handle h m => h.IsLocal m.id ∧ ∃ i, Network.Accepted trace i m
  | .discard _ | .noteForward _ _ | .destroy _ | .confirm _ _ => False
  | _ => True

namespace Network

variable {s t u : Network}

/-- Everything that is not wiring but that the wiring depends on: the application has neither
scripts nor callbacks, posts nothing and keeps all its interfaces and workers, and what lies in
inboxes was put there by links. -/
structure Tidy (s : Network) : Prop where
  posted : ∀ w wk, s.workers.get? w = some wk → wk.posted = []
  callbacks : ∀ c, s.callbacks.get? c = none
  interfaces : ∀ i, s.interfaces.contains i = true → .interface i ∈ s.holds
  workers : ∀ w, s.workers.contains w = true → .worker w ∈ s.holds
  limits : ∀ i f, s.interfaces.get? i = some f → f.settings.maxBulk < UInt64.size
  bulk : ∀ l lk, s.links.get? l = some lk → lk.settings.maxBulk < UInt64.size
  queued : ∀ l lk, s.links.get? l = some lk → ∀ r ∈ lk.queue, r.IsPlain
  parked : ∀ x st, s.stubs.get? x = some st → ∀ r ∈ st.parked, r.IsPlain
  inbox : ∀ i f, s.interfaces.get? i = some f → ∀ m ∈ f.inbox, Accepted s.trace i m
  handlers : ∀ i f, s.interfaces.get? i = some f → ∀ entry ∈ f.handlers,
    entry.2.IsLocal entry.1
  signals : ∀ l dest payload source,
    .accepted l dest Signal.messageId payload source ∈ s.trace →
      source ≠ none ∧ payload.length < UInt64.size

def layout (s : Network) : Layout where
  fabric f := s.fabrics.get? f
  face i := (s.interfaces.get? i).map Interface.face
  course l := (s.links.get? l).map Link.course
  stub x := (s.stubs.get? x).map Stub.stand
  endpoint e := s.endpoints.get? e
  worker w := (s.workers.get? w).map Worker.seat

/-- No signal is made, and what is new on the agenda is tame. -/
structure Mild (s t : Network) : Prop where
  trace : ∃ marks : List Happening, t.trace = s.trace ++ marks.toArray ∧ ∀ x ∈ marks, x.Idle
  tidy : Tidy s → Tidy t
  agenda : ∃ jobs, t.agenda = jobs ++ s.agenda ∧ ∀ j ∈ jobs, j.Tame t.trace

/-- A mild change that leaves the layout as it is. -/
structure Still (s t : Network) : Prop extends Mild s t where
  layout : t.layout = s.layout

/-- What is tame stays tame. -/
theorem tame_mono {trace trace' : Array Happening} (grows : ∀ x ∈ trace, x ∈ trace') {j : Job}
    (h : j.Tame trace) : j.Tame trace' := by
  cases j with
  | handle handler m =>
    rcases h with ⟨hl, i, source, hm⟩
    exact ⟨hl, i, source, grows _ hm⟩
  | _ => exact h

/-- What happens is noted; signals that come into an inbox have to be sends. -/
theorem Tidy.note (hs : Tidy s) {x : Happening}
    (genuine : ∀ l dest payload source, x = .accepted l dest Signal.messageId payload source →
      source ≠ none ∧ payload.length < UInt64.size) : Tidy (s.note x) :=
  { hs with
    inbox := fun i f hf m hm => by
      rcases hs.inbox i f hf m hm with ⟨source, h⟩
      exact ⟨source, Array.mem_push_of_mem _ h⟩
    signals := fun l dest payload source h => by
      rcases Array.mem_push.1 h with h | h
      · exact hs.signals l dest payload source h
      · exact genuine l dest payload source h.symm }

namespace Mild

theorem refl (s : Network) : Mild s s where
  trace := ⟨[], by simp, by simp⟩
  tidy := id
  agenda := ⟨[], rfl, by simp⟩

theorem trans (h : Mild s t) (g : Mild t u) : Mild s u where
  trace := by
    rcases h.trace with ⟨marks, hm, idle⟩
    rcases g.trace with ⟨marks', hm', idle'⟩
    refine ⟨marks ++ marks', by simp [hm, hm'], fun x hx => ?_⟩
    rcases List.mem_append.1 hx with hx | hx
    · exact idle x hx
    · exact idle' x hx
  tidy hs := g.tidy (h.tidy hs)
  agenda := by
    rcases h.agenda with ⟨jobs, hj, tame⟩
    rcases g.agenda with ⟨jobs', hj', tame'⟩
    rcases g.trace with ⟨marks, hm, -⟩
    refine ⟨jobs' ++ jobs, by simp [hj, hj'], fun j h => ?_⟩
    rcases List.mem_append.1 h with h | h
    · exact tame' j h
    · rw [hm]
      exact tame_mono (fun x hx => Array.mem_append_left _ hx) (tame j h)

/-- Nothing happens and nothing is planned. -/
theorem of_tidy (trace : t.trace = s.trace) (agenda : t.agenda = s.agenda)
    (tidy : Tidy s → Tidy t) : Mild s t where
  trace := ⟨[], by simp [trace], by simp⟩
  tidy := tidy
  agenda := ⟨[], agenda, by simp⟩

theorem note {x : Happening} (idle : x.Idle) : Mild s (s.note x) where
  trace := ⟨[x], by simp [Network.note], by simpa using idle⟩
  tidy hs := hs.note fun l dest payload source h => by
    subst h
    exact idle rfl
  agenda := ⟨[], rfl, by simp⟩

theorem push {jobs : List Job} (tame : ∀ j ∈ jobs, j.Tame s.trace) : Mild s (s.push jobs) where
  trace := ⟨[], by simp [Network.push], by simp⟩
  tidy hs := { hs with }
  agenda := ⟨jobs, rfl, tame⟩

theorem setLink {l : LinkId} {lk lk' : Link} (here : s.links.get? l = some lk)
    (settings : lk'.settings = lk.settings) (plain : ∀ r ∈ lk'.queue, r ∈ lk.queue ∨ r.IsPlain) :
    Mild s { s with links := s.links.set l lk' } :=
  .of_tidy rfl rfl fun hs =>
    { hs with
      bulk := fun k k' hk => by
        rw [Table.get?_set_of here] at hk
        split at hk
        · cases hk
          rw [settings]
          exact hs.bulk l lk here
        · exact hs.bulk k k' hk
      queued := fun k k' hk r hr => by
        rw [Table.get?_set_of here] at hk
        split at hk
        · cases hk
          rcases plain r hr with hr | hr
          · exact hs.queued l lk here r hr
          · exact hr
        · exact hs.queued k k' hk r hr }

theorem setInterface {i : InterfaceId} {f f' : Interface} (here : s.interfaces.get? i = some f)
    (settings : f'.settings = f.settings) (handlers : f'.handlers = f.handlers)
    (inbox : ∀ m ∈ f'.inbox, m ∈ f.inbox ∨ Accepted s.trace i m) :
    Mild s { s with interfaces := s.interfaces.set i f' } :=
  .of_tidy rfl rfl fun hs =>
    { hs with
      interfaces := fun k hk => by
        rw [Table.contains_set here] at hk
        exact hs.interfaces k hk
      limits := fun k k' hk => by
        rw [Table.get?_set_of here] at hk
        split at hk
        · cases hk
          rw [settings]
          exact hs.limits i f here
        · exact hs.limits k k' hk
      inbox := fun k k' hk m hm => by
        rw [Table.get?_set_of here] at hk
        split at hk
        · rename_i h
          cases hk
          rcases inbox m hm with hm | hm
          · exact h ▸ hs.inbox i f here m hm
          · exact h ▸ hm
        · exact hs.inbox k k' hk m hm
      handlers := fun k k' hk => by
        rw [Table.get?_set_of here] at hk
        split at hk
        · cases hk
          rw [handlers]
          exact hs.handlers i f here
        · exact hs.handlers k k' hk }

theorem setStub {x : StubId} {st st' : Stub} (here : s.stubs.get? x = some st)
    (plain : ∀ r ∈ st'.parked, r ∈ st.parked ∨ r.IsPlain) :
    Mild s { s with stubs := s.stubs.set x st' } :=
  .of_tidy rfl rfl fun hs =>
    { hs with
      parked := fun y st'' hy r hr => by
        rw [Table.get?_set_of here] at hy
        split at hy
        · cases hy
          rcases plain r hr with hr | hr
          · exact hs.parked x st here r hr
          · exact hr
        · exact hs.parked y st'' hy r hr }

theorem modifyWorker (s : Network) (w : WorkerId) {f : Worker → Worker}
    (posted : ∀ wk, (f wk).posted = wk.posted) :
    Mild s { s with workers := s.workers.modify w f } :=
  .of_tidy rfl rfl fun hs =>
    { hs with
      posted := fun v wk hv => by
        rcases Table.get?_of_modify hv with ⟨wk', hv', rfl | rfl⟩
        · exact hs.posted v wk hv'
        · exact (posted wk').trans (hs.posted v wk' hv')
      workers := fun v hv => hs.workers v (by rwa [Table.contains_modify] at hv) }

end Mild

namespace Still

theorem refl (s : Network) : Still s s := ⟨.refl s, rfl⟩

theorem trans (h : Still s t) (g : Still t u) : Still s u :=
  ⟨h.toMild.trans g.toMild, g.layout.trans h.layout⟩

theorem foldl {α : Type} {f : Network → α → Network} (h : ∀ s a, Still s (f s a)) (as : List α)
    (s : Network) : Still s (as.foldl f s) := by
  induction as generalizing s with
  | nil => exact refl s
  | cons a as ih => exact (h s a).trans (ih _)

/-- What is counted, kept or registered is not wiring. -/
theorem books (s : Network) (handles : Table (Option Outcome)) (gates : Table Nat)
    (held : Table Request) (registries : Table Registry) (tally : Nat) (verdict : Outcome)
    (violation : Option Violation) :
    Still s { s with handles, gates, held, registries, tally, verdict, violation } :=
  ⟨.of_tidy rfl rfl fun hs => { hs with }, rfl⟩

theorem note {x : Happening} (idle : x.Idle) : Still s (s.note x) := ⟨.note idle, rfl⟩

theorem push {jobs : List Job} (tame : ∀ j ∈ jobs, j.Tame s.trace) : Still s (s.push jobs) :=
  ⟨.push tame, rfl⟩

theorem setLink {l : LinkId} {lk lk' : Link} (here : s.links.get? l = some lk)
    (course : lk'.course = lk.course) (plain : ∀ r ∈ lk'.queue, r ∈ lk.queue ∨ r.IsPlain) :
    Still s { s with links := s.links.set l lk' } := by
  have same := Table.map_get?_set (f := Link.course) here course
  refine ⟨.setLink here (congrArg Course.settings course) plain, ?_⟩
  simp only [Network.layout, same]

theorem setInterface {i : InterfaceId} {f f' : Interface} (here : s.interfaces.get? i = some f)
    (face : f'.face = f.face) (handlers : f'.handlers = f.handlers)
    (inbox : ∀ m ∈ f'.inbox, m ∈ f.inbox ∨ Accepted s.trace i m) :
    Still s { s with interfaces := s.interfaces.set i f' } := by
  have same := Table.map_get?_set (f := Interface.face) here face
  refine ⟨.setInterface here (congrArg Face.settings face) handlers inbox, ?_⟩
  simp only [Network.layout, same]

theorem setStub {x : StubId} {st st' : Stub} (here : s.stubs.get? x = some st)
    (stand : st'.stand = st.stand) (plain : ∀ r ∈ st'.parked, r ∈ st.parked ∨ r.IsPlain) :
    Still s { s with stubs := s.stubs.set x st' } := by
  have same := Table.map_get?_set (f := Stub.stand) here stand
  refine ⟨.setStub here plain, ?_⟩
  simp only [Network.layout, same]

theorem modifyWorker (s : Network) (w : WorkerId) {f : Worker → Worker}
    (seat : ∀ wk, (f wk).seat = wk.seat) :
    Still s { s with workers := s.workers.modify w f } := by
  have same := Table.map_get?_modify (t := s.workers) (k := w) seat
  refine ⟨.modifyWorker s w fun wk => ?_, ?_⟩
  · have posted : (f wk).seat.posted = wk.seat.posted := by rw [seat]
    exact posted
  · simp only [Network.layout, same]

end Still

end Network

end Wiring
