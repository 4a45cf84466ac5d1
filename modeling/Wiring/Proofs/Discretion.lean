import Mathlib
import Wiring.Proofs.Replay
import Wiring.Proofs.Starts
import Wiring.Proofs.Veil

/-!
# No data before the switchover

An application never sees the links that a stub keeps to itself, so that it cannot name them. As
long as it does not, and whatever it does otherwise, these links carry signals only, the link that
is being wired up carries nothing before both sides have connected, and every other send over the
stub is refused for lack of resources.
-/
namespace Wiring

/-- Whether a stub keeps the link to itself. -/
def Network.hides (s : Network) (l : LinkId) : Bool :=
  s.stubs.any fun st => st.next == some l || st.auxiliary == some l

/-- The operation names links only that there are or have been, and none that a stub keeps to
itself. -/
def Call.isDiscreet (s : Network) (c : Call) : Bool :=
  c.carriers.all fun
    | .link l => decide (l < s.links.next) && !s.hides l
    | .stub _ => true

/-- A run of discreet operations. -/
abbrev Call.Discreet (s : Network) (c : Call) : Prop := c.isDiscreet s = true

/-! ## What keeps the veil -/

namespace Traffic.Veiled

variable {s t : Traffic} {μ : Means}

theorem admits_scripted {c : Script} (shows : ∀ k ∈ μ.carriers, s.veil.Shows k)
    (names : ∀ send, c.sending = some send → send.carrier ∈ μ.carriers) :
    s.veil.Admits (.scripted c) := by
  intro c' send inner sending
  cases inner
  exact shows _ (names send sending)

theorem eraseHeld (hs : Veiled s) (h : HeldId) : Veiled { s with held := s.held.erase h } :=
  hs.sheds (.of_stubs le_rfl rfl) fun c => { c with
    held := fun k r there => c.held k r (Table.get?_of_erase there) }

/-- A request that the application makes or has names nothing that is hidden. -/
theorem takes (hs : Veiled s) (shows : ∀ k ∈ μ.carriers, s.veil.Shows k) {r : Request}
    (h : Takes μ s r t) : Veiled t ∧ t.veil = s.veil ∧ s.veil.Admits r := by
  cases h with
  | fresh c script brought names => exact ⟨hs, rfl, script ▸ admits_scripted shows names⟩
  | held h here used => exact ⟨hs.eraseHeld h, rfl, hs.covered.held h r here⟩

theorem hold (hs : Veiled s) {r : Request} (admits : s.veil.Admits r) :
    Veiled { s with held := s.held.push r } := by
  refine hs.sheds (.of_stubs le_rfl rfl) fun c => { c with held := fun h r' here => ?_ }
  rcases Table.get?_of_push here with ⟨-, rfl⟩ | here
  · exact admits
  · exact c.held h r' here

theorem holdAll (hs : Veiled s) {rs : List Request} (admits : ∀ r ∈ rs, s.veil.Admits r) :
    Veiled { s with held := rs.foldl Table.push s.held } := by
  induction rs generalizing s with
  | nil => exact hs
  | cons r rs ih =>
    exact ih (hs.hold (admits r List.mem_cons_self)) fun r' hr =>
      admits r' (List.mem_cons_of_mem _ hr)

theorem work (hs : Veiled s) {jobs : List Job} (admits : ∀ j ∈ jobs, s.veil.AdmitsJob j) :
    Veiled { s with agenda := jobs ++ s.agenda } := by
  refine hs.withAgenda _ fun j hj => ?_
  rcases List.mem_append.1 hj with hj | hj
  · exact admits j hj
  · exact hs.covered.jobs j hj

theorem workOne (hs : Veiled s) {j : Job} (admits : s.veil.AdmitsJob j) :
    Veiled { s with agenda := j :: s.agenda } :=
  hs.work (List.forall_mem_singleton.2 admits)

theorem openInterface (hs : Veiled s) {f : Interface} (empty : f.inbox = [])
    (deaf : f.handlers = []) : Veiled { s with interfaces := s.interfaces.push f } := by
  refine hs.sheds (.of_stubs le_rfl rfl) fun c => { c with
    arrived := fun i f' here m hm => ?_, handlers := fun i f' here entry he => ?_ }
  · rcases Table.get?_of_push here with ⟨-, rfl⟩ | here
    · exact absurd (empty ▸ hm) List.not_mem_nil
    · exact c.arrived i f' here m hm
  · rcases Table.get?_of_push here with ⟨-, rfl⟩ | here
    · exact absurd (deaf ▸ he) List.not_mem_nil
    · exact c.handlers i f' here entry he

theorem install (hs : Veiled s) (i : InterfaceId) (messageId : UInt8) {h : Handler}
    (admits : s.veil.AdmitsHandler h) :
    Veiled { s with interfaces := s.interfaces.modify i fun f =>
      { f with handlers :=
          (messageId, h) :: f.handlers.filter fun entry => entry.1 != messageId } } := by
  refine hs.sheds (.of_stubs le_rfl rfl) fun c => { c with
    arrived := fun k f here m hm => ?_, handlers := fun k f here entry he => ?_ }
  · rcases Table.get?_of_modify here with ⟨f', there, rfl | rfl⟩
    · exact c.arrived k f there m hm
    · exact c.arrived k f' there m hm
  · rcases Table.get?_of_modify here with ⟨f', there, rfl | rfl⟩
    · exact c.handlers k f there entry he
    · rcases List.mem_cons.1 he with rfl | he
      · exact admits
      · exact c.handlers k f' there entry (List.mem_filter.1 he).1

theorem act (hs : Veiled s) (shows : ∀ k ∈ μ.carriers, s.veil.Shows k) (h : Act μ s t) :
    Veiled t := by
  cases h with
  | rig t rigged => exact hs.rig rigged
  | work jobs bare => exact hs.work fun j hj => Veil.admitsJob_of_bare (bare j hj)
  | ask m handle => exact (hs.tell (s.handles.push none)).workOne ⟨Veil.admits_send m, trivial⟩
  | openInterface f empty deaf => exact hs.openInterface empty deaf
  | install i messageId h names =>
    refine hs.install i messageId ?_
    cases h with
    | record log forward decode => exact fun c here => shows c (names log c decode (by rw [here]))
    | signals w => trivial
  | lead l lk dest here => exact hs.setLink l _ fun r hr => hs.covered.queued l lk here r hr
  | send c l messageId payload t name carries sent =>
    exact hs.transmits (hs.carries (shows c name) carries) sent
  | bring c brought names => exact hs.hold (admits_scripted shows names)
  | rehold h r here => exact (hs.eraseHeld h).hold (hs.covered.held h r here)
  | cancelHeld h r here used => exact (hs.eraseHeld h).cancel r
  | discardHeld h r here => exact (hs.eraseHeld h).notes r.mute_dropNotes
  | attempt h r here used => exact (hs.eraseHeld h).workOne ⟨hs.covered.held h r here, trivial⟩
  | add c r u name taken =>
    rcases hs.takes shows taken with ⟨hu, same, admits⟩
    exact hu.workOne ⟨same ▸ shows c name, same ▸ admits⟩
  | offer c r u t name taken offered =>
    rcases hs.takes shows taken with ⟨hu, same, admits⟩
    exact (hu.offers (same ▸ shows c name) (same ▸ admits) offered).1
  | offerBack c r r' u t name taken offered =>
    rcases hs.takes shows taken with ⟨hu, same, admits⟩
    rcases hu.offers (same ▸ shows c name) (same ▸ admits) offered with ⟨ht, back⟩
    rcases back r' rfl with ⟨unchanged, names⟩
    exact ht.hold (unchanged ▸ names)
  | offerDrop c r r' u t name taken offered =>
    rcases hs.takes shows taken with ⟨hu, same, admits⟩
    exact (hu.offers (same ▸ shows c name) (same ▸ admits) offered).1.notes r'.mute_dropNotes
  | purge l lk here =>
    have drained := hs.setLink l { lk with queue := [] } (by simp)
    have sheds : Sheds s { s with links := s.links.set l { lk with queue := [] } } :=
      .of_stubs (by simp) rfl
    exact drained.holdAll fun r hr => sheds.later.admits (hs.covered.queued l lk here r hr).2

end Traffic.Veiled

namespace Network

open Traffic (Veiled)

variable {s t u : Network}

theorem shows_of_discreet {c : Call} (discreet : c.isDiscreet s = true) {k : Carrier}
    (named : k ∈ c.carriers) : s.traffic.veil.Shows k := by
  cases k with
  | stub x => trivial
  | link l =>
    have known := List.all_eq_true.1 discreet _ named
    simp only [Bool.and_eq_true, decide_eq_true_eq, Bool.not_eq_true'] at known
    have hidden (g : GateId) : ¬s.traffic.veil.hidden l g := by
      rintro ⟨x, st, here, owns, -⟩
      have hides : s.hides l = true := by
        refine Table.any_iff.2 ⟨x, st, here, ?_⟩
        rcases owns with owns | owns <;> simp [owns]
      rw [hides] at known
      exact absurd known.2 (by simp)
    exact ⟨known.1, hidden, fun unused => (Traffic.hidden_of_unused unused).elim hidden⟩

theorem acts_veiled {τ τ' : Traffic} (hs : Veiled τ) (h : τ.Act {} τ') : Veiled τ' :=
  hs.act (by simp) h

theorem Tends.veiled (h : Tends s t) (hs : Veiled s.traffic) : Veiled t.traffic :=
  (h.starts (μ := {})).keeps hs (fun _ => acts_veiled hs) fun _ _ => acts_veiled

/-- A discreet operation keeps the veil with what it does at once. -/
theorem start_veiled (hs : Veiled s.traffic) {c : Call} (discreet : c.isDiscreet s = true) :
    Veiled (c.start s).traffic :=
  (start_starts s c).keeps hs
    (fun _ act => hs.act (fun _ named => shows_of_discreet discreet named) act) fun _ _ => acts_veiled

/-- Wherever a run of discreet operations comes by, what stubs keep to themselves is veiled. -/
theorem veiled_of_visited (h : Visited Call.Discreet s) : Veiled s.traffic :=
  h.traffic_keeps Veiled.initial
    (fun _ _ _ hs discreet act => hs.act (fun _ named => shows_of_discreet discreet named) act)
    (fun _ _ => acts_veiled) fun _ _ hs deed => hs.deed deed

/-! ## What a stub keeps apart -/

/-- What goes over the links of a stub that has not switched over. -/
structure Separates (s : Network) (st : Stub) (next : LinkId) : Prop where
  /-- Its links have put nothing but signals into inboxes. -/
  accepted : ∀ l, st.Owns l → ∀ dest messageId payload source,
    .accepted l dest messageId payload source ∈ s.trace → messageId = Signal.messageId
  arrived : ∀ l, st.Owns l → ∀ i f, s.interfaces.get? i = some f →
    ∀ m ∈ f.inbox, m.sender = l → m.id = Signal.messageId
  /-- They queue nothing but signals, and nothing else is taken out of their queues. -/
  queued : ∀ l, st.Owns l → ∀ lk, s.links.get? l = some lk → ∀ r ∈ lk.queue, r.isSignal = true
  taken : ∀ l, st.Owns l → ∀ r, .attempt r (.queue l) ∈ s.agenda → r.isSignal = true
  /-- The link that is being wired up has carried nothing before both sides have connected. -/
  unused : st.isConnected = false →
    (∀ dest messageId payload source, .accepted next dest messageId payload source ∉ s.trace) ∧
    (∀ i f, s.interfaces.get? i = some f → ∀ m ∈ f.inbox, m.sender ≠ next) ∧
    (∀ lk, s.links.get? next = some lk → lk.queue = []) ∧
    ∀ r, .attempt r (.queue next) ∉ s.agenda
  /-- The stub parks no signals. -/
  parked : ∀ r ∈ st.parked, r.isSignal = false

theorem separates_of_veiled (hs : Veiled s.traffic) {x : StubId} {st : Stub} {next : LinkId}
    (here : s.stubs.get? x = some st) (unswitched : st.next = some next) :
    Separates s st next where
  accepted l owns dest messageId payload source happened :=
    (hs.covered.accepted l dest messageId payload source happened).sealed _ ⟨x, st, here, owns, rfl⟩
  arrived l owns i f there m hm sender :=
    (hs.covered.arrived i f there m hm).sealed _ ⟨x, st, here, sender ▸ owns, rfl⟩
  queued l owns lk there r hr :=
    ((hs.covered.queued l lk there r hr).1.sealed _ ⟨x, st, here, owns, rfl⟩).isSignal
  taken l owns r hr :=
    (Veil.Bears.sealed (hs.covered.jobs _ hr).2 _ ⟨x, st, here, owns, rfl⟩).isSignal
  unused unconnected := by
    have unused : s.traffic.veil.unused next := ⟨x, st, here, unswitched, unconnected⟩
    refine ⟨fun dest messageId payload source happened => ?_, fun i f there m hm sender => ?_,
      fun lk there => List.eq_nil_iff_forall_not_mem.2 fun r hr => ?_, fun r hr => ?_⟩
    · exact (hs.covered.accepted next dest messageId payload source happened).used unused
    · exact (hs.covered.arrived i f there m hm).used (sender ▸ unused)
    · exact (hs.covered.queued next lk there r hr).1.used unused
    · exact Veil.Bears.used (hs.covered.jobs _ hr).2 unused
  parked r hr := (hs.covered.parked x st here r hr).1

/-! ## What a stub holds off -/

/-- An attempt at the request sends over the stub, and no signal. -/
inductive SendsData (s : Network) (x : StubId) (r : Request) : Prop
  | send (m : Send) (ep : Endpoint) (inner : r.inner? = some (.send m))
      (here : s.endpoints.get? m.endpoint = some ep) (slot : ep.slots.messages = some (.stub x))
      (data : m.messageId ≠ Signal.messageId)
  | script (c : Script) (send : ScriptedSend) (inner : r.inner? = some (.scripted c))
      (answered : c.take.1 = none) (sending : c.sending = some send)
      (goes : send.carrier = .stub x) (live : s.stubs.contains x = true)
      (data : send.messageId ≠ Signal.messageId)

/-- Whoever sends anything but a signal over the stub runs out of resources, after the stub has
tried to switch over. -/
structure HoldsOff (s : Network) (x : StubId) : Prop where
  attempts : ∀ r w rest, s.agenda = .attempt r w :: rest → s.SendsData x r →
    ∃ refs : List Ref, s.step.agenda = [.switchover x, .recount s.tally] ++ refs.map Job.release
      ++ .conclude r.taken (.error .noResource) w :: rest
  forwards : ∀ log decode m rest,
    s.agenda = .handle (.record log (some (.stub x)) decode) m :: rest →
    s.stubs.contains x = true → m.id ≠ Signal.messageId →
    s.step.agenda = [.switchover x, .recount s.tally, .noteForward log (.error .noResource),
      .release (.stub x)] ++ rest

theorem sendOver_data (s : Network) (x : StubId) {messageId : UInt8} (payload : Bytes)
    (source : Option HandleId) (data : messageId ≠ Signal.messageId) :
    s.sendOver (.stub x) messageId payload source = (s, none) := if_pos data

theorem holdsOff_of_calm (calm : s.violation = none) (x : StubId) : HoldsOff s x where
  attempts r w rest top sends := by
    rw [step_eq top calm]
    cases sends with
    | send m ep inner here slot data =>
      refine ⟨[.stub x, .endpoint m.endpoint], ?_⟩
      simp only [perform, attempt, inner, here, slot, attemptOver, sendOver_data _ x _ _ data,
        Request.taken]
      rfl
    | script c send inner answered sending goes live data =>
      refine ⟨[.stub x], ?_⟩
      have sending' := (take_sending c).trans sending
      have live' : isLive { s with agenda := rest } (Carrier.stub x).ref = true := live
      cases take : c.take with
      | mk answer c' =>
        rw [take] at answered sending'
        simp only at answered sending'
        simp only [perform, attempt, inner, take, answered, sending', goes, if_pos live',
          attemptOver, sendOver_data _ x _ _ data, Request.taken]
        rfl
  forwards log decode m rest top live data := by
    have live' : isLive
        { s with
          agenda := rest
          trace := s.trace.push (.recorded log m.id (content decode m.payload)) }
        (.stub x) = true := live
    rw [step_eq top calm]
    simp only [perform, handle, forward, note, Carrier.ref, if_pos live',
      sendOver_data _ x _ _ data]
    rfl

/-! ## What a stub answers -/

/-- Whether an operation sends a signal. -/
def Operation.isSignal : Operation → Bool
  | .bulk messageId _ => messageId == Signal.messageId
  | _ => false

/-- A stub answers an operation that sends no signal with a lack of resources, if it answers. It
does so where the stub is not due, and where what is parked can be handed over for good. -/
structure Refuses (s : Network) (x : StubId) (op : Operation) : Prop where
  answer : ∀ t a, s.operate (.stub x) op = (t, .ok a) → a = .error .noResource
  outright : ¬Due (s.caughtUp x) x → s.operate (.stub x) op =
    ({ s.caughtUp x with tally := 0 }, .ok (.error .noResource))
  switching : Due (s.caughtUp x) x →
    (∀ st, s.stubs.get? x = some st → ∀ r ∈ st.parked, s.Settles x st r) →
    ∃ t, s.operate (.stub x) op = (t, .ok (.error .noResource)) ∧ s.progressStub x = (t, .ok true)

/-- An operation over a stub that sends no signal tries to switch it over, and answers with a lack of
resources. -/
theorem operate_data {x : StubId} {op : Operation} (data : op.isSignal = false) :
    s.operate (.stub x) op =
      ((s.progressStub x).1, (s.progressStub x).2.map fun _ => .error .noResource) := by
  have tries : s.operate (.stub x) op = s.carryOut [.switchover x] fun _ => .error .noResource := by
    cases op with
    | bulk messageId payload =>
      have data : messageId ≠ Signal.messageId := beq_eq_false_iff_ne.1 data
      simp only [operate, sendOver_data s x payload none data]
    | _ => rfl
  rw [tries]
  simp only [progressStub, carryOut, settle]
  split
  · rfl
  · split <;> rfl

theorem refuses_of_rested (hs : Minded s) (rested : Rested True s) (x : StubId) {op : Operation}
    (data : op.isSignal = false) : Refuses s x op where
  answer t a ran := by
    rw [operate_data data] at ran
    generalize s.progressStub x = tried at ran
    rcases tried with ⟨u, b⟩
    cases b <;> cases ran
    rfl
  outright due := by
    rw [operate_data data, progressStub_of_not_due hs.recorded rested due]
    rfl
  switching due settles := by
    rcases progressStub_of_settles hs rested due settles with ⟨t, ran⟩
    refine ⟨t, ?_, ran⟩
    rw [operate_data data, ran]
    rfl

theorem minded_of_journey {fits : Network → Call → Prop} (h : Journey fits s) : Minded s := by
  rcases leads_of_reachable (fun _ _ => .inl trivial) h.reachable with ⟨process, leads⟩
  exact (Minded.initial process).moves leads.moves

/-- From the creation of a stub up to its switchover its links carry signals only, the link that is
being wired up carries nothing before both sides have connected, and no signal is parked: between
two operations, and in the middle of each. Every other send over the stub is refused for lack of
resources, whether it is made by an operation, by an attempt at a request, or by a recorder; so is
the one that sets the switchover off. -/
theorem no_data_before_switchover (h : Visited Call.Discreet s) (x : StubId) :
    (∀ st next, s.stubs.get? x = some st → st.next = some next → Separates s st next) ∧
    HoldsOff s x ∧
    (Journey Call.Discreet s → ∀ op : Operation, op.isSignal = false → Refuses s x op) := by
  refine ⟨fun st next here unswitched => separates_of_veiled (veiled_of_visited h) here unswitched,
    holdsOff_of_calm h.calm x, fun journey op data => ?_⟩
  exact refuses_of_rested (minded_of_journey journey) journey.rested x data

/-- A pair whose stub has two requests parked, is connected to the other worker, and has only to be
told that the other worker has connected. -/
def waitingPair : Option Network :=
  Call.runFitting (fun s c => c.isDiscreet s) { process := 1 } (Call.pair 1
    ++ [.addPending (.stub 0) (.fresh stubborn), .addPending (.stub 0) (.fresh { name := "other" })]
    ++ Call.pairUp)

/-- An operation sets the switchover off, and is refused all the same. -/
theorem no_data_before_switchover_waiting : ∃ s st, waitingPair = some s ∧
    Journey Call.Discreet s ∧ s.stubs.get? 0 = some st ∧ st.next = some 1 ∧
    st.isConnected = false ∧ st.parked = [.scripted stubborn, .scripted { name := "other" }] ∧
    Separates s st 1 ∧ HoldsOff s 0 ∧
    ∃ t, s.operate (.stub 0) (.other "put_short") = (t, .ok (.error .noResource)) ∧
      s.progressStub 0 = (t, .ok true) := by
  have known : (waitingPair.bind fun s => (s.stubs.get? 0).map fun st =>
      decide (st.next = some 1 ∧ st.isConnected = false ∧
        st.parked = [.scripted stubborn, .scripted { name := "other" }])) = some true := by
    decide +kernel
  have answer : (waitingPair.bind fun s => (s.progressStub 0).2.toOption) = some true := by
    decide +kernel
  rcases Option.bind_eq_some_iff.1 known with ⟨s, hs, known⟩
  rcases Option.map_eq_some_iff.1 known with ⟨st, here, known⟩
  rcases of_decide_eq_true known with ⟨next, early, parked⟩
  have journey : Journey Call.Discreet s := Journey.of_runFitting (.start 1) hs
  have kept := no_data_before_switchover (.between journey) 0
  have refused := kept.2.2 journey (.other "put_short") rfl
  rw [hs, Option.bind_some] at answer
  refine ⟨s, st, hs, journey, here, next, early, parked, kept.1 st 1 here next, kept.2.1,
    refused.switching ?_ fun st' here' r hr => ?_⟩
  · by_contra due
    rw [progressStub_of_not_due (minded_of_journey journey).recorded journey.rested due] at answer
    cases answer
  · cases here.symm.trans here'
    rw [parked] at hr
    simp only [List.mem_cons, List.not_mem_nil, or_false] at hr
    rcases hr with rfl | rfl
    · exact .inl ⟨stubborn, rfl, rfl⟩
    · exact .inl ⟨_, rfl, rfl⟩

end Network

end Wiring
