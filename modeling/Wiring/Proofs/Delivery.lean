import Mathlib
import Wiring.Proofs.Discretion
import Wiring.Proofs.Slots
import Wiring.Proofs.Stream

/-!
# Delivery in order

An endpoint whose data has one way to go keeps to it: its slot holds the stub that parks the data,
or the link that the stub gave way to. So whatever operations do, the data goes on in the order in
which it was sent.
-/
namespace Wiring

/-- What the endpoint sends its data over. -/
def Route.carrier : Route → Carrier
  | .stub x => .stub x
  | .link l _ => .link l

namespace Traffic

variable {s t : Traffic} {e : EndpointId} {l : LinkId}

/-! ## Before there is data -/

/-- No data is on its way anywhere, and none was recorded. -/
def Dataless (e : EndpointId) (s : Traffic) : Prop := ∀ x, Flows e (.stub x) [] s

theorem Dataless.deed (hs : Dataless e s) (veiled : Veiled s) (h : Deed s t) : Dataless e t := by
  intro x
  rcases (hs x).deed veiled (fun l i way => by cases way) h with flows | ⟨y, l, i, diverted⟩
  · exact flows
  · have nothing := List.sublist_nil.1 (hs x).order
    simp only [Route.stream, List.append_eq_nil_iff] at nothing
    exact absurd nothing.2.2.2.2.2.2 diverted.parked.2

/-- Where there is no data, a link that belongs to no stub may become its route. -/
theorem Dataless.link (hs : Dataless e s) (idle : s.agenda = []) (given : l < s.links.next)
    (free : ∀ x st, s.stubs.get? x = some st → ¬st.Owns l) :
    ∃ i, Flows e (.link l i) [] s := by
  let i := ((s.links.get? l).bind Link.dest).getD 0
  have confined : Confined e (.link l i) s :=
    { queued := fun k lk here r hr => by
        refine ⟨((hs 0).queued k lk here r hr).1, fun data => ?_⟩
        rcases ((hs 0).queued k lk here r hr).2 data with ⟨j, way⟩
        cases way
      parked := fun x st here r hr => by
        have way := ((hs (x + 1)).parked x st here r hr).2
        exact absurd (Route.stub.inj way) (Nat.succ_ne_self x)
      arrived := fun j f here m hm => by
        refine ((hs 0).arrived j f here m hm).imp_right ?_
        rintro ⟨k, way⟩
        cases way
      handlers := (hs 0).handlers
      shown := fun k j way => by
        cases way
        exact ⟨given, free⟩
      leads := fun k j way lk dest here leads => by
        cases way
        simp [i, here, leads] }
  refine ⟨i, .of_leaves confined (by simp [idle]) ?_⟩
  have nothing := List.sublist_nil.1 (hs 0).order
  simp only [Route.stream, List.append_eq_nil_iff] at nothing
  rcases (hs 0).elsewhere l i with ⟨arrived, queued⟩
  rw [nothing.1, arrived, queued, idle]
  exact .refl _

end Traffic

namespace Network

open Traffic (Veiled Flows Dataless)

variable {s t u : Network} {e : EndpointId} {ρ : Route} {sent : List Bytes} {α : Type}

/-! ## What all work keeps -/

/-- What is known of every network that runs of discreet operations come by. -/
structure Regular (s : Network) : Prop extends Minded s where
  fitted : Fitted s
  veiled : Veiled s.traffic

theorem Regular.initial (process : UInt32) : Regular { process } :=
  ⟨.initial process, .initial process, Veiled.initial process⟩

theorem Regular.moves (hs : Regular s) (h : Moves True s t) (veiled : Veiled t.traffic) :
    Regular t := ⟨hs.toMinded.moves h, hs.fitted.moves h, veiled⟩

theorem Regular.tends (hs : Regular s) (h : Moves True s t) (tends : Tends s t) : Regular t :=
  hs.moves h (tends.veiled hs.veiled)

theorem Regular.step (hs : Regular s) (fit : Fit True s) (calm : s.step.violation = none) :
    Regular s.step := by
  refine hs.moves (fit.step calm).1 ?_
  rcases step_deed calm with same | deed
  · rw [same]
    exact hs.veiled
  · exact hs.veiled.deed deed

/-- A discreet operation leaves a regular network. -/
theorem Regular.call (hs : Regular s) (rested : Rested True s) {c : Call} (discreet : c.Discreet s)
    (permitted : c.Permitted s) (ran : c.run s = (t, .ok ())) : Regular t ∧ Leads True s t := by
  have leads := rested.call (.inl trivial) permitted ran
  refine ⟨hs.moves leads.moves ?_, leads⟩
  rcases Call.run_start ran leads.rested.idle leads.rested.calm with ⟨n, ends⟩
  have worked : Veiled (work n (c.start s)).traffic :=
    work_keeps (fun _ _ hs deed => hs.deed deed) (start_veiled hs.veiled discreet) ends.calm
  rcases ends.held with same | ⟨ref, same⟩
  · exact same ▸ worked
  · rw [same, keep_traffic]
    exact worked

/-! ## Starts of work -/

theorem Tends.thins (h : Tends s t) (hs : Traffic.Confined e ρ s.traffic) :
    Traffic.Thins e ρ s.traffic t.traffic ∧
      ∃ jobs, (∀ k ∈ jobs, k.isBare = true) ∧ t.agenda = jobs ++ s.agenda := by
  rcases h with ⟨jobs, u, rigs, bare, same⟩
  have agenda : t.agenda = jobs ++ u.agenda := congrArg Traffic.agenda same
  rw [rigs.agenda] at agenda
  refine ⟨?_, jobs, bare, agenda⟩
  rw [same]
  have thins := hs.rigs rigs
  exact ⟨{ thins.confined with }, thins.recorded, thins.arrived, thins.queued, thins.parked⟩

/-- Work that has nothing in hand starts without a change to what is on its way. -/
theorem flows_of_tends (hs : Flows e ρ sent s.traffic) (idle : s.agenda = []) (h : Tends s t) :
    Flows e ρ sent t.traffic := by
  rcases h.thins hs.toConfined with ⟨thins, jobs, bare, agenda⟩
  rw [idle, List.append_nil] at agenda
  have leaves : ∀ k ∈ t.traffic.agenda, ρ.Leaves e k := fun k hk =>
    Traffic.leaves_of_bare (bare k (agenda ▸ hk))
  refine .of_leaves thins.confined leaves ?_
  have added : t.traffic.agenda.flatMap Job.added = [] :=
    Traffic.added_of_bare fun k hk => bare k (agenda ▸ hk)
  have order := hs.order
  rw [Traffic.stream_idle idle] at order
  rw [added]
  exact (thins.stream [] [] [] []).trans order

/-! ## Data that keeps to its route -/

/-- The data of an endpoint that has sent goes along a route, and the endpoint's messages too, as
long as they are carried at all. -/
structure Conveys (e : EndpointId) (ρ : Route) (sent : List Bytes) (s : Network) : Prop where
  flows : Flows e ρ sent s.traffic
  told : HasSent s e
  slot : Succeeds s.trace (some ρ.carrier) (s.slot e .messages)

theorem Conveys.serves (hs : Conveys e ρ sent s) : Traffic.Serves e ρ s.traffic := by
  rintro l i rfl ep c here slot
  have slot' : s.slot e .messages = some c := Option.bind_eq_some_iff.2 ⟨ep, here, slot⟩
  have succeeds := hs.slot
  rw [slot'] at succeeds
  cases succeeds with
  | same => rfl
  | switched x k stub => cases stub

/-- A stub is switched over to one link only. -/
theorem Chronicled.switched_unique (hs : Chronicled s) {x : StubId} {l k : LinkId}
    (hl : .switched x l ∈ s.trace) (hk : .switched x k ∈ s.trace) : l = k := by
  by_contra apart
  have two : 2 ≤ switchings s.trace x := by
    have pair : [Happening.switched x l, .switched x k].Subperm
        (s.trace.toList.filter (Happening.switches x)) := by
      refine List.subperm_of_subset (by simp [apart]) fun y hy => ?_
      simp only [List.mem_cons, List.not_mem_nil, or_false] at hy
      rcases hy with rfl | rfl
      · simpa [List.mem_filter, Happening.switches] using hl
      · simpa [List.mem_filter, Happening.switches] using hk
    simpa [switchings, List.countP_eq_length_filter] using pair.length_le
  exact absurd (hs.once x) (by omega)

/-- The slot follows the data to the link that the stub gave way to. -/
theorem Conveys.divert (hs : Conveys e ρ sent s) (regular : Regular t) (moves : Moves True s t)
    (sound : Sound True s) {x : StubId} {l : LinkId} {i : InterfaceId}
    (diverted : Traffic.Diverted e ρ sent s.traffic t.traffic x l i) :
    Conveys e (.link l i) sent t where
  flows := diverted.flows
  told := hs.told.moves moves
  slot := by
    have later := hs.slot.trans (fun x hx => moves.remembers hx)
      (moves.succeeds sound hs.told .messages)
    rw [diverted.parked.1] at later
    rcases diverted.switched with ⟨happened, st, here, switched⟩
    generalize serves : t.slot e .messages = slot at later
    cases later with
    | same =>
      rcases Option.bind_eq_some_iff.1 serves with ⟨ep, there, slot⟩
      rcases regular.fitted e ep .messages x there slot with ⟨st', here', -, -, unswitched⟩
      cases here.symm.trans here'
      exact absurd switched unswitched
    | emptied => exact .emptied
    | switched y k stub happened' =>
      cases stub
      rw [regular.recorded.chronicled.switched_unique happened' happened]
      exact .same

/-- A step of work takes the data further. -/
theorem Conveys.step (hs : Conveys e ρ sent s) (regular : Regular s) (fit : Fit True s)
    (calm : s.step.violation = none) : ∃ ρ', Conveys e ρ' sent s.step := by
  have moves := (fit.step calm).1
  rcases step_deed calm with same | deed
  · rw [same]
    exact ⟨ρ, hs⟩
  · rcases hs.flows.deed regular.veiled hs.serves deed with flows | ⟨x, l, i, diverted⟩
    · exact ⟨ρ, flows, hs.told.moves moves, hs.slot.trans (fun x hx => moves.remembers hx)
        (moves.succeeds fit.sound hs.told .messages)⟩
    · exact ⟨.link l i, hs.divert (regular.step fit calm) moves fit.sound diverted⟩

theorem Conveys.work (hs : Conveys e ρ sent s) (regular : Regular s) (fit : Fit True s)
    {fuel : Nat} (calm : (work fuel s).violation = none) :
    (∃ ρ', Conveys e ρ' sent (work fuel s)) ∧ Regular (work fuel s) := by
  have worked := work_invariant
    (I := fun t => ((∃ ρ', Conveys e ρ' sent t) ∧ Regular t) ∧ Fit True t) (fun t ht calm => ?_)
    ⟨⟨⟨ρ, hs⟩, regular⟩, fit⟩ calm
  · exact worked.1
  · rcases ht with ⟨⟨⟨ρ, hs⟩, regular⟩, fit⟩
    exact ⟨⟨hs.step regular fit calm, regular.step fit calm⟩, (fit.step calm).2⟩

/-! ## Operations that send no data -/

/-- Between operations, what an endpoint has sent is on its way along a route. -/
structure Underway (e : EndpointId) (sent : List Bytes) (s : Network) : Prop where
  conveys : ∃ ρ, Conveys e ρ sent s
  regular : Regular s
  rested : Rested True s

namespace Underway

/-- What was recorded was sent, in that order. -/
theorem recorded (hs : Underway e sent s) : (seen s.trace).Sublist sent := by
  rcases hs.conveys with ⟨ρ, hs⟩
  exact (List.sublist_append_left _ _).trans hs.flows.order

theorem settle (hs : Underway e sent s) {v : Network} (moves : Moves True s t)
    (tends : Tends s t) (idle : v.agenda = []) (grows : Grows v t) {result : Network → α} {a : α}
    (ran : t.settle result = (u, .ok a)) : Underway e sent u := by
  have rested := (hs.rested.settle moves idle grows ran).rested
  rcases settle_ok ran with ⟨rfl, calm, -, -⟩
  rcases hs.conveys with ⟨ρ, conveys⟩
  have fit := hs.rested.fit.start moves idle grows (work_violation calm)
  have started : Conveys e ρ sent t :=
    ⟨flows_of_tends conveys.flows hs.rested.idle tends, conveys.told.moves moves,
      conveys.slot.trans (fun x hx => moves.remembers hx)
        (moves.succeeds hs.regular.recorded.sound conveys.told .messages)⟩
  rcases started.work (hs.regular.tends moves tends) fit calm with ⟨conveys, regular⟩
  exact ⟨conveys, regular, rested⟩

/-- Work that has nothing in hand. -/
theorem plan (hs : Underway e sent s) {jobs : List Job} (plans : Plannable s jobs)
    (bare : ∀ j ∈ jobs, j.isBare = true) {result : Network → α} {a : α}
    (ran : s.carryOut jobs result = (u, .ok a)) : Underway e sent u := by
  have reset : Aside (s.push jobs) (push { s with tally := 0 } jobs) := { Aside.refl _ with }
  have zero : Tends s { s with tally := 0 } := .same rfl
  exact hs.settle (v := { s with tally := 0 }) (plans.moves.trans (Moves.aside reset))
    (zero.trans (.push bare)) hs.rested.idle plans.grows ran

theorem drop (hs : Underway e sent s) {ref : Ref} (ran : s.drop ref = (u, .ok ())) :
    Underway e sent u :=
  hs.settle (letGo_moves s ref) (letGo_tends s ref) hs.rested.idle (letGo_grows s ref) ran

theorem keep (hs : Underway e sent s) (ref : Ref) : Underway e sent (s.keep ref) := by
  have leads := hs.rested.keep ref
  have same := keep_traffic s ref
  rcases hs.conveys with ⟨ρ, conveys⟩
  refine ⟨⟨ρ, same ▸ conveys.flows, conveys.told.moves leads.moves, ?_⟩,
    hs.regular.tends leads.moves (.same same), leads.rested⟩
  exact conveys.slot.trans (fun x hx => leads.moves.remembers hx)
    (leads.moves.succeeds hs.regular.recorded.sound conveys.told .messages)

theorem lookUp (hs : Underway e sent s) (w : WorkerId) (peer : UInt64) :
    Underway e sent (s.lookUp w peer).1 := by
  unfold Network.lookUp
  split
  · exact hs.keep _
  · exact hs

theorem progressOf (hs : Underway e sent s) (w : WorkerId) {n : Nat}
    (ran : s.progressOf w = (u, .ok n)) : Underway e sent u := by
  refine hs.plan (fun j hj => ?_) (fun j hj => ?_) ran
  · rw [List.mem_singleton.1 hj]
    exact .inl ⟨rfl, rfl, by simp⟩
  · rw [List.mem_singleton.1 hj]
    rfl

theorem close (hs : Underway e sent s) (w : WorkerId) (ran : s.close w = (u, .ok ())) :
    Underway e sent u := by
  refine hs.plan (plannable_close hs.rested.fit.sound.live w) (fun j hj => ?_) ran
  rcases List.mem_flatMap.1 hj with ⟨e', -, hj⟩
  simp only [List.mem_cons, List.not_mem_nil, or_false] at hj
  rcases hj with rfl | rfl <;> rfl

theorem progressEndpoint (hs : Underway e sent s) (e' : EndpointId) {n : Nat}
    (ran : s.progressEndpoint e' = (u, .ok n)) : Underway e sent u := by
  rcases progressEndpoint_cases hs.rested.fit.sound.live e' with none | ⟨jobs, work, planned⟩
  · rw [none] at ran
    cases ran
    exact hs
  · refine hs.plan (fun j hj => ?_) (fun j hj => ?_) (work.symm.trans ran)
    · rcases planned j hj with ⟨x, rfl⟩ | ⟨x, rfl, live⟩
      · exact .inl ⟨rfl, rfl, by simp⟩
      · exact .inr ⟨_, rfl, live⟩
    · rcases planned j hj with ⟨x, rfl⟩ | ⟨x, rfl, -⟩ <;> rfl

end Underway

end Network

end Wiring
