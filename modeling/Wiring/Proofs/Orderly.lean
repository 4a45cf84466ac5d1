import Mathlib
import Wiring.Proofs.Agreement
import Wiring.Proofs.Calls

/-!
# Orderly work

Work on a network in agreement keeps the agreement, whatever its order: signals are handled, stubs
switched over, endpoints make their first requests and are taken down where these cannot be sent.
-/
namespace Wiring

/-- A signal of an endpoint. -/
def Request.IsAsk (r : Request) : Prop :=
  r.IsPlain ∧ ∀ m, r.inner? = some (.send m) → m.messageId = Signal.messageId

/-- The request was not taken from a queue. -/
def Waiter.IsFree : Waiter → Prop
  | .queue _ => False
  | _ => True

/-- Work on a signal that an endpoint has just made. -/
def Job.Asks : Job → Prop
  | .release _ => True
  | .attempt r w | .conclude r _ w => r.IsAsk ∧ w.IsFree
  | .add _ r => r.IsAsk
  | _ => False

namespace Request

theorem isAsk_send {m : Send} (signal : m.messageId = Signal.messageId) : (send m).IsAsk :=
  ⟨isPlain_send m, fun m' h => by cases h; exact signal⟩

theorem isAsk_congr {r r' : Request} (same : r'.inner? = r.inner?) (h : r.IsAsk) : r'.IsAsk := by
  unfold IsAsk IsPlain at h ⊢
  rw [same]
  exact h

theorem isAsk_unfinished {r : Request} (h : r.IsAsk) : r.unfinished.IsAsk := by
  induction r with
  | scripted c => exact absurd rfl (h.1 c)
  | send m => exact h
  | counted g inner ih => exact ih h
  | spent g => exact h

end Request

theorem Job.Asks.tame {j : Job} (h : j.Asks) (trace : Array Happening) : j.Tame trace := by
  cases j with
  | attempt r w => exact h.1.1
  | conclude r o w => exact h.1.1
  | add c r => exact h.1
  | release ref => trivial
  | _ => exact absurd h id

namespace Network

open Layout (Opening)

variable {s t u : Network} {plan : Plan} {α : Type}

/-! ## Work on a first signal -/

theorem attempt_asks (s : Network) {r : Request} (ask : r.IsAsk) (w : Waiter) :
    ∃ o, (s.attempt r w).agenda = .conclude r o w :: s.agenda := by
  unfold attempt
  rcases r.inner?_cases with ⟨c, h⟩ | ⟨m, h⟩ | h
  · exact absurd h (ask.1 c)
  · simp only [h]
    split
    · exact ⟨_, rfl⟩
    · split
      · exact ⟨_, rfl⟩
      · rename_i c _
        have quiet := (sendOver_quiet s c m.messageId m.payload (some m.handle)).agenda
        -- a stub lets signals through
        have through : (s.sendOver c m.messageId m.payload (some m.handle)).2 ≠ none := by
          unfold sendOver
          split
          · simp
          · rw [if_neg (by simp [ask.2 m h])]
            split <;> simp
        unfold attemptOver
        split
        · rename_i v o ran
          rw [ran] at quiet
          exact ⟨o, congrArg _ quiet⟩
        · rename_i v ran
          rw [ran] at through
          exact absurd rfl through
  · simp only [h]
    exact ⟨_, rfl⟩

theorem conclude_asks (s : Network) {r : Request} {w : Waiter} (ask : r.IsAsk) (free : w.IsFree)
    (o : Outcome) : ∃ jobs, (s.conclude r o w).agenda = jobs ++ s.agenda ∧ ∀ j ∈ jobs, j.Asks := by
  have recorded := (recordAttempt_quiet s r o).agenda
  have again := Request.isAsk_unfinished ask
  unfold conclude
  simp only
  split
  · cases w with
    | queue l => exact absurd free id
    | retry c => exact ⟨[_], congrArg _ recorded, by simpa [Job.Asks] using again⟩
    | endpoint e =>
      simp only [giveUp]
      split
      · rename_i c _
        refine ⟨[.add c r.unfinished, .release c.ref], congrArg ([_, _] ++ ·) recorded,
          fun j hj => ?_⟩
        simp only [List.mem_cons, List.not_mem_nil, or_false] at hj
        rcases hj with rfl | rfl
        · exact again
        · trivial
      · exact ⟨[], (cancel_quiet _ _).agenda.trans recorded, by simp⟩
    | application h => exact ⟨[], recorded, by simp⟩
  · cases w with
    | queue l => exact absurd free id
    | retry c => exact ⟨[], (discard_quiet _ _).agenda.trans recorded, by simp⟩
    | endpoint e => exact ⟨[], (discard_quiet _ _).agenda.trans recorded, by simp⟩
    | application h => exact ⟨[], recorded, by simp⟩

theorem offerOrAttempt_asks (s : Network) (c : Carrier) {r : Request} (ask : r.IsAsk) :
    ∃ jobs, (s.offerOrAttempt c r).agenda = jobs ++ s.agenda ∧ ∀ j ∈ jobs, j.Asks := by
  have quiet := (offer_quiet s c r).agenda
  have handed {back : Request} (h : (s.offer c r).2 = some back) : back.IsAsk :=
    Request.isAsk_congr (offer_back h) ask
  unfold offerOrAttempt
  split
  · rename_i v ran
    rw [ran] at quiet
    exact ⟨[], quiet, by simp⟩
  · rename_i v back ran
    rw [ran] at quiet handed
    refine ⟨[_], congrArg _ quiet, fun j hj => ?_⟩
    rw [List.mem_singleton.1 hj]
    exact ⟨handed rfl, trivial⟩

/-- Work on a first signal leads to nothing but such work. -/
theorem perform_asks {j : Job} (asks : j.Asks) (calm : (s.perform j).violation = none) :
    ∃ jobs, (s.perform j).agenda = jobs ++ s.agenda ∧ ∀ j ∈ jobs, j.Asks := by
  cases j with
  | release ref =>
    rcases release_plans calm with ⟨refs, agenda⟩
    refine ⟨_, agenda, fun j hj => ?_⟩
    rcases List.mem_map.1 hj with ⟨ref', -, rfl⟩
    trivial
  | attempt r w =>
    rcases attempt_asks s asks.1 w with ⟨o, agenda⟩
    refine ⟨[_], agenda, fun j hj => ?_⟩
    rw [List.mem_singleton.1 hj]
    exact asks
  | conclude r o w => exact conclude_asks s asks.1 asks.2 o
  | add c r => exact offerOrAttempt_asks s c asks
  | _ => exact absurd asks id

theorem Still.builds (h : Still s t) : Builds s t := by
  refine ⟨h.toMild, ?_, ?_, ?_, ?_⟩
  · rw [h.layout]
  · rw [h.layout]
  · rw [h.layout]
  · rw [h.layout]
    exact .refl _

/-- It changes nothing that is in use. -/
theorem asks_builds {j : Job} (asks : j.Asks) (tidy : Tidy s)
    (calm : (s.perform j).violation = none) : Builds s (s.perform j) := by
  have still (quiet : ¬ Job.Moving j) : Builds s (s.perform j) :=
    (perform_still tidy (asks.tame _) quiet).builds
  cases j with
  | release ref => exact release_builds tidy calm
  | attempt r w => exact still id
  | conclude r o w => exact still id
  | add c r => exact still id
  | _ => exact absurd asks id

/-! ## Steps -/

/-- A network in agreement at work. -/
inductive Orderly (plan : Plan) (s : Network) : Prop
  /-- There is tame work to do. -/
  | agreed (agreed : Agreed plan none s) (tame : ∀ j ∈ s.agenda, j.Tame s.trace)
  /-- An endpoint that failed is taken down first. -/
  | failed (e : EndpointId) (rest : List Job) (top : s.agenda = .destroy e :: rest)
      (spare : Spare plan s e) (tame : ∀ j ∈ rest, j.Tame s.trace)
  /-- An endpoint makes its request, and is taken down if that fails. -/
  | asking (e : EndpointId) (h : HandleId) (jobs rest : List Job)
      (agenda : s.agenda = jobs ++ .confirm e h :: rest) (asks : ∀ j ∈ jobs, j.Asks)
      (opening : ∃ w wk ep, Opening plan s.layout w wk e ep []) (agreed : Agreed plan none s)
      (tame : ∀ j ∈ rest, j.Tame s.trace)

theorem Orderly.told (h : Orderly plan s) : Told s := by
  intro r hr
  cases h with
  | agreed agreed tame => exact tame _ hr
  | failed e rest top spare tame =>
    rw [top] at hr
    rcases List.mem_cons.1 hr with hr | hr
    · cases hr
    · exact tame _ hr
  | asking e h jobs rest agenda asks opening agreed tame =>
    rw [agenda] at hr
    rcases List.mem_append.1 hr with hr | hr
    · exact asks _ hr
    · rcases List.mem_cons.1 hr with hr | hr
      · cases hr
      · exact tame _ hr

/-- Tame work above tame work. -/
theorem Orderly.of_plans (agreed : Agreed plan none t) (plans : Plans s t)
    (remembers : ∀ x ∈ s.trace, x ∈ t.trace) (tame : ∀ j ∈ s.agenda, j.Tame s.trace) :
    Orderly plan t := by
  rcases plans with ⟨jobs, agenda, fresh⟩
  refine .agreed agreed fun j hj => ?_
  rw [agenda] at hj
  rcases List.mem_append.1 hj with hj | hj
  · exact fresh j hj
  · exact tame_mono remembers (tame j hj)

/-- A message that came into an inbox as a signal is a true signal. -/
theorem Agreed.genuine (hs : Agreed plan none s) (traced : Traced s) {i : InterfaceId} {m : Message}
    (signal : m.id = Signal.messageId) (accepted : Accepted s.trace i m) :
    ∃ g : Signal, m.payload = g.encode ∧ m.payload.length < UInt64.size ∧
      Layout.Honest plan s.layout g := by
  rcases accepted with ⟨source, accepted⟩
  rw [signal] at accepted
  rcases hs.tidy.signals _ _ _ _ accepted with ⟨some', small⟩
  cases source with
  | none => exact absurd rfl some'
  | some h =>
    let arrival : Arrival := ⟨m.sender, i, Signal.messageId, m.payload⟩
    have arrived : arrival ∈ arrivals s.trace h :=
      List.mem_filterMap.2 ⟨_, Array.mem_toList_iff.2 accepted, by simp [Happening.arrival?, arrival]⟩
    rcases traced.arrived h arrival arrived with ⟨e, sent⟩
    rcases hs.honest h e m.payload sent with ⟨g, written, honest⟩
    exact ⟨g, written, small, honest⟩

/-- Tame work keeps the agreement, as all signals that come into inboxes are true. -/
theorem Agreed.perform (hs : Agreed plan none s) {j : Job} (tame : j.Tame s.trace)
    (sound : j.isIdle = true → Sound False s)
    (genuine : ∀ i (m : Message), m.id = Signal.messageId → Accepted s.trace i m →
      ∃ g : Signal, m.payload = g.encode ∧ m.payload.length < UInt64.size ∧
        Layout.Honest plan s.layout g)
    (calm : (s.perform j).violation = none) : Handled plan s (s.perform j) := by
  by_cases calm' : ¬ Job.Moving j
  · have still := perform_still hs.tidy tame calm'
    exact .agreed (hs.still still) still.agenda
  · cases j with
    | release ref =>
      have builds := release_builds hs.tidy calm
      exact .agreed (hs.charts (builds.charts hs.charted)) builds.agenda
    | switchover x =>
      have switched := switchover_agreed hs x
      exact .agreed switched.1 switched.2
    | handle h m =>
      cases h with
      | record log forward decode => exact absurd id calm'
      | signals w =>
        rcases tame with ⟨signal, i, accepted⟩
        rcases genuine i m signal accepted with ⟨g, written, small, honest⟩
        exact handleSignal_handled hs (sound rfl) written small honest w
    | _ => exact absurd id calm'

/-- A step of work keeps what is known. -/
theorem Orderly.step (h : Orderly plan s) (conserved : Conserved s)
    (calm : s.step.violation = none) : Orderly plan s.step ∧ Conserved s.step := by
  have before := step_violation calm
  have moves : Moves False s s.step := step_moves conserved.sound (.inr h.told) before calm
  have remembers : ∀ x ∈ s.trace, x ∈ s.step.trace := fun x hx => moves.remembers hx
  refine ⟨?_, conserved.moves moves⟩
  have popped {j : Job} {rest : List Job} (top : s.agenda = j :: rest) (idle : j.isIdle = true) :
      Sound False { s with agenda := rest } := conserved.sound.moves (Moves.done top idle)
  cases h with
  | agreed agreed tame =>
    cases top : s.agenda with
    | nil =>
      rw [step_nil top]
      exact .agreed agreed tame
    | cons j rest =>
      rw [top] at tame
      have tameRest : ∀ j ∈ rest, j.Tame s.trace := fun j hj => tame j (List.mem_cons_of_mem _ hj)
      rw [step_eq top before] at calm remembers ⊢
      have handled := (agreed.withAgenda rest).perform (tame j List.mem_cons_self) (popped top)
        (fun i m => agreed.genuine conserved.traced) calm
      revert handled remembers
      generalize perform { s with agenda := rest } j = t
      intro remembers handled
      cases handled with
      | agreed agreed' plans => exact .of_plans agreed' plans remembers tameRest
      | failed e spare plans =>
        rcases plans with ⟨jobs, agenda, fresh⟩
        refine .failed e _ (congrArg _ agenda) ⟨spare.agreed.withAgenda _, spare.opening⟩
          fun j hj => ?_
        rcases List.mem_append.1 hj with hj | hj
        · exact fresh j hj
        · exact tame_mono remembers (tameRest j hj)
  | failed e rest top spare tame =>
    rw [step_eq top before] at remembers ⊢
    have keyed : Keyed { s with agenda := rest } := (popped top rfl).keyed
    rcases destroy_agreed ⟨spare.agreed.withAgenda rest, spare.opening⟩ keyed with ⟨agreed, plans⟩
    exact .of_plans agreed plans remembers tame
  | asking e h jobs rest agenda asks opening agreed tame =>
    cases jobs with
    | nil =>
      have top : s.agenda = .confirm e h :: rest := agenda
      have settled : Orderly plan { s with agenda := rest } := .agreed (agreed.withAgenda rest) tame
      rw [step_eq top before]
      change Orderly plan (confirm { s with agenda := rest } e h)
      unfold confirm
      split
      · rcases opening with ⟨w, wk, ep, opening⟩
        have doomed : Agreed plan (some e) s := { agreed with charted := agreed.charted.doom e }
        exact .failed e rest rfl ⟨doomed.withAgenda _, w, wk, ep, [], opening⟩ tame
      · exact settled
    | cons j jobs =>
      have top : s.agenda = j :: (jobs ++ .confirm e h :: rest) := agenda
      have ask := asks j List.mem_cons_self
      rw [step_eq top before] at calm remembers ⊢
      rcases perform_asks ask calm with ⟨more, above, asks'⟩
      have builds := asks_builds ask (agreed.withAgenda _).tidy calm
      rcases opening with ⟨w, wk, ep, opening⟩
      refine .asking e h (more ++ jobs) rest ?_ (fun j' hj => ?_) ⟨w, wk, ep, builds.opening opening⟩
        ((agreed.withAgenda _).charts (builds.charts agreed.charted))
        fun j' hj => tame_mono remembers (tame j' hj)
      · rw [above, List.append_assoc]
      · rcases List.mem_append.1 hj with hj | hj
        · exact asks' j' hj
        · exact asks j' (List.mem_cons_of_mem _ hj)

/-- Work that ends without a violation ends in agreement. -/
theorem Orderly.work (h : Orderly plan s) (conserved : Conserved s) {fuel : Nat}
    (calm : (work fuel s).violation = none) :
    Orderly plan (Network.work fuel s) ∧ Conserved (Network.work fuel s) :=
  work_invariant (I := fun t => Orderly plan t ∧ Conserved t) (fun _ ht => ht.1.step ht.2)
    ⟨h, conserved⟩ calm

theorem Orderly.settle (h : Orderly plan s) (conserved : Conserved s) {result : Network → α} {a : α}
    (ran : s.settle result = (t, .ok a)) : Agreed plan none t := by
  rcases settle_ok ran with ⟨rfl, calm, idle, -⟩
  rcases h.work conserved calm with ⟨orderly, -⟩
  cases orderly with
  | agreed agreed tame => exact agreed
  | failed e rest top =>
    rw [idle] at top
    cases top
  | asking e h jobs rest agenda =>
    rw [idle] at agenda
    simp at agenda

/-- Work that is planned by moves. -/
theorem Conserved.planned (hs : Conserved s) {jobs : List Job} (moves : Moves False s (t.push jobs)) :
    Conserved (push { t with tally := 0 } jobs) :=
  hs.moves (moves.trans (Moves.aside { Aside.refl (t.push jobs) with }))

/-- Tame work that is put on an empty agenda. -/
theorem Agreed.carryOut (hs : Agreed plan none t) (idle : t.agenda = []) {jobs : List Job}
    (tame : ∀ j ∈ jobs, j.Tame t.trace) (conserved : Conserved s)
    (moves : Moves False s (t.push jobs)) {result : Network → α} {a : α}
    (ran : t.carryOut jobs result = (u, .ok a)) : Agreed plan none u := by
  have reset : Still t { t with tally := 0 } := .books t _ _ _ _ _ _ _
  have pushed : Agreed plan none (push { t with tally := 0 } jobs) :=
    (hs.still reset).still (.push tame)
  have orderly : Orderly plan (push { t with tally := 0 } jobs) := by
    refine .agreed pushed fun j hj => ?_
    simp only [push, idle, List.append_nil] at hj
    exact tame j hj
  exact orderly.settle (conserved.planned moves) ran

end Network

end Wiring
