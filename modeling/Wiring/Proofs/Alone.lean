import Mathlib
import Wiring.Proofs.Starts

/-!
# One request at a time

The queues of links have their requests attempted, one at a time. Between the start of an attempt and
its end only minor work is done: things are released, stubs are switched over and what was parked on
them is handed over. No link gets its turn by that, and nothing is purged.
-/
namespace Wiring

/-- A request from the queue of a link that is being attempted, as the attempt leaves it. -/
def Job.serving? : Job → Option (LinkId × Request)
  | .attempt r (.queue l) => some (l, r.taken)
  | .conclude r _ (.queue l) => some (l, r)
  | _ => none

/-- Work that may have to be done before an attempt ends. -/
def Job.isMinor : Job → Bool
  | .attempt _ (.queue _) | .conclude _ _ (.queue _) => false
  | .attempt _ _ | .conclude _ _ _ => true
  | .release _ | .discard _ | .add _ _ | .replayed _ | .switchover _ | .recount _ => true
  | _ => false

/-- Minor work that neither counts anything nor puts a count back. -/
def Job.isSlight : Job → Bool
  | .switchover _ | .recount _ => false
  | j => j.isMinor

/-- Nobody attempts a request of a queue. -/
def Vacant (jobs : List Job) : Prop := ∀ j ∈ jobs, j.serving? = none

/-- Above the end of an attempt at a request of a queue there is minor work only. -/
def Alone : List Job → Prop
  | [] => True
  | j :: rest => (Vacant rest ∨ j.isMinor = true) ∧ Alone rest

theorem Job.serving?_of_minor {j : Job} (h : j.isMinor = true) : j.serving? = none := by
  cases j with
  | attempt r w | conclude r o w => cases w <;> first | rfl | cases h
  | _ => rfl

theorem Job.isMinor_of_slight {j : Job} (h : j.isSlight = true) : j.isMinor = true := by
  cases j with
  | switchover | recount => cases h
  | _ => exact h

theorem Job.serving?_of_bare {j : Job} (h : j.isBare = true) : j.serving? = none := by
  cases j <;> first | rfl | cases h

variable {jobs rest : List Job}

theorem Vacant.append (h : Vacant jobs) (g : Vacant rest) : Vacant (jobs ++ rest) := fun j hj =>
  (List.mem_append.1 hj).elim (h j) (g j)

theorem Vacant.of_bare (h : ∀ j ∈ jobs, j.isBare = true) : Vacant jobs := fun j hj =>
  Job.serving?_of_bare (h j hj)

theorem Vacant.cons {j : Job} (h : j.serving? = none) (g : Vacant rest) : Vacant (j :: rest) := by
  intro k hk
  rcases List.mem_cons.1 hk with rfl | hk
  · exact h
  · exact g k hk

theorem Vacant.tail {j : Job} (h : Vacant (j :: rest)) : Vacant rest := fun k hk =>
  h k (List.mem_cons_of_mem _ hk)

theorem Vacant.alone (h : Vacant rest) : Alone rest := by
  induction rest with
  | nil => trivial
  | cons j rest ih => exact ⟨.inl h.tail, ih h.tail⟩

theorem Alone.minor (h : Alone rest) (minor : ∀ j ∈ jobs, j.isMinor = true) :
    Alone (jobs ++ rest) := by
  induction jobs with
  | nil => exact h
  | cons j jobs ih =>
    exact ⟨.inr (minor j List.mem_cons_self), ih fun k hk => minor k (List.mem_cons_of_mem _ hk)⟩

namespace Network

variable {s t u : Network}

/-! ## What minor work leaves to do -/

/-- Some kind of work is left to do. -/
def Leaves (kind : Job → Bool) (s t : Network) : Prop :=
  ∃ jobs, t.agenda = jobs ++ s.agenda ∧ ∀ j ∈ jobs, kind j = true

theorem Leaves.of_eq {kind : Job → Bool} (h : t.agenda = s.agenda) : Leaves kind s t :=
  ⟨[], h, by simp⟩

theorem Leaves.push {kind : Job → Bool} (h : t.agenda = s.agenda) {jobs : List Job}
    (all : ∀ j ∈ jobs, kind j = true) : Leaves kind s (t.push jobs) :=
  ⟨jobs, by rw [Network.push, h], all⟩

theorem Leaves.minor (h : Leaves Job.isSlight s t) : Leaves Job.isMinor s t := by
  rcases h with ⟨jobs, ha, slight⟩
  exact ⟨jobs, ha, fun j hj => Job.isMinor_of_slight (slight j hj)⟩

theorem slight_releaseLink? (l : Option LinkId) : ∀ j ∈ releaseLink? l, j.isSlight = true := by
  intro j hj
  rcases mem_releaseLink?.1 hj with ⟨l, -, rfl⟩
  rfl

theorem slight_replay (st : Stub) (w : WorkerId) (next : LinkId) :
    ∀ j ∈ replay st w next, j.isSlight = true := by
  intro j hj
  simp only [replay, List.mem_append, mem_releaseLink?, List.mem_flatMap, List.mem_cons,
    List.not_mem_nil, or_false] at hj
  rcases hj with (⟨l, -, rfl⟩ | ⟨r, -, rfl | rfl⟩) | rfl | rfl | rfl <;> rfl

theorem slight_releases {α : Type} (as : List α) (ref : α → Ref) :
    ∀ j ∈ as.map fun a => Job.release (ref a), j.isSlight = true := by
  intro j hj
  rcases List.mem_map.1 hj with ⟨a, -, rfl⟩
  rfl

theorem kind_append {kind : Job → Bool} (h : ∀ j ∈ jobs, kind j = true)
    (g : ∀ j ∈ rest, kind j = true) : ∀ j ∈ jobs ++ rest, kind j = true :=
  fun j hj => (List.mem_append.1 hj).elim (h j) (g j)

theorem retire_leaves (s : Network) (ref : Ref) (calm : (s.retire ref).violation = none) :
    Leaves Job.isSlight s (s.retire ref) := by
  cases ref with
  | interface i => exact .of_eq (retireInterface_quiet s i).agenda
  | link l => exact .of_eq (retireLink_quiet s l).agenda
  | callback c => exact .of_eq rfl
  | endpoint e =>
    simp only [retire, retireEndpoint]
    split
    · exact .of_eq rfl
    · exact .push rfl (slight_releases _ _)
  | worker w =>
    simp only [retire, retireWorker]
    split
    · exact .of_eq rfl
    · exact .push rfl (kind_append (slight_releases _ _) (slight_releases _ _))
  | stub x =>
    simp only [retire, retireStub] at calm ⊢
    split
    · exact .of_eq rfl
    · rename_i st here
      simp only [here] at calm
      by_cases empty : st.parked.isEmpty = true
      · refine .push (by rw [if_pos empty]) ?_
        rw [List.isEmpty_iff.1 empty]
        exact kind_append (kind_append (kind_append (slight_releaseLink? _) (slight_releaseLink? _))
          (by simp)) (slight_releaseLink? _)
      · rw [if_neg empty] at calm
        exact absurd calm (violate_violation _ _)

theorem release_leaves (s : Network) (ref : Ref) (calm : (s.release ref).violation = none) :
    Leaves Job.isSlight s (s.release ref) := by
  unfold release at calm ⊢
  split at calm
  · rename_i held
    rw [if_pos held]
    exact .of_eq rfl
  · rename_i free
    rw [if_neg free]
    exact retire_leaves s ref calm

theorem switchover_leaves (s : Network) (x : StubId) : Leaves Job.isSlight s (s.switchover x) := by
  have caught : (s.caughtUp x).agenda = s.agenda := by rw [(caughtUp_marked s x).frame]
  rw [switchover_eq]
  split
  · exact .of_eq caught
  · split
    · exact .of_eq caught
    · split
      · split
        · unfold switch
          simp only [foldl_unregister]
          exact .push caught (slight_replay _ _ _)
        · exact .of_eq caught
      · exact .of_eq caught

/-- Slight work, maybe after a stub tried to switch over, whose count is put back. -/
def Detour (n : Nat) (jobs : List Job) : Prop :=
  ∃ slight : List Job, (∀ j ∈ slight, j.isSlight = true) ∧
    (jobs = slight ∨ ∃ x, jobs = .switchover x :: .recount n :: slight)

theorem Detour.minor {n : Nat} (h : Detour n jobs) : ∀ j ∈ jobs, j.isMinor = true := by
  rcases h with ⟨slight, all, rfl | ⟨x, rfl⟩⟩
  · exact fun j hj => Job.isMinor_of_slight (all j hj)
  · intro j hj
    simp only [List.mem_cons] at hj
    rcases hj with rfl | rfl | hj
    · rfl
    · rfl
    · exact Job.isMinor_of_slight (all j hj)

/-- An attempt leaves its end to do, after a detour. -/
theorem attempt_leaves (s : Network) (r : Request) (w : Waiter) : ∃ jobs o,
    (s.attempt r w).agenda = jobs ++ .conclude r.taken o w :: s.agenda ∧
      (s.attempt r w).tally = s.tally ∧ Detour s.tally jobs := by
  have ended {r' : Request} {o : Outcome} (same : r' = r.taken) : ∃ jobs o',
      (s.push [.conclude r' o w]).agenda = jobs ++ .conclude r.taken o' w :: s.agenda ∧
        (s.push [.conclude r' o w]).tally = s.tally ∧ Detour s.tally jobs :=
    ⟨[], o, by rw [same]; rfl, rfl, [], by simp, .inl rfl⟩
  have sent {r' : Request} (same : r' = r.taken) (c : Carrier) (messageId : UInt8) (payload : Bytes)
      (source : Option HandleId) (holding : List Ref) : ∃ jobs o',
      (s.attemptOver r' w c messageId payload source holding).agenda =
        jobs ++ .conclude r.taken o' w :: s.agenda ∧
      (s.attemptOver r' w c messageId payload source holding).tally = s.tally ∧
        Detour s.tally jobs := by
    have held := slight_releases holding id
    have quiet := sendOver_quiet s c messageId payload source
    unfold attemptOver
    generalize s.sendOver c messageId payload source = out at quiet ⊢
    rcases out with ⟨u, o | o⟩
    · have kept : u.agenda = s.agenda := quiet.agenda
      have count : u.tally = s.tally := quiet.tally
      cases c with
      | stub x =>
        refine ⟨[.switchover x, .recount u.tally] ++ holding.map Job.release, .error .noResource, ?_,
          count, _, held, .inr ⟨x, by rw [count]; rfl⟩⟩
        simp [push, kept, same]
      | link l =>
        exact ⟨holding.map Job.release, .error .noResource, by simp [push, kept, same], count,
          _, held, .inl rfl⟩
    · have kept : u.agenda = s.agenda := quiet.agenda
      exact ⟨[], o, by simp [push, kept, same], quiet.tally, [], by simp, .inl rfl⟩
  unfold attempt
  rcases r.inner?_cases with ⟨c, h⟩ | ⟨m, h⟩ | h
  · have same : Request.withInner (.scripted c.take.2) r = r.taken := by
      simp only [Request.taken, h]
    simp only [h]
    split
    · exact ended same
    · exact ended same
    · split
      · exact sent same _ _ _ _ _
      · exact ended same
  · have same : r = r.taken := by simp only [Request.taken, h]
    simp only [h]
    split
    · exact ended same
    · split
      · exact ended same
      · exact sent same _ _ _ _ _
  · have same : r = r.taken := by simp only [Request.taken, h]
    simp only [h]
    exact ended same

theorem conclude_leaves (s : Network) (r : Request) (o : Outcome) (w : Waiter)
    (minor : ∀ l, w ≠ .queue l) : Leaves Job.isSlight s (s.conclude r o w) := by
  have noted := (recordAttempt_quiet s r o).agenda
  unfold conclude
  simp only
  generalize s.recordAttempt r o = t at noted ⊢
  split
  · unfold giveUp
    cases w with
    | queue l => exact absurd rfl (minor l)
    | retry c => exact .push noted (by simp [Job.isSlight, Job.isMinor])
    | application h => exact .of_eq noted
    | endpoint e =>
      simp only
      split
      · exact .push noted (by simp [Job.isSlight, Job.isMinor])
      · exact .of_eq ((cancel_quiet t _).agenda.trans noted)
  · unfold finish
    cases w with
    | queue l => exact absurd rfl (minor l)
    | retry c | endpoint e => exact .of_eq ((discard_quiet t _).agenda.trans noted)
    | application h => exact .of_eq noted

/-- A queue that gets its turn leaves an attempt to do, if anything. -/
theorem dispatch_leaves (s : Network) (l : LinkId) : (s.dispatch l).agenda = s.agenda ∨
    ∃ r, (s.dispatch l).agenda = .attempt r (.queue l) :: s.agenda := by
  unfold dispatch dequeue
  cases s.links.get? l with
  | none => exact .inl rfl
  | some lk =>
    rcases lk with ⟨owner, number, settings, credits, dest, queue⟩
    cases credits <;> cases queue <;> first | exact .inl rfl | exact .inr ⟨_, rfl⟩

theorem add_leaves (s : Network) (c : Carrier) (r : Request) :
    Leaves Job.isSlight s (s.perform (.add c r)) := by
  have quiet := (offer_quiet s c r).agenda
  unfold perform
  simp only
  generalize s.offer c r = out at quiet ⊢
  rcases out with ⟨u, back | back⟩
  · exact .of_eq quiet
  · exact .push quiet (by simp [Job.isSlight, Job.isMinor])

/-- Minor work leaves nothing but minor work to do. -/
theorem perform_leaves {j : Job} (minor : j.isMinor = true) (s : Network)
    (calm : (s.perform j).violation = none) : Leaves Job.isMinor s (s.perform j) := by
  cases j with
  | release ref => exact (release_leaves s ref calm).minor
  | discard r => exact .of_eq (discard_quiet s r).agenda
  | attempt r w =>
    rcases attempt_leaves s r w with ⟨jobs, o, ha, -, detour⟩
    refine ⟨jobs ++ [.conclude r.taken o w], by simp [perform, ha], kind_append detour.minor ?_⟩
    intro k hk
    rw [List.mem_singleton.1 hk]
    cases w <;> first | rfl | cases minor
  | conclude r o w =>
    refine (conclude_leaves s r o w fun l same => ?_).minor
    subst same
    cases minor
  | add c r => exact (add_leaves s c r).minor
  | replayed w | recount n => exact .of_eq rfl
  | switchover x => exact (switchover_leaves s x).minor
  | _ => cases minor

end Network

/-! ## All work -/

namespace Traffic

variable {s t : Traffic} {j : Job}

/-- Where nobody attempts a request of a queue, nobody begins to, unless a queue gets its turn. -/
theorem Deed.free (h : Deed s t) (top : s.agenda = j :: rest) (free : Vacant rest)
    (other : ∀ r w, j ≠ .attempt r w) (idle : ∀ l, j ≠ .dispatch l) : Vacant t.agenda := by
  have below {j' : Job} {rest' : List Job} (top' : s.agenda = j' :: rest') : j' = j ∧ Vacant rest' := by
    cases top'.symm.trans top
    exact ⟨rfl, free⟩
  have planned {jobs rest' : List Job} (bare : ∀ k ∈ jobs, k.isBare = true) (free : Vacant rest') :
      Vacant (jobs ++ rest') := .append (.of_bare bare) free
  cases h with
  | work j rest' jobs u top' light given rigged bare =>
    simp only [rigged.agenda]
    exact planned bare (below top').2
  | close j r rest' jobs marks handles top' ends bare => exact planned bare (below top').2
  | ask w message m rest' jobs u top' rigged bare =>
    simp only [rigged.agenda]
    exact .cons rfl (planned bare (below top').2)
  | deliver i f m inbox left rest' top' =>
    have handled : Vacant ((f.handlers.lookup m.id).toList.map fun h => .handle h m) := by
      intro k hk
      rcases List.mem_map.1 hk with ⟨_, -, rfl⟩
      rfl
    have planned : Vacant [.giveBack m.sender, .deliver i left] :=
      .cons rfl (.cons rfl (by simp [Vacant]))
    exact .append (.append handled planned) (below top').2
  | giveBack l rest' top' => exact (below top').2
  | record log forward decode m rest' jobs marks top' bare => exact planned bare (below top').2
  | relay log c decode m l rest' x t top' carries sent =>
    cases sent
    exact (below top').2
  | answer r o w rest' top' => exact absurd (below top').1.symm (other r w)
  | accept r w rest' c messageId payload source l t top'
  | holdOff r w rest' x messageId payload source t top' => exact absurd (below top').1.symm (other r w)
  | requeue r l lk rest' top' => exact (below top').2
  | again r c rest' top' => exact .cons rfl (below top').2
  | first r e ep c rest' top' => exact .cons rfl (.cons rfl (below top').2)
  | returned r h rest' top' => exact (below top').2
  | completed r o h rest' top' => exact (below top').2
  | add r c rest' t top' taken =>
    cases taken <;> exact (below top').2
  | handBack r r' c rest' t top' back =>
    cases back
    exact .cons rfl (below top').2
  | dequeue r l lk queue rest' top' => exact absurd (below top').1.symm (idle l)
  | switch x st next w rest' u top' rigged =>
    have replayed : Vacant (Network.replay st w next) := fun k hk =>
      Job.serving?_of_minor (Job.isMinor_of_slight (Network.slight_replay st w next k hk))
    simp only [rigged.agenda]
    exact .append replayed (below top').2

end Traffic

namespace Network

variable {s t u : Network}

/-- What a job leaves to do where there is minor work only above the end of an attempt: minor work does
not matter, an attempt leaves its end to do, a queue that gets its turn may begin one, and all other work
is done while nobody attempts a request of a queue. -/
inductive Resumes (j : Job) (rest : List Job) (t : Network) : Prop
  | minor (jobs : List Job) (small : j.isMinor = true) (agenda : t.agenda = jobs ++ rest)
      (minor : ∀ k ∈ jobs, k.isMinor = true)
  | attempt (r : Request) (w : Waiter) (jobs : List Job) (o : Outcome) (job : j = .attempt r w)
      (free : Vacant rest) (agenda : t.agenda = jobs ++ .conclude r.taken o w :: rest)
      (minor : ∀ k ∈ jobs, k.isMinor = true)
  | dispatch (l : LinkId) (job : j = .dispatch l) (free : Vacant rest)
      (turn : t.agenda = rest ∨ ∃ r, t.agenda = .attempt r (.queue l) :: rest)
  | other (still : ∀ r w, j ≠ .attempt r w) (free : Vacant rest) (after : Vacant t.agenda)

theorem perform_resumes {j : Job} (top : s.agenda = j :: rest) (alone : Alone s.agenda)
    (calm : (perform { s with agenda := rest } j).violation = none) :
    Resumes j rest (perform { s with agenda := rest } j) := by
  rw [top] at alone
  by_cases small : j.isMinor = true
  · rcases perform_leaves small _ calm with ⟨jobs, ha, minor⟩
    exact .minor jobs small ha minor
  have free : Vacant rest := alone.1.resolve_right small
  by_cases attempt : ∃ r w, j = .attempt r w
  · rcases attempt with ⟨r, w, rfl⟩
    rcases attempt_leaves { s with agenda := rest } r w with ⟨jobs, o, ha, -, detour⟩
    exact .attempt r w jobs o rfl free ha detour.minor
  have still : ∀ r w, j ≠ .attempt r w := fun r w same => attempt ⟨r, w, same⟩
  by_cases dispatch : ∃ l, j = .dispatch l
  · rcases dispatch with ⟨l, rfl⟩
    exact .dispatch l rfl free (dispatch_leaves { s with agenda := rest } l)
  · exact .other still free ((perform_deed top calm).free top free still fun l same =>
      dispatch ⟨l, same⟩)

theorem step_alone (h : Alone s.agenda) (calm : s.step.violation = none) : Alone s.step.agenda := by
  have before := step_violation calm
  cases top : s.agenda with
  | nil =>
    rw [step_nil top]
    exact h
  | cons j rest =>
    rw [step_eq top before] at calm ⊢
    have resumes := perform_resumes top h calm
    rw [top] at h
    cases resumes with
    | minor jobs small agenda minor =>
      rw [agenda]
      exact h.2.minor minor
    | attempt r w jobs o job free agenda minor =>
      rw [agenda]
      exact Alone.minor ⟨.inl free, free.alone⟩ minor
    | dispatch l job free turn =>
      rcases turn with agenda | ⟨r, agenda⟩
      · rw [agenda]
        exact free.alone
      · rw [agenda]
        exact ⟨.inl free, free.alone⟩
    | other still free after => exact after.alone

end Network

/-- What an operation does at once attempts no request of a queue. -/
theorem Traffic.Act.free {s t : Traffic} {μ : Means} (h : Act μ s t) (free : Vacant s.agenda) :
    Vacant t.agenda := by
  cases h with
  | rig t rigged => exact rigged.agenda.symm ▸ free
  | work jobs bare => exact .append (.of_bare bare) free
  | ask | attempt => exact .cons rfl free
  | send c l messageId payload t name carries sent => cases sent; exact free
  | add c r u name taken => cases taken <;> exact .cons rfl free
  | offer c r u t name taken offered | offerBack c r r' u t name taken offered
  | offerDrop c r r' u t name taken offered => cases taken <;> cases offered <;> exact free
  | _ => exact free

theorem Call.start_free {s : Network} (idle : s.agenda = []) (c : Call) :
    Vacant (c.start s).agenda := by
  have free : Vacant s.traffic.agenda := by
    intro j hj
    rw [show s.traffic.agenda = [] from idle] at hj
    cases hj
  exact (Network.start_starts s c).keeps (I := fun τ => Vacant τ.agenda) free
    (fun t act => act.free free) fun t u ht act => act.free ht

/-- Wherever a run comes by, there is minor work only above the end of an attempt at a request of a
queue. -/
theorem Visited.alone {fits : Network → Call → Prop} {s : Network} (h : Visited fits s) :
    Alone s.agenda := by
  refine h.keeps (I := fun s => Alone s.agenda) (fun _ => trivial)
    (fun s c journey _ _ _ => (Call.start_free journey.rested.idle c).alone)
    (fun s n hs calm => Network.work_invariant (fun _ ht => Network.step_alone ht) hs calm) fun s ref hs => ?_
  unfold Network.keep
  split <;> exact hs

end Wiring
