import Mathlib
import Wiring.Proofs.Bounded
import Wiring.Proofs.Razing

/-!
# Winding down

Where nothing waits in queues or on stubs, all that is left to do is to let go of things. Closing
purges and flushes, which finds nothing to do but, as long as something of a link is in flight, to
let its worker progress a number of times. What is still to be done, counted with what the things
that live will leave to do when they go, decreases with each step, and no promise is broken.
-/
namespace Wiring

theorem total_append {α : Type} (f : α → Nat) (as bs : List α) :
    total f (as ++ bs) = total f as + total f bs := by
  induction as with
  | nil => simp [total]
  | cons a as ih =>
    rw [List.cons_append, total, total, ih, Nat.add_assoc]

theorem total_mono {α : Type} {f g : α → Nat} (le : ∀ a, f a ≤ g a) (as : List α) :
    total f as ≤ total g as := by
  induction as with
  | nil => exact le_rfl
  | cons a as ih => exact Nat.add_le_add (le a) ih

/-- A sum over a table runs over what is in it. -/
theorem Table.sum_eq_total {α : Type} (f : α → Nat) (t : Table α) :
    t.sum (fun _ a => f a) = total f t.values := by
  rcases t with ⟨⟨cells⟩⟩
  induction cells using List.reverseRecOn with
  | nil => rfl
  | append_singleton cells cell ih =>
    have before : ∀ k ∈ Finset.range cells.length,
        ((Table.mk ⟨cells ++ [cell]⟩).get? k).elim 0 f = ((Table.mk ⟨cells⟩).get? k).elim 0 f := by
      intro k hk
      simp [Table.get?, List.getElem?_append_left (Finset.mem_range.1 hk)]
    simp only [Table.sum, Table.next, Table.values, List.size_toArray] at ih ⊢
    rw [List.length_append, List.length_singleton, Finset.sum_range_succ,
      Finset.sum_congr rfl before, ih]
    cases cell <;> simp [Table.get?, total_append, total]

namespace Network

variable {s t u : Network} {rest jobs new : List Job} {j : Job} {A R : Nat} {busy : WorkerId → Prop}
  {ref : Ref}

/-- Things have gone, or hold less than before, and nothing else has changed. -/
structure Subsides (s t : Network) : Prop where
  violation : t.violation = s.violation
  interfaces : ∀ i f, t.interfaces.get? i = some f → s.interfaces.get? i = some f
  links : ∀ l lk, t.links.get? l = some lk → s.links.get? l = some lk
  stubs : ∀ x st, t.stubs.get? x = some st → s.stubs.get? x = some st
  endpoints : ∀ e ep, t.endpoints.get? e = some ep → ∃ slots,
    s.endpoints.get? e = some { ep with slots } ∧ ∀ c, some c ∈ ep.slots.toList → some c ∈ slots.toList
  workers : ∀ w wk, t.workers.get? w = some wk → ∃ directory,
    s.workers.get? w = some { wk with directory } ∧ wk.directory.Sublist directory
  registries : t.registries = s.registries
  next : t.links.next = s.links.next

theorem Subsides.refl (s : Network) : Subsides s s :=
  ⟨rfl, fun _ _ => id, fun _ _ => id, fun _ _ => id, fun _ ep here => ⟨ep.slots, here, fun _ => id⟩,
    fun _ wk here => ⟨wk.directory, here, .refl _⟩, rfl, rfl⟩

/-- What there is to do does not matter. -/
theorem Subsides.withAgenda (s : Network) (agenda : List Job) : Subsides s { s with agenda } :=
  { Subsides.refl s with }

theorem Subsides.trans (h : Subsides s t) (g : Subsides t u) : Subsides s u where
  violation := g.violation.trans h.violation
  interfaces i f here := h.interfaces i f (g.interfaces i f here)
  links l lk here := h.links l lk (g.links l lk here)
  stubs x st here := h.stubs x st (g.stubs x st here)
  endpoints e ep here := by
    rcases g.endpoints e ep here with ⟨slots, there, less⟩
    rcases h.endpoints e _ there with ⟨slots', there', less'⟩
    exact ⟨slots', there', fun c hc => less' c (less c hc)⟩
  workers w wk here := by
    rcases g.workers w wk here with ⟨directory, there, less⟩
    rcases h.workers w _ there with ⟨directory', there', less'⟩
    exact ⟨directory', there', less.trans less'⟩
  registries := g.registries.trans h.registries
  next := g.next.trans h.next

/-- Nothing waits anywhere. A worker that may have to progress while its links are flushed has nothing
to do either. -/
structure Dry (A R : Nat) (busy : WorkerId → Prop) (s : Network) : Prop where
  calm : s.violation = none
  queues : ∀ l lk, s.links.get? l = some lk → lk.queue = []
  parked : ∀ x st, s.stubs.get? x = some st → st.parked = []
  patience : ∀ e ep, s.endpoints.get? e = some ep → ep.flushAttempts ≤ A
  width : ∀ w wk, s.workers.get? w = some wk → wk.resources.length ≤ R
  asleep : ∀ w wk, busy w → s.workers.get? w = some wk → wk.posted = [] ∧
    s.registries.get? wk.registry = some [] ∧
      ∀ r ∈ wk.resources, ∀ f, s.interfaces.get? r.interface = some f → f.inbox = []
  few : s.links.next ≤ 12

theorem Dry.later (h : Dry A R busy s) (sub : Subsides s t) : Dry A R busy t where
  calm := sub.violation.trans h.calm
  queues l lk here := h.queues l lk (sub.links l lk here)
  parked x st here := h.parked x st (sub.stubs x st here)
  patience e ep here := by
    rcases sub.endpoints e ep here with ⟨slots, there, -⟩
    exact h.patience e { ep with slots } there
  width w wk here := by
    rcases sub.workers w wk here with ⟨directory, there, -⟩
    exact h.width w { wk with directory } there
  asleep w wk hw here := by
    rcases sub.workers w wk here with ⟨directory, there, -⟩
    rcases h.asleep w { wk with directory } hw there with ⟨posted, runners, inboxes⟩
    exact ⟨posted, sub.registries ▸ runners, fun r hr f face => inboxes r hr f (sub.interfaces _ f face)⟩
  few := sub.next ▸ h.few

/-! ## What is to be done -/

/-- A job of the winding down. A link is flushed by a worker that has nothing to do, or is idle. -/
def Winds (s : Network) (busy : WorkerId → Prop) : Job → Prop
  | .release _ | .purge _ | .recount _ | .dispatch _ | .dispatchLinks _ => True
  | .deliver _ left => left = 0
  | .progressInterface i => ∀ f, s.interfaces.get? i = some f → f.inbox = []
  | .runRegistry r => s.registries.get? r = some []
  | .progressWorker w => busy w
  | .flush l w _ => (∀ w', w = some w' → busy w') ∨ s.linkIsIdle l = true
  | .destroy e => ∀ ep, s.endpoints.get? e = some ep → busy ep.worker ∨
      ∀ l, some (.link l) ∈ ep.slots.toList → s.linkIsIdle l = true
  | _ => False

theorem Subsides.linkIsIdle (h : Subsides s t) {l : LinkId} (idle : s.linkIsIdle l = true) :
    t.linkIsIdle l = true := by
  unfold Network.linkIsIdle at idle ⊢
  cases here : t.links.get? l with
  | none => rfl
  | some lk =>
    rw [h.links l lk here] at idle
    exact idle

theorem Winds.later (h : s.Winds busy j) (sub : Subsides s t) : t.Winds busy j := by
  cases j with
  | progressInterface i => exact fun f here => h f (sub.interfaces i f here)
  | runRegistry r =>
    have same : t.registries.get? r = s.registries.get? r := by rw [sub.registries]
    exact same.trans h
  | flush l w rounds => exact h.imp_right sub.linkIsIdle
  | destroy e =>
    intro ep here
    rcases sub.endpoints e ep here with ⟨slots, there, less⟩
    exact (h _ there).imp_right fun idle l hl => sub.linkIsIdle (idle l (less _ hl))
  | _ => exact h

/-- How many steps a job takes at most with all that it leaves to do, apart from what is released. -/
def effort (A R : Nat) : Job → Nat
  | .dispatchLinks _ => 25
  | .progressInterface _ => 27
  | .progressWorker _ => 27 * R + 2
  | .flush _ _ rounds => 1 + (27 * R + 4) * rounds
  | .destroy _ => 6 + 3 * (2 + (27 * R + 4) * A)
  | _ => 1

/-- How many releases the things that live will leave to do when they go. -/
def ballast (s : Network) : Nat :=
  (s.stubs.sum fun _ _ => 3) + (s.endpoints.sum fun _ _ => 3)
    + s.workers.sum fun _ wk => wk.resources.length + wk.directory.length

/-- How many steps are left at most. -/
def efforts (A R : Nat) (jobs : List Job) : Nat := (jobs.map (effort A R)).sum

theorem efforts_append (A R : Nat) (jobs more : List Job) :
    efforts A R (jobs ++ more) = efforts A R jobs + efforts A R more := by simp [efforts]

/-- A job leaves less to do than there was. -/
structure Unwinds (A R : Nat) (busy : WorkerId → Prop) (s : Network) (j : Job) (rest : List Job)
    (t : Network) : Prop where
  subsides : Subsides s t
  leaves : ∃ new, t.agenda = new ++ rest ∧ (∀ k ∈ new, s.Winds busy k) ∧
    efforts A R new + t.ballast < effort A R j + s.ballast

theorem effort_pos (A R : Nat) (j : Job) : 0 < effort A R j := by
  cases j <;> simp [effort]

/-- A job that leaves nothing to do. -/
theorem Unwinds.nothing (sub : Subsides s t) (agenda : t.agenda = rest)
    (ballast : t.ballast ≤ s.ballast) : Unwinds A R busy s j rest t := by
  refine ⟨sub, [], agenda, fun k mem => (List.not_mem_nil mem).elim, ?_⟩
  have := effort_pos A R j
  simp only [efforts, List.map_nil, List.sum_nil]
  omega

/-! ## Releases -/

theorem efforts_releases {jobs : List Job} (all : ∀ k ∈ jobs, ∃ ref, k = .release ref) :
    efforts A R jobs = jobs.length := by
  induction jobs with
  | nil => rfl
  | cons k jobs ih =>
    rcases all k List.mem_cons_self with ⟨ref, rfl⟩
    have := ih fun k hk => all k (List.mem_cons_of_mem _ hk)
    simp only [efforts, List.map_cons, List.sum_cons, List.length_cons, effort] at this ⊢
    omega

/-- A thing that goes leaves what it owned to be released. -/
theorem Unwinds.releases (sub : Subsides s t) (agenda : t.agenda = new ++ rest)
    (all : ∀ k ∈ new, ∃ ref, k = .release ref) (less : new.length + t.ballast ≤ s.ballast) :
    Unwinds A R busy s j rest t := by
  refine ⟨sub, new, agenda, fun k mem => ?_, ?_⟩
  · rcases all k mem with ⟨ref, rfl⟩
    trivial
  · have := effort_pos A R j
    rw [efforts_releases all]
    omega

/-- What is held stays. -/
theorem Dry.releases_held (held : isHeld { s with agenda := rest } ref = true) :
    Unwinds A R busy s (.release ref) rest (perform { s with agenda := rest } (.release ref)) := by
  simp only [perform, release, held, if_true]
  exact .nothing (.withAgenda s rest) rfl le_rfl

theorem Dry.releases (h : Dry A R busy s) (ref : Ref) :
    Unwinds A R busy s (.release ref) rest (perform { s with agenda := rest } (.release ref)) := by
  cases held : isHeld { s with agenda := rest } ref with
  | true => exact Dry.releases_held held
  | false =>
    simp only [perform, release, held, Bool.false_eq_true, if_false]
    cases ref with
    | interface i =>
      simp only [retire, retireInterface]
      cases here : s.interfaces.get? i with
      | none =>
        dsimp only
        exact .nothing (.withAgenda s rest) rfl le_rfl
      | some f =>
        dsimp only
        have lost (ms : List Message) (trace : Array Happening) : ∃ trace', ms.foldl
            (fun (s : Network) m => s.note (.lost i m))
            { s with agenda := rest, interfaces := s.interfaces.erase i, trace } =
            { s with agenda := rest, interfaces := s.interfaces.erase i, trace := trace' } := by
          induction ms generalizing trace with
          | nil => exact ⟨trace, rfl⟩
          | cons m ms ih => exact ih _
        rcases lost f.inbox s.trace with ⟨trace', eq⟩
        rw [eq]
        exact .nothing { Subsides.refl s with interfaces := fun k f here => Table.get?_of_erase here }
          rfl le_rfl
    | link l =>
      simp only [retire, retireLink]
      cases here : s.links.get? l with
      | none =>
        dsimp only
        exact .nothing (.withAgenda s rest) rfl le_rfl
      | some lk =>
        dsimp only
        simp only [h.queues l lk here, List.foldl_nil]
        exact .nothing { Subsides.refl s with
          links := fun k lk here => Table.get?_of_erase here, next := Table.next_erase .. } rfl le_rfl
    | stub x =>
      simp only [retire, retireStub]
      cases here : s.stubs.get? x with
      | none =>
        dsimp only
        exact .nothing (.withAgenda s rest) rfl le_rfl
      | some st =>
        dsimp only
        have parked := h.parked x st here
        simp only [parked, List.isEmpty_nil, if_true, List.map_nil, List.append_nil]
        refine .releases { Subsides.refl s with stubs := fun k st here => Table.get?_of_erase here }
          rfl (fun k mem => ?_) ?_
        · simp only [List.mem_append, mem_releaseLink?] at mem
          rcases mem with (⟨l, -, rfl⟩ | ⟨l, -, rfl⟩) | ⟨l, -, rfl⟩ <;> exact ⟨_, rfl⟩
        · have erased := Table.sum_erase (fun _ _ => 3) here
          have one := releaseLink?_length st.next
          have two := releaseLink?_length st.auxiliary
          have three := releaseLink?_length st.promoted
          simp only [ballast, push, List.length_append]
          omega
    | endpoint e =>
      simp only [retire, retireEndpoint]
      cases here : s.endpoints.get? e with
      | none =>
        dsimp only
        exact .nothing (.withAgenda s rest) rfl le_rfl
      | some ep =>
        dsimp only
        refine .releases { Subsides.refl s with
          endpoints := fun k ep here => ⟨ep.slots, Table.get?_of_erase here, fun _ => id⟩ }
          rfl (fun k mem => ?_) ?_
        · rcases mem_releaseSlots.1 mem with ⟨c, -, rfl⟩
          exact ⟨_, rfl⟩
        · have erased := Table.sum_erase (fun _ _ => 3) here
          have three := releaseSlots_length ep.slots
          simp only [ballast, push]
          omega
    | worker w =>
      simp only [retire, retireWorker]
      cases here : s.workers.get? w with
      | none =>
        dsimp only
        exact .nothing (.withAgenda s rest) rfl le_rfl
      | some wk =>
        dsimp only
        refine .releases { Subsides.refl s with
          workers := fun k wk here => ⟨wk.directory, Table.get?_of_erase here, .refl _⟩ }
          rfl (fun k mem => ?_) ?_
        · rcases List.mem_append.1 mem with mem | mem
          · rcases List.mem_map.1 mem with ⟨r, -, rfl⟩
            exact ⟨_, rfl⟩
          · rcases List.mem_map.1 mem with ⟨entry, -, rfl⟩
            exact ⟨_, rfl⟩
        · have erased := Table.sum_erase
            (fun _ (wk : Worker) => wk.resources.length + wk.directory.length) here
          simp only [ballast, push, List.length_append, List.length_map]
          omega
    | callback c => exact .nothing { Subsides.refl s with } rfl le_rfl

/-! ## Other jobs -/

/-- Jobs that are left to be done and take less than the one that left them. -/
theorem Unwinds.leaves_jobs (sub : Subsides s t) (agenda : t.agenda = new ++ rest)
    (winds : ∀ k ∈ new, s.Winds busy k) (ballast : t.ballast ≤ s.ballast)
    (less : efforts A R new < effort A R j) : Unwinds A R busy s j rest t :=
  ⟨sub, new, agenda, winds, by omega⟩

theorem Dry.purges (h : Dry A R busy s) (c : Carrier) :
    Unwinds A R busy s (.purge c) rest (perform { s with agenda := rest } (.purge c)) := by
  cases c with
  | link l =>
    simp only [perform, purge, drain]
    cases here : s.links.get? l with
    | none =>
      dsimp only
      exact .nothing (.withAgenda s rest) rfl le_rfl
    | some lk =>
      have empty : lk.queue = [] := h.queues l lk here
      have same : { lk with queue := [] } = lk := by rw [← empty]
      dsimp only
      rw [same, empty, Table.set_get? here]
      exact .nothing (.withAgenda s rest) rfl le_rfl
  | stub x =>
    simp only [perform, purge]
    cases here : s.stubs.get? x with
    | none =>
      dsimp only
      exact .nothing (.withAgenda s rest) rfl le_rfl
    | some st =>
      dsimp only
      rw [h.parked x st here]
      exact .nothing (.withAgenda s rest) rfl le_rfl

theorem Dry.dispatches (h : Dry A R busy s) (l : LinkId) :
    Unwinds A R busy s (.dispatch l) rest (perform { s with agenda := rest } (.dispatch l)) := by
  have stalled : s.Stalled l := fun lk here => .inl (h.queues l lk here)
  simp only [perform, dispatch, stalled.dequeue]
  exact .nothing (.withAgenda s rest) rfl le_rfl

theorem Dry.dispatchesLinks (h : Dry A R busy s) (i : InterfaceId) :
    Unwinds A R busy s (.dispatchLinks i) rest
      (perform { s with agenda := rest } (.dispatchLinks i)) := by
  have few := (s.linksOf_length_le i).trans h.few
  refine .leaves_jobs (.withAgenda s _) rfl (fun k mem => ?_) le_rfl ?_
  · rcases List.mem_flatMap.1 mem with ⟨l, -, mem⟩
    simp only [List.mem_cons, List.not_mem_nil, or_false] at mem
    rcases mem with rfl | rfl <;> trivial
  · have count (ls : List LinkId) : efforts A R
        (ls.flatMap fun l => [.dispatch l, .release (.link l)]) = 2 * ls.length := by
      induction ls with
      | nil => rfl
      | cons l ls ih =>
        rw [List.flatMap_cons, efforts_append, ih, List.length_cons]
        simp only [efforts, effort, List.map_cons, List.map_nil, List.sum_cons, List.sum_nil]
        omega
    have all := count (s.linksOf i)
    simp only [effort]
    change efforts A R ((s.linksOf i).flatMap _) < 25
    omega

theorem Dry.progressesInterface {i : InterfaceId}
    (empty : ∀ f, s.interfaces.get? i = some f → f.inbox = []) :
    Unwinds A R busy s (.progressInterface i) rest
      (perform { s with agenda := rest } (.progressInterface i)) := by
  simp only [perform, progressInterface]
  cases here : s.interfaces.get? i with
  | none =>
    dsimp only
    exact .nothing (.withAgenda s rest) rfl le_rfl
  | some f =>
    dsimp only
    refine .leaves_jobs (.withAgenda s _) rfl (fun k mem => ?_) le_rfl ?_
    · simp only [List.mem_cons, List.not_mem_nil, or_false] at mem
      rcases mem with rfl | rfl
      · exact congrArg List.length (empty f here)
      · trivial
    · simp [efforts, effort]

theorem Dry.runsRegistry {r : RegistryId} (asleep : s.registries.get? r = some []) :
    Unwinds A R busy s (.runRegistry r) rest
      (perform { s with agenda := rest } (.runRegistry r)) := by
  have pruned : prune { s with agenda := rest } r = { s with agenda := rest } := by
    simp only [prune, Table.modify_eq_set asleep, List.filter_nil, Table.set_get? asleep]
  have empty : registry { s with agenda := rest } r = [] := by
    simp only [registry, asleep, Option.getD_some]
  simp only [perform, runRegistry, pruned, empty]
  exact .nothing { Subsides.refl s with } rfl le_rfl

theorem Dry.progressesWorker (h : Dry A R busy s) {w : WorkerId} (allowed : busy w) :
    Unwinds A R busy s (.progressWorker w) rest
      (perform { s with agenda := rest } (.progressWorker w)) := by
  simp only [perform, progressWorker]
  cases here : s.workers.get? w with
  | none =>
    dsimp only
    exact .nothing (.withAgenda s rest) rfl le_rfl
  | some wk =>
    rcases h.asleep w wk allowed here with ⟨posted, asleep, inboxes⟩
    have same : { wk with posted := [] } = wk := by rw [← posted]
    have applied : applyPosted { s with agenda := rest } w = ({ s with agenda := rest }, 0) := by
      simp only [applyPosted, here, same, posted, List.foldl_nil, List.length_nil,
        Table.set_get? here]
    have width := h.width w wk here
    dsimp only
    rw [applied]
    refine .leaves_jobs { Subsides.refl s with } rfl (fun k mem => ?_) le_rfl ?_
    · rcases List.mem_append.1 mem with mem | mem
      · rcases List.mem_map.1 mem with ⟨r, hr, rfl⟩
        exact inboxes r hr
      · rw [List.mem_singleton.1 mem]
        exact asleep
    · have count (rs : List Resource) : efforts A R
          (rs.map fun r => .progressInterface r.interface) = 27 * rs.length := by
        induction rs with
        | nil => rfl
        | cons r rs ih =>
          simp only [efforts, effort, List.map_cons, List.sum_cons, List.length_cons] at ih ⊢
          omega
      rw [efforts_append, count]
      simp only [efforts, effort, List.map_cons, List.map_nil, List.sum_cons, List.sum_nil]
      omega

theorem Dry.flushes {l : LinkId} {worker : Option WorkerId} {rounds : Nat}
    (winds : s.Winds busy (.flush l worker rounds)) :
    Unwinds A R busy s (.flush l worker rounds) rest
      (perform { s with agenda := rest } (.flush l worker rounds)) := by
  have same : linkIsIdle { s with agenda := rest } l = s.linkIsIdle l := rfl
  simp only [perform, flush, same]
  cases idle : s.linkIsIdle l with
  | true => exact .nothing (.withAgenda s rest) rfl le_rfl
  | false =>
    rw [if_neg (by simp)]
    split
    · rename_i rounds w
      have allowed : busy w := by
        rcases winds with busy | idle'
        · exact busy w rfl
        · rw [idle] at idle'
          cases idle'
      refine .leaves_jobs (.withAgenda s _) rfl (fun k mem => ?_) le_rfl ?_
      · simp only [List.mem_cons, List.not_mem_nil, or_false] at mem
        rcases mem with rfl | rfl | rfl
        · exact allowed
        · trivial
        · exact winds
      · simp only [efforts, effort, List.map_cons, List.map_nil, List.sum_cons, List.sum_nil,
          Nat.mul_succ]
        omega
    · exact .nothing (.withAgenda s rest) rfl le_rfl

/-- What a destroyed endpoint leaves to do for each of its carriers. -/
def takeDown (worker : Option WorkerId) (rounds : Nat) (c : Carrier) : List Job :=
  match c with
  | .link l => [.purge c, .flush l worker rounds]
  | .stub _ => [.purge c]

theorem efforts_takeDown (worker : Option WorkerId) {rounds : Nat} (few : rounds ≤ A)
    (cs : List Carrier) :
    efforts A R (cs.flatMap (takeDown worker rounds)) ≤ cs.length * (2 + (27 * R + 4) * A) := by
  induction cs with
  | nil => exact Nat.zero_le _
  | cons c cs ih =>
    have rounds := Nat.mul_le_mul_left (27 * R + 4) few
    rw [List.flatMap_cons, efforts_append, List.length_cons, Nat.succ_mul, Nat.add_comm]
    refine Nat.add_le_add ih ?_
    cases c <;>
      simp only [takeDown, efforts, effort, List.map_cons, List.map_nil, List.sum_cons, List.sum_nil] <;>
      omega

theorem Dry.destroys (h : Dry A R busy s) {e : EndpointId} (winds : s.Winds busy (.destroy e)) :
    Unwinds A R busy s (.destroy e) rest (perform { s with agenda := rest } (.destroy e)) := by
  cases here : s.endpoints.get? e with
  | none =>
    simp only [perform, destroy, here]
    exact .nothing (.withAgenda s rest) rfl le_rfl
  | some ep =>
    let worker := workerOf? (setSlots { s with agenda := rest } e (.const none)) e
    let removed : List Job := (worker.bind fun w =>
      findEndpoint? (setSlots { s with agenda := rest } e (.const none)) w ep.dest).toList.map
        fun r => .release (.endpoint r)
    let carriers := (ep.slots.toList.filterMap fun slot => slot).eraseDups
    let left : List Job := removed ++ carriers.flatMap (takeDown worker ep.flushAttempts)
      ++ worker.toList.map (fun w => .release (.worker w)) ++ releaseSlots ep.slots
    have three : carriers.length ≤ 3 :=
      (length_eraseDups_le _).trans (List.length_filterMap_le _ _)
    have owner {w : WorkerId} (known : worker = some w) : w = ep.worker := by
      rcases workerOf?_eq_some.1 known with ⟨ep', there, rfl, -⟩
      simp only [setSlots, Table.get?_modify, if_true, here, Option.map_some] at there
      cases there
      rfl
    have winds' : ∀ k ∈ left, s.Winds busy k := by
      intro k mem
      simp only [left, removed, carriers, List.mem_append, List.mem_map, List.mem_flatMap,
        mem_releaseSlots, List.mem_eraseDups, List.mem_filterMap] at mem
      rcases mem with ((⟨r, -, rfl⟩ | ⟨c, ⟨slot, owns, rfl⟩, mem⟩) | ⟨w, -, rfl⟩) | ⟨c, -, rfl⟩
      · trivial
      · cases c with
        | link l =>
          simp only [takeDown, List.mem_cons, List.not_mem_nil, or_false] at mem
          rcases mem with rfl | rfl
          · trivial
          · exact (winds ep here).imp (fun allowed w known => owner known ▸ allowed)
              fun idle => idle l owns
        | stub x =>
          cases List.mem_singleton.1 mem
          trivial
      · trivial
      · trivial
    have less : efforts A R left < effort A R (.destroy e) := by
      have slots := releaseSlots_length ep.slots
      have down := efforts_takeDown (R := R) worker (h.patience e ep here) carriers
      have bound := Nat.mul_le_mul_right (2 + (27 * R + 4) * A) three
      have first : efforts A R removed ≤ 1 := by
        rw [efforts_releases fun k mem => by
          rcases List.mem_map.1 mem with ⟨r, -, rfl⟩
          exact ⟨_, rfl⟩, List.length_map]
        cases worker.bind fun w =>
          findEndpoint? (setSlots { s with agenda := rest } e (.const none)) w ep.dest <;> simp
      have last : efforts A R (worker.toList.map fun w => .release (.worker w)) ≤ 1 := by
        cases worker <;> simp [efforts, effort]
      have released : efforts A R (releaseSlots ep.slots) ≤ 3 := by
        rw [efforts_releases fun k mem => by
          rcases mem_releaseSlots.1 mem with ⟨c, -, rfl⟩
          exact ⟨_, rfl⟩]
        exact slots
      simp only [left, efforts_append, effort]
      omega
    have endpoints (k : EndpointId) (ep' : Endpoint)
        (there : (s.endpoints.modify e fun e => { e with slots := .const none }).get? k = some ep') :
        ∃ slots, s.endpoints.get? k = some { ep' with slots } ∧
          ∀ c, some c ∈ ep'.slots.toList → some c ∈ slots.toList := by
      rcases Table.get?_of_modify there with ⟨old, there', rfl | rfl⟩
      · exact ⟨ep'.slots, there', fun _ => id⟩
      · refine ⟨old.slots, there', fun c mem => ?_⟩
        simp [PerCategory.toList, PerCategory.const] at mem
    have same : (s.endpoints.modify e fun e => { e with slots := .const none }).sum
        (fun _ _ => 3) = s.endpoints.sum fun _ _ => 3 := Table.sum_modify fun _ _ => rfl
    cases known : worker with
    | none =>
      have done : perform { s with agenda := rest } (.destroy e) = { s with
          endpoints := s.endpoints.modify e fun e => { e with slots := .const none }
          agenda := left ++ rest } := by
        simp only [left, removed, known]
        simp only [worker] at known
        simp only [perform, destroy, here, known]
        rfl
      rw [done]
      exact .leaves_jobs { Subsides.refl s with endpoints } rfl winds'
        (by simp only [ballast, same, le_rfl]) less
    | some w =>
      let strike (wk : Worker) : Worker :=
        { wk with directory := wk.directory.filter fun entry => entry.1 != ep.dest }
      have done : perform { s with agenda := rest } (.destroy e) = { s with
          endpoints := s.endpoints.modify e fun e => { e with slots := .const none }
          workers := s.workers.modify w strike
          agenda := left ++ rest } := by
        simp only [left, removed, known]
        simp only [worker] at known
        simp only [perform, destroy, here, known]
        rfl
      rw [done]
      refine .leaves_jobs { Subsides.refl s with endpoints, workers := fun k wk there => ?_ } rfl
        winds' ?_ less
      · rcases Table.get?_of_modify there with ⟨old, there', rfl | rfl⟩
        · exact ⟨wk.directory, there', .refl _⟩
        · exact ⟨old.directory, there', List.filter_sublist⟩
      · have lighter : (s.workers.modify w strike).sum
            (fun _ wk => wk.resources.length + wk.directory.length) ≤
            s.workers.sum fun _ wk => wk.resources.length + wk.directory.length := by
          cases there : s.workers.get? w with
          | none => rw [Table.modify_of_none there]
          | some wk =>
            have struck := Table.sum_set (b := strike wk)
              (fun _ (wk : Worker) => wk.resources.length + wk.directory.length) there
            have fewer : (strike wk).directory.length ≤ wk.directory.length :=
              List.length_filter_le _ _
            have alike : (strike wk).resources.length = wk.resources.length := rfl
            rw [Table.modify_eq_set there]
            omega
        simp only [ballast, same]
        omega

/-! ## All of the work -/

theorem Dry.unwinds (h : Dry A R busy s) (winds : s.Winds busy j) :
    Unwinds A R busy s j rest (perform { s with agenda := rest } j) := by
  cases j with
  | release ref => exact h.releases ref
  | purge c => exact h.purges c
  | recount n => exact .nothing { Subsides.refl s with } rfl le_rfl
  | dispatch l => exact h.dispatches l
  | dispatchLinks i => exact h.dispatchesLinks i
  | deliver i left =>
    have none : left = 0 := winds
    subst none
    exact .nothing (.withAgenda s rest) rfl le_rfl
  | progressInterface i => exact Dry.progressesInterface winds
  | runRegistry r => exact Dry.runsRegistry winds
  | progressWorker w => exact h.progressesWorker winds
  | flush l worker rounds => exact Dry.flushes winds
  | destroy e => exact h.destroys winds
  | _ => exact winds.elim

/-- Winding down comes to its end. -/
theorem Dry.work (h : Dry A R busy s) (winds : ∀ k ∈ s.agenda, s.Winds busy k) :
    ∃ n ≤ efforts A R s.agenda + s.ballast, (work n s).agenda = [] ∧ Subsides s (work n s) := by
  induction left : efforts A R s.agenda + s.ballast using Nat.strong_induction_on generalizing s with
  | _ left ih =>
    subst left
    cases top : s.agenda with
    | nil => exact ⟨0, Nat.zero_le _, top, .refl s⟩
    | cons j rest =>
      have step := step_eq top h.calm
      rw [top] at winds
      have unwinds : Unwinds A R busy s j rest _ := h.unwinds (winds j List.mem_cons_self)
      rcases unwinds with ⟨sub, new, agenda, next, less⟩
      rw [← step] at sub agenda less
      have fewer : efforts A R s.step.agenda + s.step.ballast < efforts A R s.agenda + s.ballast := by
        have first : efforts A R (j :: rest) = effort A R j + efforts A R rest := by simp [efforts]
        rw [agenda, efforts_append, top, first]
        omega
      have others : ∀ k ∈ s.step.agenda, s.step.Winds busy k := by
        intro k mem
        rw [agenda] at mem
        rcases List.mem_append.1 mem with mem | mem
        · exact (next k mem).later sub
        · exact (winds k (List.mem_cons_of_mem _ mem)).later sub
      rcases ih _ fewer (h.later sub) others rfl with ⟨n, few, done, sub'⟩
      refine ⟨n + 1, ?_, ?_, ?_⟩
      · rw [← top]
        omega
      · rw [work_succ top]
        exact done
      · rw [work_succ top]
        exact sub.trans sub'

theorem Dry.settles {α : Type} (h : Dry A R busy s) (winds : ∀ k ∈ s.agenda, s.Winds busy k)
    (few : efforts A R s.agenda + s.ballast ≤ s.fuel) (result : Network → α) :
    ∃ t, s.settle result = (t, .ok (result t)) ∧ Subsides s t ∧ t.agenda = [] := by
  rcases h.work winds with ⟨n, steps, done, sub⟩
  exact ⟨_, settle_within result (steps.trans few) done (h.later sub).calm, sub, done⟩

/-! ## Operations -/

theorem ballast_le (s : Network) : s.ballast ≤ 3 * s.extent := by
  have stubs : s.stubs.values.length ≤ tableExtent s.stubs fun t => requestsExtent t.parked :=
    length_le_total ..
  have endpoints : s.endpoints.values.length ≤ tableExtent s.endpoints fun e => e.flushAttempts :=
    length_le_total ..
  have workers : (s.workers.sum fun _ wk => wk.resources.length + wk.directory.length) ≤
      tableExtent s.workers fun w => w.resources.length + w.posted.length + w.directory.length := by
    rw [Table.sum_eq_total (fun wk : Worker => wk.resources.length + wk.directory.length)]
    refine total_mono (fun wk => ?_) _
    simp only
    omega
  unfold ballast extent
  rw [Table.sum_const, Table.sum_const]
  omega

/-- A hold of the application is taken back. -/
theorem Dry.drops (h : Dry A R busy s) (idle : s.agenda = []) (ref : Ref) :
    ∃ t, s.drop ref = (t, .ok ()) ∧ Subsides s t ∧ t.agenda = [] := by
  unfold drop letGo
  split
  · let s' : Network := { s with holds := s.holds.erase ref, agenda := [.release ref] }
    have pushed : push { s with holds := s.holds.erase ref } [.release ref] = s' := by
      simp only [push, idle, List.append_nil, s']
    have sub : Subsides s s' := { Subsides.refl s with }
    have ballast := s'.ballast_le
    have fuel := s'.extent_le_fuel
    rw [pushed]
    have one : efforts A R s'.agenda = 1 := rfl
    rcases (h.later sub).settles (fun k mem => List.mem_singleton.1 mem ▸ trivial) (by omega)
      (fun _ => ()) with ⟨t, done, sub', idle'⟩
    exact ⟨t, done, sub.trans sub', idle'⟩
  · have ballast := s.ballast_le
    have fuel := s.extent_le_fuel
    refine h.settles (fun k mem => ?_) ?_ fun _ => ()
    · rw [idle] at mem
      exact (List.not_mem_nil mem).elim
    · rw [idle]
      simp only [efforts, List.map_nil, List.sum_nil]
      omega

/-- No more patience and no more resources are there than things. -/
theorem Dry.fitted (h : Dry A R busy s) : Dry s.extent s.extent busy s :=
  { h with
    patience := fun _ _ here => flushAttempts_le_extent here
    width := fun _ _ here => resources_le_extent here }

/-- The endpoints of a worker are destroyed. -/
theorem Dry.closes (h : Dry A R busy s) (idle : s.agenda = []) (w : WorkerId)
    (winds : ∀ wk, s.workers.get? w = some wk → ∀ entry ∈ wk.directory, s.Winds busy (.destroy entry.2)) :
    ∃ t, s.close w = (t, .ok ()) ∧ Subsides s t ∧ t.agenda = [] := by
  obtain ⟨A, R, small, h⟩ : ∃ A R, (A ≤ s.extent ∧ R ≤ s.extent) ∧ Dry A R busy s :=
    ⟨_, _, ⟨le_rfl, le_rfl⟩, h.fitted⟩
  let jobs : List Job := (((s.workers.get? w).map fun w => w.directory.map Prod.snd).getD []).flatMap
    fun e => [.destroy e, .release (.endpoint e)]
  let s' : Network := { s with tally := 0, agenda := jobs }
  have start : push { s with tally := 0 } jobs = s' := by simp only [push, idle, List.append_nil, s']
  have sub : Subsides s s' := { Subsides.refl s with }
  have extent : s.extent ≤ s'.extent := by
    unfold Network.extent
    simp only [s', idle, List.length_nil, List.filterMap_nil]
    simp only [requestsExtent, total]
    omega
  have count (es : List EndpointId) : efforts A R (es.flatMap fun e => [.destroy e,
      .release (.endpoint e)]) = es.length * (13 + (81 * R + 12) * A) := by
    induction es with
    | nil => simp [efforts]
    | cons e es ih =>
      rw [List.flatMap_cons, efforts_append, ih, List.length_cons, Nat.succ_mul, Nat.add_comm]
      simp only [efforts, effort, List.map_cons, List.map_nil, List.sum_cons, List.sum_nil]
      ring
  have winds' : ∀ k ∈ s'.agenda, s'.Winds busy k := by
    intro k mem
    rcases List.mem_flatMap.1 mem with ⟨e, known, mem⟩
    simp only [List.mem_cons, List.not_mem_nil, or_false] at mem
    rcases mem with rfl | rfl
    · cases here : s.workers.get? w with
      | none =>
        rw [here] at known
        exact (List.not_mem_nil known).elim
      | some wk =>
        rw [here] at known
        rcases List.mem_map.1 known with ⟨entry, listed, rfl⟩
        exact (winds wk here entry listed).later sub
    · trivial
  have entries : (((s.workers.get? w).map fun w => w.directory.map Prod.snd).getD []).length ≤
      s'.extent := by
    refine le_trans ?_ extent
    cases here : s.workers.get? w with
    | none => exact Nat.zero_le _
    | some wk =>
      have whole := le_tableExtent here fun w =>
        w.resources.length + w.posted.length + w.directory.length
      simp only [Option.map_some, Option.getD_some, List.length_map]
      unfold Network.extent
      omega
  have few : efforts A R s'.agenda + s'.ballast ≤ s'.fuel := by
    have ballast := s'.ballast_le
    have fuel : s'.fuel = 1000000 * (1 + s'.extent) ^ 3 := rfl
    rw [show s'.agenda = jobs from rfl, count, fuel]
    generalize s'.extent = E at *
    have each : 13 + (81 * R + 12) * A ≤ 106 * (1 + E) ^ 2 := by nlinarith
    have all := Nat.mul_le_mul entries each
    have cube : E * (106 * (1 + E) ^ 2) + 3 * E ≤ 1000000 * (1 + E) ^ 3 := by nlinarith
    omega
  rcases (h.later sub).settles winds' few (fun _ => ()) with ⟨t, done, sub', idle'⟩
  refine ⟨t, ?_, sub.trans sub', idle'⟩
  rw [← start] at done
  exact done

end Network

end Wiring
