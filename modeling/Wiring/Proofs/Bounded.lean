import Mathlib
import Wiring.Proofs.Creation

/-!
# Work within bounds

An operation ends if its jobs are done before the fuel is used up, so the steps have to be counted.
Jobs are done above whatever else there is to do. Most of what a worker goes through when it
progresses has nothing to do: such jobs are done in a few steps and leave the network as it is.
-/
namespace Wiring.Network

variable {s t u : Network} {rest more jobs new : List Job} {j : Job} {m n : Nat} {ref : Ref}

/-- Jobs are done in a number of steps at most, above the rest of the agenda, and lead from one
network to another. -/
def Reaches (rest : List Job) (s : Network) (jobs : List Job) (steps : Nat) (t : Network) : Prop :=
  ∃ n ≤ steps, work n { s with agenda := jobs ++ rest } = { t with agenda := rest }

namespace Reaches

theorem refl (rest : List Job) (s : Network) : Reaches rest s [] 0 s := ⟨0, le_rfl, rfl⟩

theorem mono (h : Reaches rest s jobs m t) (few : m ≤ n) : Reaches rest s jobs n t := by
  rcases h with ⟨k, hk, done⟩
  exact ⟨k, hk.trans few, done⟩

theorem trans (h : Reaches (more ++ rest) s jobs m t) (g : Reaches rest t more n u) :
    Reaches rest s (jobs ++ more) (m + n) u := by
  rcases h with ⟨k, hk, done⟩
  rcases g with ⟨i, hi, done'⟩
  refine ⟨k + i, Nat.add_le_add hk hi, ?_⟩
  rw [work_add, List.append_assoc, done, done']

/-- The first job is done, then what it has put on the agenda, then the others. -/
theorem head (h : Reaches rest t (new ++ more) n u) (calm : s.violation = none)
    (done : perform { s with agenda := more ++ rest } j =
      { t with agenda := new ++ (more ++ rest) }) : Reaches rest s (j :: more) (n + 1) u := by
  rcases h with ⟨k, hk, done'⟩
  refine ⟨k + 1, Nat.succ_le_succ hk, ?_⟩
  have top : ({ s with agenda := j :: more ++ rest } : Network).agenda = j :: (more ++ rest) := rfl
  rw [work_succ top, step_eq top calm]
  rw [List.append_assoc] at done'
  rw [← done', ← done]

/-- A job that puts nothing on the agenda. -/
theorem one (calm : s.violation = none)
    (done : perform { s with agenda := rest } j = { t with agenda := rest }) :
    Reaches rest s [j] 1 t := by
  have above : Reaches rest t ([] ++ []) 0 t := .refl rest t
  exact above.head calm done

/-- A job that leaves its work to others. -/
theorem into (h : Reaches rest t new n u) (calm : s.violation = none)
    (done : perform { s with agenda := rest } j = { t with agenda := new ++ rest }) :
    Reaches rest s [j] (n + 1) u := by
  rw [← List.append_nil new] at h
  exact h.head calm done

/-- What a job leaves to do is done before the other jobs. -/
theorem cons (h : Reaches (more ++ rest) s [j] m t) (g : Reaches rest t more n u) :
    Reaches rest s (j :: more) (m + n) u :=
  h.trans g

end Reaches

/-- Jobs are done within a number of steps whatever else there is to do. -/
def Works (s : Network) (jobs : List Job) (steps : Nat) (t : Network) : Prop :=
  ∀ rest, Reaches rest s jobs steps t

namespace Works

theorem refl (s : Network) : Works s [] 0 s := fun rest => .refl rest s

theorem mono (h : Works s jobs m t) (few : m ≤ n) : Works s jobs n t :=
  fun rest => (h rest).mono few

theorem trans (h : Works s jobs m t) (g : Works t more n u) : Works s (jobs ++ more) (m + n) u :=
  fun rest => (h (more ++ rest)).trans (g rest)

theorem cons (h : Works s [j] m t) (g : Works t more n u) : Works s (j :: more) (m + n) u :=
  h.trans g

theorem one (calm : s.violation = none)
    (done : ∀ agenda, perform { s with agenda } j = { t with agenda }) : Works s [j] 1 t :=
  fun rest => .one calm (done rest)

theorem into (h : Works t new n u) (calm : s.violation = none)
    (done : ∀ agenda, perform { s with agenda } j = { t with agenda := new ++ agenda }) :
    Works s [j] (n + 1) u :=
  fun rest => (h rest).into calm (done rest)

/-- Jobs that are done within the fuel are all that is done. -/
theorem settles {α : Type} (h : Works s jobs n t) (few : n ≤ fuel { s with agenda := jobs })
    (calm : t.violation = none) (result : Network → α) :
    settle { s with agenda := jobs } result =
      ({ t with agenda := [] }, .ok (result { t with agenda := [] })) := by
  rcases h [] with ⟨k, hk, done⟩
  rw [List.append_nil] at done
  rw [settle_within (n := k) result (hk.trans few)]
  · rw [done]
  · rw [done]
  · rw [done]
    exact calm

/-- An operation whose jobs are done within its fuel answers. -/
theorem answers {α : Type} (h : Works { s with tally := 0 } jobs n t) (idle : s.agenda = [])
    (few : n ≤ (push { s with tally := 0 } jobs).fuel) (calm : t.violation = none)
    (result : Network → α) :
    s.carryOut jobs result =
      ({ t with agenda := [] }, .ok (result { t with agenda := [] })) := by
  have start : push { s with tally := 0 } jobs = { s with tally := 0, agenda := jobs } := by
    simp only [push, idle, List.append_nil]
  unfold carryOut
  rw [start] at few ⊢
  exact h.settles few calm result

end Works

/-! ## The fuel -/

theorem le_tableExtent {α : Type} {table : Table α} {k : Nat} {a : α} (h : table.get? k = some a)
    (extent : α → Nat) : extent a ≤ tableExtent table extent := by
  have mem : a ∈ table.values := by
    have cell := Option.join_eq_some_iff.1 h
    rw [← Array.getElem?_toList] at cell
    exact List.mem_filterMap.2 ⟨some a, List.mem_of_getElem? cell, rfl⟩
  have := le_total (fun a => 1 + extent a) mem
  unfold tableExtent
  omega

theorem extent_le_fuel (s : Network) : 1000000 * (1 + s.extent) ≤ s.fuel :=
  Nat.mul_le_mul_left _ (Nat.le_self_pow (by decide) _)

/-- There are at least as many things as a worker has resources, or an inbox has messages, or a
queue or a stub has requests. -/
theorem resources_le_extent {w : WorkerId} {wk : Worker} (here : s.workers.get? w = some wk) :
    wk.resources.length ≤ s.extent := by
  have := le_tableExtent here fun w => w.resources.length + w.posted.length + w.directory.length
  unfold extent
  omega

theorem inbox_le_extent {i : InterfaceId} {f : Interface} (here : s.interfaces.get? i = some f) :
    f.inbox.length ≤ s.extent := by
  have := le_tableExtent here fun i => i.inbox.length
  unfold extent
  omega

theorem length_le_requestsExtent (requests : List Request) :
    requests.length ≤ requestsExtent requests := by
  induction requests with
  | nil => exact Nat.zero_le _
  | cons r rs ih =>
    have one : 1 ≤ r.extent := by cases r <;> simp [Request.extent]
    simp only [requestsExtent, total, List.length_cons] at ih ⊢
    omega

theorem queue_le_extent {l : LinkId} {lk : Link} (here : s.links.get? l = some lk) :
    lk.queue.length ≤ s.extent := by
  have := le_tableExtent here fun l => requestsExtent l.queue
  have := length_le_requestsExtent lk.queue
  unfold extent
  omega

theorem parked_le_extent {x : StubId} {st : Stub} (here : s.stubs.get? x = some st) :
    st.parked.length ≤ s.extent :=
  (length_le_requestsExtent st.parked).trans (requestsExtent_le here)

theorem flushAttempts_le_extent {e : EndpointId} {ep : Endpoint}
    (here : s.endpoints.get? e = some ep) : ep.flushAttempts ≤ s.extent := by
  have := le_tableExtent here fun e => e.flushAttempts
  unfold extent
  omega

/-! ## What is held whatever there is to do -/

/-- The application or another thing holds the thing. -/
def Firm (s : Network) (ref : Ref) : Prop := ref ∈ s.holds ∨ s.isOwned ref = true

theorem Firm.isHeld (h : s.Firm ref) (agenda : List Job) :
    isHeld { s with agenda } ref = true := by
  rcases h with held | owned
  · exact isHeld_of_holds held
  · refine isHeld_of_owned ?_
    cases ref <;> exact owned

theorem Firm.released (h : s.Firm ref) (calm : s.violation = none) :
    Works s [.release ref] 1 s := by
  refine .one calm fun agenda => ?_
  simp only [perform, release, h.isHeld agenda, if_true]

/-- An endpoint owns what serves it. -/
theorem firm_of_slot {e : EndpointId} {ep : Endpoint} {c : Category} {carrier : Carrier}
    (here : s.endpoints.get? e = some ep) (slot : ep.slots.get c = some carrier) :
    s.Firm carrier.ref :=
  .inr (isOwned_iff.2 (.inr (.inl ⟨e, ep, carrier, here, Endpoint.owns_iff.2 ⟨c, slot⟩, rfl⟩)))

/-! ## Nothing to do -/

/-- Nothing can be taken out of the link's queue. -/
def Stalled (s : Network) (l : LinkId) : Prop :=
  ∀ lk, s.links.get? l = some lk → lk.queue = [] ∨ lk.credits = 0

theorem Stalled.dequeue {l : LinkId} (h : s.Stalled l) (agenda : List Job) :
    Network.dequeue { s with agenda } l = ({ s with agenda }, none) := by
  unfold Network.dequeue
  cases here : s.links.get? l with
  | none => rfl
  | some lk =>
    simp only
    split
    · rename_i credits r later hc hq
      rcases h lk here with empty | none
      · rw [empty] at hq
        cases hq
      · rw [none] at hc
        cases hc
    · rfl

theorem Stalled.dispatched {l : LinkId} (h : s.Stalled l) (calm : s.violation = none) :
    Works s [.dispatch l] 1 s := by
  refine .one calm fun agenda => ?_
  simp only [perform, dispatch, h.dequeue]

/-- An interface has links from which nothing can be sent, and which are not let go of. -/
def Rests (s : Network) (i : InterfaceId) : Prop :=
  ∀ l ∈ s.linksOf i, s.Stalled l ∧ s.Firm (.link l)

theorem stalled_works {ls : List LinkId} (h : ∀ l ∈ ls, s.Stalled l ∧ s.Firm (.link l))
    (calm : s.violation = none) :
    Works s (ls.flatMap fun l => [.dispatch l, .release (.link l)]) (2 * ls.length) s := by
  induction ls with
  | nil => exact .refl s
  | cons l ls ih =>
    rcases h l List.mem_cons_self with ⟨stalled, firm⟩
    refine .mono ((stalled.dispatched calm).cons ((firm.released calm).cons
      (ih fun l hl => h l (List.mem_cons_of_mem _ hl)))) ?_
    rw [List.length_cons]
    omega

theorem linksOf_length_le (s : Network) (i : InterfaceId) : (s.linksOf i).length ≤ s.links.next := by
  have below : s.linksOf i ⊆ List.range s.links.next := by
    intro l hl
    rcases Table.mem_keysWhere hl with ⟨lk, here, -⟩
    exact List.mem_range.2 (Table.lt_next_of_get? here)
  have distinct : (s.linksOf i).Nodup := (Table.keysWhere_sorted _ _).imp Nat.ne_of_lt
  simpa using (distinct.subperm below).length_le

theorem Rests.dispatched {i : InterfaceId} (h : s.Rests i) (calm : s.violation = none) :
    Works s [.dispatchLinks i] (2 * s.links.next + 1) s := by
  have all := (stalled_works h calm).mono (Nat.mul_le_mul_left 2 (s.linksOf_length_le i))
  exact all.into calm fun agenda => rfl

/-- An interface without messages whose links rest does nothing when it progresses. -/
theorem Rests.progressed {i : InterfaceId} (h : s.Rests i)
    (empty : ∀ f, s.interfaces.get? i = some f → f.inbox = []) (calm : s.violation = none) :
    Works s [.progressInterface i] (2 * s.links.next + 3) s := by
  cases here : s.interfaces.get? i with
  | none =>
    refine .mono (.one calm fun agenda => ?_) (Nat.le_add_left 1 _)
    simp only [perform, progressInterface, here]
  | some f =>
    have nothing : Works s [.deliver i 0] 1 s := .one calm fun agenda => rfl
    refine .mono (.into (nothing.cons (h.dispatched calm)) calm fun agenda => ?_) (by omega)
    simp only [perform, progressInterface, here, empty f here]
    rfl

/-- So do several interfaces. -/
theorem progressed_all {is : List InterfaceId} (h : ∀ i ∈ is, s.Rests i)
    (empty : ∀ i ∈ is, ∀ f, s.interfaces.get? i = some f → f.inbox = [])
    (calm : s.violation = none) :
    Works s (is.map .progressInterface) ((2 * s.links.next + 3) * is.length) s := by
  induction is with
  | nil => exact .refl s
  | cons i is ih =>
    refine .mono (((h i List.mem_cons_self).progressed (empty i List.mem_cons_self) calm).cons
      (ih (fun k hk => h k (List.mem_cons_of_mem _ hk))
        fun k hk => empty k (List.mem_cons_of_mem _ hk))) ?_
    rw [List.length_cons, Nat.mul_succ, Nat.add_comm]

end Wiring.Network
