import Mathlib
import Wiring.Proofs.Sends
import Wiring.Proofs.Starts

/-!
# The burden of a traffic

Requests are weighed where they lie: on their way with one weight, and with another as long as the
application keeps them. Deeds and acts only pass them on, but for those that are made and those that
come to their end.
-/
namespace Wiring

/-- How requests are weighed: one way where they are on their way, another where they are kept. -/
structure Scale where
  busy : Request → Nat
  kept : Request → Nat

/-- Covers and attempts do not change what a request weighs, and keeping it makes it no heavier. -/
structure Scale.Fair (σ : Scale) : Prop where
  taken : ∀ r : Request, σ.busy r.taken = σ.busy r
  unfinished : ∀ r : Request, σ.busy r.unfinished = σ.busy r
  covered : ∀ g r, σ.busy (.counted g r) = σ.busy r
  kept : ∀ r, σ.kept r ≤ σ.busy r

namespace Traffic

open Network (weight hands)

variable {s t u : Traffic} {σ : Scale}

/-- What the requests of a traffic weigh. -/
def load (s : Traffic) (σ : Scale) : Nat :=
  s.links.sum (fun _ lk => weight σ.busy lk.queue) + s.stubs.sum (fun _ st => weight σ.busy st.parked)
    + s.held.sum (fun _ r => σ.kept r) + weight σ.busy (hands s.agenda)

/-- A request is on its way: it waits in a queue, is parked, or somebody at work has it in hand. -/
inductive Underway (s : Traffic) (r : Request) : Prop
  | queued (l : LinkId) (lk : Link) (here : s.links.get? l = some lk) (mem : r ∈ lk.queue)
  | parked (x : StubId) (st : Stub) (here : s.stubs.get? x = some st) (mem : r ∈ st.parked)
  | inHand (j : Job) (mem : j ∈ s.agenda) (hand : j.request? = some r)

theorem le_weight {f : Request → Nat} {r : Request} {rs : List Request} (h : r ∈ rs) :
    f r ≤ weight f rs := List.le_sum_of_mem (List.mem_map_of_mem h)

theorem Underway.le_load {r : Request} (h : s.Underway r) : σ.busy r ≤ s.load σ := by
  unfold load
  cases h with
  | queued l lk here mem =>
    have whole := Table.le_sum (fun _ (lk : Link) => weight σ.busy lk.queue) here
    have part := le_weight (f := σ.busy) mem
    omega
  | parked x st here mem =>
    have whole := Table.le_sum (fun _ (st : Stub) => weight σ.busy st.parked) here
    have part := le_weight (f := σ.busy) mem
    omega
  | inHand j mem hand =>
    have part := le_weight (f := σ.busy) (List.mem_filterMap.2 ⟨j, mem, hand⟩)
    unfold hands
    omega

theorem kept_le_load {h : HeldId} {r : Request} (here : s.held.get? h = some r) :
    σ.kept r ≤ s.load σ := by
  have part := Table.le_sum (fun _ r => σ.kept r) here
  unfold load
  omega

theorem weight_mono {f g : Request → Nat} (le : ∀ r, f r ≤ g r) (rs : List Request) :
    weight f rs ≤ weight g rs := List.sum_le_sum fun r _ => le r

theorem load_mono {τ : Scale} (busy : ∀ r, σ.busy r ≤ τ.busy r) (kept : ∀ r, σ.kept r ≤ τ.kept r) :
    s.load σ ≤ s.load τ := by
  have queued := Table.sum_mono s.links fun _ lk => weight_mono busy lk.queue
  have parked := Table.sum_mono s.stubs fun _ st => weight_mono busy st.parked
  have held : s.held.sum (fun _ r => σ.kept r) ≤ s.held.sum fun _ r => τ.kept r :=
    Table.sum_mono s.held fun _ r => kept r
  have inHand := weight_mono busy (hands s.agenda)
  unfold load
  omega

/-! ## Places -/

/-- What is left to do weighs what is in hand. -/
theorem load_agenda (s : Traffic) (agenda : List Job) :
    load { s with agenda } σ + weight σ.busy (hands s.agenda) =
      s.load σ + weight σ.busy (hands agenda) := by
  simp only [load]
  omega

/-- Somebody takes a request in hand. -/
def grasp (s : Traffic) (r : Request) : Traffic := { s with agenda := .discard r :: s.agenda }

theorem load_grasp (s : Traffic) (r : Request) : (s.grasp r).load σ = s.load σ + σ.busy r := by
  have grown := load_agenda (σ := σ) s (.discard r :: s.agenda)
  rw [Network.hands_some _ rfl, Network.weight_cons] at grown
  unfold grasp
  omega

theorem hands_bare {jobs : List Job} (bare : ∀ k ∈ jobs, k.isBare = true) : hands jobs = [] :=
  Network.hands_eq_nil fun k hk => by
    have light := bare k hk
    cases k with
    | discard | attempt | conclude | add | giveBack | handle => cases light
    | _ => rfl

theorem load_links {l : LinkId} {lk : Link} (here : s.links.get? l = some lk) (lk' : Link) :
    load { s with links := s.links.set l lk' } σ + weight σ.busy lk.queue =
      s.load σ + weight σ.busy lk'.queue := by
  have changed := Table.sum_set (b := lk') (fun _ (lk : Link) => weight σ.busy lk.queue) here
  simp only [load]
  omega

theorem load_stubs {x : StubId} {st : Stub} (here : s.stubs.get? x = some st) (st' : Stub) :
    load { s with stubs := s.stubs.set x st' } σ + weight σ.busy st.parked =
      s.load σ + weight σ.busy st'.parked := by
  have changed := Table.sum_set (b := st') (fun _ (st : Stub) => weight σ.busy st.parked) here
  simp only [load]
  omega

theorem load_eraseHeld {h : HeldId} {r : Request} (here : s.held.get? h = some r) :
    load { s with held := s.held.erase h } σ + σ.kept r = s.load σ := by
  have changed := Table.sum_erase (fun _ r => σ.kept r) here
  simp only [load]
  omega

theorem load_pushHeld (s : Traffic) (r : Request) :
    load { s with held := s.held.push r } σ = s.load σ + σ.kept r := by
  simp only [load, Table.sum_push]
  omega

/-- A request that comes back to its place weighs there what it is kept for, at most. -/
theorem load_setHeld (s : Traffic) (h : HeldId) (r : Request) :
    load { s with held := s.held.set h r } σ ≤ s.load σ + σ.kept r := by
  have changed : (s.held.set h r).sum (fun _ r => σ.kept r) ≤
      s.held.sum (fun _ r => σ.kept r) + σ.kept r := by
    cases here : s.held.get? h with
    | some r' =>
      have replaced := Table.sum_set (b := r) (fun _ r => σ.kept r) here
      omega
    | none =>
      rcases Nat.lt_or_ge h s.held.next with room | beyond
      · exact (Table.sum_set_none (fun _ r => σ.kept r) here room).le
      · have same : (s.held.set h r).sum (fun _ r => σ.kept r) = s.held.sum fun _ r => σ.kept r :=
          Table.sum_congr (by simp) fun k => by
            rw [Table.get?_set, if_neg (by omega)]
        omega
  simp only [load]
  omega

theorem load_pushAll (s : Traffic) (rs : List Request) :
    load { s with held := rs.foldl Table.push s.held } σ = s.load σ + weight σ.kept rs := by
  induction rs generalizing s with
  | nil => simp
  | cons r rs ih =>
    have others : load { s with held := rs.foldl Table.push (s.held.push r) } σ =
        load { s with held := s.held.push r } σ + weight σ.kept rs := ih { s with held := s.held.push r }
    rw [List.foldl_cons, others, load_pushHeld, Network.weight_cons, Nat.add_assoc]

/-! ## Rigging -/

theorem load_openLink (s : Traffic) {lk : Link} (new : lk.IsNew) :
    load { s with links := s.links.push lk } σ = s.load σ := by
  simp [load, Table.sum_push, new.empty]

theorem load_transmits {l : LinkId} {messageId : UInt8} {payload : Bytes}
    {source : Option HandleId} (h : Transmits s l messageId payload source t) :
    t.load σ = s.load σ := by
  cases h with
  | intro lk credits dest f here credit leads there =>
    have paid := load_links (σ := σ) here { lk with credits }
    simp only [load] at paid ⊢
    omega

/-- A carrier takes a request over as it is, or hands it back. -/
theorem load_offers (fair : σ.Fair) {c : Carrier} {r : Request} {back : Option Request}
    (h : Offers s c r t back) :
    t.load σ + weight σ.busy back.toList = s.load σ + σ.busy r := by
  cases h with
  | queue r l lk here =>
    have queued := load_links (σ := σ) here { lk with queue := lk.queue ++ [r] }
    simp only [Network.weight_append, Network.weight_cons, Network.weight_nil, Option.toList_none]
      at queued ⊢
    omega
  | cover r x st l lk stub signal link here =>
    have queued := load_links (σ := σ) here { lk with queue := lk.queue ++ [.counted st.gate r] }
    simp only [Network.weight_append, Network.weight_cons, Network.weight_nil, Option.toList_none,
      fair.covered] at queued ⊢
    omega
  | promoted r x st l lk stub data switched link here =>
    have queued := load_links (σ := σ) here { lk with queue := lk.queue ++ [r] }
    simp only [Network.weight_append, Network.weight_cons, Network.weight_nil, Option.toList_none]
      at queued ⊢
    omega
  | park r x st here data unswitched =>
    have parked := load_stubs (σ := σ) here { st with parked := st.parked ++ [r] }
    simp only [load, Network.weight_append, Network.weight_cons, Network.weight_nil,
      Option.toList_none] at parked ⊢
    omega
  | back c r r' covered free =>
    have same : σ.busy r' = σ.busy r := by
      rcases covered with rfl | ⟨-, g, rfl⟩
      · rfl
      · exact fair.covered g r
    simp [same]

theorem load_front {l : LinkId} {lk : Link} {r : Request} {queue : List Request}
    (here : s.links.get? l = some lk) (front : lk.queue = r :: queue) :
    load { s with links := s.links.set l { lk with queue } } σ + σ.busy r = s.load σ := by
  have taken := load_links (σ := σ) here { lk with queue }
  rw [front, Network.weight_cons] at taken
  simp only at taken
  omega

/-- A request is given up, or no request is touched. -/
theorem load_rig (h : Rig s t) : t.load σ ≤ s.load σ := by
  cases h with
  | note | number | openEndpoint | clear | closeInterface | closeEndpoint => exact le_rfl
  | openLink lk new => exact (load_openLink s new).le
  | linkLane id e lane lk here new => exact (load_openLink s new).le
  | pair x st l dest here next =>
    have links := Table.sum_modify (k := l) (t := s.links) (g := fun lk => { lk with dest := some dest })
      (f := fun _ lk => weight σ.busy lk.queue) fun _ _ => rfl
    have stubs := Table.sum_modify (k := x) (t := s.stubs)
      (g := fun st => { st with localConnected := true })
      (f := fun _ st => weight σ.busy st.parked) fun _ _ => rfl
    simp only [load, links, stubs, le_refl]
  | mark x =>
    have stubs := Table.sum_modify (k := x) (t := s.stubs)
      (g := fun st => { st with remoteConnected := true })
      (f := fun _ st => weight σ.busy st.parked) fun _ _ => rfl
    simp only [load, stubs, le_refl]
  | stubLane id e lane st lk auxiliary here new new' next aside unmarked unparked unswitched
      able =>
    cases auxiliary with
    | none => simp [load, Table.sum_push, new.empty, unparked]
    | some lk' => simp [load, Table.sum_push, new.empty, (new' lk' rfl).empty, unparked]
  | cancelFront l lk r queue here front =>
    exact Nat.le.intro (load_front here front)
  | closeLink l lk here empty =>
    have erased := Table.sum_erase (fun _ (lk : Link) => weight σ.busy lk.queue) here
    simp only [load]
    omega
  | closeStub x =>
    cases here : s.stubs.get? x with
    | none => rw [Table.erase_of_none here]
    | some st =>
      have erased := Table.sum_erase (fun _ (st : Stub) => weight σ.busy st.parked) here
      simp only [load]
      omega

end Traffic

end Wiring
