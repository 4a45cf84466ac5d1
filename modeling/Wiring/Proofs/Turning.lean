import Mathlib
import Wiring.Proofs.Arrival

/-!
# Progress of a party

A worker progresses its interfaces one after another and then its registry. Where no message has
come in and nothing that is queued can go out, nothing happens; mostly there is one interface at
which something does.
-/
namespace Wiring

namespace Network

variable {o : Outfit} {ps : List Party} {p q : Party} {s t u : Network} {size n m a b k : Nat}
  {loc rem : Category → Bool} {slots : PerCategory Slot} {links : Category → LinkId} {v l : LinkId}
  {c c' : Cargo} {P Q R : Network → Prop} {i : InterfaceId} {jobs more : List Job} {j : Job}
  {directory : List (UInt64 × EndpointId)}

/-! ## One thing after another -/

theorem Works.thence (h : Works s jobs m t) (loose : Loose more) (g : Brings t more n Q) :
    Brings s (jobs ++ more) (m + n) Q :=
  (h.brings (Q := fun u => u = t) rfl).trans loose fun _ same => same ▸ g

theorem Loose.one (quiet : ∀ l, j ≠ .release (.link l)) : Loose [j] := fun l mem =>
  quiet l (List.mem_singleton.1 mem).symm

/-- Among jobs that are numbered there is one at which something happens. -/
theorem Brings.pivot {J : Nat → Job} (quiet : ∀ k l, J k ≠ .release (.link l)) (inside : m < n)
    (before : ∀ k < m, Works s [J k] a s) (main : Brings s [J m] b R)
    (after : ∀ k, m < k → k < n → ∀ t, R t → Brings t [J k] a R) :
    Brings s ((List.range n).map J) (a * n + b) R := by
  induction n with
  | zero => cases inside
  | succ n ih =>
    rw [List.range_succ, List.map_append, List.map_singleton]
    rcases Nat.lt_succ_iff_lt_or_eq.1 inside with earlier | rfl
    · refine .mono ((ih earlier fun k hk hn => after k hk (Nat.lt_succ_of_lt hn)).trans
        (.one (quiet n)) (after n earlier (Nat.lt_succ_self n))) ?_ fun _ holds => holds
      rw [Nat.mul_succ]
      omega
    · have none := Brings.numbered (Q := fun _ t => t = s) quiet
        (fun k hk t same => by rw [same]; exact (before k hk).brings rfl) s rfl
      refine .mono (none.trans (.one (quiet m)) fun t same => by rw [same]; exact main) ?_
        fun _ holds => holds
      rw [Nat.mul_succ]
      omega

/-- A worker without posted events has none to apply. -/
theorem applyPosted_nothing {w : WorkerId} {wk : Worker} (here : s.workers.get? w = some wk)
    (posted : wk.posted = []) : s.applyPosted w = (s, 0) := by
  have same : { wk with posted := [] } = wk := by rw [← posted]
  simp only [applyPosted, here, same, posted, List.foldl_nil, List.length_nil, Table.set_get? here]

namespace Stage

/-! ## Where nothing happens -/

/-- What lives is not let go of. -/
theorem firm (h : Stage o ps c s) {lk : Link} (here : s.links.get? l = some lk) :
    s.Firm (.link l) := .inr (h.housed l (Table.contains_of_get? here))

/-- Nothing can be taken out of a queue that is empty, or without a credit. -/
theorem stalled (h : Stage o ps c s)
    (stuck : ∀ lk, s.links.get? l = some lk → c.queue l = [] ∨ lk.settings.credits ≤ c.used l) :
    s.Stalled l := by
  intro lk here
  rcases h.bears.links l lk here with ⟨credits, queue⟩
  rcases stuck lk here with empty | spent
  · exact .inl (queue.trans empty)
  · exact .inr (by omega)

/-- An interface rests if nothing can be taken out of the queues of its links. -/
theorem rests (h : Stage o ps c s)
    (stuck : ∀ l lk, s.links.get? l = some lk → lk.owner = i →
      c.queue l = [] ∨ lk.settings.credits ≤ c.used l) : s.Rests i := by
  intro l mem
  rcases Table.mem_keysWhere mem with ⟨lk, here, owner⟩
  refine ⟨h.stalled fun lk' there => ?_, h.firm here⟩
  cases here.symm.trans there
  exact stuck l lk here (beq_iff_eq.1 owner)

/-- If no message has come in either, it does nothing. -/
theorem idles (h : Stage o ps c s) (rests : s.Rests i) (mail : c.mail i = []) :
    Works s [.progressInterface i] (2 * s.links.next + 3) s :=
  rests.progressed (fun f here => (h.bears.mail i f here).trans mail) h.scene.calm

/-- A registry without runners does nothing. -/
theorem sleeps (h : Stage o ps c s) {id : RegistryId} (none : c.runners id = some []) :
    Works s [.runRegistry id] 1 s := by
  have here := (h.bears.runners id).trans none
  refine .one h.scene.calm fun agenda => ?_
  have pruned : prune { s with agenda } id = { s with agenda } := by
    simp only [prune, Table.modify_eq_set here, List.filter_nil, Table.set_get? here]
  have empty : registry { s with agenda } id = [] := by
    simp only [registry, here, Option.getD_some]
  simp only [perform, runRegistry, pruned, empty]
  rfl

/-! ## Interfaces -/

/-- What came in is delivered, and then the queues are worked off. -/
theorem progresses (h : Stage o ps c s) {f : Interface} (here : s.interfaces.get? i = some f)
    (delivered : Brings s [.deliver i (c.mail i).length] a P)
    (dispatched : ∀ t, P t → Brings t [.dispatchLinks i] b Q) :
    Brings s [.progressInterface i] (a + b + 1) Q := by
  refine .into h.scene.calm fun rest _ => ⟨s, [.deliver i (c.mail i).length, .dispatchLinks i], ?_,
    delivered.cons (.one fun _ => by simp) dispatched⟩
  simp only [perform, progressInterface, here, h.bears.mail i f here]
  rfl

/-- The queues of an interface are worked off. One of them may have something to send, the others
have not. -/
theorem dispatchesLinks (h : Stage o ps c s) {lk : Link} (here : s.links.get? l = some lk)
    (owner : lk.owner = i) (trades : Trades s t) (stage : Stage o ps c' t)
    (others : ∀ k, k ≠ l → c.queue k = [] ∧ c'.queue k = [])
    (sends : Works s [.dispatch l] a t) :
    Works s [.dispatchLinks i] (a + 2 * s.links.next + 2) t := by
  have mem : l ∈ s.linksOf i := Table.mem_keysWhere_iff.2 ⟨lk, here, beq_iff_eq.2 owner⟩
  rcases List.append_of_mem mem with ⟨before, after, split⟩
  have distinct : (s.linksOf i).Nodup := (Table.keysWhere_sorted _ _).imp Nat.ne_of_lt
  rw [split, List.nodup_append, List.nodup_cons] at distinct
  have few := s.linksOf_length_le i
  rw [split, List.length_append, List.length_cons] at few
  have lives (k : LinkId) (hk : k ∈ s.linksOf i) : ∃ lk, s.links.get? k = some lk := by
    rcases Table.mem_keysWhere hk with ⟨lk, there, -⟩
    exact ⟨lk, there⟩
  have stays {k : LinkId} {lk : Link} (there : s.links.get? k = some lk) :
      ∃ lk', t.links.get? k = some lk' := by
    have course : t.layout.course k = some lk.course := by
      rw [trades.layout]
      exact Option.map_eq_some_iff.2 ⟨lk, there, rfl⟩
    rcases Option.map_eq_some_iff.1 course with ⟨lk', there', -⟩
    exact ⟨lk', there'⟩
  have first : Works s (before.flatMap fun k => [.dispatch k, .release (.link k)])
      (2 * before.length) s := by
    refine stalled_works (fun k hk => ?_) h.scene.calm
    have other : k ≠ l := distinct.2.2 k hk l List.mem_cons_self
    rcases lives k (split ▸ List.mem_append_left _ hk) with ⟨lk', there⟩
    exact ⟨h.stalled fun _ _ => .inl (others k other).1, h.firm there⟩
  have last : Works t (after.flatMap fun k => [.dispatch k, .release (.link k)])
      (2 * after.length) t := by
    refine stalled_works (fun k hk => ?_) stage.scene.calm
    have other : k ≠ l := fun same => distinct.2.1.1 (same ▸ hk)
    rcases lives k (split ▸ List.mem_append_right _ (List.mem_cons_of_mem _ hk)) with ⟨lk', there⟩
    rcases stays there with ⟨lk'', there'⟩
    exact ⟨stage.stalled fun _ _ => .inl (others k other).2, stage.firm there'⟩
  rcases stays here with ⟨lk', here'⟩
  have released : Works t [.release (.link l)] 1 t := (stage.firm here').released stage.scene.calm
  have all : Works s ((s.linksOf i).flatMap fun k => [.dispatch k, .release (.link k)])
      (2 * before.length + (a + (1 + 2 * after.length))) t := by
    rw [split, List.flatMap_append, List.flatMap_cons]
    exact first.trans (sends.cons (released.cons last))
  exact (all.into h.scene.calm fun agenda => rfl).mono (by omega)

/-! ## Workers -/

/-- A worker without posted events progresses its interfaces and then its registry. -/
theorem progressesWorker (h : Stage o ps c s)
    (books : (s.workers.get? p.worker).map Worker.seat = some (o.seat p directory))
    (faces : Brings s ((List.range o.specs.length).map fun n => .progressInterface (p.at n)) a P)
    (runs : ∀ t, P t → Brings t [.runRegistry p.registry] b Q) :
    Brings s [.progressWorker p.worker] (a + b + 1) Q := by
  rcases Option.map_eq_some_iff.1 books with ⟨wk, here, seat⟩
  have resources : wk.resources = o.resources p := (congrArg Worker.resources seat :)
  have registry : wk.registry = p.registry := (congrArg Worker.registry seat :)
  have posted : wk.posted = [] := (congrArg Worker.posted seat :)
  have jobs : wk.resources.map (fun r => Job.progressInterface r.interface) =
      (List.range o.specs.length).map fun n => .progressInterface (p.at n) := by
    rw [resources]
    refine List.ext_getElem (by simp [Outfit.resources]) fun n _ _ => ?_
    simp [Outfit.resources]
  refine .into h.scene.calm fun rest _ => ⟨s, _, ?_, faces.trans (.one fun _ => by simp) runs⟩
  have applied := applyPosted_nothing (s := { s with agenda := rest }) here posted
  simp only [perform, progressWorker, here, applied, jobs, registry]
  rfl

end Stage

end Network

end Wiring
