import Mathlib
import Wiring.Proofs.Razing

/-!
# Founding an endpoint

A worker that has no endpoint to a peer founds one: it goes into the directory, its lanes are
opened one after another, and it sends its request. Up to there everything stands beside the
network as it was. Destroying the endpoint takes all of it down again, however far it has come.
-/
namespace Wiring

/-- No category uses the endpoints of two lanes. -/
theorem Plan.shares_disjoint {p : Plan} {a b c : Category} (ha : a ∈ p.lanes) (hb : b ∈ p.lanes)
    (h : p.shares a c = true) (h' : p.shares b c = true) : a = b := by
  simp only [mem_lanes, isLane, Bool.and_eq_true, Option.isNone_iff_eq_none] at ha hb
  simp only [shares, Bool.or_eq_true, beq_iff_eq] at h h'
  rcases h with rfl | other
  · rcases h' with rfl | other'
    · rfl
    · rw [ha.1] at other'
      cases other'
  · rcases h' with rfl | other'
    · rw [hb.1] at other
      cases other
    · exact Option.some.inj (other.symm.trans other')

namespace Network

variable {b s t u : Network} {w : WorkerId} {wk : Worker} {dest : UInt64} {e : EndpointId}
  {rest : List Job}

/-- A network whose worker has one entry more in its directory. -/
def enlist (s : Network) (w : WorkerId) (wk : Worker) (dest : UInt64) (e : EndpointId) : Network :=
  { s with workers := s.workers.set w { wk with directory := wk.directory ++ [(dest, e)] } }

/-- An endpoint of a worker to a new peer stands beside a network, with whatever lanes it has so
far, and the worker has it in its directory. -/
structure Founded (s : Network) (w : WorkerId) (wk : Worker) (dest : UInt64) (e : EndpointId)
    (t : Network) : Prop where
  books : s.workers.get? w = some wk
  stranger : ∀ entry ∈ wk.directory, entry.1 ≠ dest
  new : s.endpoints.next ≤ e
  raised : Raised (s.enlist w wk dest e) t
  here : ∃ ep, t.endpoints.get? e = some ep ∧ ep.worker = w ∧ ep.dest = dest ∧ ep.plan = wk.plan

namespace Founded

theorem enlisted (h : Founded s w wk dest e t) :
    t.workers.get? w = some { wk with directory := wk.directory ++ [(dest, e)] } := by
  rw [h.raised.workers]
  exact (Table.get?_set_of h.books _ w).trans (if_pos rfl)

/-- The directory of the worker is the old one with the new endpoint at its end. -/
theorem found (h : Founded s w wk dest e t) : t.findEndpoint? w dest = some e := by
  have none : wk.directory.lookup dest = none := by
    apply List.lookup_eq_none_iff.2
    intro entry known
    exact bne_iff_ne.2 (h.stranger entry known).symm
  simp [findEndpoint?, h.enlisted, List.lookup_append, none]

/-- What happens does not matter, nor what is left to do, as long as nothing is let go of. -/
theorem withWork (h : Founded s w wk dest e t) (trace : Array Happening)
    {handles : Table (Option Outcome)} (grows : s.handles.Keeps handles) (tally : Nat)
    {agenda : List Job} (planned : ∀ ref, .release ref ∈ t.agenda → .release ref ∈ agenda) :
    Founded s w wk dest e { t with handles, trace, tally, agenda } :=
  { h with
    raised := { h.raised with
      handles := grows
      secured := by
        intro ref new live
        have live : t.isLive ref = true := by cases ref <;> exact live
        rcases isHeld_iff.1 (h.raised.secured ref new live) with held | later | owned
        · exact isHeld_of_holds held
        · exact isHeld_of_release (planned ref later)
        · exact isHeld_of_owned (by cases ref <;> exact owned) } }

/-! ## Opening -/

theorem openEndpoint (books : s.workers.get? w = some wk)
    (unknown : s.findEndpoint? w dest = none) (peer : String) :
    Founded s w wk dest (s.openEndpoint w dest peer).2 (s.openEndpoint w dest peer).1 ∧
    ∃ ep, (s.openEndpoint w dest peer).1.endpoints.get? (s.openEndpoint w dest peer).2 = some ep ∧
      ep.slots = .const none := by
  have stranger := strangers books unknown
  have others : (wk.directory.filter fun entry => entry.1 != dest) = wk.directory :=
    List.filter_eq_self.2 fun entry he => bne_iff_ne.2 (stranger entry he)
  have old (k : Nat) : (s.links.contains k = true → k < s.links.next) ∧
      (s.stubs.contains k = true → k < s.stubs.next) := by
    constructor <;>
    · intro live
      rcases Table.contains_iff.1 live with ⟨_, here⟩
      exact Table.lt_next_of_get? here
  unfold Network.openEndpoint
  simp only [books, others]
  set ep : Endpoint :=
    { worker := w, dest, peer, plan := wk.plan, flushAttempts := wk.settings.flushAttempts } with hep
  have pushed : (s.endpoints.push ep).get? s.endpoints.next = some ep :=
    (Table.get?_push ..).trans (if_pos rfl)
  refine ⟨⟨books, stranger, le_rfl, ?_, ep, pushed, rfl, rfl, rfl⟩, ep, pushed, rfl⟩
  have spares : Spares (s.enlist w wk dest s.endpoints.next) _ := .refl _
  exact { spares with
    endpoints := spares.endpoints.push ep
    idle := fun l lk new here => absurd (Table.lt_next_of_get? here) (Nat.not_lt.2 new)
    empty := fun x st new here => absurd (Table.lt_next_of_get? here) (Nat.not_lt.2 new)
    unmarked := fun x st new here => absurd (Table.lt_next_of_get? here) (Nat.not_lt.2 new)
    carries := by
      intro e ep' new here c owns
      rcases Table.get?_of_push here with ⟨-, rfl⟩ | before
      · simp [Endpoint.owns, PerCategory.const, PerCategory.toList, hep] at owns
      · exact absurd (Table.lt_next_of_get? before) (Nat.not_lt.2 new)
    secured := by
      intro ref new live
      cases ref with
      | link l => exact absurd ((old l).1 live) (Nat.not_lt.2 new)
      | stub x => exact absurd ((old x).2 live) (Nat.not_lt.2 new)
      | endpoint e =>
        have live : (s.endpoints.push ep).contains e = true := live
        have same : e = s.endpoints.next := by
          rw [Table.contains_push, Bool.or_eq_true, decide_eq_true_eq] at live
          rcases live with same | before
          · exact same
          · rcases Table.contains_iff.1 before with ⟨_, here⟩
            exact absurd (Table.lt_next_of_get? here) (Nat.not_lt.2 new)
        subst same
        apply isHeld_of_owned
        apply isOwned_iff.2
        refine .inl ⟨w, _, (Table.get?_set_of books _ w).trans (if_pos rfl), .inr ?_⟩
        exact ⟨_, List.mem_append_right _ (List.mem_singleton_self _), rfl⟩
      | _ => cases new }

/-- Lanes are opened into empty slots. What a lane that cannot be opened leaves behind is
nothing. -/
theorem openLanes (h : Founded s w wk dest e t) (entries : List AddressEntry)
    {lanes : List Category} (planned : ∀ lane ∈ lanes, lane ∈ wk.plan.lanes) (once : lanes.Nodup)
    (vacant : ∀ ep, t.endpoints.get? e = some ep → ∀ lane ∈ lanes, ∀ category,
      wk.plan.shares lane category = true → ep.slots.get category = none) :
    Founded s w wk dest e (t.openLanes e entries lanes).1 := by
  induction lanes generalizing t with
  | nil => exact h
  | cons lane lanes ih =>
    rcases h.here with ⟨ep, here, own, aim, plan⟩
    rcases List.nodup_cons.1 once with ⟨other, once⟩
    have enlisted := h.enlisted
    rw [← own] at enlisted
    unfold Network.openLanes
    simp only [here, enlisted]
    rcases t.openLane_adds e ep _ lane entries with ⟨u, why, added, refused⟩ | ⟨u, c, added, opened⟩
    · rw [refused]
      refine ⟨h.books, h.stranger, h.new, h.raised.adds added, ep, ?_, own, aim, plan⟩
      rw [added.same.1]
      exact here
    · rw [opened]
      have free := vacant ep here lane List.mem_cons_self
      rw [← plan] at free
      have raised := h.raised.install added h.new here free
      have installed : (u.setSlots e (installLane ep lane c)).endpoints.get? e =
          some { ep with slots := installLane ep lane c } := by
        rcases added with ⟨-, new, added, -⟩
        simp [setSlots, Table.get?_modify, added.same.1, here]
      apply ih ⟨h.books, h.stranger, h.new, raised, _, installed, own, aim, plan⟩
      · intro lane' later
        exact planned lane' (List.mem_cons_of_mem _ later)
      · exact once
      · intro ep' here' lane' later category shared
        cases installed.symm.trans here'
        have apart : ep.plan.shares lane category ≠ true := by
          rw [plan]
          intro shared'
          have same := Plan.shares_disjoint (planned lane List.mem_cons_self)
            (planned lane' (List.mem_cons_of_mem _ later)) shared' shared
          exact other (same ▸ later)
        simp only [installLane, PerCategory.get_mapWith, if_neg apart]
        exact vacant ep here lane' (List.mem_cons_of_mem _ later) category shared

end Founded

/-- What a network owns with one entry more. -/
theorem isOwned_enlist (books : s.workers.get? w = some wk) {ref : Ref}
    (owned : (s.enlist w wk dest e).isOwned ref = true) :
    ref = .endpoint e ∨ s.isOwned ref = true := by
  rcases isOwned_iff.1 owned with ⟨v, vk, hv, own⟩ | other
  · rw [enlist, Table.get?_set_of books] at hv
    split at hv
    · subst v
      cases hv
      rcases own with resource | ⟨entry, known, rfl⟩
      · exact .inr (isOwned_iff.2 (.inl ⟨w, wk, books, .inl resource⟩))
      · rcases List.mem_append.1 known with old | last
        · exact .inr (isOwned_iff.2 (.inl ⟨w, wk, books, .inr ⟨entry, old, rfl⟩⟩))
        · cases List.mem_singleton.1 last
          exact .inl rfl
    · exact .inr (isOwned_iff.2 (.inl ⟨v, vk, hv, own⟩))
  · exact .inr (isOwned_iff.2 (.inr other))

/-! ## Destroying -/

theorem length_eraseDups_le {α : Type} [BEq α] (as : List α) : as.eraseDups.length ≤ as.length := by
  induction bound : as.length using Nat.strong_induction_on generalizing as with
  | _ bound ih =>
    subst bound
    cases as with
    | nil => exact le_rfl
    | cons a as =>
      have fewer := List.length_filter_le (fun b => !b == a) as
      have rest := ih _ (Nat.lt_succ_of_le fewer) (as.filter fun b => !b == a) rfl
      rw [List.eraseDups_cons, List.length_cons, List.length_cons]
      omega

theorem length_flatMap_le {α β : Type} {f : α → List β} (n : Nat) (h : ∀ a, (f a).length ≤ n)
    (as : List α) : (as.flatMap f).length ≤ as.length * n := by
  have bound := List.sum_le_card_nsmul (as.map fun a => (f a).length) n (by
    intro k hk
    rcases List.mem_map.1 hk with ⟨a, -, rfl⟩
    exact h a)
  rwa [List.length_map, smul_eq_mul, ← List.length_flatMap] at bound

/-- What a destroyed endpoint leaves to do. -/
structure Demolition (s : Network) (w : WorkerId) (ep : Endpoint) (jobs : List Job) : Prop where
  known : ∀ j ∈ jobs, j = .release (.worker w) ∨
    (∃ r, s.findEndpoint? w ep.dest = some r ∧ j = .release (.endpoint r)) ∨
    ∃ c, ep.owns c ∧ (j = .purge c ∨ j = .release c.ref ∨
      ∃ l worker rounds, c = .link l ∧ j = .flush l worker rounds)
  released : ∀ c, ep.owns c → .release c.ref ∈ jobs
  few : jobs.length ≤ 11

/-- A destroyed endpoint has empty slots and is in no directory. -/
theorem destroy_eq {ep : Endpoint} (here : s.endpoints.get? e = some ep)
    (worker : s.workerOf? e = some w) : ∃ jobs, Demolition s w ep jobs ∧
      s.destroy e = { s.setSlots e (.const none) with
        workers := s.workers.modify w fun wk =>
          { wk with directory := wk.directory.filter fun entry => entry.1 != ep.dest }
        agenda := jobs ++ s.agenda } := by
  have found (v : WorkerId) :
      (s.setSlots e (.const none)).findEndpoint? v ep.dest = s.findEndpoint? v ep.dest := rfl
  unfold destroy
  simp only [here, setSlots_workerOf?, worker, found, Option.bind_some]
  refine ⟨_, ⟨fun j hj => ?_, fun c hc => ?_, ?_⟩, rfl⟩
  · simp only [List.mem_append, List.mem_map, List.mem_flatMap, Option.mem_toList,
      mem_releaseSlots, List.mem_eraseDups, List.mem_filterMap] at hj
    rcases hj with ((⟨r, hr, rfl⟩ | ⟨c, ⟨slot, hs, rfl⟩, hj⟩) | ⟨v, hv, rfl⟩) | ⟨c, hc, rfl⟩
    · exact .inr (.inl ⟨r, hr, rfl⟩)
    · cases c with
      | link l =>
        simp only [List.mem_cons, List.not_mem_nil, or_false] at hj
        rcases hj with rfl | rfl
        · exact .inr (.inr ⟨.link l, hs, .inl rfl⟩)
        · exact .inr (.inr ⟨.link l, hs, .inr (.inr ⟨l, _, _, rfl, rfl⟩)⟩)
      | stub x =>
        cases List.mem_singleton.1 hj
        exact .inr (.inr ⟨.stub x, hs, .inl rfl⟩)
    · cases hv
      exact .inl rfl
    · exact .inr (.inr ⟨c, hc, .inr (.inl rfl)⟩)
  · exact List.mem_append_right _ (mem_releaseSlots.2 ⟨c, hc, rfl⟩)
  · have entry : (s.findEndpoint? w ep.dest).toList.length ≤ 1 := by
      cases s.findEndpoint? w ep.dest <;> simp
    have slots := releaseSlots_length ep.slots
    have carriers := (length_eraseDups_le (ep.slots.toList.filterMap fun slot => slot)).trans
      (List.length_filterMap_le _ _)
    have three : ep.slots.toList.length = 3 := rfl
    simp only [List.length_append, List.length_map, Option.toList_some, List.length_singleton]
    refine (Nat.add_le_add_right (Nat.add_le_add_right (Nat.add_le_add entry
      (length_flatMap_le 2 (fun c => ?_) _)) 1) _).trans ?_
    · cases c <;> simp
    · omega

namespace Founded

theorem isNew {ref : Ref} : IsNew (s.enlist w wk dest e) ref ↔ IsNew s ref := by
  cases ref <;> exact Iff.rfl

/-- Without the new entry the directory is the old one again. -/
theorem struck (h : Founded s w wk dest e t) :
    (t.workers.modify w fun wk =>
      { wk with directory := wk.directory.filter fun entry => entry.1 != dest }) = s.workers := by
  have others : (wk.directory.filter fun entry => entry.1 != dest) = wk.directory :=
    List.filter_eq_self.2 fun entry known => bne_iff_ne.2 (h.stranger entry known)
  rw [Table.modify_eq_set h.enlisted, h.raised.workers]
  simp only [enlist, Table.set_set, List.filter_append, others]
  simpa using Table.set_get? h.books

/-- Whatever is left to do takes down what stands beside the network. -/
theorem takesDown (h : Founded s w wk dest e t) (kept : .worker w ∈ s.holds) {ep : Endpoint}
    (here : t.endpoints.get? e = some ep) (aim : ep.dest = dest) {jobs : List Job}
    (left : Demolition t w ep jobs) : ∀ j ∈ jobs, j.TakesDown s := by
  intro j hj
  rcases left.known j hj with rfl | ⟨r, found, rfl⟩ | ⟨c, owns, other⟩
  · exact .inr kept
  · rw [aim, h.found] at found
    cases found
    exact .inl h.new
  · have new := isNew.1 (h.raised.carries e ep h.new here c owns)
    rcases other with rfl | rfl | ⟨l, v, rounds, rfl, rfl⟩
    · exact new
    · exact .inl new
    · exact new

/-- A destroyed endpoint still hangs together with its carriers: what it and the directory held is
left to be released. -/
theorem secured (h : Founded s w wk dest e t) (planned : .release (.endpoint e) ∈ t.agenda)
    {ep : Endpoint} (here : t.endpoints.get? e = some ep) {jobs : List Job}
    (left : Demolition t w ep jobs) {ref : Ref} (new : IsNew s ref) (live : t.isLive ref = true) :
    isHeld { t.setSlots e (.const none) with
      workers := s.workers, agenda := jobs ++ t.agenda } ref = true := by
  rcases isHeld_iff.1 (h.raised.secured ref (isNew.2 new) live) with held | job | owned
  · exact isHeld_of_holds held
  · exact isHeld_of_release (List.mem_append_right _ job)
  · rcases isOwned_iff.1 owned with ⟨v, vk, hv, own⟩ | ⟨e', ep', c, he, hc, rfl⟩ | stub
    · rw [h.raised.workers] at hv
      by_cases same : w = v
      · subst v
        cases ((Table.get?_set_of h.books _ w).trans (if_pos rfl)).symm.trans hv
        rcases own with resource | ⟨entry, known, rfl⟩
        · exact isHeld_of_owned (isOwned_iff.2 (.inl ⟨w, wk, h.books, .inl resource⟩))
        · rcases List.mem_append.1 known with old | last
          · exact isHeld_of_owned (isOwned_iff.2 (.inl ⟨w, wk, h.books, .inr ⟨entry, old, rfl⟩⟩))
          · cases List.mem_singleton.1 last
            exact isHeld_of_release (List.mem_append_right _ planned)
      · have other : (s.enlist w wk dest e).workers.get? v = s.workers.get? v :=
          (Table.get?_set_of h.books _ v).trans (if_neg same)
        rw [other] at hv
        exact isHeld_of_owned (isOwned_iff.2 (.inl ⟨v, vk, hv, own⟩))
    · by_cases same : e = e'
      · subst e'
        cases here.symm.trans he
        exact isHeld_of_release (List.mem_append_left _ (left.released c hc))
      · refine isHeld_of_owned (isOwned_iff.2 (.inr (.inl ⟨e', ep', c, ?_, hc, rfl⟩)))
        simp [setSlots, Table.get?_modify, same, he]
    · exact isHeld_of_owned (isOwned_iff.2 (.inr (.inr stub)))

/-- Destroying a founded endpoint starts to take down all that stands beside the network. -/
theorem destroy (h : Founded s w wk dest e t) (kept : .worker w ∈ s.holds)
    (calm : t.violation = none) (jobs : ∀ j ∈ t.agenda, j.TakesDown s)
    (planned : .release (.endpoint e) ∈ t.agenda) :
    Razing s (t.destroy e) ∧ (t.destroy e).handles = t.handles ∧
      (t.destroy e).toil ≤ t.toil + 11 := by
  rcases h.here with ⟨ep, here, own, aim, -⟩
  have worker : t.workerOf? e = some w := by
    simp [workerOf?, here, own, Table.contains, h.enlisted]
  rcases destroy_eq here worker with ⟨more, left, destroyed⟩
  rw [aim, h.struck] at destroyed
  rw [destroyed]
  refine ⟨?_, rfl, ?_⟩
  · exact { h.raised with
      frame := congrArg (fun u : Network => { u with workers := s.workers }) h.raised.frame
      endpoints := h.raised.endpoints.modify h.new _
      carries := by
        intro e' ep' new he c owns
        by_cases same : e = e'
        · subst e'
          simp only [setSlots, Table.get?_modify, here, if_true, Option.map_some] at he
          cases he
          simp [Endpoint.owns, PerCategory.const, PerCategory.toList] at owns
        · simp only [setSlots, Table.get?_modify, if_neg same] at he
          exact isNew.1 (h.raised.carries e' ep' new he c owns)
      secured := by
        intro ref new live
        apply h.secured planned here left new
        cases ref with
        | endpoint e' => exact (Table.contains_modify ..).symm.trans live
        | link | stub => exact live
        | _ => cases new
      jobs := by
        intro j hj
        rcases List.mem_append.1 hj with new | old
        · exact h.takesDown kept here aim left j new
        · exact jobs j old
      calm := calm }
  · have few := left.few
    have same : (t.endpoints.modify e fun ep => { ep with slots := .const none }).sum
        (fun _ _ => 3) = t.endpoints.sum fun _ _ => 3 := Table.sum_modify fun _ _ => rfl
    simp only [toil, setSlots, List.length_append, same]
    omega

end Founded

end Network

end Wiring
