import Mathlib
import Wiring.Proofs.Rounds
import Wiring.Proofs.Winding

/-!
# Runs that succeed

When everything has arrived the workers close and go, which finds nothing left to do but, where the
reply has not been taken out, to wait for it in vain.
-/
namespace Wiring

open Activity

namespace Network

variable {o : Outfit} {p q : Party} {s t u : Network} {size total : Nat} {c : Cargo} {l : LinkId}
  {loc rem : Category → Bool} {slots : PerCategory Slot} {links : Category → LinkId}

/-! ## The end -/

namespace Ended

/-- Nothing waits, and nothing has come in at the receiver. -/
theorem dry (h : Ended o p q c s) : Dry s.extent s.extent (· = q.worker) s where
  calm := h.stage.scene.calm
  queues l lk here := ((h.stage.bears.links l lk here).2).trans (h.queues l)
  parked x st here := (h.stage.bears.parked x st here).trans (h.parked x)
  patience _ _ here := flushAttempts_le_extent here
  width _ _ here := resources_le_extent here
  asleep w wk same here := by
    rcases h.receiver with ⟨loc, rem, slots, links, aboard⟩
    rcases Option.map_eq_some_iff.1 aboard.worker with ⟨wk', here', seat⟩
    obtain rfl : wk' = wk := Option.some.inj (here'.symm.trans (same ▸ here))
    have posted : wk'.posted = [] := (congrArg Worker.posted seat :)
    have registry : wk'.registry = q.registry := (congrArg Worker.registry seat :)
    have resources : wk'.resources = o.resources q := (congrArg Worker.resources seat :)
    refine ⟨posted, ?_, fun r hr f face => ?_⟩
    · rw [registry, h.stage.bears.runners]
      exact h.rested
    · rw [resources] at hr
      rcases List.mem_iff_getElem?.1 hr with ⟨n, hn⟩
      have inside : n < o.specs.length := by
        rw [← Outfit.resources_length (p := q)]
        exact (List.getElem?_eq_some_iff.1 hn).1
      rw [Outfit.getElem?_resources inside] at hn
      rw [← Option.some.inj hn] at face
      rw [h.stage.bears.mail _ f face]
      exact h.landed n inside
  few := h.few

/-- The links of the sender are idle. -/
theorem linkIsIdle (h : Ended o p q c s) {n : Nat} {dest : Option InterfaceId}
    (small : n < o.specs.length) (course : s.layout.course l = some (o.course p n dest)) :
    s.linkIsIdle l = true := by
  rcases Option.map_eq_some_iff.1 course with ⟨lk, here, -⟩
  rcases h.stage.bears.links l lk here with ⟨credits, queue⟩
  rw [h.returned l n dest small course, Nat.add_zero] at credits
  simp [Network.linkIsIdle, here, credits, queue, h.queues l]

/-- The endpoint of the sender can be destroyed, since its links are idle. -/
theorem winds_sender (h : Ended o p q c s) (fair : o.Fair size) {wk : Worker}
    (here : s.workers.get? p.worker = some wk) {entry : UInt64 × EndpointId}
    (listed : entry ∈ wk.directory) : s.Winds (· = q.worker) (.destroy entry.2) := by
  rcases h.sender with ⟨loc, rem, slots, links, aboard⟩
  rcases Option.map_eq_some_iff.1 aboard.worker with ⟨wk', here', seat⟩
  have directory : wk'.directory = [(q.uuid, p.endpoint)] := (congrArg Worker.directory seat :)
  obtain rfl : wk' = wk := Option.some.inj (here'.symm.trans here)
  rw [directory] at listed
  rw [List.mem_singleton.1 listed]
  refine fun ep there => .inr fun l mem => ?_
  obtain rfl : o.endpoint p q slots = ep := Option.some.inj (aboard.endpoint.symm.trans there)
  rw [PerCategory.toList_eq_map] at mem
  rcases List.mem_map.1 mem with ⟨d, -, slot⟩
  have slot : slots.get d = some (.link l) := slot
  have planned : d ∈ o.plan.lanes := by
    by_contra other
    rw [aboard.others d other] at slot
    cases slot
  have lane := aboard.lanes d planned
  rw [slot] at lane
  cases lane with
  | linked _ _ course => exact h.linkIsIdle (fair.serves_lt planned) course

/-- That of the receiver can be destroyed later, since its worker has nothing to do. -/
theorem winds_receiver (h : Ended o p q c s) (sub : Subsides s t) {wk : Worker}
    (here : t.workers.get? q.worker = some wk) {entry : UInt64 × EndpointId}
    (listed : entry ∈ wk.directory) : t.Winds (· = q.worker) (.destroy entry.2) := by
  rcases h.receiver with ⟨loc, rem, slots, links, back⟩
  rcases Option.map_eq_some_iff.1 back.worker with ⟨wk', here', seat⟩
  have directory : wk'.directory = [(p.uuid, q.endpoint)] := (congrArg Worker.directory seat :)
  rcases sub.workers _ wk here with ⟨entries, before, less⟩
  obtain rfl : wk' = { wk with directory := entries } := Option.some.inj (here'.symm.trans before)
  have known : entry ∈ [(p.uuid, q.endpoint)] := directory ▸ less.subset listed
  rw [List.mem_singleton.1 known]
  refine fun ep there => .inl ?_
  rcases sub.endpoints _ ep there with ⟨slots', before', -⟩
  exact congrArg Endpoint.worker (Option.some.inj (before'.symm.trans back.endpoint))

/-- Both workers close and go. -/
theorem closes (h : Ended o p q c s) (fair : o.Fair size) (idle : s.agenda = []) (total : Nat) :
    ∃ t u v,
    s.close p.worker = (t, .ok ()) ∧ t.close q.worker = (u, .ok ()) ∧
      (p.setup q total).drop u = .ok ((), v) := by
  rcases h.dry.closes idle p.worker fun _ here _ listed => h.winds_sender fair here listed with
    ⟨t, closed, sub, idle⟩
  have dry := h.dry.later sub
  rcases dry.closes idle q.worker fun _ here _ listed => h.winds_receiver sub here listed with
    ⟨u, closed', sub, idle⟩
  have dry := dry.later sub
  rcases dry.drops idle (.endpoint p.endpoint) with ⟨v, first, sub, idle⟩
  have dry := dry.later sub
  rcases dry.drops idle (.worker q.worker) with ⟨w, second, sub, idle⟩
  rcases (dry.later sub).drops idle (.worker p.worker) with ⟨x, third, -, -⟩
  exact ⟨t, u, x, closed, closed',
    (bind_of (drop_of first)).trans ((bind_of (drop_of second)).trans (drop_of third))⟩

/-- No send has failed. -/
theorem firstFailure (h : Ended o p q c s) (handles : List HandleId) :
    firstFailure s handles = none := by
  refine List.findSome?_eq_none_iff.2 fun k _ => ?_
  cases ended : s.status k with
  | none => rfl
  | some out =>
    have recorded : s.handles.get? k = some (some out) := Option.join_eq_some_iff.1 ended
    rw [h.stage.scene.well k out recorded]

end Ended

/-! ## A delivery -/

/-- Once the request and the numbers have been sent, the run succeeds if there are rounds enough. -/
theorem Requested.delivers_all {slots : PerCategory Slot} {m : Nat} {v : LinkId}
    {new : List Message} {waiting : List Request} {handles : List HandleId}
    (h : Requested o p q total c slots links m v new waiting t) (cast : Cast o p q size)
    (idle : t.agenda = []) {index : Option ResourceIndex}
    (auxiliary : s.auxiliaryIndex (s.slot p.endpoint .messages) = .ok index)
    (sent : (p.setup q total).sendAll (List.range (p.setup q total).messages) s = .ok (handles, t))
    {maxRounds : Nat}
    (enough : total + 2 ≤ maxRounds) :
    ∃ report u, (p.setup q total).deliver maxRounds s = .ok (.ok report, u) := by
  rcases h.rounds cast idle enough with ⟨u, c', k, rounds, ended, idle'⟩
  rcases ended.closes cast.fair idle' total with ⟨v, w, x, alpha, beta, gone⟩
  refine ⟨⟨k, index.map (describe s p.worker), total, (received u).length,
    received u == List.range total⟩, x, ?_⟩
  unfold RunSetup.deliver
  rw [bind_of (get_of s), bind_of (perform_of (f := fun s =>
    (s, s.auxiliaryIndex (s.slot (p.setup q total).endpoint .messages))) (congrArg _ auxiliary)),
    bind_of sent, bind_of rounds]
  simp only
  rw [bind_of (get_of u), ended.firstFailure]
  simp only
  rw [bind_of (get_of u), bind_of (perform_of (f := fun s => s.close (p.setup q total).alpha) alpha),
    bind_of (perform_of (f := fun s => s.close (p.setup q total).beta) beta), bind_of gone]
  rfl

end Network

end Wiring
