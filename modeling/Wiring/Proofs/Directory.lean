import Mathlib
import Wiring.Proofs.Handshake

/-!
# Directories

What a worker keeps in its directory under the uuid of a peer is an endpoint of its own to that
peer.
-/
namespace Wiring.Network

variable {s t : Network} {wild : Prop}

structure Listed (s : Network) : Prop where
  given : ∀ w wk, s.workers.get? w = some wk → ∀ entry ∈ wk.directory,
    entry.2 < s.endpoints.next
  own : ∀ w wk, s.workers.get? w = some wk → ∀ entry ∈ wk.directory, ∀ ep,
    s.endpoints.get? entry.2 = some ep → ep.worker = w ∧ ep.dest = entry.1

theorem Listed.initial (process : UInt32) : Listed { process } where
  given w wk hw := by cases hw
  own w wk hw := by cases hw

/-- Entries may go, and endpoints may get other slots. -/
theorem Listed.of_kept (hs : Listed s)
    (workers : ∀ w wk, t.workers.get? w = some wk → wk.directory = [] ∨
      ∃ wk', s.workers.get? w = some wk' ∧ wk.directory ⊆ wk'.directory)
    (endpoints : ∀ e ep, t.endpoints.get? e = some ep →
      ∃ ep', s.endpoints.get? e = some ep' ∧ ep'.worker = ep.worker ∧ ep'.dest = ep.dest)
    (next : s.endpoints.next ≤ t.endpoints.next) : Listed t where
  given w wk hw entry known := by
    rcases workers w wk hw with empty | ⟨wk', hw', fewer⟩
    · rw [empty] at known
      cases known
    · exact (hs.given w wk' hw' entry (fewer known)).trans_le next
  own w wk hw entry known ep here := by
    rcases workers w wk hw with empty | ⟨wk', hw', fewer⟩
    · rw [empty] at known
      cases known
    · rcases endpoints entry.2 ep here with ⟨ep', here', worker, dest⟩
      rw [← worker, ← dest]
      exact hs.own w wk' hw' entry (fewer known) ep' here'

theorem Listed.same (hs : Listed s) (workers : t.workers = s.workers)
    (endpoints : t.endpoints = s.endpoints) : Listed t :=
  hs.of_kept (fun w wk hw => .inr ⟨wk, workers ▸ hw, fun _ h => h⟩)
    (fun e ep he => ⟨ep, endpoints ▸ he, rfl, rfl⟩) (by rw [endpoints])

theorem Listed.aside (hs : Listed s) (h : Aside s t) : Listed t := by
  refine hs.of_kept (fun w wk hw => ?_) (fun e ep he => ⟨ep, h.endpoints ▸ he, rfl, rfl⟩)
    (by rw [h.endpoints])
  rcases h.worker hw with ⟨wk', hw', books⟩
  have directory : wk.books.directory = wk'.books.directory := by rw [books]
  exact .inr ⟨wk', hw', fun entry known => directory ▸ known⟩

theorem Listed.wire (hs : Listed s) (h : Wire s t) : Listed t := by
  have kept (w : WorkerId) (wk : Worker) (hw : s.workers.get? w = some wk) :
      wk.directory = [] ∨ ∃ wk', s.workers.get? w = some wk' ∧ wk.directory ⊆ wk'.directory :=
    .inr ⟨wk, hw, fun _ h => h⟩
  cases h with
  | openEndpoint id w e here fresh worker empty =>
    refine ⟨fun k wk hk entry known => ?_, fun k wk hk entry known ep he => ?_⟩
    · rw [Table.next_push]
      rw [Table.get?_set_of here] at hk
      split at hk
      · cases hk
        rcases List.mem_append.1 known with known | known
        · exact Nat.lt_succ_of_lt (hs.given id w here entry known)
        · rw [List.mem_singleton.1 known]
          exact Nat.lt_succ_self _
      · exact Nat.lt_succ_of_lt (hs.given k wk hk entry known)
    · -- the number of the new endpoint is in no directory yet
      have before {k : WorkerId} {wk : Worker} (hk : s.workers.get? k = some wk)
          (known : entry ∈ wk.directory) : ep.worker = k ∧ ep.dest = entry.1 := by
        rcases Table.get?_of_push he with ⟨new, -⟩ | he
        · exact absurd new (hs.given k wk hk entry known).ne
        · exact hs.own k wk hk entry known ep he
      rw [Table.get?_set_of here] at hk
      split at hk
      · subst k
        cases hk
        rcases List.mem_append.1 known with known | known
        · exact before here known
        · rw [List.mem_singleton.1 known] at he ⊢
          rw [Table.get?_push, if_pos rfl] at he
          cases he
          exact ⟨worker, rfl⟩
      · exact before hk known
  | closeEndpoint id e rest top here free =>
    exact hs.of_kept kept (fun k ep he => ⟨ep, Table.get?_of_erase he, rfl, rfl⟩) (by simp)
  | closeWorker id w rest top here free =>
    exact hs.of_kept (fun k wk hk => kept k wk (Table.get?_of_erase hk))
      (fun k ep he => ⟨ep, he, rfl, rfl⟩) le_rfl
  | openWorker w registry fresh resources =>
    refine hs.of_kept (fun k wk hk => ?_) (fun k ep he => ⟨ep, he, rfl, rfl⟩) le_rfl
    rcases Table.get?_of_push hk with ⟨-, rfl⟩ | hk
    · exact .inl fresh.2
    · exact kept k wk hk
  | install id e lane c here live own unsent | clear id =>
    refine hs.of_kept kept (fun k ep he => ?_) (by simp [setSlots])
    rcases Table.get?_of_modify he with ⟨ep', he', rfl | rfl⟩
    · exact ⟨ep, he', rfl, rfl⟩
    · exact ⟨ep', he', rfl, rfl⟩
  | strike id dest pledged =>
    refine hs.of_kept (fun k wk hk => ?_) (fun k ep he => ⟨ep, he, rfl, rfl⟩) le_rfl
    rcases Table.get?_of_modify hk with ⟨wk', hk', rfl | rfl⟩
    · exact kept k wk hk'
    · exact .inr ⟨wk', hk', List.filter_subset_self _⟩
  | _ => exact hs.same rfl rfl

theorem Listed.pass (hs : Listed s) (h : Pass wild s t) : Listed t := by
  cases h with
  | park id st w wk r rest top here data worker books unswitched =>
    refine hs.of_kept (fun k wk' hk => .inr ?_) (fun k ep he => ⟨ep, he, rfl, rfl⟩) le_rfl
    rw [Table.get?_set_of books] at hk
    split at hk
    · subst k
      cases hk
      exact ⟨wk, books, fun _ h => h⟩
    · exact ⟨wk', hk, fun _ h => h⟩
  | switch id st w wk next here worker books unswitched ready =>
    refine hs.of_kept (fun k wk hk => .inr ⟨wk, hk, fun _ h => h⟩) (fun k ep he => ?_) (by simp)
    rcases Table.get?_of_modify he with ⟨ep', he', rfl | rfl⟩
    · exact ⟨ep, he', rfl, rfl⟩
    · exact ⟨ep', he', rfl, rfl⟩
  | replayed w rest top =>
    refine hs.of_kept (fun k wk' hk => .inr ?_) (fun k ep he => ⟨ep, he, rfl, rfl⟩) le_rfl
    rcases Table.get?_of_modify hk with ⟨wk, hk', rfl | rfl⟩
    · exact ⟨wk', hk', fun _ h => h⟩
    · exact ⟨wk, hk', fun _ h => h⟩
  | _ => exact hs.same rfl rfl

theorem Listed.move (hs : Listed s) (h : Move wild s t) : Listed t := by
  cases h with
  | aside h => exact hs.aside h
  | hold h =>
    rw [h.frame]
    exact hs.same rfl rfl
  | wire h => exact hs.wire h
  | pass h => exact hs.pass h

theorem Listed.moves (hs : Listed s) (h : Moves wild s t) : Listed t := by
  induction h with
  | refl => exact hs
  | tail _ h ih => exact ih.move h

/-- The endpoint that a worker finds for a peer is its own. -/
theorem Listed.found (hs : Listed s) {w : WorkerId} {peer : UInt64} {e : EndpointId} {ep : Endpoint}
    (found : s.findEndpoint? w peer = some e) (here : s.endpoints.get? e = some ep) :
    ep.worker = w ∧ ep.dest = peer := by
  rcases Option.bind_eq_some_iff.1 found with ⟨wk, hw, entry⟩
  exact hs.own w wk hw _ (lookup_mem entry) ep here

end Wiring.Network
