import Mathlib
import Wiring.Proofs.Layout
import Wiring.Proofs.Raising

/-!
# What can be reached

What a link can be paired with, which resource is selected and whether a lane can be opened depends
on nothing but what the interfaces are and where they are. Messages, links and stubs do not matter.
-/
namespace Wiring.Network

/-- The same interfaces live, on the same fabrics. -/
structure Faces (s t : Network) : Prop where
  interfaces : ∀ i, (t.interfaces.get? i).map Interface.face = (s.interfaces.get? i).map Interface.face
  fabrics : ∀ f, t.fabrics.get? f = s.fabrics.get? f

variable {s t u v : Network} {wk wk' : Worker} {entries : List AddressEntry} {scorer : Scorer}

namespace Faces

theorem refl (s : Network) : Faces s s := ⟨fun _ => rfl, fun _ => rfl⟩

theorem symm (h : Faces s t) : Faces t s :=
  ⟨fun i => (h.interfaces i).symm, fun f => (h.fabrics f).symm⟩

theorem trans (h : Faces s t) (g : Faces t u) : Faces s u :=
  ⟨fun i => (g.interfaces i).trans (h.interfaces i), fun f => (g.fabrics f).trans (h.fabrics f)⟩

theorem of_layout (face : t.layout.face = s.layout.face)
    (fabric : t.layout.fabric = s.layout.fabric) : Faces s t :=
  ⟨congrFun face, congrFun fabric⟩

/-- An interface lives in both networks, with the same settings, or in none. -/
theorem cases (h : Faces s t) (i : InterfaceId) :
    (s.interfaces.get? i = none ∧ t.interfaces.get? i = none) ∨
    ∃ f f', s.interfaces.get? i = some f ∧ t.interfaces.get? i = some f' ∧
      f'.fabric = f.fabric ∧ f'.number = f.number ∧ f'.settings = f.settings := by
  have same := h.interfaces i
  cases here : s.interfaces.get? i with
  | none =>
    rw [here, Option.map_none, Option.map_eq_none_iff] at same
    exact .inl ⟨rfl, same⟩
  | some f =>
    rw [here, Option.map_some, Option.map_eq_some_iff] at same
    rcases same with ⟨f', there, same⟩
    exact .inr ⟨f, f', rfl, there, congrArg Face.fabric same, congrArg Face.number same,
      congrArg Face.settings same⟩

theorem reaches (h : Faces s t) {f f' : Interface} (same : f'.fabric = f.fabric) (device : Bytes) :
    t.reaches f' device = s.reaches f device := by
  rw [Network.reaches, Network.reaches, fabricNumber, fabricNumber, same, h.fabrics]

theorem findInterface? (h : Faces s t) (fabric : FabricId) (number : UInt64) :
    t.findInterface? fabric number = s.findInterface? fabric number := by
  have keys : (t.interfaces.keysWhere fun i => i.fabric == fabric && i.number == number) =
      s.interfaces.keysWhere fun i => i.fabric == fabric && i.number == number := by
    apply (Table.keysWhere_sorted _ _).eq_of_mem_iff (Table.keysWhere_sorted _ _)
    intro k
    rw [Table.mem_keysWhere_iff, Table.mem_keysWhere_iff]
    rcases h.cases k with ⟨none, none'⟩ | ⟨f, f', here, there, own, same, -⟩
    · simp [none, none']
    · simp [here, there, own, same]
  rw [Network.findInterface?, Network.findInterface?, keys]

theorem remoteInterface (h : Faces s t) {f f' : Interface} (own : f'.fabric = f.fabric)
    (settings : f'.settings = f.settings) (device address : Bytes) :
    t.remoteInterface f' device address = s.remoteInterface f device address := by
  simp only [Network.remoteInterface, settings, own, h.reaches own, h.findInterface?]

/-- Where a link can be paired to depends on its owner and its settings. -/
theorem destination (h : Faces s t) {l : LinkId}
    (same : (t.links.get? l).map (fun lk => (lk.owner, lk.settings)) =
      (s.links.get? l).map fun lk => (lk.owner, lk.settings)) (device address : Bytes) :
    t.destination l device address = s.destination l device address := by
  unfold Network.destination
  cases here : s.links.get? l with
  | none =>
    rw [here, Option.map_none, Option.map_eq_none_iff] at same
    rw [same]
  | some lk =>
    rw [here, Option.map_some, Option.map_eq_some_iff] at same
    rcases same with ⟨lk', there, same⟩
    rcases Prod.mk.inj same with ⟨owner, settings⟩
    rw [there]
    simp only [owner, settings]
    rcases h.cases lk.owner with ⟨none, none'⟩ | ⟨f, f', own, own', fabric, -, -⟩
    · rw [none, none']
    · simp only [own, own', fabric, h.reaches fabric, h.findInterface?]

/-! ## Selecting -/

theorem candidates (h : Faces s t) (resources : wk'.resources = wk.resources) :
    t.candidates wk' entries = s.candidates wk entries := by
  unfold Network.candidates
  rw [resources]
  refine List.flatMap_congr fun ⟨r, n⟩ _ => ?_
  rcases h.cases r.interface with ⟨none, none'⟩ | ⟨f, f', here, there, own, -, settings⟩
  · simp only [none, none']
  · simp only [here, there, settings, h.reaches own]

theorem select (h : Faces s t) (resources : wk'.resources = wk.resources) (peer : String) :
    t.select wk' peer entries scorer = s.select wk peer entries scorer := by
  rw [Network.select, Network.select, h.candidates resources]

/-! ## Opening -/

theorem openLink (h : Faces s t) {i : InterfaceId} {l : LinkId}
    (opened : s.openLink i = (u, .ok l)) : ∃ v k, t.openLink i = (v, .ok k) := by
  unfold Network.openLink at opened ⊢
  rcases h.cases i with ⟨none, -⟩ | ⟨f, f', here, there, -, -, settings⟩
  · rw [none] at opened
    cases opened
  · rw [here] at opened
    simp only [there, settings] at opened ⊢
    split at opened
    · cases opened
    · exact ⟨_, _, rfl⟩

theorem openConnectedLink (h : Faces s t) {i : InterfaceId} {device address : Bytes} {l : LinkId}
    (opened : s.openConnectedLink i device address = (u, .ok l)) :
    ∃ v k, t.openConnectedLink i device address = (v, .ok k) := by
  unfold Network.openConnectedLink at opened ⊢
  rcases h.cases i with ⟨none, -⟩ | ⟨f, f', here, there, own, -, settings⟩
  · rw [none] at opened
    cases opened
  · rw [here] at opened
    rw [there]
    simp only [h.remoteInterface own settings] at opened ⊢
    split at opened
    · cases opened
    · exact ⟨_, _, rfl⟩

theorem openAuxiliary (h : Faces s t) (resources : wk'.resources = wk.resources) {peer : String}
    {r : ResourceIndex} {l : LinkId}
    (opened : s.openAuxiliary wk peer entries scorer = (u, .ok (r, l))) :
    ∃ v r' k, t.openAuxiliary wk' peer entries scorer = (v, .ok (r', k)) := by
  unfold Network.openAuxiliary at opened ⊢
  rw [h.select resources, resources]
  split at opened
  · cases opened
  · split at opened
    · split at opened
      · rename_i x y opens
        rcases h.openConnectedLink opens with ⟨v, k, opens'⟩
        simp only [opens']
        exact ⟨v, _, k, rfl⟩
      · cases opened
    · cases opened

end Faces

/-- What is there is not moved by what comes with it. -/
theorem Spares.faces (h : Spares s t) : Faces s t where
  interfaces i := by
    have same := congrArg (Option.map Interface.face) (h.interfaces i)
    simp only [Option.map_map] at same
    exact same
  fabrics f := by
    have same : t.ground.fabrics = s.ground.fabrics := congrArg Network.fabrics h.frame
    exact congrArg (Table.get? · f) same

variable {e e' : EndpointId} {ep ep' : Endpoint} {lane : Category}

namespace Faces

theorem openStub (h : Faces s t) (e' : EndpointId) (resources : wk'.resources = wk.resources)
    (peer : ep'.peer = ep.peer) {i : InterfaceId} {x : StubId}
    (opened : s.openStub e ep wk lane i entries = (u, .ok x)) :
    ∃ v y, t.openStub e' ep' wk' lane i entries = (v, .ok y) := by
  unfold Network.openStub at opened ⊢
  rcases (Adds.refl s).openLink i with ⟨why, refused⟩ | ⟨a, l, added, -, linked⟩
  · rw [refused] at opened
    cases opened
  rcases h.openLink linked with ⟨b, k, linked'⟩
  have added' : Spares t b := by
    rcases (Adds.refl t).openLink i with ⟨why, refused⟩ | ⟨b', k', added', -, same⟩
    · cases linked'.symm.trans refused
    · cases linked'.symm.trans same
      exact added'.toSpares
  have h' : Faces a b := added.toSpares.faces.symm.trans (h.trans added'.faces)
  rw [linked] at opened
  rw [linked']
  simp only at opened ⊢
  split at opened
  · rename_i messages
    rw [if_pos messages, peer]
    split at opened
    · cases opened
    · rename_i c chosen opens
      rcases h'.openAuxiliary resources opens with ⟨v, r, k', opens'⟩
      rw [opens']
      exact ⟨_, _, rfl⟩
  · rename_i other
    rw [if_neg other]
    exact ⟨_, _, rfl⟩

/-- A lane that can be opened in one network can be opened in the other. -/
theorem openLane (h : Faces s t) (e' : EndpointId) (resources : wk'.resources = wk.resources)
    (plan : ep'.plan = ep.plan) (peer : ep'.peer = ep.peer) {c : Carrier}
    (opened : s.openLane e ep wk lane entries = (u, .ok c)) :
    ∃ v d, t.openLane e' ep' wk' lane entries = (v, .ok d) := by
  unfold Network.openLane at opened ⊢
  rw [plan, resources]
  split at opened
  · cases opened
  · rename_i r _
    rcases h.cases r.interface with ⟨none, -⟩ | ⟨f, f', here, there, own, -, settings⟩
    · rw [none] at opened
      cases opened
    · rw [here] at opened
      simp only [there, settings, h.reaches own] at opened ⊢
      split at opened
      · rename_i able
        rw [if_pos able]
        split at opened
        · rename_i v x opens
          rcases h.openStub e' resources peer opens with ⟨v', y, opens'⟩
          rw [opens']
          exact ⟨_, _, rfl⟩
        · cases opened
      · rename_i unable
        rw [if_neg unable]
        split at opened
        · cases opened
        · split at opened
          · rename_i v l opens
            rcases h.openConnectedLink opens with ⟨v', k, opens'⟩
            rw [opens']
            exact ⟨_, _, rfl⟩
          · cases opened

/-- So can all lanes of an endpoint. -/
theorem openLanes (h : Faces s t) (resources : wk'.resources = wk.resources)
    (plan : ep'.plan = ep.plan) (peer : ep'.peer = ep.peer) {lanes : List Category}
    (here : s.endpoints.get? e = some ep) (books : s.workers.get? ep.worker = some wk)
    (there : t.endpoints.get? e' = some ep') (books' : t.workers.get? ep'.worker = some wk')
    (opened : s.openLanes e entries lanes = (u, .ok ())) :
    ∃ v, t.openLanes e' entries lanes = (v, .ok ()) := by
  induction lanes generalizing s t ep ep' with
  | nil => exact ⟨t, rfl⟩
  | cons lane lanes ih =>
    unfold Network.openLanes at opened ⊢
    simp only [here, books, there, books'] at opened ⊢
    -- the carrier is installed, and everything else is as before
    have installed {s a : Network} {e : EndpointId} {ep : Endpoint} {wk : Worker} {c : Carrier}
        (here : s.endpoints.get? e = some ep) (books : s.workers.get? ep.worker = some wk)
        (added : AddsCarrier s a c) : Faces s (a.setSlots e (installLane ep lane c)) ∧
          (a.setSlots e (installLane ep lane c)).endpoints.get? e =
            some { ep with slots := installLane ep lane c } ∧
          (a.setSlots e (installLane ep lane c)).workers.get? ep.worker = some wk := by
      rcases added with ⟨-, new, added, -⟩
      have faces := added.toSpares.faces
      refine ⟨⟨faces.interfaces, faces.fabrics⟩, ?_, added.toSpares.workers ▸ books⟩
      simp [setSlots, Table.get?_modify, added.same.1, here]
    rcases s.openLane_adds e ep wk lane entries with ⟨a, why, -, refused⟩ | ⟨a, c, added, opens⟩
    · rw [refused] at opened
      cases opened
    rcases h.openLane e' resources plan peer opens with ⟨b, d, opens'⟩
    rcases t.openLane_adds e' ep' wk' lane entries with ⟨_, why, -, refused⟩ | ⟨_, _, added', same⟩
    · cases opens'.symm.trans refused
    cases opens'.symm.trans same
    rcases installed here books added with ⟨faces, here', books⟩
    rcases installed there books' added' with ⟨faces', there', books'⟩
    rw [opens] at opened
    rw [opens']
    have h' := faces.symm.trans (h.trans faces')
    refine ih h' ?_ ?_ here' books there' books' opened
    · exact plan
    · exact peer

end Faces

end Wiring.Network
