import Mathlib
import Wiring.Proofs.Rounds

/-!
# Workers that are fitted out

Workers are opened over the resources of a scenario in a network in which nothing has been sent. Each
gets interfaces of its own, numbered one after another, of which those stay that it can address, with
its handler of signals on each.
-/
namespace Wiring

open Activity

/-- An interface with a handler for the messages of an id. -/
def Interface.hears (f : Interface) (messageId : UInt8) (h : Handler) : Interface :=
  { f with handlers := (messageId, h) :: f.handlers.filter fun entry => entry.1 != messageId }

theorem Interface.hears_hears (f : Interface) (messageId : UInt8) (h : Handler) :
    (f.hears messageId h).hears messageId h = f.hears messageId h := by
  simp [Interface.hears]

namespace Network

variable {s t u : Network} {o : Outfit} {p q : Party} {i : InterfaceId} {settings : InterfaceSettings}
  {specs : List ResourceSpec}

/-- Nothing has been opened but interfaces of one fabric and workers. -/
structure Dawn (s : Network) : Prop where
  calm : s.violation = none
  idle : s.agenda = []
  fabric : ∃ fb, s.fabrics.get? 0 = some fb ∧ fb.number = 1 ∧ fb.opened = s.interfaces.next
  faces : ∀ i f, s.interfaces.get? i = some f →
    f.fabric = 0 ∧ f.number = UInt64.ofNat (i + 1) ∧ f.inbox = []
  links : s.links = {}
  stubs : s.stubs = {}
  endpoints : s.endpoints = {}
  gates : s.gates = {}
  handles : s.handles = {}
  unseen : s.trace = #[]
  unheld : ∀ l, .link l ∉ s.holds
  counted : s.process = 1 ∧ s.generated = s.workers.next ∧ s.registries.next = s.workers.next

theorem dawn_openFabric : Dawn (openFabric {}).1 where
  calm := rfl
  idle := rfl
  fabric := ⟨{ number := 1 }, rfl, rfl, rfl⟩
  faces _ _ here := by cases here
  links := rfl
  stubs := rfl
  endpoints := rfl
  gates := rfl
  handles := rfl
  unseen := rfl
  unheld _ := List.not_mem_nil
  counted := ⟨rfl, rfl, rfl⟩

/-! ## Interfaces -/

/-- Interfaces of given settings have been opened one after another. -/
structure Supplied (s : Network) (specs : List ResourceSpec) (t : Network) : Prop where
  dawn : Dawn t
  next : t.interfaces.next = s.interfaces.next + specs.length
  new : ∀ n spec, specs[n]? = some spec → ∃ number, t.interfaces.get? (s.interfaces.next + n) =
    some { fabric := 0, number, settings := spec.settings }
  old : ∀ i < s.interfaces.next, t.interfaces.get? i = s.interfaces.get? i
  frame : t = { s with fabrics := t.fabrics, interfaces := t.interfaces, holds := t.holds }
  holds : s.holds ⊆ t.holds

theorem Dawn.openInterface (h : Dawn s) (spec : ResourceSpec) :
    (s.openInterface 0 spec.settings).2 = s.interfaces.next ∧
      Supplied s [spec] (s.openInterface 0 spec.settings).1 := by
  rcases h.fabric with ⟨fb, fabric, number, count⟩
  let f : Interface :=
    { fabric := 0, number := UInt64.ofNat (s.interfaces.next + 1), settings := spec.settings }
  let t : Network := { s with
    fabrics := s.fabrics.modify 0 fun f => { f with opened := s.interfaces.next + 1 }
    interfaces := s.interfaces.push f, holds := .interface s.interfaces.next :: s.holds }
  have opened : s.openInterface 0 spec.settings = (t, s.interfaces.next) := by
    have live : (s.interfaces.push f).contains s.interfaces.next = true :=
      Table.contains_of_get? ((Table.get?_push ..).trans (if_pos rfl))
    simp only [Network.openInterface, fabric, Option.map_some, Option.getD_some, count, keep, isLive]
    rw [if_pos live]
  rw [opened]
  have there (i : InterfaceId) (old : i < s.interfaces.next) :
      t.interfaces.get? i = s.interfaces.get? i :=
    (Table.get?_push ..).trans (if_neg old.ne)
  have here : t.interfaces.get? s.interfaces.next = some f := (Table.get?_push ..).trans (if_pos rfl)
  have next : t.interfaces.next = s.interfaces.next + 1 := Table.next_push ..
  refine ⟨rfl, { h with
    fabric := ⟨{ fb with opened := s.interfaces.next + 1 }, ?_, number, next.symm⟩
    faces := fun i f' known => ?_
    unheld := fun l held => h.unheld l (by simpa [t] using held) }, next, fun n spec' at_n => ?_, there,
    rfl, List.subset_cons_self ..⟩
  · simp only [t, Table.get?_modify, if_pos, fabric, Option.map_some]
  · rcases Table.get?_of_push known with ⟨rfl, rfl⟩ | known
    · exact ⟨rfl, rfl, rfl⟩
    · exact h.faces i f' known
  · cases n with
    | zero =>
      obtain rfl : spec = spec' := Option.some.inj at_n
      exact ⟨_, here⟩
    | succ n => simp at at_n

theorem Supplied.trans {more : List ResourceSpec} (h : Supplied s specs t) (g : Supplied t more u) :
    Supplied s (specs ++ more) u where
  dawn := g.dawn
  next := by
    rw [g.next, h.next, List.length_append, Nat.add_assoc]
  new n spec here := by
    rcases Nat.lt_or_ge n specs.length with first | later
    · rw [List.getElem?_append_left first] at here
      rw [g.old _ (by rw [h.next]; omega)]
      exact h.new n spec here
    · rw [List.getElem?_append_right later] at here
      rcases g.new _ spec here with ⟨number, there⟩
      rw [h.next, Nat.add_assoc, Nat.add_sub_cancel' later] at there
      exact ⟨number, there⟩
  old i hi := (g.old i (by rw [h.next]; omega)).trans (h.old i hi)
  frame := by
    rw [g.frame, h.frame]
  holds := List.Subset.trans h.holds g.holds

/-- The resources of a scenario are opened in their order. -/
theorem Dawn.openResources (specs : List ResourceSpec) : ∀ {s}, Dawn s → ∃ t,
    Scenario.openResources 0 specs s =
      .ok (specs.mapIdx fun n spec => ⟨spec.name, s.interfaces.next + n⟩, t) ∧
    Supplied s specs t := by
  induction specs with
  | nil =>
    intro s h
    exact ⟨s, rfl, h, rfl, fun _ _ here => by simp at here, fun _ _ => rfl, rfl,
      List.Subset.refl _⟩
  | cons spec specs ih =>
    intro s h
    have opened := h.openInterface spec
    generalize made : s.openInterface 0 spec.settings = answer at opened
    rcases answer with ⟨t, i⟩
    rcases opened with ⟨rfl, supplied⟩
    rcases ih supplied.dawn with ⟨u, others, supplied'⟩
    refine ⟨u, ?_, supplied.trans supplied'⟩
    unfold Scenario.openResources
    rw [bind_of (update_of made), bind_of others, List.mapIdx_cons, supplied.next]
    simp only [List.length_singleton, Nat.add_zero, Nat.add_assoc, Nat.add_comm 1]
    rfl

/-! ## Workers -/

/-- Handlers are installed on interfaces, and nothing else changes. -/
theorem foldl_setHandler_get? (messageId : UInt8) (h : Handler) (rs : List Resource) :
    ∀ s : Network, ∃ interfaces : Table Interface,
    rs.foldl (fun s r => s.setHandler r.interface messageId h) s = { s with interfaces } ∧
    interfaces.next = s.interfaces.next ∧ ∀ i, interfaces.get? i = (s.interfaces.get? i).map fun f =>
      if ∃ r ∈ rs, r.interface = i then f.hears messageId h else f := by
  induction rs with
  | nil =>
    intro s
    exact ⟨s.interfaces, rfl, rfl, fun i => by simp⟩
  | cons r rs ih =>
    intro s
    rcases ih (s.setHandler r.interface messageId h) with ⟨interfaces, done, next, same⟩
    refine ⟨interfaces, done, next.trans (Table.next_modify ..), fun i => ?_⟩
    rw [same i]
    change (Table.get? (s.interfaces.modify r.interface fun f => f.hears messageId h) i).map _ = _
    rw [Table.get?_modify]
    by_cases first : r.interface = i
    · rw [if_pos first, Option.map_map]
      refine congrArg (Option.map · _) (funext fun f => ?_)
      simp only [Function.comp_apply, List.mem_cons, exists_eq_or_imp, first, true_or, if_true,
        Interface.hears_hears, ite_self]
    · rw [if_neg first]
      simp only [List.mem_cons, exists_eq_or_imp, first, false_or]

/-- A worker is in its place: it has the resources that it can address, each on an interface with its
handlers, and no endpoints. -/
structure Seated (o : Outfit) (p : Party) (s : Network) : Prop where
  worker : s.workers.get? p.worker = some (o.seat p [])
  registry : s.registries.get? p.registry = some []
  attended : .worker p.worker ∈ s.holds
  stations : ∀ n < o.specs.length, ∃ f, s.interfaces.get? (p.at n) = some f ∧
    f.settings = o.settings n ∧ f.handlers = p.handlers

/-- What is opened or let go of beside leaves a worker in its place. -/
theorem Seated.beside (h : Seated o p s)
    (workers : ∀ w wk, s.workers.get? w = some wk → t.workers.get? w = some wk)
    (registries : ∀ r e, s.registries.get? r = some e → t.registries.get? r = some e)
    (holds : .worker p.worker ∈ t.holds)
    (faces : ∀ n < o.specs.length, t.interfaces.get? (p.at n) = s.interfaces.get? (p.at n)) :
    Seated o p t where
  worker := workers _ _ h.worker
  registry := registries _ _ h.registry
  attended := holds
  stations n hn := by
    rw [faces n hn]
    exact h.stations n hn

/-- The interfaces of a worker that is in its place are open. -/
theorem Seated.at_lt (h : Seated o p s) {n : Nat} (hn : n < o.specs.length) :
    p.at n < s.interfaces.next := by
  rcases h.stations n hn with ⟨f, here, -⟩
  exact Table.lt_next_of_get? here

/-- The worker that is opened next, which will have a certain endpoint. -/
def newcomer (s : Network) (name : String) (e : EndpointId) : Party where
  worker := s.workers.next
  uuid := generatedUuid 1 s.workers.next
  name := name
  registry := s.workers.next
  base := s.interfaces.next
  endpoint := e
  handlers := [(Signal.messageId, .signals s.workers.next)]

/-- A worker is opened over the resources that have been opened for it. -/
theorem Supplied.openWorker (h : Supplied s specs t) (plan : Plan) (name : String)
    (e : EndpointId) : ∃ u,
    t.openWorker { name } plan (specs.mapIdx fun n spec => ⟨spec.name, s.interfaces.next + n⟩) =
      (u, s.workers.next) ∧ Dawn u ∧
    Seated ⟨specs.take maxResources, plan⟩ (s.newcomer name e) u ∧
    u.interfaces.next = t.interfaces.next ∧
    (∀ i < s.interfaces.next, u.interfaces.get? i = s.interfaces.get? i) ∧
    (∃ wk, u.workers = s.workers.push wk) ∧ u.registries = s.registries.push [] ∧
    t.holds ⊆ u.holds := by
  let o : Outfit := ⟨specs.take maxResources, plan⟩
  let p := s.newcomer name e
  rcases h.dawn.counted with ⟨process, generated, registries⟩
  have workers : t.workers = s.workers := by rw [h.frame]
  have registries' : t.registries = s.registries := by rw [h.frame]
  rw [workers] at generated registries
  have resources : (specs.mapIdx fun n spec => (⟨spec.name, s.interfaces.next + n⟩ : Resource)).take
      maxResources = o.resources p := by
    refine List.ext_getElem? fun n => ?_
    simp only [Outfit.resources, o, List.getElem?_take, List.getElem?_mapIdx]
    split <;> rfl
  let s' : Network := { t with
    generated := t.generated + 1
    registries := t.registries.push []
    workers := t.workers.push (o.seat p []) }
  rcases foldl_setHandler_get? Signal.messageId (.signals s.workers.next) (o.resources p) s' with
    ⟨interfaces, handled, next, faces⟩
  let u : Network := { s' with interfaces, holds := .worker s.workers.next :: t.holds }
  have here : u.workers.get? s.workers.next = some (o.seat p []) := by
    refine (Table.get?_push ..).trans (if_pos ?_)
    rw [workers]
  have opened : t.openWorker { name }
      plan (specs.mapIdx fun n spec => ⟨spec.name, s.interfaces.next + n⟩) = (u, s.workers.next) := by
    have live : s'.workers.contains s.workers.next = true := Table.contains_of_get? here
    have uuid : generatedUuid t.process t.generated = generatedUuid 1 s.workers.next := by
      rw [process, generated]
    have id : t.workers.next = s.workers.next := congrArg Table.next workers
    have known : s'.workers.get? s.workers.next = some (o.seat p []) := here
    simp only [Network.openWorker, uuid, id, registries, resources, Option.getD_none,
      Option.isNone_none, if_true]
    change (keep (setWorkerHandler s' s.workers.next Signal.messageId (.signals s.workers.next))
      (.worker s.workers.next), s.workers.next) = _
    unfold setWorkerHandler
    rw [known]
    simp only
    rw [show (o.seat p []).resources = o.resources p from rfl, handled]
    exact congrArg (·, s.workers.next) (if_pos live)
  refine ⟨u, opened, ?_, ?_, next, fun i old => ?_, ⟨_, congrArg (Table.push · _) workers⟩,
    congrArg (Table.push · _) registries', List.subset_cons_self ..⟩
  · rcases h.dawn.fabric with ⟨fb, fabric, number, count⟩
    exact { h.dawn with
      fabric := ⟨fb, fabric, number, count.trans next.symm⟩
      faces := fun i f known => by
        rw [show u.interfaces.get? i = interfaces.get? i from rfl, faces i] at known
        rcases Option.map_eq_some_iff.1 known with ⟨f', there, rfl⟩
        have same := h.dawn.faces i f' there
        split <;> exact same
      unheld := fun l held => h.dawn.unheld l (by simpa [u] using held)
      counted := by
        refine ⟨process, ?_, ?_⟩
        · simp only [u, s', Table.next_push, workers, generated]
        · simp only [u, s', Table.next_push, workers, registries] }
  · refine ⟨here, (Table.get?_push ..).trans (if_pos registries.symm), List.mem_cons_self,
      fun n hn => ?_⟩
    have small : n < specs.length := (List.length_take ▸ hn : n < min _ specs.length).trans_le
      (Nat.min_le_right ..)
    rcases h.new n specs[n] (List.getElem?_eq_getElem small) with ⟨number, there⟩
    have mine : ∃ r ∈ o.resources p, r.interface = p.at n :=
      ⟨_, List.mem_of_getElem? (Outfit.getElem?_resources hn), rfl⟩
    refine ⟨_, (faces (p.at n)).trans (congrArg (Option.map _) there), ?_⟩
    simp only [mine, if_true]
    refine ⟨?_, rfl⟩
    simp only [Interface.hears, Outfit.settings, Outfit.spec]
    rw [List.getD_eq_getElem _ _ hn, List.getElem_take]
  · refine (faces i).trans ?_
    have other : ¬ ∃ r ∈ o.resources p, r.interface = i := by
      rintro ⟨r, mem, rfl⟩
      rcases List.mem_iff_getElem?.1 mem with ⟨n, at_n⟩
      rw [Outfit.resources, List.getElem?_mapIdx] at at_n
      rcases Option.map_eq_some_iff.1 at_n with ⟨spec, -, rfl⟩
      exact Nat.not_lt.2 (Nat.le_add_right ..) old
    simp only [other, if_false, Option.map_id']
    exact h.old i old

/-! ## Holds that are let go of -/

/-- Holds on interfaces have been let go of. What a worker owns stays. -/
structure Loosened (s : Network) (gone : List InterfaceId) (t : Network) : Prop where
  dawn : Dawn t
  next : t.interfaces.next = s.interfaces.next
  same : ∀ i, i ∉ gone ∨ s.isOwned (.interface i) = true →
    t.interfaces.get? i = s.interfaces.get? i
  frame : t = { s with interfaces := t.interfaces, holds := t.holds }
  workers : ∀ w, .worker w ∈ s.holds → .worker w ∈ t.holds

theorem Loosened.trans {gone more : List InterfaceId} (h : Loosened s gone t)
    (g : Loosened t more u) : Loosened s (gone ++ more) u where
  dawn := g.dawn
  next := g.next.trans h.next
  same i spared := by
    have owned : t.isOwned (.interface i) = s.isOwned (.interface i) := by
      rw [h.frame]
      rfl
    refine (g.same i ?_).trans (h.same i ?_)
    · rw [owned]
      exact spared.imp_left fun free mem => free (List.mem_append_right _ mem)
    · exact spared.imp_left fun free mem => free (List.mem_append_left _ mem)
  frame := by rw [g.frame, h.frame]
  workers w held := g.workers w (h.workers w held)

/-- An interface is closed unless something holds it. -/
theorem Dawn.releases (h : Dawn s) (i : InterfaceId) (free : s.isOwned (.interface i) ≠ true) :
    Loosened s [i] (s.release (.interface i)) := by
  have stays : Loosened s [i] s := ⟨h, rfl, fun _ _ => rfl, rfl, fun _ => id⟩
  unfold release
  split
  · exact stays
  · simp only [retire, retireInterface]
    cases here : s.interfaces.get? i with
    | none => exact stays
    | some f =>
      have empty : f.inbox = [] := (h.faces i f here).2.2
      simp only [empty, List.foldl_nil]
      rcases h.fabric with ⟨fb, fabric, number, count⟩
      refine ⟨{ h with
        fabric := ⟨fb, fabric, number, count.trans (Table.next_erase ..).symm⟩
        faces := fun k f' known => ?_ }, Table.next_erase .., fun k spared => ?_, rfl, fun _ => id⟩
      · rw [Table.get?_erase] at known
        split at known
        · cases known
        · exact h.faces k f' known
      · refine (Table.get?_erase ..).trans (if_neg ?_)
        rintro rfl
        rcases spared with other | owned
        · exact other (List.mem_singleton.2 rfl)
        · exact free owned

/-- The application lets go of an interface. -/
theorem Dawn.drops (h : Dawn s) (i : InterfaceId) :
    ∃ t, s.drop (.interface i) = (t, .ok ()) ∧ Loosened s [i] t := by
  let s' : Network := { s with holds := s.holds.erase (.interface i) }
  have kept : Loosened s [] s' := ⟨{ h with
    unheld := fun l held => h.unheld l (List.mem_of_mem_erase held) }, rfl, fun _ _ => rfl, rfl,
    fun w held => (List.mem_erase_of_ne (by simp)).2 held⟩
  by_cases owned : s.isOwned (.interface i) = true
  · exact ⟨s', drop_firm h.idle h.calm (.inr owned), kept.dawn, rfl, fun _ _ => rfl, rfl, kept.workers⟩
  · unfold drop letGo
    split
    · let v : Network := { s' with agenda := [.release (.interface i)] }
      have start : push { s with holds := s.holds.erase (.interface i) } [.release (.interface i)] =
          v := by
        simp only [push, h.idle, List.append_nil, v, s']
      have loosened := kept.trans (kept.dawn.releases i owned)
      have once : work 1 v = s'.release (.interface i) := by
        have done : v.step = s'.release (.interface i) := by
          rw [step_eq (rfl : v.agenda = .release (.interface i) :: []) h.calm]
          simp only [perform, v, s', ← h.idle]
        rw [work_succ (rfl : v.agenda = .release (.interface i) :: []), done, work]
      rw [start, settle_within (n := 1) _ v.fuel_pos, once]
      · exact ⟨_, rfl, loosened⟩
      · rw [once]
        exact loosened.dawn.idle
      · rw [once]
        exact loosened.dawn.calm
    · rw [settle_idle h.idle h.calm]
      exact ⟨s, rfl, h, rfl, fun _ _ => rfl, rfl, fun _ => id⟩

/-- It does so for all resources that it has opened for a worker. -/
theorem Dawn.dropAll (rs : List Resource) : ∀ {s}, Dawn s → ∃ t,
    (forIn rs PUnit.unit fun r _ => do
      Activity.drop (.interface r.interface)
      pure (ForInStep.yield PUnit.unit) : Activity PUnit) s = .ok (PUnit.unit, t) ∧
    Loosened s (rs.map Resource.interface) t := by
  induction rs with
  | nil =>
    intro s h
    exact ⟨s, rfl, h, rfl, fun _ _ => rfl, rfl, fun _ => id⟩
  | cons r rs ih =>
    intro s h
    rcases h.drops r.interface with ⟨t, dropped, loosened⟩
    rcases ih loosened.dawn with ⟨u, others, loosened'⟩
    refine ⟨u, ?_, loosened.trans loosened'⟩
    have one : (do
        Activity.drop (.interface r.interface)
        pure (ForInStep.yield PUnit.unit) : Activity (ForInStep PUnit)) s = .ok (.yield .unit, t) :=
      bind_of (drop_of dropped)
    rw [List.forIn_cons]
    exact (bind_of one).trans others

/-- A worker is opened over the resources of a scenario. The workers that were there stay in their
places. -/
theorem Dawn.openWorker (h : Dawn s) {sc : Scenario} {plan : Plan} (planned : sc.plan = .ok plan)
    (name : String) (e : EndpointId) : ∃ t,
    sc.openWorker 0 name s = .ok (.ok s.workers.next, t) ∧ Dawn t ∧
    Seated ⟨sc.resources.take maxResources, plan⟩ (s.newcomer name e) t ∧
    t.workers.next = s.workers.next + 1 ∧
    t.interfaces.next = s.interfaces.next + sc.resources.length ∧
    ∀ o p, Seated o p s → Seated o p t := by
  rcases h.openResources sc.resources with ⟨t, opened, supplied⟩
  rcases supplied.openWorker plan name e with
    ⟨u, made, dawn, seated, next, old, ⟨wk, workers⟩, registries, holds⟩
  rcases dawn.dropAll (sc.resources.mapIdx fun n spec => ⟨spec.name, s.interfaces.next + n⟩) with
    ⟨v, dropped, loosened⟩
  have workers' : v.workers = u.workers := by rw [loosened.frame]
  have registries' : v.registries = u.registries := by rw [loosened.frame]
  refine ⟨v, ?_, loosened.dawn, ?_, ?_, ?_, fun o p before => ?_⟩
  · unfold Scenario.openWorker
    rw [bind_of opened, planned]
    exact (bind_of (update_of made)).trans
      ((bind_of (pure_of (Except.ok s.workers.next) u)).trans (bind_of dropped))
  · refine seated.beside (fun w wk here => workers' ▸ here) (fun r e here => registries' ▸ here)
      (loosened.workers _ seated.attended) fun n hn => loosened.same _ (.inr ?_)
    exact isOwned_iff.2 (.inl ⟨_, _, seated.worker, .inl ⟨_,
      List.mem_of_getElem? (Outfit.getElem?_resources hn), rfl⟩⟩)
  · rw [workers', workers, Table.next_push]
  · rw [loosened.next, next, supplied.next]
  · refine before.beside (fun w wk here => ?_) (fun r e here => ?_)
      (loosened.workers _ (holds (supplied.holds before.attended))) fun n hn => ?_
    · rw [workers', workers]
      exact (Table.get?_push ..).trans ((if_neg (Table.lt_next_of_get? here).ne).trans here)
    · rw [registries', registries]
      exact (Table.get?_push ..).trans ((if_neg (Table.lt_next_of_get? here).ne).trans here)
    · rw [loosened.same _ (.inl fun mem => ?_), old _ (before.at_lt hn)]
      rcases List.mem_map.1 mem with ⟨r, hr, same⟩
      rcases List.mem_iff_getElem?.1 hr with ⟨k, hk⟩
      rw [List.getElem?_mapIdx] at hk
      rcases Option.map_eq_some_iff.1 hk with ⟨spec, -, rfl⟩
      have small := before.at_lt hn
      rw [← same] at small
      exact Nat.not_lt.2 (Nat.le_add_right ..) small

end Network

end Wiring
