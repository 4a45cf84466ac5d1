import Mathlib
import Wiring.Proofs.Handshake
import Wiring.Proofs.Passing

/-!
# Work is done by moves

Each job is done by moves, so that what every move keeps is kept by all work that breaks no
promise.
-/
namespace Wiring.Network

variable {s t : Network} {wild : Prop} {rest : List Job}

/-! ## Switchovers -/

/-- The worker of a stub's endpoint applies its events, and the stub is switched over if it can
be. -/
theorem switchover_moves (hs : Sound wild s) (id : StubId) :
    Moves wild s (s.switchover id) := by
  unfold switchover
  cases hw : (s.stubs.get? id).bind fun t => s.workerOf? t.endpoint with
  | none => exact .refl
  | some w =>
    obtain ⟨st₀, here₀, worker₀⟩ := Option.bind_eq_some_iff.1 hw
    have applied : Moves wild s _ := applyPosted_moves hs w
    have marked := applyPosted_marked s w
    have sameWorker := s.applyPosted_workerOf? w
    simp only
    revert applied marked sameWorker
    generalize (s.applyPosted w).1 = u
    intro applied marked sameWorker
    split
    · exact applied
    · rename_i st here
      split
      · rename_i next hn
        split
        · rename_i ready
          obtain ⟨b, hb⟩ := marked.stubs id
          have same : st.endpoint = st₀.endpoint := by
            rw [here] at hb
            simp only [here₀, Option.map_some, Option.some.injEq] at hb
            rw [hb]
          have worker : u.workerOf? st.endpoint = some w := by rw [sameWorker, same, worker₀]
          obtain ⟨-, -, -, hc⟩ := workerOf?_eq_some.1 worker
          obtain ⟨wk, books⟩ := Table.contains_iff.1 hc
          rw [switch_eq id st books]
          exact applied.trans (Moves.pass
            (.switch id st w wk next here worker books hn ready))
        · exact applied
      · exact applied

/-! ## Registries -/

theorem letGo_moves (s : Network) (ref : Ref) : Moves wild s (s.letGo ref) := by
  unfold letGo
  split
  · rename_i held
    exact Moves.hold (.letGo ref (List.contains_iff_mem.1 held))
  · exact .refl

theorem act_moves (s : Network) (id : RegistryId) (a : Action) : Moves wild s (s.act id a) := by
  unfold act
  split
  · split
    · exact Moves.aside (Aside.registerCallback s id _)
    · exact .refl
  · split
    · exact Moves.aside (Aside.unregisterCallback s id _)
    · exact .refl
  · split
    · exact letGo_moves s _
    · exact .refl

theorem runCallback_moves (s : Network) (id : CallbackId) :
    Moves wild s (s.runCallback id) := by
  unfold runCallback
  split
  · exact .refl
  · rename_i c here
    have taken : Aside s (note { s with
        callbacks := s.callbacks.set id { c with script := c.script.tail } } (.called c.name)) :=
      { Aside.refl s with
        callbacks := fun k hk => (Table.contains_set here _ k).trans hk
        trace := ⟨[.called c.name], by simp [note], by simp [Happening.isPlain]⟩ }
    refine (Moves.aside taken).trans ?_
    simp only
    generalize note { s with
      callbacks := s.callbacks.set id { c with script := c.script.tail } } (.called c.name) = u
    induction c.script.headD [] generalizing u with
    | nil => exact .refl
    | cons a actions ih => exact (act_moves u c.registry a).trans (ih _)

/-- What is left in a pruned registry lives. -/
theorem isLive_of_pruned {id : RegistryId} {entry : Runner × Nat}
    (h : entry ∈ (s.prune id).registry id) : s.isLive entry.1.ref = true := by
  simp only [registry, prune, Table.get?_modify, if_true] at h
  cases hr : s.registries.get? id with
  | none => simp [hr] at h
  | some r =>
    simp only [hr, Option.map_some, Option.getD_some, List.mem_filter] at h
    exact h.2

theorem runRegistry_moves (s : Network) (id : RegistryId) : Moves wild s (s.runRegistry id) := by
  unfold runRegistry
  have pruned := Aside.prune s id
  have counted : Aside s { s.prune id with
      tally := (s.prune id).tally + (((s.prune id).registry id).map Prod.fst).length } :=
    pruned.trans { Aside.refl _ with }
  refine (Moves.aside counted).trans (Moves.push fun j hj => ?_)
  simp only [List.mem_append, List.mem_map] at hj
  obtain ⟨x, -, rfl⟩ | ⟨x, ⟨entry, he, rfl⟩, rfl⟩ := hj
  · exact .inl ⟨rfl, rfl⟩
  · exact .inr ⟨_, rfl, counted.isLive (isLive_of_pruned he)⟩

/-! ## Delivery -/

theorem plan_moves {jobs : List Job} (h : ∀ j ∈ jobs, j.isIdle = true ∧ j.turn? = none) :
    Moves wild s (s.push jobs) := Moves.push fun j hj => .inl (h j hj)

theorem deliver_moves (s : Network) (id : InterfaceId) (left : Nat) :
    Moves wild s (s.deliver id left) := by
  unfold deliver
  split
  · rename_i left i here
    split
    · exact .refl
    · rename_i m inbox hm
      have taken : Aside s (note { s with
          interfaces := s.interfaces.set id { i with inbox }, tally := s.tally + 1 }
          (.delivered id m)) :=
        { Aside.refl s with
          interfaces := fun k hk => (Table.contains_set here _ k).trans hk
          trace := ⟨[.delivered id m], by simp [note], by simp [Happening.isPlain]⟩ }
      refine (Moves.aside taken).trans (plan_moves fun j hj => ?_)
      simp only [List.mem_append, List.mem_map, List.mem_cons, List.not_mem_nil, or_false] at hj
      obtain ⟨h, -, rfl⟩ | rfl | rfl := hj <;> exact ⟨rfl, rfl⟩
  · exact .refl

theorem linksOf_contains {owner : InterfaceId} {l : LinkId} (h : l ∈ s.linksOf owner) :
    s.links.contains l = true := by
  obtain ⟨lk, here, -⟩ := Table.mem_keysWhere h
  exact Table.contains_of_get? here

theorem dispatchLinks_moves (s : Network) (id : InterfaceId) :
    Moves wild s (s.dispatchLinks id) := by
  unfold dispatchLinks
  suffices h : ∀ links : List LinkId, (∀ l ∈ links, s.links.contains l = true) →
      Moves wild s (s.push (links.flatMap fun l => [.dispatch l, .release (.link l)])) from
    h _ fun l hl => linksOf_contains hl
  intro links
  induction links with
  | nil => exact fun _ => .refl
  | cons l links ih =>
    intro live
    have below := ih fun k hk => live k (List.mem_cons_of_mem _ hk)
    have held := Hold.hold (s := s.push (links.flatMap fun l => [.dispatch l, .release (.link l)]))
      (.link l) (live l List.mem_cons_self)
    refine (below.trans (Moves.hold held)).trans (Moves.hold (.plan (.dispatch l) rfl ?_))
    intro k hk
    cases hk
    exact List.mem_cons_self

theorem progressInterface_moves (s : Network) (id : InterfaceId) :
    Moves wild s (s.progressInterface id) := by
  unfold progressInterface
  split
  · exact .refl
  · refine plan_moves fun j hj => ?_
    simp only [List.mem_cons, List.not_mem_nil, or_false] at hj
    obtain rfl | rfl := hj <;> exact ⟨rfl, rfl⟩

theorem progressWorker_moves (hs : Sound wild s) (id : WorkerId) :
    Moves wild s (s.progressWorker id) := by
  unfold progressWorker
  split
  · exact .refl
  · rename_i w here
    refine (applyPosted_moves hs id).trans ?_
    have counted : Aside (s.applyPosted id).1 { (s.applyPosted id).1 with
        tally := (s.applyPosted id).1.tally + (s.applyPosted id).2 } :=
      { Aside.refl _ with }
    refine (Moves.aside counted).trans (plan_moves fun j hj => ?_)
    simp only [List.mem_append, List.mem_map, List.mem_cons, List.not_mem_nil, or_false] at hj
    obtain ⟨r, -, rfl⟩ | rfl := hj <;> exact ⟨rfl, rfl⟩

/-! ## Handlers -/

theorem forward_moves (s : Network) (log : String) (c : Carrier) (m : Message) :
    Moves wild s (s.forward log c m) := by
  unfold forward
  split
  · rename_i live
    obtain ⟨-, ⟨id, rfl⟩, h⟩ | ⟨why, h⟩ | ⟨l, dest, u, hu, -, h⟩ :=
      s.sendOver_cases c m.id m.payload none
    · simp only [h]
      refine Moves.push fun j hj => ?_
      simp only [List.mem_cons, List.not_mem_nil, or_false] at hj
      obtain rfl | rfl | rfl | rfl := hj
      · exact .inl ⟨rfl, rfl⟩
      · exact .inl ⟨rfl, rfl⟩
      · exact .inl ⟨rfl, rfl⟩
      · exact .inr ⟨_, rfl, live⟩
    · simp only [h]
      exact Moves.aside (.note s rfl)
    · simp only [h]
      exact Moves.aside ((hu.trans (.note u rfl)).trans (.note _ rfl))
  · exact .refl

theorem handle_moves (hs : Sound wild s) (m : Message) (h : Handler) :
    Moves wild s (s.handle m h) := by
  unfold handle
  split
  · rename_i log carrier decode
    have recorded : Aside s (s.note (.recorded log m.id (content decode m.payload))) :=
      .note s rfl
    simp only
    split
    · exact (Moves.aside recorded).trans (forward_moves _ _ _ m)
    · exact Moves.aside recorded
  · exact handleSignal_moves hs _ m.payload

/-! ## Destruction -/

theorem lookup_of_mem {α β : Type} [DecidableEq α] {l : List (α × β)}
    (keys : (l.map Prod.fst).Nodup) {entry : α × β} (h : entry ∈ l) :
    l.lookup entry.1 = some entry.2 := by
  induction l with
  | nil => cases h
  | cons first l ih =>
    obtain ⟨k, v⟩ := first
    rw [List.map_cons, List.nodup_cons] at keys
    rw [lookup_entry]
    obtain rfl | hm := List.mem_cons.1 h
    · simp
    · have hne : entry.1 ≠ k := by
        rintro rfl
        exact keys.1 (List.mem_map.2 ⟨entry, hm, rfl⟩)
      rw [if_neg hne]
      exact ih keys.2 hm

/-- What a destroyed endpoint leaves to do can be planned while it still owns its carriers. -/
theorem destroyPlan_moves (hs : Sound wild s) {id : EndpointId} {e : Endpoint}
    (here : s.endpoints.get? id = some e) (carriers : List Carrier) :
    Moves wild s (s.push
      (((s.workerOf? id).bind fun w => s.findEndpoint? w e.dest).toList.map
          (fun r => Job.release (.endpoint r))
        ++ carriers.flatMap (fun c =>
          match c with
          | .link l => [.purge c, .flush l (s.workerOf? id) e.flushAttempts]
          | .stub _ => [.purge c])
        ++ (s.workerOf? id).toList.map (fun w => Job.release (.worker w))
        ++ releaseSlots e.slots)) := by
  refine Moves.push fun j hj => ?_
  simp only [List.append_assoc, List.mem_append, List.mem_map, List.mem_flatMap,
    Option.mem_toList, mem_releaseSlots] at hj
  obtain ⟨r, hr, rfl⟩ | ⟨c, -, hj⟩ | ⟨w, hw, rfl⟩ | ⟨c, hc, rfl⟩ := hj
  · obtain ⟨w, hw, hr⟩ := Option.bind_eq_some_iff.1 hr
    obtain ⟨-, -, -, hc⟩ := workerOf?_eq_some.1 hw
    obtain ⟨wk, books⟩ := Table.contains_iff.1 hc
    simp only [findEndpoint?, books, Option.bind_some] at hr
    exact .inr ⟨_, rfl, isLive_of_directory hs.live books (lookup_mem hr)⟩
  · cases c with
    | link l =>
      simp only [List.mem_cons, List.not_mem_nil, or_false] at hj
      obtain rfl | rfl := hj <;> exact .inl ⟨rfl, rfl⟩
    | stub x =>
      cases List.mem_singleton.1 hj
      exact .inl ⟨rfl, rfl⟩
  · obtain ⟨-, -, -, hc⟩ := workerOf?_eq_some.1 hw
    exact .inr ⟨_, rfl, hc⟩
  · refine .inr ⟨_, rfl, hs.live _ (isHeld_of_owned (isOwned_iff.2 (.inr (.inl ?_))))⟩
    exact ⟨id, e, c, here, hc, rfl⟩

theorem setSlots_workerOf? (s : Network) (id : EndpointId) (slots : PerCategory Slot)
    (e : EndpointId) : (s.setSlots id slots).workerOf? e = s.workerOf? e := by
  simp only [workerOf?, setSlots, Table.get?_modify]
  by_cases h : id = e
  · rw [if_pos h]
    cases s.endpoints.get? e <;> rfl
  · rw [if_neg h]
    rfl

theorem destroy_moves (hs : Sound wild s) (id : EndpointId) : Moves wild s (s.destroy id) := by
  unfold destroy
  cases here : s.endpoints.get? id with
  | none => exact .refl
  | some e =>
    have planned : Moves wild s _ := destroyPlan_moves hs here
      ((e.slots.toList.filterMap fun slot => slot).eraseDups)
    have found (w : WorkerId) :
        (s.setSlots id (.const none)).findEndpoint? w e.dest = s.findEndpoint? w e.dest := rfl
    simp only [setSlots_workerOf?, found]
    cases hw : s.workerOf? id with
    | none =>
      simp only [hw] at planned
      exact planned.trans (Moves.wire (.clear id))
    | some w =>
      simp only [hw] at planned
      obtain ⟨-, -, -, hc⟩ := workerOf?_eq_some.1 hw
      obtain ⟨wk, books⟩ := Table.contains_iff.1 hc
      refine (planned.trans (Moves.wire (.clear id))).trans (Moves.wire (.strike w e.dest ?_))
      intro wk' hk entry he hd
      have hk : s.workers.get? w = some wk' := hk
      cases books.symm.trans hk
      have := lookup_of_mem (hs.keyed.keys w wk books) he
      rw [hd] at this
      refine List.mem_append_left _ (List.mem_append_left _ (List.mem_append_left _
        (List.mem_append_left _ ?_)))
      simp [findEndpoint?, books, this]

theorem purge_moves {c : Carrier} (calm : (s.purge c).violation = none) :
    Moves wild s (s.purge c) := by
  unfold purge at calm ⊢
  cases c with
  | link l =>
    simp only [drain]
    cases here : s.links.get? l with
    | none => exact .refl
    | some lk => exact cancelQueue_moves here
  | stub id =>
    simp only at calm ⊢
    cases here : s.stubs.get? id with
    | none => exact .refl
    | some st =>
      simp only [here] at calm ⊢
      split
      · exact .refl
      · rename_i hp
        rw [if_neg hp, violate] at calm
        split at calm
        · cases calm
        · rename_i v hv
          rw [calm] at hv
          cases hv

theorem flush_moves (s : Network) (l : LinkId) (w : Option WorkerId) (rounds : Nat) :
    Moves wild s (s.flush l w rounds) := by
  unfold flush
  split
  · exact .refl
  · split
    · refine plan_moves fun j hj => ?_
      simp only [List.mem_cons, List.not_mem_nil, or_false] at hj
      obtain rfl | rfl | rfl := hj <;> exact ⟨rfl, rfl⟩
    · exact .refl

theorem plan_one {j : Job} (idle : j.isIdle = true) (turn : j.turn? = none) :
    Moves wild s (s.push [j]) := by
  refine plan_moves fun k hk => ?_
  cases List.mem_singleton.1 hk
  exact ⟨idle, turn⟩

/-! ## Steps -/

/-- A job other than one with a request in hand is popped before it is done. -/
theorem perform_moves (hs : Sound wild s) (told : wild ∨ Told s)
    {j : Job} (top : s.agenda = j :: rest)
    (calm : (perform { s with agenda := rest } j).violation = none) :
    Moves wild s (perform { s with agenda := rest } j) := by
  have popped (idle : j.isIdle = true) : Moves wild s { s with agenda := rest } :=
    Moves.done top idle
  have sound (idle : j.isIdle = true) : Sound wild { s with agenda := rest } :=
    hs.moves (popped idle)
  unfold perform at calm ⊢
  cases j with
  | release ref => exact release_moves top calm
  | discard r =>
    obtain ⟨marks, plain, h⟩ := discard_eq { s with agenda := rest } r
    simp only [h]
    refine (Moves.aside (Aside.noteAll s plain)).trans (Moves.pass (.letGo r rest top ?_))
    refine told.imp_right fun told => absurd ?_ (told r)
    rw [top]
    exact List.mem_cons_self
  | attempt r w => exact attempt_moves hs top
  | conclude r o w => exact conclude_moves hs top
  | add c r => exact offer_moves top
  | replayed w => exact Moves.pass (.replayed w rest top)
  | switchover id =>
    exact (popped rfl).trans (switchover_moves (sound rfl) id)
  | run x =>
    refine (popped rfl).trans ?_
    cases x with
    | stub id =>
      refine plan_moves fun j hj => ?_
      simp only [List.mem_cons, List.not_mem_nil, or_false] at hj
      obtain rfl | rfl := hj <;> exact ⟨rfl, rfl⟩
    | callback c => exact runCallback_moves _ c
  | runRegistry id => exact (popped rfl).trans (runRegistry_moves _ id)
  | deliver id left => exact (popped rfl).trans (deliver_moves _ id left)
  | giveBack l => exact (popped rfl).trans (Moves.aside (Aside.modifyLink _ l fun lk => rfl))
  | dispatchLinks id => exact (popped rfl).trans (dispatchLinks_moves _ id)
  | dispatch l => exact dispatch_moves hs top
  | progressInterface id => exact (popped rfl).trans (progressInterface_moves _ id)
  | progressWorker id => exact (popped rfl).trans (progressWorker_moves (sound rfl) id)
  | handle h m => exact (popped rfl).trans (handle_moves (sound rfl) m h)
  | noteForward log o => exact (popped rfl).trans (Moves.aside (.note _ rfl))
  | recount n => exact (popped rfl).trans (Moves.aside { Aside.refl _ with })
  | destroy id => exact (popped rfl).trans (destroy_moves (sound rfl) id)
  | purge c => exact (popped rfl).trans (purge_moves calm)
  | flush l w rounds => exact (popped rfl).trans (flush_moves _ l w rounds)
  | confirm e h =>
    refine (popped rfl).trans ?_
    simp only [confirm]
    split
    · exact plan_one rfl rfl
    · exact .refl

/-- A step that breaks no promise is done by moves. -/
theorem step_moves (hs : Sound wild s) (told : wild ∨ Told s) (before : s.violation = none)
    (after : s.step.violation = none) : Moves wild s s.step := by
  unfold step at after ⊢
  cases top : s.agenda with
  | nil => exact .refl
  | cons j rest =>
    simp only [top] at after ⊢
    rw [if_neg (by simp [before])] at after ⊢
    exact perform_moves hs told top after

end Wiring.Network
