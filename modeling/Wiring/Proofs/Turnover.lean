import Mathlib
import Wiring.Proofs.Discipline
import Wiring.Proofs.Ownership

/-!
# How slots turn over

After the lanes of an endpoint were opened, its slots change by switchovers only: the slots that
held the stub hold its link from then on. The stub gives up the link that carried its signals, and
no other link is released. So categories keep what serves them until the endpoint is destroyed, and
an endpoint that is wired up stays so.
-/
namespace Wiring

namespace Network

variable {s t u : Network} {e : EndpointId} {ep ep' : Endpoint} {x : StubId} {st : Stub}
  {l next : LinkId} {w : WorkerId} {rest : List Job} {wild : Prop}

/-! ## What a switchover releases -/

/-- A stub on top of the agenda is switched over. The slots of an endpoint that held it hold its link
from then on, which lives on; the link that carried its signals until then, and no other, is
released. -/
structure Exchange (s t : Network) (ep ep' : Endpoint) (x : StubId) (st : Stub) (next : LinkId)
    (w : WorkerId) (rest : List Job) : Prop where
  top : s.agenda = .switchover x :: rest
  stub : s.stubs.get? x = some st
  unswitched : st.next = some next
  frame : ep' = { ep with slots := ep'.slots }
  slots : ∀ c, ep'.slots.get c =
    if ep.slots.get c = some (.stub x) then some (.link next) else ep.slots.get c
  links : t.links = s.links
  kept : t.isOwned (.link next) = true
  alive : t.isLive (.link next) = true
  agenda : t.agenda = replay st w next ++ rest
  apart : st.auxiliary ≠ some next
  abandoned : ∀ a, st.auxiliary = some a → t.isOwned (.link a) = false
  /-- The link is closed at once, -/
  closed : ∀ a, st.auxiliary = some a → .link a ∉ s.holds → .release (.link a) ∉ rest →
    t.step.links = s.links.erase a
  /-- unless the application or work under way holds it. -/
  borrowed : ∀ a, st.auxiliary = some a → .link a ∈ s.holds ∨ .release (.link a) ∈ rest →
    t.step.links = s.links
  spared : ∀ k, st.auxiliary ≠ some k → s.isHeld (.link k) = true → t.isHeld (.link k) = true

/-- A link that nothing holds is closed with its release, and no other. -/
theorem release_links (s : Network) {lk : Link} (here : s.links.get? l = some lk) :
    (s.release (.link l)).links =
      if s.isHeld (.link l) = true then s.links else s.links.erase l := by
  unfold release
  split
  · rfl
  · simp only [retire, retireLink, here]
    rcases foldl_cancel_eq { s with links := s.links.erase l } lk.queue with
      ⟨marks, handles, gates, h⟩
    rw [h]
    rfl

/-- What owned a link other than the auxiliary one before the switchover does so afterwards. -/
theorem switch_isOwned {wk : Worker} (parted : s.traffic.Parted) (here : s.stubs.get? x = some st)
    (unswitched : st.next = some next) (books : s.workers.get? w = some wk)
    (owned : s.isOwned (.link l) = true) (other : st.auxiliary ≠ some l) :
    (s.switch x st w next).isOwned (.link l) = true := by
  rw [switch_eq x st books]
  rcases isOwned_iff.1 owned with
    ⟨v, vk, -, ⟨r, -, h⟩ | ⟨entry, -, h⟩⟩ | ⟨f, ep, c, he, own, h⟩ | ⟨y, su, k, hy, own, h⟩
  · cases h
  · cases h
  · cases c with
    | stub y => cases h
    | link k =>
      cases h
      rcases Endpoint.owns_iff.1 own with ⟨category, slot⟩
      refine isOwned_iff.2 (.inr (.inl ?_))
      by_cases mine : st.endpoint = f
      · refine ⟨f, promoteSlots ep x st.category next, .link l, ?_, ?_, rfl⟩
        · simp only [Table.get?_modify, mine, if_true, he, Option.map_some]
        · refine Endpoint.owns_iff.2 ⟨category, ?_⟩
          simp only [promoteSlots, PerCategory.get_mapWith, slot]
          rw [if_neg (by simp)]
      · refine ⟨f, ep, .link l, ?_, own, rfl⟩
        simp only [Table.get?_modify, if_neg mine, he]
  · cases h
    refine isOwned_iff.2 (.inr (.inr ?_))
    by_cases same : x = y
    · subst same
      cases here.symm.trans hy
      refine ⟨x, _, l, (Table.get?_set_of here _ x).trans (if_pos rfl), .inr (.inr ?_), rfl⟩
      rcases own with own | own | own
      · exact unswitched.symm.trans own
      · exact absurd own other
      · cases (parted.waiting x st here (by simp [unswitched])).symm.trans own
    · exact ⟨y, su, l, (Table.get?_set_of here _ y).trans ((if_neg same).trans hy), own, rfl⟩

/-- The auxiliary link of a stub has no other owner. -/
theorem switch_abandons {wk : Worker} (parted : s.traffic.Parted) (here : s.stubs.get? x = some st)
    (unswitched : st.next = some next) (books : s.workers.get? w = some wk)
    (auxiliary : st.auxiliary = some l) : (s.switch x st w next).isOwned (.link l) = false := by
  have apart : l ≠ next := by
    rintro rfl
    exact parted.apart x st l here unswitched auxiliary
  have unfree : ¬s.traffic.Free l := fun free => free.2 x st here (.inr auxiliary)
  rw [switch_eq x st books]
  refine Bool.eq_false_iff.2 fun owned => ?_
  rcases isOwned_iff.1 owned with
    ⟨v, vk, -, ⟨r, -, h⟩ | ⟨entry, -, h⟩⟩ | ⟨f, ep, c, he, own, h⟩ | ⟨y, su, k, hy, own, h⟩
  · cases h
  · cases h
  · cases c with
    | stub y => cases h
    | link k =>
      cases h
      rcases Endpoint.owns_iff.1 own with ⟨category, slot⟩
      rcases Table.get?_of_modify he with ⟨old, before, rfl | rfl⟩
      · exact unfree (parted.slots f _ category l before slot)
      · simp only [promoteSlots, PerCategory.get_mapWith] at slot
        split at slot
        · cases slot
          exact apart rfl
        · exact unfree (parted.slots f old category l before slot)
  · cases h
    rw [Table.get?_set_of here] at hy
    split at hy
    · cases hy
      rcases own with own | own | own <;> cases own
      exact apart rfl
    · rename_i other
      rcases own with own | own | own
      · exact other (parted.own x y st su l here hy (.inr auxiliary) (.inl own))
      · exact other (parted.own x y st su l here hy (.inr auxiliary) (.inr own))
      · exact unfree (parted.promoted y su l hy own)

/-- Catching up changes nobody's links. -/
theorem OnlyMarked.wanes {y : StubId} (h : OnlyMarked s y t) : Traffic.Wanes s.traffic t.traffic := by
  refine ⟨?_, fun x st' there => ?_, fun f ep category k here slot => ⟨f, ep, category, ?_, slot⟩⟩
  · rw [h.frame]
    exact le_rfl
  · rcases h.stubs x with ⟨b, same⟩
    rw [show t.stubs.get? x = some st' from there] at same
    rcases Option.map_eq_some_iff.1 same.symm with ⟨st, here, rfl⟩
    exact ⟨st, here, rfl, rfl, rfl⟩
  · rw [h.frame] at here
    exact here

theorem OnlyMarked.isOwned {y : StubId} {ref : Ref} (h : OnlyMarked s y t)
    (owned : s.isOwned ref = true) : t.isOwned ref = true := by
  refine isOwned_mono (fun v vk hv => ?_) (fun f ep he => ⟨ep, ?_, fun _ own => own⟩)
    (fun x st hx => ?_) owned
  · refine ⟨_, h.posted v vk hv, ?_, ?_⟩ <;> split <;> exact List.Subset.refl _
  · rw [h.frame]
    exact he
  · rcases h.stubs x with ⟨b, same⟩
    rw [hx] at same
    exact ⟨_, same, fun _ own => own⟩

/-- The jobs that a switchover leaves release the auxiliary link first. -/
theorem release_mem_replay {a : LinkId} (h : .release (.link a) ∈ replay st w next) :
    st.auxiliary = some a ∨ a = next := by
  simp only [replay, List.mem_append, mem_releaseLink?, List.mem_flatMap, List.mem_cons,
    List.not_mem_nil, or_false] at h
  rcases h with (⟨k, auxiliary, same⟩ | ⟨r, -, same | same⟩) | same | same | same
  · cases same
    exact .inl auxiliary
  · cases same
  · cases same
  · cases same
    exact .inr rfl
  · cases same
  · cases same

/-- After a switchover the auxiliary link is closed at once, unless the application or work under
way holds it. -/
theorem switch_releases {wk : Worker} {a : LinkId} (live : Live s) (parted : s.traffic.Parted)
    (here : s.stubs.get? x = some st) (unswitched : st.next = some next)
    (books : s.workers.get? w = some wk) (calm : s.violation = none)
    (auxiliary : st.auxiliary = some a) :
    (.link a ∉ s.holds → .release (.link a) ∉ s.agenda →
      (s.switch x st w next).step.links = s.links.erase a) ∧
    (.link a ∈ s.holds ∨ .release (.link a) ∈ s.agenda →
      (s.switch x st w next).step.links = s.links) := by
  have own : s.isHeld (.link a) = true :=
    isHeld_of_owned (isOwned_iff.2 (.inr (.inr ⟨x, st, a, here, .inr (.inl auxiliary), rfl⟩)))
  rcases Table.contains_iff.1 (live _ own) with ⟨lk, there⟩
  have abandoned := switch_abandons parted here unswitched books auxiliary
  have apart : a ≠ next := by
    rintro rfl
    exact parted.apart x st a here unswitched auxiliary
  have frame := switch_eq x st books next
  generalize s.switch x st w next = t at abandoned frame ⊢
  set left := st.parked.flatMap (fun r => [.add (.link next) r, .replayed w])
    ++ [.release (.link next), .release (.worker w), .release (.endpoint st.endpoint)] ++ s.agenda
    with hleft
  have top : t.agenda = .release (.link a) :: left := by
    rw [frame]
    simp [replay, releaseLink?, auxiliary, hleft]
  have holds : t.holds = s.holds := by rw [frame]
  have links : t.links = s.links := by rw [frame]
  have step : t.step = release { t with agenda := left } (.link a) := by
    rw [step_eq top (by rw [frame]; exact calm)]
    rfl
  have there' : t.links.get? a = some lk := links ▸ there
  have released := release_links { t with agenda := left } (l := a) there'
  rw [← step] at released
  rw [released]
  simp only [links]
  refine ⟨fun unheld idle => if_neg fun held => ?_, fun held => if_pos ?_⟩
  · rcases isHeld_iff.1 held with held | later | owned
    · exact unheld (holds ▸ held)
    · rcases List.mem_append.1 later with later | later
      · have planned : .release (.link a) ∈ replay { st with auxiliary := none } w next := later
        rcases release_mem_replay planned with none | same
        · cases none
        · exact apart same
      · exact idle later
    · cases abandoned.symm.trans owned
  · rcases held with held | later
    · exact isHeld_of_holds (holds ▸ held)
    · exact isHeld_of_release (List.mem_append_right _ later)

variable {fits : Network → Call → Prop}

/-- A switchover exchanges the stub for its link in the slots, and releases its auxiliary link. -/
theorem switch_exchange {s' : Network} {b : Bool} {wk : Worker} (before : Visited fits s)
    (top : s.agenda = .switchover x :: rest) (below : { s with agenda := rest } = s')
    (here : s'.stubs.get? x = some st)
    (there : (s'.caughtUp x).stubs.get? x = some { st with remoteConnected := b })
    (unswitched : st.next = some next) (books : (s'.caughtUp x).workers.get? w = some wk)
    (old : s.endpoints.get? e = some ep)
    (new : ((s'.caughtUp x).switch x { st with remoteConnected := b } w next).endpoints.get? e =
      some ep') :
    Exchange s ((s'.caughtUp x).switch x { st with remoteConnected := b } w next) ep ep' x st next w
      rest := by
  rcases before.moves with ⟨process, moves, fit⟩
  have fitted := (Fitted.initial process).moves moves
  subst below
  have marked := caughtUp_marked { s with agenda := rest } x
  have quiet := caughtUp_quiet { s with agenda := rest } x
  have sound : Sound True { s with agenda := rest } := fit.sound.move (.hold (.done _ rest top rfl))
  have live := (sound.moves (caughtUp_moves sound x)).live
  have parted : (caughtUp { s with agenda := rest } x).traffic.Parted :=
    (before.parted.of_eq (t := { s.traffic with agenda := rest }) le_rfl rfl rfl).wanes marked.wanes
  have endpoints : (caughtUp { s with agenda := rest } x).endpoints = s.endpoints := by
    rw [marked.frame]
  have links : (caughtUp { s with agenda := rest } x).links = s.links := by rw [marked.frame]
  have holds : (caughtUp { s with agenda := rest } x).holds = s.holds := by rw [marked.frame]
  have owned {ref : Ref} (h : s.isOwned ref = true) :
      (caughtUp { s with agenda := rest } x).isOwned ref = true := marked.isOwned h
  have agenda := quiet.agenda
  have calm := quiet.violation.trans before.calm
  generalize caughtUp { s with agenda := rest } x = c at *
  have frame := switch_eq x { st with remoteConnected := b } books next
  have left : (c.switch x { st with remoteConnected := b } w next).links = s.links := by
    rw [frame]
    exact links
  have kept : s.isOwned (.link next) = true :=
    isOwned_iff.2 (.inr (.inr ⟨x, st, next, here, .inl unswitched, rfl⟩))
  have apart : st.auxiliary ≠ some next := before.parted.apart x st next here unswitched
  have stays (l : LinkId) (h : s.isOwned (.link l) = true) (other : st.auxiliary ≠ some l) :
      (c.switch x { st with remoteConnected := b } w next).isOwned (.link l) = true :=
    switch_isOwned parted there unswitched books (owned h) other
  have promoted : ep' = ep ∧ st.endpoint ≠ e ∨ ep' = promoteSlots ep x st.category next := by
    rw [frame] at new
    simp only [endpoints, Table.get?_modify, old] at new
    split at new
    · exact .inr (Option.some.inj new).symm
    · rename_i foreign
      exact .inl ⟨(Option.some.inj new).symm, foreign⟩
  constructor
  case top => exact top
  case stub => exact here
  case unswitched => exact unswitched
  case frame =>
    rcases promoted with ⟨rfl, -⟩ | rfl
    · rfl
    · rfl
  case slots =>
    intro category
    have own (slot : ep.slots.get category = some (.stub x)) :
        st.endpoint = e ∧ ep.plan.shares st.category category = true := by
      rcases fitted e ep category x old slot with ⟨st', here', endpoint, shares, -⟩
      cases here.symm.trans here'
      exact ⟨endpoint, shares⟩
    rcases promoted with ⟨rfl, foreign⟩ | rfl
    · rw [if_neg fun slot => foreign (own slot).1]
    · simp only [promoteSlots, PerCategory.get_mapWith]
      by_cases slot : ep.slots.get category = some (.stub x)
      · rw [if_pos slot, if_pos ⟨(own slot).2, slot⟩]
      · rw [if_neg slot, if_neg fun h => slot h.2]
  case links => exact left
  case kept => exact stays next kept apart
  case alive =>
    have live := fit.sound.live _ (isHeld_of_owned kept)
    simp only [isLive, left] at live ⊢
    exact live
  case agenda =>
    rw [frame, agenda]
    rfl
  case apart => exact apart
  case abandoned => exact fun a auxiliary => switch_abandons parted there unswitched books auxiliary
  case closed =>
    intro a auxiliary unheld idle
    rw [← links]
    exact (switch_releases live parted there unswitched books calm auxiliary).1 (holds ▸ unheld)
      (agenda ▸ idle)
  case borrowed =>
    intro a auxiliary held
    rw [← links]
    exact (switch_releases live parted there unswitched books calm auxiliary).2
      (by rw [holds, agenda]; exact held)
  case spared =>
    intro k other held
    rcases isHeld_iff.1 held with held | later | owned
    · refine isHeld_of_holds ?_
      rw [frame]
      exact holds ▸ held
    · rw [top] at later
      refine isHeld_of_release ?_
      rw [frame, agenda]
      exact List.mem_append_right _ ((List.mem_cons.1 later).resolve_left (by simp))
    · exact isHeld_of_owned (stays k owned other)

/-- A stub on top of the agenda changes slots of an endpoint only by a switchover. -/
theorem step_exchange (before : Visited fits s) (top : s.agenda = .switchover x :: rest)
    (old : s.endpoints.get? e = some ep) (new : s.step.endpoints.get? e = some ep') :
    ep' = ep ∨ ∃ st next w, Exchange s s.step ep ep' x st next w rest := by
  rcases before.moves with ⟨process, moves, fit⟩
  rw [step_eq top before.calm] at new ⊢
  generalize below : ({ s with agenda := rest } : Network) = s' at new ⊢
  have marked := caughtUp_marked s' x
  have endpoints : (s'.caughtUp x).endpoints = s.endpoints := by rw [marked.frame, ← below]
  have same (h : s'.perform (.switchover x) = s'.caughtUp x) : ep' = ep := by
    rw [h, endpoints, old] at new
    exact (Option.some.inj new).symm
  have eq : s'.perform (.switchover x) = s'.switchover x := rfl
  rw [eq, switchover_eq] at same new ⊢
  cases alive : (s'.stubs.get? x).bind fun st => s'.workerOf? st.endpoint with
  | none => exact .inl (same (by rw [alive]))
  | some w =>
  simp only [alive] at same new ⊢
  cases there : (s'.caughtUp x).stubs.get? x with
  | none => exact .inl (same (by rw [there]))
  | some st' =>
  simp only [there] at same new ⊢
  cases unswitched : st'.next with
  | none => exact .inl (same (by rw [unswitched]))
  | some next =>
  simp only [unswitched] at same new ⊢
  by_cases ready : (s'.caughtUp x).isSwitchable st' = true
  · rw [if_pos ready] at new ⊢
    refine .inr ?_
    rcases marked.stubs x with ⟨b, hb⟩
    rw [there] at hb
    rcases Option.map_eq_some_iff.1 hb.symm with ⟨st, here, rfl⟩
    rw [here, Option.bind_some, workerOf?_eq_some] at alive
    rcases alive with ⟨-, -, -, live⟩
    rcases Table.contains_iff.1 live with ⟨wk, books⟩
    exact ⟨st, next, w, switch_exchange before top below here there unswitched
      (marked.posted w wk books) old new⟩
  · rw [if_neg ready] at same
    exact .inl (same rfl)

/-! ## From one state to the next -/

/-- Other jobs leave an endpoint as it is, or close it, unless they destroy it. -/
theorem Shift.spares {j : Job} {r : Roster} (h : Shift s j r) (spared : j ≠ .destroy e)
    (still : ∀ x, j ≠ .switchover x) (known : e < s.endpoints.next)
    (there : r.endpoints e = some ep') : s.endpoints.get? e = some ep' := by
  cases h with
  | stay j => exact there
  | closeEndpoint f =>
    simp only [Function.update_apply] at there
    split at there
    · cases there
    · exact there
  | closeWorker w => exact there
  | switch x => exact absurd rfl (still x)
  | clear f =>
    have other : e ≠ f := fun same => spared (same ▸ rfl)
    simp only [Function.update_apply, if_neg other] at there
    exact there
  | welcome w m wk ep =>
    have other : e ≠ s.roster.opened := known.ne
    simp only [Roster.add, Function.update_apply, if_neg other] at there
    exact there

theorem Shift.switchover {r : Roster} (h : Shift s (.switchover x) r)
    (there : r.endpoints e = some ep') : ∃ ep, s.endpoints.get? e = some ep := by
  cases h with
  | stay => exact ⟨ep', there⟩
  | switch x st next here unswitched =>
    simp only [Function.update_apply] at there
    split at there
    · rename_i same
      rcases Option.map_eq_some_iff.1 there with ⟨ep, here, -⟩
      exact ⟨ep, same ▸ here⟩
    · exact ⟨ep', there⟩

theorem Shift.opened {j : Job} {r : Roster} (h : Shift s j r) : s.endpoints.next ≤ r.opened := by
  cases h with
  | welcome => exact Nat.le_succ _
  | _ => exact le_rfl

/-- Operations leave the endpoints as they are that there are. -/
theorem Enrols.spares {c : Call} {r : Roster} (h : Enrols s c r) (known : e < s.endpoints.next)
    (there : r.endpoints e = some ep') : s.endpoints.get? e = some ep' := by
  cases h with
  | stay | openWorker => exact there
  | createEndpoint w address wk ep =>
    have other : e ≠ s.roster.opened := known.ne
    simp only [Roster.add, Function.update_apply, if_neg other] at there
    exact there

theorem Enrols.opened {c : Call} {r : Roster} (h : Enrols s c r) : s.endpoints.next ≤ r.opened := by
  cases h with
  | createEndpoint => exact Nat.le_succ _
  | _ => exact le_rfl

end Network

open Network

variable {fits : Network → Call → Prop} {e : EndpointId} {s t : Network}

theorem Next.opened (h : Next fits e s t) (hs : Visited fits s) :
    s.endpoints.next ≤ t.endpoints.next := by
  cases h with
  | step visited spared =>
    cases top : s.agenda with
    | nil => rw [step_nil top]
    | cons j rest =>
      rw [step_eq top hs.calm]
      exact (perform_shift { s with agenda := rest } j).opened
  | start c => exact (start_enrols s c).opened
  | keep ref => exact (congrArg Roster.opened (keep_roster s ref)).ge

/-- An endpoint that is not destroyed keeps its slots from one state to the next, or a stub in them
is switched over. -/
theorem Next.turn (h : Next fits e s t) (hs : Visited fits s) (known : e < s.endpoints.next)
    {ep' : Endpoint} (there : t.endpoints.get? e = some ep') :
    ∃ ep, s.endpoints.get? e = some ep ∧ (ep' = ep ∨
      ∃ x st next w rest, Exchange s t ep ep' x st next w rest) := by
  have same {r : Roster} (hr : t.roster = r)
      (h : r.endpoints e = some ep' → s.endpoints.get? e = some ep') :
      ∃ ep, s.endpoints.get? e = some ep ∧ (ep' = ep ∨
        ∃ x st next w rest, Exchange s t ep ep' x st next w rest) :=
    ⟨ep', h (hr ▸ there), .inl rfl⟩
  cases h with
  | keep ref => exact same (keep_roster s ref) id
  | start c => exact same rfl fun there => (start_enrols s c).spares known there
  | step visited spared =>
    cases top : s.agenda with
    | nil => exact same (congrArg roster (step_nil top)) id
    | cons j rest =>
      have shift : Shift { s with agenda := rest } j s.step.roster := by
        rw [step_eq top hs.calm]
        exact perform_shift _ j
      by_cases switches : ∃ x, j = .switchover x
      · rcases switches with ⟨x, rfl⟩
        rcases shift.switchover there with ⟨ep, here⟩
        refine ⟨ep, here, (step_exchange hs top here there).imp_right ?_⟩
        exact fun ⟨st, next, w, exchange⟩ => ⟨x, st, next, w, rest, exchange⟩
      · refine same rfl (shift.spares (fun destroyed => spared ?_) (not_exists.1 switches) known)
        rw [top, destroyed]
        rfl

theorem Next.moves (h : Next fits e s t) (hs : Visited fits s) : Moves True s t := by
  rcases hs.moves with ⟨process, -, fit⟩
  cases h with
  | step visited => exact (fit.step visited.calm).1
  | start c journey fit permitted => exact Call.start_moves journey.rested permitted
  | keep ref => exact keep_moves s ref

namespace Network

variable {ep ep' : Endpoint} {lanes : List Category}

/-- Slots lead where they led before, whatever is exchanged in them. -/
theorem Exchange.link? {x : StubId} {st : Stub} {next : LinkId} {w : WorkerId} {rest : List Job}
    (h : Exchange s t ep ep' x st next w rest) (ages : Ages s t) (before : Fitted s)
    (after : Fitted t) (old : s.endpoints.get? e = some ep) (new : t.endpoints.get? e = some ep')
    (c : Category) : t.layout.link? (ep'.slots.get c) = s.layout.link? (ep.slots.get c) := by
  have slot := h.slots c
  split at slot
  · rename_i mine
    rw [slot, mine]
    simp only [Layout.link?, layout, h.stub, Option.map_some, Option.bind_some]
    exact h.unswitched.symm
  · exact ages.link? before after old new slot

theorem Manages.exchange {x : StubId} {st : Stub} {next : LinkId} {w : WorkerId} {rest : List Job}
    (h : Manages s ep lanes) (g : Exchange s t ep ep' x st next w rest)
    (leads : ∀ c, t.layout.link? (ep'.slots.get c) = s.layout.link? (ep.slots.get c)) :
    Manages t ep' lanes := by
  have plan : ep'.plan = ep.plan := by rw [g.frame]
  constructor
  · intro lane hl
    rw [leads]
    exact h.carried lane hl
  · intro lane hl c mem
    rw [plan] at mem
    rw [g.slots, g.slots, h.shared lane hl c mem]
  · intro lane hl lane' hl'
    rw [leads, leads]
    exact h.apart lane hl lane' hl'
  · intro c out
    rw [plan] at out
    rw [g.slots, h.empty c out, if_neg (by simp)]

theorem Manages.of_mem {lanes' : List Category} (h : Manages s ep lanes)
    (same : ∀ lane, lane ∈ lanes' ↔ lane ∈ lanes) : Manages s ep lanes' where
  carried lane hl := h.carried lane ((same lane).1 hl)
  shared lane hl := h.shared lane ((same lane).1 hl)
  apart lane hl lane' hl' := h.apart lane ((same lane).1 hl) lane' ((same lane').1 hl')
  empty c out := h.empty c fun lane hl => out lane ((same lane).2 hl)

end Network

/-- The lanes of an endpoint keep what serves them from one state to the next. -/
theorem Next.manages (h : Next fits e s t) (hs : Visited fits s) (known : e < s.endpoints.next)
    (managed : ∀ ep, s.endpoints.get? e = some ep → Manages s ep ep.plan.lanes) {ep' : Endpoint}
    (there : t.endpoints.get? e = some ep') : Manages t ep' ep'.plan.lanes := by
  rcases hs.moves with ⟨process, led, -⟩
  have moves := h.moves hs
  have before := (Fitted.initial process).moves led
  have after := before.moves moves
  rcases h.turn hs known there with ⟨ep, here, rfl | ⟨x, st, next, w, rest, exchange⟩⟩
  · exact (managed _ here).same fun c => moves.ages.link? before after here there rfl
  · have plan : ep'.plan = ep.plan := by rw [exchange.frame]
    rw [plan]
    exact (managed ep here).exchange exchange
      (exchange.link? moves.ages before after here there)

/-! ## Plans that were made -/

/-- The operation opens workers with plans that were made. -/
def Call.Planned : Call → Prop
  | .openWorker _ plan _ => plan.Built
  | _ => True

/-- All plans in a roster were made. -/
structure Roster.Planned (r : Roster) : Prop where
  office : ∀ w wk, r.offices w = some wk → wk.plan.Built
  endpoint : ∀ e ep, r.endpoints e = some ep → ep.plan.Built

namespace Roster.Planned

variable {r : Roster}

theorem add (h : r.Planned) {ep : Endpoint} (built : ep.plan.Built) : (r.add ep).Planned := by
  refine ⟨fun w wk here => ?_, fun f ep' here => ?_⟩
  · rcases Roster.offices_add here with ⟨wk', before, plan, -⟩
    exact plan ▸ h.office w wk' before
  · simp only [Roster.add, Function.update_apply] at here
    split at here
    · cases here
      exact built
    · exact h.endpoint f ep' here

/-- An endpoint changes, but keeps its plan. -/
theorem change (h : r.Planned) (f : EndpointId) {g : Endpoint → Endpoint}
    (plan : ∀ ep, (g ep).plan = ep.plan) :
    Planned { r with endpoints := Function.update r.endpoints f ((r.endpoints f).map g) } := by
  refine ⟨h.office, fun f' ep' here => ?_⟩
  rcases of_update_map here with ⟨ep, before, rfl | rfl⟩
  · exact h.endpoint f' ep' before
  · exact plan ep ▸ h.endpoint f' ep before

theorem employ (h : s.roster.Planned) {w : WorkerId} {wk : Worker}
    (here : s.workers.get? w = some wk) : wk.plan.Built :=
  h.office w wk.office (congrArg (Option.map Worker.office) here)

theorem enrols {c : Call} (h : s.roster.Planned) (planned : c.Planned) (g : Enrols s c r) :
    r.Planned := by
  cases g with
  | stay => exact h
  | openWorker settings plan resources wk own =>
    refine ⟨fun w wk' here => ?_, h.endpoint⟩
    simp only [Function.update_apply] at here
    split at here
    · cases here
      exact own ▸ planned
    · exact h.office w wk' here
  | createEndpoint w address wk ep here worker plan => exact h.add (plan ▸ h.employ here)

theorem shift {j : Job} (h : s.roster.Planned) (g : Shift s j r) : r.Planned := by
  cases g with
  | stay => exact h
  | closeEndpoint f =>
    refine ⟨h.office, fun f' ep here => ?_⟩
    simp only [Function.update_apply] at here
    split at here
    · cases here
    · exact h.endpoint f' ep here
  | closeWorker w =>
    refine ⟨fun w' wk here => ?_, h.endpoint⟩
    simp only [Function.update_apply] at here
    split at here
    · cases here
    · exact h.office w' wk here
  | switch x st next => exact h.change st.endpoint fun _ => rfl
  | clear f ep =>
    have cleared := h.change (g := fun ep => { ep with slots := .const none }) f fun _ => rfl
    refine ⟨fun w wk here => ?_, cleared.endpoint⟩
    rcases of_update_map here with ⟨wk', before, rfl | rfl⟩
    · exact h.office w wk before
    · exact h.office w wk' before
  | welcome w m wk ep here worker plan => exact h.add (plan ▸ h.employ here)

end Roster.Planned

/-- A run whose operations open workers with plans that were made. -/
abbrev Call.Plans (_ : Network) (c : Call) : Prop := c.Planned

theorem Visited.planned (h : Visited Call.Plans s) : s.roster.Planned :=
  h.roster_keeps (fun _ => ⟨fun _ _ here => (by cases here), fun _ _ here => (by cases here)⟩)
    (fun _ _ _ hs planned enrols => hs.enrols planned enrols) fun _ _ _ hs shift => hs.shift shift

end Wiring
