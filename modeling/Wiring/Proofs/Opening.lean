import Mathlib
import Wiring.Proofs.Handshake
import Wiring.Proofs.Honesty
import Wiring.Proofs.Still

/-!
# Opening and closing

Opening an endpoint and its lanes, and closing what nobody holds, leave what serves the lanes of
other endpoints as it is. A lane whose resource can pair links gets a stub with a link of the lane's
interface, and any other lane a link.
-/
namespace Wiring

namespace Layout

variable {k m n : Layout} {plan : Plan} {w : WorkerId} {wk : Worker} {e : EndpointId}
  {ep : Endpoint} {todo : List Category}

theorem Shifts.refl (k : Layout) : Shifts k k where
  face _ _ h := h
  worker _ _ h := h
  known _ _ h := .inl h
  endpoint _ _ h := h
  kept _ _ _ _ _ := rfl
  stub _ _ _ _ _ _ := rfl
  course _ _ _ _ _ _ := rfl
  blank _ _ h := .inl h

theorem Shifts.trans (h : Shifts k m) (g : Shifts m n) : Shifts k n where
  face i f hf := g.face i f (h.face i f hf)
  worker w wk hw := g.worker w wk (h.worker w wk hw)
  known w wk hw := by
    rcases g.known w wk hw with hw | none
    · exact h.known w wk hw
    · exact .inr none
  endpoint e ep he := h.endpoint e ep (g.endpoint e ep he)
  kept w wk hw entry hentry :=
    (g.kept w wk (h.worker w wk hw) entry hentry).trans (h.kept w wk hw entry hentry)
  stub e ep he lane x slot := (g.stub e ep he lane x slot).trans
    (h.stub e ep (g.endpoint e ep he) lane x slot)
  course e ep he lane l served := by
    have before := g.endpoint e ep he
    have served' : m.link? (ep.slots.get lane) = some l := (h.link? before lane).trans served
    exact (g.course e ep he lane l served').trans (h.course e ep before lane l served)
  blank x st hx := by
    rcases g.blank x st hx with hx | blank
    · exact h.blank x st hx
    · exact .inr blank

/-- The lanes of an endpoint are being opened while other things come and go. -/
theorem Opening.shift (h : Opening plan k w wk e ep todo) (hs : Shifts k m) (site : Site plan m) :
    Opening plan m w wk e ep todo where
  charted := h.charted.shift hs site
  unused :=
    { stubs := fun x st hx own => by
        rcases hs.blank x st hx with hx | blank
        · exact h.unused.stubs x st hx own
        · exact blank
      slots := fun ep' he lane hl => by
        have before := hs.endpoint e ep' he
        rcases h.unused.slots ep' before lane hl with ⟨stubs, links⟩
        refine ⟨fun x st slot hx => stubs x st slot ?_, fun l vk slot hv => ?_⟩
        · rwa [← hs.stub e ep' he lane x slot]
        · rcases h.charted.known w wk h.worker _ h.entry with ⟨ep'', he'', owner, -⟩
          cases before.symm.trans he''
          rw [owner] at hv
          cases (hs.worker w wk h.worker).symm.trans hv
          rw [(hs.refits h.charted).pairing? h.charted.toSite h.worker]
          exact links l wk slot (owner ▸ h.worker) }
  worker := hs.worker w wk h.worker
  entry := h.entry
  here := (hs.kept w wk h.worker _ h.entry).trans h.here
  done lane hl hnot := by
    have here := (hs.kept w wk h.worker _ h.entry).trans h.here
    have planned : ep.plan = plan := (h.charted.peers e ep h.here).1
    exact (h.done lane hl hnot).refit (hs.refits h.charted) h.charted.toSite h.worker here
      (planned ▸ hl)
  free := h.free

end Layout

namespace Network

open Layout (Charted Site Shifts Opening Fits)

variable {s t u : Network} {plan : Plan} {doomed : Option EndpointId} {wild : Prop}

/-! ## What is held -/

theorem isHeld_of_slot {e : EndpointId} {ep : Endpoint} (he : s.endpoints.get? e = some ep)
    {lane : Category} {c : Carrier} (slot : ep.slots.get lane = some c) : s.isHeld c.ref = true :=
  isHeld_of_owned (isOwned_iff.2 (.inr (.inl ⟨e, ep, c, he, Endpoint.owns_iff.2 ⟨lane, slot⟩, rfl⟩)))

/-- What serves a lane is held. -/
theorem isHeld_of_serves {e : EndpointId} {ep : Endpoint} (he : s.endpoints.get? e = some ep)
    {lane : Category} {l : LinkId} (serves : s.layout.link? (ep.slots.get lane) = some l) :
    s.isHeld (.link l) = true := by
  cases slot : ep.slots.get lane with
  | none =>
    rw [slot] at serves
    cases serves
  | some c =>
    cases c with
    | link l' =>
      rw [slot] at serves
      cases serves
      exact isHeld_of_slot he slot
    | stub x =>
      rw [slot] at serves
      rcases Option.bind_eq_some_iff.1 serves with ⟨st, hx, next⟩
      rcases Option.map_eq_some_iff.1 hx with ⟨st', hx', rfl⟩
      exact isHeld_of_owned (isOwned_iff.2 (.inr (.inr ⟨x, st', l, hx', .inl next, rfl⟩)))

/-- Links, stubs and endpoints come that nobody holds yet, and go that nobody holds any more. -/
structure Builds (s t : Network) : Prop extends Mild s t where
  fabric : t.layout.fabric = s.layout.fabric
  face : t.layout.face = s.layout.face
  worker : t.layout.worker = s.layout.worker
  shifts : Shifts s.layout t.layout

theorem Builds.refl (s : Network) : Builds s s := ⟨.refl s, rfl, rfl, rfl, .refl _⟩

theorem Builds.trans (h : Builds s t) (g : Builds t u) : Builds s u :=
  ⟨h.toMild.trans g.toMild, g.fabric.trans h.fabric, g.face.trans h.face, g.worker.trans h.worker,
    h.shifts.trans g.shifts⟩

theorem Builds.site (h : Builds s t) (hk : Site plan s.layout) : Site plan t.layout :=
  hk.congr h.fabric h.face fun _ wk hw => ⟨wk, h.worker ▸ hw, rfl, rfl, rfl⟩

theorem Builds.charts (h : Builds s t) (hk : Charted plan s.layout doomed) :
    Charts plan doomed s t :=
  ⟨h.toMild, (h.shifts.refits hk).lasts hk.toSite, hk.shift h.shifts (h.site hk.toSite)⟩

theorem Builds.opening (h : Builds s t) {w : WorkerId} {wk : Worker} {e : EndpointId}
    {ep : Endpoint} {todo : List Category} (hk : Opening plan s.layout w wk e ep todo) :
    Opening plan t.layout w wk e ep todo := hk.shift h.shifts (h.site hk.charted.toSite)

/-- Nothing that is held changes. -/
theorem Mild.builds (h : Mild s t) (fabric : t.layout.fabric = s.layout.fabric)
    (face : t.layout.face = s.layout.face) (worker : t.layout.worker = s.layout.worker)
    (endpoint : ∀ e ep, t.layout.endpoint e = some ep → s.layout.endpoint e = some ep)
    (kept : ∀ e, s.isHeld (.endpoint e) = true → t.layout.endpoint e = s.layout.endpoint e)
    (stub : ∀ x, s.isHeld (.stub x) = true → t.layout.stub x = s.layout.stub x)
    (course : ∀ l, s.isHeld (.link l) = true → t.layout.course l = s.layout.course l)
    (blank : ∀ x st, t.layout.stub x = some st → s.layout.stub x = some st ∨
      st.localConnected = false ∧ st.remoteConnected = false) : Builds s t := by
  refine ⟨h, fabric, face, worker, ?_⟩
  exact {
    face := fun i f hf => by rwa [face]
    worker := fun w wk hw => by rwa [worker]
    known := fun w wk hw => .inl (by rwa [worker] at hw)
    endpoint := endpoint
    kept := fun w wk hw entry hentry => by
      rcases Option.map_eq_some_iff.1 hw with ⟨wk', hw', rfl⟩
      exact kept _ (isHeld_of_owned
        (isOwned_iff.2 (.inl ⟨w, wk', hw', .inr ⟨entry, hentry, rfl⟩⟩)))
    stub := fun e ep he lane x slot => stub x (isHeld_of_slot (endpoint e ep he) slot)
    course := fun e ep he lane l serves => course l (isHeld_of_serves (endpoint e ep he) serves)
    blank := blank }

/-! ## Links -/

/-- A new link with a course. -/
structure LinkBuilt (s t : Network) (l : LinkId) (c : Course) : Prop extends Mild s t where
  opened : LinkOpened s t l
  layout : t.layout = { s.layout with course := Function.update s.layout.course l (some c) }

theorem LinkBuilt.builds {l : LinkId} {c : Course} (h : LinkBuilt s t l c) (hs : Live s) :
    Builds s t := by
  refine h.toMild.builds ?_ ?_ ?_ (fun e ep he => ?_) (fun e _ => ?_) (fun x _ => ?_)
    (fun k hk => ?_) fun x st hx => .inl ?_
  · rw [h.layout]
  · rw [h.layout]
  · rw [h.layout]
  · rwa [h.layout] at he
  · rw [h.layout]
  · rw [h.layout]
  · have other : k ≠ l := by
      rintro rfl
      have live : s.links.contains k = true := hs _ hk
      rcases h.opened with ⟨-, -, -, -, -, -, rfl, -⟩
      simp [Table.contains] at live
    rw [h.layout]
    exact Function.update_of_ne other _ _
  · rwa [h.layout] at hx

theorem newLink_built {owner : InterfaceId} {i : Interface}
    (here : s.interfaces.get? owner = some i) (dest : Option InterfaceId) :
    LinkBuilt s (s.newLink owner i dest).1 (s.newLink owner i dest).2
      ⟨owner, i.settings, dest⟩ := by
  refine ⟨?_, newLink_opened here dest, ?_⟩
  · let interfaces := s.interfaces.set owner { i with linksOpened := i.linksOpened + 1 }
    let counted := { s with interfaces }
    have first : Mild s counted := .setInterface here rfl rfl fun m hm => .inl hm
    refine first.trans (.of_tidy rfl rfl fun hs => ?_)
    refine { hs with bulk := fun l lk hl => ?_, queued := fun l lk hl r hr => ?_ }
    · rcases Table.get?_of_push hl with ⟨-, rfl⟩ | hl
      · exact hs.limits owner { i with linksOpened := i.linksOpened + 1 }
          (by rw [Table.get?_set_of here, if_pos rfl])
      · exact hs.bulk l lk hl
    · rcases Table.get?_of_push hl with ⟨-, rfl⟩ | hl
      · cases hr
      · exact hs.queued l lk hl r hr
  · have faces := Table.map_get?_set (f := Interface.face)
      (b := { i with linksOpened := i.linksOpened + 1 }) here rfl
    have links (k : LinkId) : ((s.newLink owner i dest).1.links.get? k).map Link.course =
        Function.update s.layout.course (s.newLink owner i dest).2
          (some ⟨owner, i.settings, dest⟩) k := by
      rw [Function.update_apply, newLink, Table.get?_push]
      split
      · rfl
      · rfl
    simp only [Network.layout, links]
    simp only [newLink, faces]

/-- Links are opened on the interface that they are asked for. -/
theorem openLink_built (s : Network) (owner : InterfaceId) :
    (∃ why, s.openLink owner = (s, .error why)) ∨
    ∃ t l f, s.openLink owner = (t, .ok l) ∧ s.layout.face owner = some f ∧
      LinkBuilt s t l ⟨owner, f.settings, none⟩ := by
  unfold openLink
  split
  · exact .inl ⟨_, rfl⟩
  · rename_i i here
    split
    · exact .inl ⟨_, rfl⟩
    · exact .inr ⟨_, _, i.face, rfl, by simp [layout, here], newLink_built here none⟩

theorem openConnectedLink_built (s : Network) (owner : InterfaceId) (device address : Bytes) :
    (∃ why, s.openConnectedLink owner device address = (s, .error why)) ∨
    ∃ t l c, s.openConnectedLink owner device address = (t, .ok l) ∧ LinkBuilt s t l c := by
  unfold openConnectedLink
  split
  · exact .inl ⟨_, rfl⟩
  · rename_i i here
    split
    · exact .inl ⟨_, rfl⟩
    · rename_i dest hd
      exact .inr ⟨_, _, _, rfl, newLink_built here (some dest)⟩

theorem openAuxiliary_built (s : Network) (w : Worker) (peer : String)
    (entries : List AddressEntry) (scorer : Scorer) :
    (∃ why, s.openAuxiliary w peer entries scorer = (s, .error why)) ∨
    ∃ t r l c, s.openAuxiliary w peer entries scorer = (t, .ok (r, l)) ∧ LinkBuilt s t l c := by
  unfold openAuxiliary
  split
  · exact .inl ⟨_, rfl⟩
  · rename_i best hb
    split
    · rename_i r entry hr he
      rcases s.openConnectedLink_built r.interface entry.deviceAddress entry.interfaceAddress with
        ⟨why, h⟩ | ⟨t, l, c, h, built⟩
      · exact .inl ⟨.refused why, by rw [h]⟩
      · exact .inr ⟨t, best.resource, l, c, by rw [h], built⟩
    · exact .inl ⟨_, rfl⟩

/-- A link that nobody holds is closed. -/
theorem retireLink_builds {l : LinkId} (free : s.isHeld (.link l) = false) :
    Builds s (s.retireLink l) := by
  unfold retireLink
  split
  · exact .refl s
  · rename_i lk here
    have closed : Mild s { s with links := s.links.erase l } :=
      .of_tidy rfl rfl fun hs => { hs with
        bulk := fun k k' hk => hs.bulk k k' (Table.get?_of_erase hk)
        queued := fun k k' hk => hs.queued k k' (Table.get?_of_erase hk) }
    have cancelled : Still { s with links := s.links.erase l }
        (lk.queue.foldl cancel { s with links := s.links.erase l }) := .foldl cancel_still _ _
    refine (closed.trans cancelled.toMild).builds ?_ ?_ ?_ (fun e ep he => ?_) (fun e _ => ?_)
      (fun x _ => ?_) (fun k hk => ?_) fun x st hx => .inl ?_
    · rw [cancelled.layout]
      rfl
    · rw [cancelled.layout]
      rfl
    · rw [cancelled.layout]
      rfl
    · rwa [cancelled.layout] at he
    · rw [cancelled.layout]
      rfl
    · rw [cancelled.layout]
      rfl
    · have other : l ≠ k := by
        rintro rfl
        rw [free] at hk
        cases hk
      rw [cancelled.layout]
      simp only [Network.layout, Table.get?_erase, if_neg other]
    · rwa [cancelled.layout] at hx

/-! ## Stubs -/

/-- A new stub is neither connected nor marked. -/
theorem newStub_builds (hs : Live s) (endpoint : EndpointId) (lane : Category) (next : LinkId)
    (auxiliary : Option (ResourceIndex × LinkId)) :
    Builds s (s.newStub endpoint lane next auxiliary).1 ∧
    (s.newStub endpoint lane next auxiliary).1.layout.course = s.layout.course ∧
    ∃ st, (s.newStub endpoint lane next auxiliary).1.layout.stub
        (s.newStub endpoint lane next auxiliary).2 = some st ∧
      (st.endpoint = endpoint ∧ st.category = lane) ∧ st.next = some next := by
  have mild : Mild s (s.newStub endpoint lane next auxiliary).1 := by
    refine .of_tidy rfl rfl fun ht => { ht with parked := fun x st hx r hr => ?_ }
    rcases Table.get?_of_push hx with ⟨-, rfl⟩ | hx
    · cases hr
    · exact ht.parked x st hx r hr
  have stubs (x : StubId) (hx : x ≠ s.stubs.next) :
      (s.newStub endpoint lane next auxiliary).1.layout.stub x = s.layout.stub x := by
    simp only [newStub, Network.layout, Table.get?_push, if_neg hx]
  refine ⟨mild.builds rfl rfl rfl (fun _ _ h => h) (fun _ _ => rfl) (fun x hx => stubs x ?_)
    (fun _ _ => rfl) fun x st hx => ?_, rfl, ?_⟩
  · rintro rfl
    have live : s.stubs.contains s.stubs.next = true := hs _ hx
    simp [Table.contains] at live
  · by_cases new : x = s.stubs.next
    · simp only [newStub, Network.layout, Table.get?_push, if_pos new, Option.map_some,
        Option.some.injEq] at hx
      rw [← hx]
      exact .inr ⟨rfl, rfl⟩
    · rw [stubs x new] at hx
      exact .inl hx
  · simp only [newStub, Network.layout, Table.get?_push, if_pos, Option.map_some,
      Option.some.injEq, exists_eq_left']
    exact ⟨⟨rfl, rfl⟩, rfl⟩

/-- A stub with a link of an interface. -/
structure StubBuilt (s t : Network) (e : EndpointId) (lane : Category) (i : InterfaceId)
    (x : StubId) (l : LinkId) : Prop extends Builds s t where
  fresh : s.links.contains l = false
  stub : ∃ st, t.layout.stub x = some st ∧ (st.endpoint = e ∧ st.category = lane) ∧
    st.next = some l
  course : ∃ f, s.layout.face i = some f ∧ t.layout.course l = some ⟨i, f.settings, none⟩

theorem LinkOpened.fresh {l : LinkId} (h : LinkOpened s t l) : s.links.contains l = false := by
  rcases h with ⟨-, -, -, -, -, -, rfl, -⟩
  simp [Table.contains]

theorem openStub_built (hs : Sound wild s) (endpoint : EndpointId) (ep : Endpoint) (w : Worker)
    (lane : Category) (i : InterfaceId) (entries : List AddressEntry) :
    (∃ t why, s.openStub endpoint ep w lane i entries = (t, .error why) ∧ Builds s t) ∨
    ∃ t x l, s.openStub endpoint ep w lane i entries = (t, .ok x) ∧
      StubBuilt s t endpoint lane i x l := by
  unfold openStub
  rcases s.openLink_built i with ⟨why, h⟩ | ⟨t, l, f, h, face, link⟩
  · rw [h]
    exact .inl ⟨s, .refused why, rfl, .refl s⟩
  · rw [h]
    have first := link.builds hs.live
    have soundT : Sound wild t := hs.moves link.opened.moves
    have course : t.layout.course l = some ⟨i, f.settings, none⟩ := by
      rw [link.layout]
      exact Function.update_self _ _ _
    simp only
    split
    · rcases t.openAuxiliary_built w ep.peer entries .auxiliary with ⟨why, h⟩ | ⟨u, r, l', c, h, link'⟩
      · rw [h]
        exact .inl ⟨_, why, rfl, first.trans (retireLink_builds (link.opened.free hs.live))⟩
      · rw [h]
        have second := link'.builds soundT.live
        have soundU : Sound wild u := soundT.moves link'.opened.moves
        rcases newStub_builds soundU.live endpoint lane l (some (r, l')) with ⟨third, links, stub⟩
        refine .inr ⟨_, _, l, rfl, (first.trans second).trans third, link.opened.fresh, stub, f,
          face, ?_⟩
        have other : l ≠ l' := by
          rintro rfl
          have live := link.opened.contains
          rw [link'.opened.fresh] at live
          cases live
        rw [links, link'.layout]
        exact (Function.update_of_ne other _ _).trans course
    · rcases newStub_builds soundT.live endpoint lane l none with ⟨third, links, stub⟩
      exact .inr ⟨_, _, l, rfl, first.trans third, link.opened.fresh, stub, f, face, links ▸ course⟩

/-! ## Lanes -/

/-- A lane is opened with what fits it, or nothing that is in use changes. -/
theorem openLane_built (hs : Sound wild s) (endpoint : EndpointId) {ep : Endpoint} {w : Worker}
    (planned : ep.plan = w.plan) (lane : Category) (entries : List AddressEntry) :
    (∃ t why, s.openLane endpoint ep w lane entries = (t, .error why) ∧ Builds s t) ∨
    ∃ t c l, s.openLane endpoint ep w lane entries = (t, .ok c) ∧ Builds s t ∧
      Fits t.layout w.seat endpoint lane c l ∧ s.links.contains l = false := by
  unfold openLane
  cases resource : (ep.plan.resource lane).bind fun index => w.resources[index.toNat]? with
  | none => exact .inl ⟨s, _, rfl, .refl s⟩
  | some r =>
    rcases Option.bind_eq_some_iff.1 resource with ⟨index, hindex, hr⟩
    cases hi : s.interfaces.get? r.interface with
    | none =>
      simp only [hi]
      exact .inl ⟨s, _, rfl, .refl s⟩
    | some i =>
      have able : s.layout.pairing? w.seat lane =
          if i.settings.capabilities.contains .connectToLink then some r.interface else none := by
        have hindex' : w.seat.plan.resource lane = some index := planned ▸ hindex
        have hr' : w.seat.resources[index.toNat]? = some r := hr
        have face : s.layout.face r.interface = some i.face := by simp [layout, hi]
        simp [Layout.pairing?, hindex', hr', face, Interface.face]
      have same (t : Network) (h : t.layout.face = s.layout.face) :
          t.layout.pairing? w.seat lane = s.layout.pairing? w.seat lane :=
        Layout.pairing?_congr rfl rfl fun _ _ => by rw [h]
      simp only [hi]
      split
      · rename_i capable
        rcases openStub_built hs endpoint ep w lane r.interface entries with
          ⟨t, why, h, built⟩ | ⟨t, x, l, h, built⟩
        · rw [h]
          exact .inl ⟨t, why, rfl, built⟩
        · rw [h]
          refine .inr ⟨t, _, l, rfl, built.toBuilds, ?_, built.fresh⟩
          rcases built.stub with ⟨st, hx, own, next⟩
          rcases built.course with ⟨f, hf, course⟩
          refine .stub x st l _ f hx own next course ?_ ?_ rfl
          · rw [same t built.face, able, if_pos capable]
          · rw [built.face]
            exact hf
      · rename_i incapable
        split
        · exact .inl ⟨s, _, rfl, .refl s⟩
        · rename_i entry _
          rcases s.openConnectedLink_built r.interface entry.deviceAddress entry.interfaceAddress
            with ⟨why, h⟩ | ⟨t, l, c, h, built⟩
          · rw [h]
            exact .inl ⟨s, _, rfl, .refl s⟩
          · rw [h]
            have builds := built.builds hs.live
            refine .inr ⟨t, _, l, rfl, builds, .link l ?_, built.opened.fresh⟩
            rw [same t builds.face, able, if_neg incapable]

/-- Carriers in slots are wiring only. -/
theorem setSlots_mild (s : Network) (e : EndpointId) (slots : PerCategory Slot) :
    Mild s (s.setSlots e slots) := .of_tidy rfl rfl fun hs => { hs with }

theorem setSlots_layout {e : EndpointId} {ep : Endpoint} (here : s.endpoints.get? e = some ep)
    (slots : PerCategory Slot) :
    (s.setSlots e slots).layout = s.layout.outfit e { ep with slots } := by
  have endpoints (e' : EndpointId) : (s.setSlots e slots).endpoints.get? e' =
      Function.update s.layout.endpoint e (some { ep with slots }) e' := by
    rw [setSlots, Table.modify_eq_set here, Table.get?_set_of here, Function.update_apply]
    by_cases h : e = e'
    · rw [if_pos h, if_pos h.symm]
    · rw [if_neg h, if_neg (Ne.symm h)]
      rfl
  simp only [Network.layout, endpoints]
  rfl

/-- The lanes of a new endpoint are opened one after another. Where that ends early, some of them
are missing. -/
theorem openLanes_charts (hs : Sound wild s) {w : WorkerId} {wk : Worker} {e : EndpointId}
    {ep : Endpoint} {todo : List Category} (h : Opening plan s.layout w wk e ep todo)
    (distinct : todo.Nodup) (lanes : ∀ lane ∈ todo, lane ∈ plan.lanes) (entries : List AddressEntry)
    (unsent : ∀ h messageId payload, .sent h e messageId payload ∉ s.trace) :
    Charts plan (some e) s (s.openLanes e entries todo).1 ∧
    ∃ ep' left, Opening plan (s.openLanes e entries todo).1.layout w wk e ep' left ∧
      ep'.dest = ep.dest ∧ ((s.openLanes e entries todo).2 = .ok () → left = []) := by
  induction todo generalizing s ep with
  | nil => exact ⟨.refl h.charted, ep, [], h, rfl, fun _ => rfl⟩
  | cons lane todo ih =>
    have here : s.endpoints.get? e = some ep := h.here
    have owner : ep.worker = w := by
      rcases h.charted.known w wk h.worker _ h.entry with ⟨ep', he, owner, -⟩
      cases h.here.symm.trans he
      exact owner
    rcases Option.map_eq_some_iff.1 h.worker with ⟨wk', hw, rfl⟩
    have planned : ep.plan = wk'.plan :=
      (h.charted.peers e ep h.here).1.trans (h.charted.plans w _ h.worker).symm
    rcases openLane_furnished hs ep wk' lane entries (Table.contains_of_get? here) with
      ⟨furnished, live⟩
    unfold openLanes
    simp only [here, owner, hw]
    rcases openLane_built hs e planned lane entries with
      ⟨t, why, opened, builds⟩ | ⟨t, c, l, opened, builds, fits, fresh⟩
    · rw [opened]
      exact ⟨builds.charts h.charted, ep, _, builds.opening h, rfl, fun ok => by cases ok⟩
    · rw [opened] at furnished live ⊢
      rcases live c rfl with ⟨alive, own⟩
      have here' : t.endpoints.get? e = some ep := furnished.endpoints ▸ here
      have unsent' := furnished.trace.symm ▸ unsent
      have unused (e' : EndpointId) (ep' : Endpoint) (lane' : Category)
          (he : t.layout.endpoint e' = some ep') :
          t.layout.link? (ep'.slots.get lane') ≠ some l := by
        intro serves
        rw [builds.shifts.link? he] at serves
        have old : s.endpoints.get? e' = some ep' := builds.shifts.endpoint e' ep' he
        have held : s.links.contains l = true := hs.live _ (isHeld_of_serves old serves)
        rw [fresh] at held
        cases held
      have opening := builds.opening h
      have next := opening.install distinct lanes fits unused
      have layout := setSlots_layout here' (installLane ep lane c)
      change _ = t.layout.furnish e ep lane c at layout
      rw [← layout] at next
      have installed : Charts plan (some e) s (t.setSlots e (installLane ep lane c)) := by
        refine ⟨builds.toMild.trans (setSlots_mild t e _), ?_, next.charted⟩
        rw [layout]
        exact (builds.charts h.charted).lasts.trans (opening.lasts c)
      have moves : Moves wild s (t.setSlots e (installLane ep lane c)) :=
        furnished.moves.trans (Moves.wire (.install e ep lane c here' alive own unsent'))
      rcases ih (hs.moves moves) next (List.nodup_cons.1 distinct).2
        (fun lane' h => lanes lane' (List.mem_cons_of_mem _ h)) unsent' with
        ⟨charts, ep', left, opening', dest, done⟩
      exact ⟨installed.trans charts, ep', left, opening', dest, done⟩

/-! ## Endpoints -/

/-- An endpoint to a worker that there is, in the directory of another one that has none to it. -/
theorem openEndpoint_charts (hs : Sound wild s) (hk : Charted plan s.layout none) {w : WorkerId}
    {wk : Worker} (hw : s.workers.get? w = some wk) {dest : UInt64}
    (fresh : s.findEndpoint? w dest = none) (peer : ∃ b vk, s.layout.Bears b vk dest)
    (name : String) :
    Charts plan (some s.endpoints.next) s (s.openEndpoint w dest name).1 ∧
    (s.openEndpoint w dest name).2 = s.endpoints.next ∧
    ∃ wk' ep, Opening plan (s.openEndpoint w dest name).1.layout w wk' s.endpoints.next ep plan.lanes ∧
      ep.dest = dest ∧ wk'.plan = plan := by
  have others : (wk.directory.filter fun entry => entry.1 != dest) = wk.directory :=
    List.filter_eq_self.2 fun entry he => bne_iff_ne.2 (strangers hw fresh entry he)
  let e := s.endpoints.next
  let ep : Endpoint :=
    { worker := w, dest, peer := name, plan := wk.plan, flushAttempts := wk.settings.flushAttempts }
  have seat : s.layout.worker w = some wk.seat := by simp [layout, hw]
  have planned : wk.plan = plan := hk.plans w wk.seat seat
  have opened : (s.openEndpoint w dest name).1.layout = s.layout.enroll w wk.seat e ep := by
    have workers (v : WorkerId) : ((s.openEndpoint w dest name).1.workers.get? v).map Worker.seat =
        Function.update s.layout.worker w
          (some { wk.seat with directory := wk.directory ++ [(dest, e)] }) v := by
      simp only [openEndpoint, hw, others, note, Table.get?_set_of hw, Function.update_apply]
      by_cases h : w = v
      · rw [if_pos h, if_pos h.symm]
        rfl
      · rw [if_neg h, if_neg (Ne.symm h)]
        rfl
    have endpoints (e' : EndpointId) : (s.openEndpoint w dest name).1.endpoints.get? e' =
        Function.update s.layout.endpoint e (some ep) e' := by
      simp only [openEndpoint, hw, note, Table.get?_push, Function.update_apply]
      rfl
    simp only [Network.layout, workers, endpoints]
    simp only [openEndpoint, hw, note]
    rfl
  have unknown : ∀ x st, s.layout.stub x = some st → st.endpoint ≠ e := by
    intro x st hx same
    rcases Option.map_eq_some_iff.1 hx with ⟨st', hx', rfl⟩
    have below := hs.keyed.stubs x st' hx'
    exact absurd same (Nat.ne_of_lt below)
  have unborn : s.layout.endpoint e = none := Table.get?_next _
  have enrolled : Charted plan (s.layout.enroll w wk.seat e ep) (some e) ∧
      (s.layout.enroll w wk.seat e ep).Unused e := hk.enroll seat unborn unknown rfl planned rfl peer
  rcases enrolled with ⟨charted, unused⟩
  refine ⟨⟨?_, ?_, ?_⟩, by simp [openEndpoint, hw], ?_⟩
  · have entered : Mild s { s with
        endpoints := s.endpoints.push ep
        workers := s.workers.modify w fun wk => { wk with directory := wk.directory ++ [(dest, e)] } } :=
      have workers : Mild s _ := .modifyWorker s w
        (f := fun wk => { wk with directory := wk.directory ++ [(dest, e)] }) fun _ => rfl
      workers.trans (.of_tidy rfl rfl fun hs => { hs with })
    have noted := entered.trans (.note (x := .opened e w) trivial)
    unfold openEndpoint
    simp only [hw, others]
    rw [Table.modify_eq_set hw] at noted
    exact noted
  · rw [opened]
    exact Layout.enroll_lasts seat unborn
  · rw [opened]
    exact charted
  · refine ⟨{ wk.seat with directory := wk.directory ++ [(dest, e)] }, ep, ?_, rfl, planned⟩
    rw [opened]
    refine ⟨charted, unused, ?_, List.mem_append_right _ List.mem_cons_self, ?_, ?_, ?_⟩
    · exact Function.update_self _ _ _
    · exact Function.update_self _ _ _
    · exact fun lane hl hnot => absurd hl hnot
    · intro lane _
      exact PerCategory.get_const _ _

end Network

end Wiring
