import Mathlib
import Wiring.Proofs.Opening
import Wiring.Proofs.Switchover

/-!
# What becomes of a slot

A slot of an endpoint that has made a send is filled no more. What it holds stays there until the
slot is emptied, or until it is a stub that switches over: then its link takes its place. A stub in
a slot belongs to the endpoint, and has not switched over.
-/
namespace Wiring.Network

variable {s t u : Network} {e : EndpointId} {wild : Prop}

/-! ## Stubs in slots -/

/-- A stub in a slot belongs to the endpoint, serves the category and has not switched over. -/
def Fitted (s : Network) : Prop := ∀ e ep category x, s.endpoints.get? e = some ep →
  ep.slots.get category = some (.stub x) → ∃ st, s.stubs.get? x = some st ∧ st.endpoint = e ∧
    ep.plan.shares st.category category = true ∧ st.next ≠ none

theorem Fitted.initial (process : UInt32) : Fitted { process } :=
  fun e ep category x here => by cases here

/-- Slots are emptied, and stubs are connected, marked or parked on. -/
theorem Fitted.of_same (hs : Fitted s)
    (endpoints : ∀ e ep category x, t.endpoints.get? e = some ep →
      ep.slots.get category = some (.stub x) → ∃ ep', s.endpoints.get? e = some ep' ∧
        ep'.slots.get category = some (.stub x) ∧ ep'.plan = ep.plan)
    (stubs : ∀ x st, s.stubs.get? x = some st → s.isHeld (.stub x) = true →
      ∃ st', t.stubs.get? x = some st' ∧
        (st'.endpoint, st'.category, st'.next) = (st.endpoint, st.category, st.next)) :
    Fitted t := by
  intro e ep category x here slot
  rcases endpoints e ep category x here slot with ⟨ep', here', slot', plan⟩
  rcases hs e ep' category x here' slot' with ⟨st, stub, own, shares, unswitched⟩
  rcases stubs x st stub (isHeld_of_slot here' slot') with ⟨st', stub', same⟩
  injection same with endpoint rest
  injection rest with category next
  exact ⟨st', stub', endpoint.trans own, by rw [category, ← plan, shares], by rwa [next]⟩

theorem Fitted.of_eq (hs : Fitted s) (endpoints : t.endpoints = s.endpoints)
    (stubs : t.stubs = s.stubs) : Fitted t := by
  unfold Fitted
  rw [endpoints, stubs]
  exact hs

/-- A stub is connected, marked or parked on. -/
theorem Fitted.modifyStub (hs : Fitted s) (x : StubId) (f : Stub → Stub)
    (same : ∀ st, (f st).endpoint = st.endpoint ∧ (f st).category = st.category ∧
      (f st).next = st.next)
    (endpoints : t.endpoints = s.endpoints) (stubs : t.stubs = s.stubs.modify x f) : Fitted t := by
  refine hs.of_same (fun e ep category y here slot => ⟨ep, endpoints ▸ here, slot, rfl⟩)
    fun y st here _ => ?_
  rcases same st with ⟨endpoint, category, next⟩
  rw [stubs, Table.get?_modify, here]
  split
  · exact ⟨_, rfl, by rw [endpoint, category, next]⟩
  · exact ⟨st, rfl, rfl⟩

theorem Fitted.wire (hs : Fitted s) (h : Wire s t) : Fitted t := by
  cases h with
  | closeStub id st here empty free =>
    refine hs.of_same (fun e ep category x here slot => ⟨ep, here, slot, rfl⟩) fun x st here held => ?_
    have apart : id ≠ x := fun same => by
      rw [same, held] at free
      cases free
    exact ⟨st, (Table.get?_erase _ _ _).trans ((if_neg apart).trans here), rfl⟩
  | closeEndpoint id ep rest top here free =>
    refine hs.of_same (fun e ep category x here slot => ?_) fun x st here _ => ⟨st, here, rfl⟩
    exact ⟨ep, Table.get?_of_erase here, slot, rfl⟩
  | openStub st gate unparked unmarked unswitched next auxiliary endpoint =>
    refine hs.of_same (fun e ep category x here slot => ⟨ep, here, slot, rfl⟩) fun x st here _ => ?_
    refine ⟨st, ?_, rfl⟩
    exact (Table.get?_push _ _ _).trans ((if_neg (Table.lt_next_of_get? here).ne).trans here)
  | openEndpoint id w new here fresh worker empty =>
    refine hs.of_same (fun e ep category x here slot => ?_) fun x st here _ => ⟨st, here, rfl⟩
    rcases Table.get?_of_push here with ⟨-, rfl⟩ | here
    · rw [empty, PerCategory.get_const] at slot
      cases slot
    · exact ⟨ep, here, slot, rfl⟩
  | install id old lane c here live own unsent =>
    intro e ep category x there slot
    simp only [setSlots, Table.get?_modify] at there
    split at there
    · subst id
      rw [here] at there
      cases there
      simp only [installLane, PerCategory.get_mapWith] at slot
      split at slot
      · rename_i shares
        cases slot
        rcases own x rfl with ⟨st, stub, endpoint, rfl, unswitched, -⟩
        exact ⟨st, stub, endpoint, shares, unswitched⟩
      · exact hs e old category x here slot
    · exact hs e ep category x there slot
  | clear id =>
    refine hs.of_same (fun e ep category x here slot => ?_) fun x st here _ => ⟨st, here, rfl⟩
    rcases Table.get?_of_modify here with ⟨ep', here, rfl | rfl⟩
    · exact ⟨ep, here, slot, rfl⟩
    · rw [PerCategory.get_const] at slot
      cases slot
  | markLocal id here =>
    exact hs.modifyStub id (fun st => { st with localConnected := true })
      (fun st => ⟨rfl, rfl, rfl⟩) rfl rfl
  | markRemote id here =>
    exact hs.modifyStub id (fun st => { st with remoteConnected := true })
      (fun st => ⟨rfl, rfl, rfl⟩) rfl rfl
  | _ => exact hs.of_eq rfl rfl

/-- A stub that switches over is in no slot any more. -/
theorem Fitted.switch (hs : Fitted s) {x : StubId} {st st' : Stub} {next : LinkId}
    (here : s.stubs.get? x = some st)
    (endpoints : t.endpoints = s.endpoints.modify st.endpoint fun e =>
      promoteSlots e x st.category next)
    (stubs : t.stubs = s.stubs.set x st') : Fitted t := by
  intro e ep category y there slot
  rw [endpoints] at there
  have other (apart : x ≠ y) : t.stubs.get? y = s.stubs.get? y := by
    rw [stubs, Table.get?_set_of here, if_neg apart]
  rw [Table.get?_modify] at there
  split at there
  · -- an endpoint that the stub belongs to: its slots of the category hold the link now
    rename_i own
    rcases Option.map_eq_some_iff.1 there with ⟨old, before, rfl⟩
    simp only [promoteSlots, PerCategory.get_mapWith] at slot
    split at slot
    · cases slot
    · rename_i kept
      rcases hs e old category y before slot with ⟨sy, stub, endpoint, shares, unswitched⟩
      have apart : x ≠ y := by
        rintro rfl
        cases here.symm.trans stub
        exact kept ⟨shares, slot⟩
      exact ⟨sy, (other apart).trans stub, endpoint, shares, unswitched⟩
  · rename_i foreign
    rcases hs e ep category y there slot with ⟨sy, stub, endpoint, shares, unswitched⟩
    have apart : x ≠ y := by
      rintro rfl
      cases here.symm.trans stub
      exact foreign endpoint
    exact ⟨sy, (other apart).trans stub, endpoint, shares, unswitched⟩

theorem Fitted.pass (hs : Fitted s) (h : Pass wild s t) : Fitted t := by
  cases h with
  | park id st w wk r rest top here =>
    refine hs.of_same (fun e ep category x here slot => ⟨ep, here, slot, rfl⟩) fun x sx hx _ => ?_
    show ∃ st', (s.stubs.set id _).get? x = some st' ∧ _
    rw [Table.get?_set_of here]
    split
    · rename_i same
      rw [same, hx] at here
      cases here
      exact ⟨_, rfl, rfl⟩
    · exact ⟨sx, hx, rfl⟩
  | switch id st w wk next here => exact hs.switch here rfl rfl
  | _ => exact hs.of_eq rfl rfl

theorem Fitted.moves (hs : Fitted s) (h : Moves wild s t) : Fitted t := by
  induction h with
  | refl => exact hs
  | tail _ h ih =>
    cases h with
    | aside h => exact ih.of_eq h.endpoints h.stubs
    | hold h => exact ih.of_eq (by rw [h.frame]) (by rw [h.frame])
    | wire h => exact ih.wire h
    | pass h => exact ih.pass h

/-! ## Slots of endpoints that have sent -/

/-- A slot keeps what it holds, or is emptied, or a link takes the place of the stub that switched
over to it. -/
inductive Succeeds (trace : Array Happening) (old : Slot) : Slot → Prop
  | same : Succeeds trace old old
  | emptied : Succeeds trace old none
  | switched (x : StubId) (l : LinkId) (stub : old = some (.stub x))
      (happened : .switched x l ∈ trace) : Succeeds trace old (some (.link l))

/-- The endpoint has made a send. -/
def HasSent (s : Network) (e : EndpointId) : Prop :=
  ∃ h messageId payload, .sent h e messageId payload ∈ s.trace

theorem HasSent.moves (h : HasSent s e) (g : Moves wild s t) : HasSent t e := by
  rcases h with ⟨h, messageId, payload, sent⟩
  exact ⟨h, messageId, payload, g.remembers sent⟩

theorem Succeeds.trans {before after : Array Happening} {a b c : Slot}
    (grows : ∀ x ∈ before, x ∈ after) (h : Succeeds before a b) (g : Succeeds after b c) :
    Succeeds after a c := by
  cases h with
  | same => exact g
  | emptied =>
    cases g with
    | same | emptied => exact .emptied
    | switched x l stub => cases stub
  | switched x l stub happened =>
    cases g with
    | same => exact .switched x l stub (grows _ happened)
    | emptied => exact .emptied
    | switched y k other => cases other

/-- The endpoint keeps its slots, or lives no more. -/
theorem succeeds_of_get? {category : Category} {trace : Array Happening}
    (h : ∀ ep, t.endpoints.get? e = some ep → s.endpoints.get? e = some ep) :
    Succeeds trace (s.slot e category) (t.slot e category) := by
  unfold slot
  cases there : t.endpoints.get? e with
  | none => exact .emptied
  | some ep =>
    rw [h ep there]
    exact .same

theorem Wire.succeeds (h : Wire s t) (keyed : Keyed s) (told : HasSent s e) (category : Category) :
    Succeeds t.trace (s.slot e category) (t.slot e category) := by
  cases h with
  | closeEndpoint id ep rest top here free =>
    exact succeeds_of_get? fun ep there => Table.get?_of_erase there
  | openEndpoint id w new here fresh worker empty =>
    refine succeeds_of_get? fun ep there => ?_
    rcases Table.get?_of_push there with ⟨same, -⟩ | there
    · rcases told with ⟨h, messageId, payload, sent⟩
      exact absurd (keyed.sent h e messageId payload sent).1 (by simp [same])
    · exact there
  | install id old lane c here live own unsent =>
    have other : id ≠ e := by
      rintro rfl
      rcases told with ⟨h, messageId, payload, sent⟩
      exact unsent h messageId payload sent
    refine succeeds_of_get? fun ep there => ?_
    exact ((Table.get?_modify _ _ _ _).trans (if_neg other)).symm.trans there
  | clear id =>
    by_cases same : id = e
    · subst same
      have gone : (s.setSlots id (.const none)).slot id category = none := by
        simp only [slot, setSlots, Table.get?_modify, if_true]
        cases s.endpoints.get? id <;> simp
      rw [gone]
      exact .emptied
    · refine succeeds_of_get? fun ep there => ?_
      exact ((Table.get?_modify _ _ _ _).trans (if_neg same)).symm.trans there
  | _ => exact .same

theorem Pass.succeeds (h : Pass wild s t) (category : Category) :
    Succeeds t.trace (s.slot e category) (t.slot e category) := by
  cases h with
  | switch x st w wk next here =>
    simp only [slot, Table.get?_modify]
    split
    · cases s.endpoints.get? e with
      | none => exact .same
      | some ep =>
        simp only [Option.map_some, Option.bind_some, promoteSlots, PerCategory.get_mapWith]
        split
        · rename_i taken
          rw [taken.2]
          exact .switched x next rfl Array.mem_push_self
        · exact .same
    · exact .same
  | _ => exact .same

/-- Whatever work does, a slot of an endpoint that has made a send only ever loses what it holds, or
exchanges a stub for its link. -/
theorem Moves.succeeds (h : Moves wild s t) (sound : Sound wild s) (told : HasSent s e)
    (category : Category) : Succeeds t.trace (s.slot e category) (t.slot e category) := by
  induction h with
  | refl => exact .same
  | @tail t u before h ih =>
    refine ih.trans (fun x hx => h.remembers hx) ?_
    cases h with
    | aside h =>
      have same : u.slot e category = t.slot e category := by rw [slot, slot, h.endpoints]
      rw [same]
      exact .same
    | hold h =>
      have same : u.slot e category = t.slot e category := by rw [h.frame]; rfl
      rw [same]
      exact .same
    | wire h => exact h.succeeds (sound.moves before).keyed (told.moves before) category
    | pass h => exact h.succeeds category

end Wiring.Network
