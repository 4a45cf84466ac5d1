import Mathlib
import Wiring.Proofs.Move
import Wiring.Proofs.Stub

/-!
# Sound networks

What is held lives. A link at its turn is held until the turn is over, so that what is taken from
its queue can be put back. What the application lends to an attempt has a place to come back to.
No worker has two endpoints to one peer, and only endpoints that were opened have sent.
-/
namespace Wiring

/-- The stub holds on to the link. -/
def Stub.owns (t : Stub) (l : LinkId) : Prop :=
  t.next = some l ∨ t.auxiliary = some l ∨ t.promoted = some l

/-- A slot of the endpoint holds the carrier. -/
def Endpoint.owns (e : Endpoint) (c : Carrier) : Prop := some c ∈ e.slots.toList

theorem Endpoint.owns_iff {e : Endpoint} {c : Carrier} :
    e.owns c ↔ ∃ category, e.slots.get category = some c := by
  simp only [owns, PerCategory.toList_eq_map, List.mem_map]
  constructor
  · rintro ⟨category, -, h⟩
    exact ⟨category, h⟩
  · rintro ⟨category, h⟩
    exact ⟨category, Category.mem_all category, h⟩

namespace Network

variable {s t : Network} {ref : Ref} {wild : Prop}

/-! ## What is held -/

theorem isHeld_iff : s.isHeld ref = true ↔
    ref ∈ s.holds ∨ .release ref ∈ s.agenda ∨ s.isOwned ref = true := by
  have h : (∃ j ∈ s.agenda, j.hold? = some ref) ↔ .release ref ∈ s.agenda := by
    constructor
    · rintro ⟨j, hj, h⟩
      cases j <;> simp only [Job.hold?, Option.some.injEq, reduceCtorEq] at h
      subst h
      exact hj
    · exact fun h => ⟨_, h, rfl⟩
  simp [isHeld, h, or_assoc]

theorem isHeld_of_holds (h : ref ∈ s.holds) : s.isHeld ref = true := isHeld_iff.2 (.inl h)

theorem isHeld_of_release (h : .release ref ∈ s.agenda) : s.isHeld ref = true :=
  isHeld_iff.2 (.inr (.inl h))

theorem isHeld_of_owned (h : s.isOwned ref = true) : s.isHeld ref = true :=
  isHeld_iff.2 (.inr (.inr h))

theorem isOwned_iff : s.isOwned ref = true ↔
    (∃ w wk, s.workers.get? w = some wk ∧
      ((∃ r ∈ wk.resources, ref = .interface r.interface)
        ∨ ∃ entry ∈ wk.directory, ref = .endpoint entry.2))
    ∨ (∃ e ep c, s.endpoints.get? e = some ep ∧ ep.owns c ∧ ref = c.ref)
    ∨ ∃ x st l, s.stubs.get? x = some st ∧ st.owns l ∧ ref = .link l := by
  have hc (c : Carrier) (l : LinkId) : Ref.link l = c.ref ↔ c = .link l := by
    cases c <;> simp [Carrier.ref, eq_comm]
  have hs (c : Carrier) (x : StubId) : Ref.stub x = c.ref ↔ c = .stub x := by
    cases c <;> simp [Carrier.ref, eq_comm]
  have hn (c : Carrier) (r : Ref) (h : ∀ l, r ≠ .link l) (h' : ∀ x, r ≠ .stub x) : r ≠ c.ref := by
    cases c with
    | link l => exact h l
    | stub x => exact h' x
  cases ref with
  | interface i =>
    simp only [isOwned, Table.any_iff, List.any_eq_true, beq_iff_eq, Ref.interface.injEq,
      reduceCtorEq, and_false, exists_false, or_false, eq_comm (a := i)]
    simp [hn]
  | link l =>
    simp only [isOwned, Bool.or_eq_true, Table.any_iff, List.contains_iff_mem, beq_iff_eq,
      reduceCtorEq, and_false, exists_false, or_false, false_or, hc, Ref.link.injEq, Endpoint.owns,
      Stub.owns, or_assoc]
    simp [eq_comm]
  | stub x =>
    simp only [isOwned, Table.any_iff, List.contains_iff_mem, reduceCtorEq, and_false,
      exists_false, or_false, false_or, hs, Endpoint.owns]
    simp
  | endpoint e =>
    simp only [isOwned, Table.any_iff, List.any_eq_true, beq_iff_eq, Ref.endpoint.injEq,
      reduceCtorEq, and_false, exists_false, or_false, false_or, eq_comm (a := e)]
    simp [hn]
  | worker w => simp [isOwned, hn]
  | callback c => simp [isOwned, hn]

/-- Nothing in `t` owns what nothing owned in `s`. -/
theorem isOwned_mono
    (workers : ∀ w wk, t.workers.get? w = some wk → ∃ wk', s.workers.get? w = some wk' ∧
      wk.resources ⊆ wk'.resources ∧ wk.directory ⊆ wk'.directory)
    (endpoints : ∀ e ep, t.endpoints.get? e = some ep → ∃ ep', s.endpoints.get? e = some ep' ∧
      ∀ c, ep.owns c → ep'.owns c)
    (stubs : ∀ x st, t.stubs.get? x = some st → ∃ st', s.stubs.get? x = some st' ∧
      ∀ l, st.owns l → st'.owns l)
    (h : t.isOwned ref = true) : s.isOwned ref = true := by
  rw [isOwned_iff] at h ⊢
  obtain ⟨w, wk, hw, h⟩ | ⟨e, ep, c, he, hc, rfl⟩ | ⟨x, st, l, hx, hl, rfl⟩ := h
  · obtain ⟨wk', hw', hr, hd⟩ := workers w wk hw
    refine .inl ⟨w, wk', hw', ?_⟩
    obtain ⟨r, hr', h⟩ | ⟨entry, he, h⟩ := h
    · exact .inl ⟨r, hr hr', h⟩
    · exact .inr ⟨entry, hd he, h⟩
  · obtain ⟨ep', he', h⟩ := endpoints e ep he
    exact .inr (.inl ⟨e, ep', c, he', h c hc, rfl⟩)
  · obtain ⟨st', hx', h⟩ := stubs x st hx
    exact .inr (.inr ⟨x, st', l, hx', h l hl, rfl⟩)

theorem Aside.worker (h : Aside s t) {w : WorkerId} {wk : Worker}
    (hw : t.workers.get? w = some wk) :
    ∃ wk', s.workers.get? w = some wk' ∧ wk'.books = wk.books := by
  have := h.books w
  rw [hw] at this
  exact Option.map_eq_some_iff.1 this.symm

theorem Aside.isOwned (h : Aside s t) (ho : t.isOwned ref = true) : s.isOwned ref = true := by
  refine isOwned_mono ?_ ?_ ?_ ho
  · intro w wk hw
    obtain ⟨wk', hw', hb⟩ := h.worker hw
    have hr : wk.books.resources ⊆ wk'.books.resources := by simp [hb]
    have hd : wk.books.directory ⊆ wk'.books.directory := by simp [hb]
    exact ⟨wk', hw', hr, hd⟩
  · intro e ep he
    exact ⟨ep, h.endpoints ▸ he, fun _ h => h⟩
  · intro x st hx
    exact ⟨st, h.stubs ▸ hx, fun _ h => h⟩

theorem Aside.isHeld (h : Aside s t) (hh : t.isHeld ref = true) : s.isHeld ref = true := by
  rw [isHeld_iff, h.holds, h.agenda] at hh
  exact isHeld_iff.2 (hh.imp_right (Or.imp_right h.isOwned))

theorem Aside.isLive (h : Aside s t) (hl : s.isLive ref = true) : t.isLive ref = true := by
  cases ref with
  | interface i => exact h.interfaces i hl
  | link l =>
    have := congrArg Option.isSome (h.queues l)
    simp only [Option.isSome_map] at this
    exact this.trans hl
  | stub x => simpa only [Network.isLive, h.stubs] using hl
  | endpoint e => simpa only [Network.isLive, h.endpoints] using hl
  | worker w =>
    have := congrArg Option.isSome (h.books w)
    simp only [Option.isSome_map] at this
    exact this.trans hl
  | callback c => exact h.callbacks c hl

/-! ## What is held lives -/

def Live (s : Network) : Prop := ∀ ref, s.isHeld ref = true → s.isLive ref = true

theorem Live.of_held (hs : Live s) (live : ∀ ref, s.isLive ref = true → t.isLive ref = true)
    (held : ∀ ref, t.isHeld ref = true → s.isHeld ref = true ∨ t.isLive ref = true) :
    Live t := by
  intro ref h
  obtain h | h := held ref h
  · exact live ref (hs ref h)
  · exact h

/-- Only what nothing holds is closed. -/
theorem Live.of_closed (hs : Live s) (closed : Ref) (free : s.isHeld closed = false)
    (live : ∀ ref, ref ≠ closed → s.isLive ref = true → t.isLive ref = true)
    (held : ∀ ref, t.isHeld ref = true → s.isHeld ref = true) : Live t := by
  intro ref h
  have h := held ref h
  refine live ref ?_ (hs ref h)
  rintro rfl
  rw [h] at free
  cases free

theorem Live.pop (hs : Live s) {j : Job} {rest : List Job} (top : s.agenda = j :: rest) :
    Live { s with agenda := rest } := by
  refine hs.of_held (fun ref hl => by cases ref <;> exact hl) fun ref hh => .inl ?_
  rw [isHeld_iff] at hh ⊢
  refine hh.imp_right (Or.imp (fun hh => ?_) fun hh => by cases ref <;> exact hh)
  exact top ▸ List.mem_cons_of_mem _ hh

theorem Live.aside (hs : Live s) (h : Aside s t) : Live t :=
  hs.of_held (fun _ => h.isLive) fun _ hh => .inl (h.isHeld hh)

theorem Live.hold (hs : Live s) (h : Hold s t) : Live t := by
  refine hs.of_held (fun ref hl => ?_) fun ref hh => ?_
  · cases h <;> exact hl
  · rw [isHeld_iff] at hh
    rw [isHeld_iff]
    cases h with
    | keep r live =>
      obtain hh | hh | hh := hh
      · obtain rfl | hh := List.mem_cons.1 hh
        · exact .inr live
        · exact .inl (.inl hh)
      · exact .inl (.inr (.inl hh))
      · exact .inl (.inr (.inr hh))
    | letGo r held =>
      obtain hh | hh | hh := hh
      · exact .inl (.inl (List.mem_of_mem_erase hh))
      · obtain h | hh := List.mem_cons.1 hh
        · cases h
          exact .inl (.inl held)
        · exact .inl (.inr (.inl hh))
      · exact .inl (.inr (.inr hh))
    | hold r live =>
      obtain hh | hh | hh := hh
      · exact .inl (.inl hh)
      · obtain h | hh := List.mem_cons.1 hh
        · cases h
          exact .inr live
        · exact .inl (.inr (.inl hh))
      · exact .inl (.inr (.inr hh))
    | loose r rest top =>
      refine .inl (hh.imp_right (Or.imp_left fun hh => ?_))
      exact top ▸ List.mem_cons_of_mem _ hh
    | plan j idle =>
      refine .inl (hh.imp_right (Or.imp_left fun hh => ?_))
      obtain h | hh := List.mem_cons.1 hh
      · subst h
        cases idle
      · exact hh
    | done j rest top =>
      refine .inl (hh.imp_right (Or.imp_left fun hh => ?_))
      exact top ▸ List.mem_cons_of_mem _ hh

theorem mem_releaseLink? {l : Option LinkId} {j : Job} :
    j ∈ releaseLink? l ↔ ∃ id, l = some id ∧ j = .release (.link id) := by
  cases l <;> simp [releaseLink?]

theorem mem_releaseSlots {slots : PerCategory Slot} {j : Job} :
    j ∈ releaseSlots slots ↔ ∃ c, some c ∈ slots.toList ∧ j = .release c.ref := by
  simp [releaseSlots, eq_comm]

theorem Live.wire (hs : Live s) (h : Wire s t) : Live t := by
  cases h with
  | closeInterface i free =>
    refine hs.of_closed _ free (fun ref hne hl => ?_) fun ref hh => hh
    cases ref with
    | interface k =>
      have : i ≠ k := fun h => hne (h ▸ rfl)
      simpa [isLive, Table.contains_erase, this] using hl
    | _ => exact hl
  | closeCallback c free =>
    refine hs.of_closed _ free (fun ref hne hl => ?_) fun ref hh => hh
    cases ref with
    | callback k =>
      have : c ≠ k := fun h => hne (h ▸ rfl)
      simpa [isLive, Table.contains_erase, this] using hl
    | _ => exact hl
  | closeLink l lk here empty free =>
    refine hs.of_closed _ free (fun ref hne hl => ?_) fun ref hh => hh
    cases ref with
    | link k =>
      have : l ≠ k := fun h => hne (h ▸ rfl)
      simpa [isLive, Table.contains_erase, this] using hl
    | _ => exact hl
  | closeStub id st here empty free =>
    have owned (l : LinkId) (h : st.owns l) : s.isOwned (.link l) = true :=
      isOwned_iff.2 (.inr (.inr ⟨id, st, l, here, h, rfl⟩))
    refine hs.of_closed _ free (fun ref hne hl => ?_) fun ref hh => ?_
    · cases ref with
      | stub k =>
        have : id ≠ k := fun h => hne (h ▸ rfl)
        simpa [isLive, Table.contains_erase, this] using hl
      | _ => exact hl
    · rw [isHeld_iff] at hh ⊢
      obtain hh | hh | hh := hh
      · exact .inl hh
      · simp only [List.append_assoc, List.mem_append, mem_releaseLink?] at hh
        obtain ⟨l, hl, h⟩ | ⟨l, hl, h⟩ | ⟨l, hl, h⟩ | hh := hh
        · cases h
          exact .inr (.inr (owned l (.inl hl)))
        · cases h
          exact .inr (.inr (owned l (.inr (.inl hl))))
        · cases h
          exact .inr (.inr (owned l (.inr (.inr hl))))
        · exact .inr (.inl hh)
      · refine .inr (.inr (isOwned_mono (fun w wk hw => ?_) (fun e ep he => ?_)
          (fun x st hx => ?_) hh))
        · exact ⟨wk, hw, List.Subset.refl _, List.Subset.refl _⟩
        · exact ⟨ep, he, fun _ h => h⟩
        · exact ⟨st, Table.get?_of_erase hx, fun _ h => h⟩
  | closeEndpoint id e rest top here free =>
    have owned (c : Carrier) (h : e.owns c) : s.isOwned c.ref = true :=
      isOwned_iff.2 (.inr (.inl ⟨id, e, c, here, h, rfl⟩))
    refine (hs.pop top).of_closed _ free (fun ref hne hl => ?_) fun ref hh => ?_
    · cases ref with
      | endpoint k =>
        have : id ≠ k := fun h => hne (h ▸ rfl)
        simpa [isLive, Table.contains_erase, this] using hl
      | _ => exact hl
    · rw [isHeld_iff] at hh ⊢
      obtain hh | hh | hh := hh
      · exact .inl hh
      · obtain hh | hh := List.mem_append.1 hh
        · obtain ⟨c, hc, h⟩ := mem_releaseSlots.1 hh
          cases h
          exact .inr (.inr (owned c hc))
        · exact .inr (.inl hh)
      · refine .inr (.inr (isOwned_mono (fun w wk hw => ?_) (fun e ep he => ?_)
          (fun x st hx => ?_) hh))
        · exact ⟨wk, hw, List.Subset.refl _, List.Subset.refl _⟩
        · exact ⟨ep, Table.get?_of_erase he, fun _ h => h⟩
        · exact ⟨st, hx, fun _ h => h⟩
  | closeWorker id w rest top here free =>
    refine (hs.pop top).of_closed _ free (fun ref hne hl => ?_) fun ref hh => ?_
    · cases ref with
      | worker k =>
        have : id ≠ k := fun h => hne (h ▸ rfl)
        simpa [isLive, Table.contains_erase, this] using hl
      | _ => exact hl
    · rw [isHeld_iff] at hh ⊢
      obtain hh | hh | hh := hh
      · exact .inl hh
      · simp only [List.append_assoc, List.mem_append, List.mem_map, Job.release.injEq] at hh
        obtain ⟨r, hr, h⟩ | ⟨entry, he, h⟩ | hh := hh
        · exact .inr (.inr (isOwned_iff.2 (.inl ⟨id, w, here, .inl ⟨r, hr, h.symm⟩⟩)))
        · exact .inr (.inr (isOwned_iff.2 (.inl ⟨id, w, here, .inr ⟨entry, he, h.symm⟩⟩)))
        · exact .inr (.inl hh)
      · refine .inr (.inr (isOwned_mono (fun w wk hw => ?_) (fun e ep he => ?_)
          (fun x st hx => ?_) hh))
        · exact ⟨wk, Table.get?_of_erase hw, List.Subset.refl _, List.Subset.refl _⟩
        · exact ⟨ep, he, fun _ h => h⟩
        · exact ⟨st, hx, fun _ h => h⟩
  | openLink l empty =>
    refine hs.of_held (fun ref hl => ?_) fun ref hh => .inl hh
    cases ref with
    | link k =>
      have hl : s.links.contains k = true := hl
      simp [isLive, Table.contains_push, hl]
    | _ => exact hl
  | openStub st gate unparked unmarked unswitched next auxiliary endpoint =>
    refine hs.of_held (fun ref hl => ?_) fun ref hh => ?_
    · cases ref with
      | stub k =>
        have hl : s.stubs.contains k = true := hl
        simp [isLive, Table.contains_push, hl]
      | _ => exact hl
    · rw [isHeld_iff] at hh
      obtain hh | hh | hh := hh
      · exact .inl (isHeld_of_holds hh)
      · exact .inl (isHeld_of_release hh)
      · obtain h | h | ⟨x, st', l, hx, hl, rfl⟩ := isOwned_iff.1 hh
        · exact .inl (isHeld_of_owned (isOwned_iff.2 (.inl h)))
        · exact .inl (isHeld_of_owned (isOwned_iff.2 (.inr (.inl h))))
        · obtain ⟨rfl, rfl⟩ | hx := Table.get?_of_push hx
          · obtain h | h | h := hl
            · obtain ⟨l', hl', live⟩ := next
              cases hl'.symm.trans h
              exact .inr live
            · exact .inr (auxiliary l h)
            · rw [unswitched] at h
              cases h
          · refine .inl (isHeld_of_owned (isOwned_iff.2 (.inr (.inr ?_))))
            exact ⟨x, st', l, hx, hl, rfl⟩
  | openEndpoint id w e here fresh worker empty =>
    refine hs.of_held (fun ref hl => ?_) fun ref hh => ?_
    · cases ref with
      | endpoint k =>
        have hl : s.endpoints.contains k = true := hl
        simp [isLive, Table.contains_push, hl]
      | worker k => exact (Table.contains_set here _ k).trans hl
      | _ => exact hl
    · rw [isHeld_iff] at hh
      obtain hh | hh | hh := hh
      · exact .inl (isHeld_of_holds hh)
      · exact .inl (isHeld_of_release hh)
      · obtain ⟨k, wk, hw, h⟩ | ⟨k, ep, c, he, hc, rfl⟩ | h := isOwned_iff.1 hh
        · rw [Table.get?_set_of here] at hw
          split at hw
          · subst k
            cases hw
            obtain h | ⟨entry, hm, rfl⟩ := h
            · exact .inl (isHeld_of_owned (isOwned_iff.2 (.inl ⟨id, w, here, .inl h⟩)))
            · obtain hm | hm := List.mem_append.1 hm
              · refine .inl (isHeld_of_owned (isOwned_iff.2 (.inl ?_)))
                exact ⟨id, w, here, .inr ⟨entry, hm, rfl⟩⟩
              · cases List.mem_singleton.1 hm
                exact .inr (by simp [isLive, Table.contains_push])
          · exact .inl (isHeld_of_owned (isOwned_iff.2 (.inl ⟨k, wk, hw, h⟩)))
        · obtain ⟨-, rfl⟩ | he := Table.get?_of_push he
          · rw [Endpoint.owns, empty] at hc
            simp [PerCategory.const, PerCategory.toList] at hc
          · refine .inl (isHeld_of_owned (isOwned_iff.2 (.inr (.inl ?_))))
            exact ⟨k, ep, c, he, hc, rfl⟩
        · exact .inl (isHeld_of_owned (isOwned_iff.2 (.inr (.inr h))))
  | openWorker w registry fresh resources =>
    refine hs.of_held (fun ref hl => ?_) fun ref hh => ?_
    · cases ref with
      | worker k =>
        have hl : s.workers.contains k = true := hl
        simp [isLive, Table.contains_push, hl]
      | _ => exact hl
    · rw [isHeld_iff] at hh
      obtain hh | hh | hh := hh
      · obtain rfl | hh := List.mem_cons.1 hh
        · exact .inr (by simp [isLive, Table.contains_push])
        · exact .inl (isHeld_of_holds hh)
      · exact .inl (isHeld_of_release hh)
      · obtain ⟨k, wk, hw, h⟩ | h := isOwned_iff.1 hh
        · obtain ⟨-, rfl⟩ | hw := Table.get?_of_push hw
          · obtain ⟨r, hr, rfl⟩ | ⟨entry, he, -⟩ := h
            · exact .inr (resources r hr)
            · rw [fresh.2] at he
              cases he
          · exact .inl (isHeld_of_owned (isOwned_iff.2 (.inl ⟨k, wk, hw, h⟩)))
        · exact .inl (isHeld_of_owned (isOwned_iff.2 (.inr h)))
  | install id e lane c here live own unsent =>
    refine hs.of_held (fun ref hl => ?_) fun ref hh => ?_
    · cases ref with
      | endpoint k => simpa [isLive, setSlots] using hl
      | _ => exact hl
    · rw [isHeld_iff] at hh
      obtain hh | hh | hh := hh
      · exact .inl (isHeld_of_holds hh)
      · exact .inl (isHeld_of_release hh)
      · obtain h | ⟨k, ep, c', he, hc, rfl⟩ | h := isOwned_iff.1 hh
        · exact .inl (isHeld_of_owned (isOwned_iff.2 (.inl h)))
        · rw [setSlots, Table.modify_eq_set here, Table.get?_set_of here] at he
          split at he
          · subst k
            cases he
            obtain ⟨category, h⟩ := Endpoint.owns_iff.1 hc
            simp only [installLane, PerCategory.get_mapWith] at h
            split at h
            · cases h
              refine .inr ?_
              cases c <;> exact live
            · refine .inl (isHeld_of_owned (isOwned_iff.2 (.inr (.inl ?_))))
              exact ⟨id, e, c', here, Endpoint.owns_iff.2 ⟨category, h⟩, rfl⟩
          · refine .inl (isHeld_of_owned (isOwned_iff.2 (.inr (.inl ?_))))
            exact ⟨k, ep, c', he, hc, rfl⟩
        · exact .inl (isHeld_of_owned (isOwned_iff.2 (.inr (.inr h))))
  | clear id =>
    refine hs.of_held (fun ref hl => ?_) fun ref hh => .inl ?_
    · cases ref with
      | endpoint k => simpa [isLive, setSlots] using hl
      | _ => exact hl
    · refine isHeld_iff.2 ((isHeld_iff.1 hh).imp_right (Or.imp_right fun hh => ?_))
      refine isOwned_mono (fun w wk hw => ?_) (fun k ep he => ?_) (fun x st hx => ?_) hh
      · exact ⟨wk, hw, List.Subset.refl _, List.Subset.refl _⟩
      · obtain ⟨ep', he', rfl | rfl⟩ := Table.get?_of_modify he
        · exact ⟨ep, he', fun _ h => h⟩
        · refine ⟨ep', he', fun c hc => ?_⟩
          simp [Endpoint.owns, PerCategory.const, PerCategory.toList] at hc
      · exact ⟨st, hx, fun _ h => h⟩
  | strike id dest pledged =>
    refine hs.of_held (fun ref hl => ?_) fun ref hh => .inl ?_
    · cases ref with
      | worker k => simpa [isLive] using hl
      | _ => exact hl
    · refine isHeld_iff.2 ((isHeld_iff.1 hh).imp_right (Or.imp_right fun hh => ?_))
      refine isOwned_mono (fun w wk hw => ?_) (fun k ep he => ?_) (fun x st hx => ?_) hh
      · obtain ⟨wk', hw', rfl | rfl⟩ := Table.get?_of_modify hw
        · exact ⟨wk, hw', List.Subset.refl _, List.Subset.refl _⟩
        · exact ⟨wk', hw', List.Subset.refl _, List.filter_subset_self _⟩
      · exact ⟨ep, he, fun _ h => h⟩
      · exact ⟨st, hx, fun _ h => h⟩
  | markLocal id here =>
    refine hs.of_held (fun ref hl => ?_) fun ref hh => .inl ?_
    · cases ref with
      | stub k => simpa [isLive, note] using hl
      | _ => exact hl
    · refine isHeld_iff.2 ((isHeld_iff.1 hh).imp_right (Or.imp_right fun hh => ?_))
      refine isOwned_mono (fun w wk hw => ?_) (fun k ep he => ?_) (fun x st hx => ?_) hh
      · exact ⟨wk, hw, List.Subset.refl _, List.Subset.refl _⟩
      · exact ⟨ep, he, fun _ h => h⟩
      · obtain ⟨st', hx', rfl | rfl⟩ := Table.get?_of_modify hx
        · exact ⟨st, hx', fun _ h => h⟩
        · exact ⟨st', hx', fun _ h => h⟩
  | markRemote id here =>
    refine hs.of_held (fun ref hl => ?_) fun ref hh => .inl ?_
    · cases ref with
      | stub k => simpa [isLive, markRemoteConnected, note] using hl
      | _ => exact hl
    · refine isHeld_iff.2 ((isHeld_iff.1 hh).imp_right (Or.imp_right fun hh => ?_))
      refine isOwned_mono (fun w wk hw => ?_) (fun k ep he => ?_) (fun x st hx => ?_) hh
      · exact ⟨wk, hw, List.Subset.refl _, List.Subset.refl _⟩
      · exact ⟨ep, he, fun _ h => h⟩
      · obtain ⟨st', hx', rfl | rfl⟩ := Table.get?_of_modify hx
        · exact ⟨st, hx', fun _ h => h⟩
        · exact ⟨st', hx', fun _ h => h⟩

/-- Passing a request on opens and closes nothing. -/
theorem Pass.isLive (h : Pass wild s t) (ref : Ref) : t.isLive ref = s.isLive ref := by
  cases h with
  | take l lk r queue here front | dequeue l lk r queue here front
  | requeue l lk r o rest top here | queue c l lk r rest top here =>
    cases ref with
    | link k => exact Table.contains_set here _ k
    | _ => rfl
  | park id st w wk r rest top here data worker books unswitched =>
    cases ref with
    | stub k => exact Table.contains_set here _ k
    | worker k => exact Table.contains_set books _ k
    | _ => rfl
  | switch id st w wk next here worker books unswitched ready =>
    cases ref with
    | stub k => exact Table.contains_set here _ k
    | endpoint k => exact Table.contains_modify _ _ _ k
    | _ => rfl
  | replayed w rest top =>
    cases ref with
    | worker k => exact Table.contains_modify _ _ _ k
    | _ => rfl
  | _ => cases ref <;> rfl

theorem promoteSlots_owns {e : Endpoint} {stub : StubId} {category : Category} {l : LinkId}
    {c : Carrier} (h : (promoteSlots e stub category l).owns c) : c = .link l ∨ e.owns c := by
  obtain ⟨category', h⟩ := Endpoint.owns_iff.1 h
  simp only [promoteSlots, PerCategory.get_mapWith] at h
  split at h
  · cases h
    exact .inl rfl
  · exact .inr (Endpoint.owns_iff.2 ⟨category', h⟩)

/-- What owns something after a request was passed on owned it before. -/
theorem Pass.isOwned (h : Pass wild s t) (ho : t.isOwned ref = true) : s.isOwned ref = true := by
  cases h with
  | park id st w wk r rest top here data worker books unswitched =>
    refine isOwned_mono (fun k wk' hk => ?_) (fun k ep he => ?_) (fun x st' hx => ?_) ho
    · rw [Table.get?_set_of books] at hk
      split at hk
      · subst k
        cases hk
        exact ⟨wk, books, List.Subset.refl _, List.Subset.refl _⟩
      · exact ⟨wk', hk, List.Subset.refl _, List.Subset.refl _⟩
    · exact ⟨ep, he, fun _ h => h⟩
    · rw [Table.get?_set_of here] at hx
      split at hx
      · subst x
        cases hx
        exact ⟨st, here, fun _ h => h⟩
      · exact ⟨st', hx, fun _ h => h⟩
  | switch id st w wk next here worker books unswitched ready =>
    obtain h | ⟨k, ep, c, he, hc, rfl⟩ | ⟨x, st', l, hx, hl, rfl⟩ := isOwned_iff.1 ho
    · exact isOwned_iff.2 (.inl h)
    · obtain ⟨ep', he', rfl | rfl⟩ := Table.get?_of_modify he
      · exact isOwned_iff.2 (.inr (.inl ⟨k, ep, c, he', hc, rfl⟩))
      · obtain rfl | hc := promoteSlots_owns hc
        · exact isOwned_iff.2 (.inr (.inr ⟨id, st, next, here, .inl unswitched, rfl⟩))
        · exact isOwned_iff.2 (.inr (.inl ⟨k, ep', c, he', hc, rfl⟩))
    · rw [Table.get?_set_of here] at hx
      split at hx
      · subst x
        cases hx
        obtain h | h | h := hl
        · cases h
        · cases h
        · cases h
          exact isOwned_iff.2 (.inr (.inr ⟨id, st, next, here, .inl unswitched, rfl⟩))
      · exact isOwned_iff.2 (.inr (.inr ⟨x, st', l, hx, hl, rfl⟩))
  | replayed w rest top =>
    refine isOwned_mono (fun k wk' hk => ?_) (fun k ep he => ?_) (fun x st' hx => ?_) ho
    · obtain ⟨wk, hk', rfl | rfl⟩ := Table.get?_of_modify hk
      · exact ⟨wk', hk', List.Subset.refl _, List.Subset.refl _⟩
      · exact ⟨wk, hk', List.Subset.refl _, List.Subset.refl _⟩
    · exact ⟨ep, he, fun _ h => h⟩
    · exact ⟨st', hx, fun _ h => h⟩
  | _ => cases ref <;> exact ho

theorem isLive_of_slot {e : EndpointId} {category : Category} {c : Carrier} (hs : Live s)
    (h : s.slot e category = some c) : s.isLive c.ref = true := by
  unfold slot at h
  obtain ⟨ep, he, hc⟩ := Option.bind_eq_some_iff.1 h
  refine hs _ (isHeld_of_owned (isOwned_iff.2 (.inr (.inl ⟨e, ep, c, he, ?_, rfl⟩))))
  exact Endpoint.owns_iff.2 ⟨category, hc⟩

/-- Whoever passes a request on holds nothing that was dead. -/
theorem Pass.release (hs : Live s) (h : Pass wild s t) (hr : .release ref ∈ t.agenda) :
    .release ref ∈ s.agenda ∨ s.isLive ref = true := by
  cases h with
  | bring | send | takeHeld | take | dequeue =>
    obtain h | hr := List.mem_cons.1 hr
    · cases h
    · exact .inl hr
  | putHeld r rest top | backHeld r o h rest top | endHeld r o h rest top
  | requeue l lk r o rest top | queue c l lk r rest top | close j r o rest top
  | letGo r rest top | replayed w rest top =>
    exact .inl (top ▸ List.mem_cons_of_mem _ hr)
  | offer c r rest top | refuse c r rest top | lend r h rest top | cover id st r rest top
  | handBack c r rest top | answer r r' o w rest top | accept r m w l dest rest top | again r o c rest top =>
    obtain h | hr := List.mem_cons.1 hr
    · cases h
    · exact .inl (top ▸ List.mem_cons_of_mem _ hr)
  | first r o e c rest top unsent slot =>
    obtain h | hr := List.mem_cons.1 hr
    · cases h
    · obtain h | hr := List.mem_cons.1 hr
      · cases h
        exact .inr (isLive_of_slot hs slot)
      · exact .inl (top ▸ List.mem_cons_of_mem _ hr)
  | park id st w wk r rest top here data worker books unswitched =>
    exact .inl (top ▸ List.mem_cons_of_mem _ hr)
  | switch id st w wk next here worker books unswitched ready =>
    obtain ⟨ep, he, -, hw⟩ := workerOf?_eq_some.1 worker
    have owned (l : LinkId) (h : st.owns l) : s.isLive (.link l) = true :=
      hs _ (isHeld_of_owned (isOwned_iff.2 (.inr (.inr ⟨id, st, l, here, h, rfl⟩))))
    simp only [replay, List.mem_append, mem_releaseLink?, List.mem_flatMap, List.mem_cons,
      List.not_mem_nil, reduceCtorEq, Job.release.injEq, or_false, and_false, exists_false] at hr
    obtain ((⟨l, hl, rfl⟩ | rfl | rfl | rfl) | hr) := hr
    · exact .inr (owned l (.inr (.inl hl)))
    · exact .inr (owned next (.inl unswitched))
    · exact .inr hw
    · exact .inr (Table.contains_of_get? he)
    · exact .inl hr

theorem Live.pass (hs : Live s) (h : Pass wild s t) : Live t := by
  refine hs.of_held (fun ref hl => (h.isLive ref).trans hl) fun ref hh => ?_
  rw [h.isLive ref]
  obtain hh | hh | hh := isHeld_iff.1 hh
  · have : t.holds = s.holds := by cases h <;> rfl
    exact .inl (isHeld_of_holds (this ▸ hh))
  · exact (h.release hs hh).imp_left isHeld_of_release
  · exact .inl (isHeld_of_owned (h.isOwned hh))

theorem Live.move (hs : Live s) (h : Move wild s t) : Live t := by
  cases h with
  | aside h => exact hs.aside h
  | hold h => exact hs.hold h
  | wire h => exact hs.wire h
  | pass h => exact hs.pass h

/-! ## Links at their turn -/

/-- Every link at its turn is released later. -/
def Escorted : List Job → Prop
  | [] => True
  | j :: rest => (∀ l, j.turn? = some l → .release (.link l) ∈ rest) ∧ Escorted rest

theorem Escorted.append {rest : List Job} (h : Escorted rest) :
    ∀ {jobs : List Job}, (∀ j ∈ jobs, j.turn? = none) → Escorted (jobs ++ rest)
  | [], _ => h
  | j :: jobs, hj => by
    refine ⟨fun l hl => ?_, h.append fun j hm => hj j (List.mem_cons_of_mem _ hm)⟩
    rw [hj j List.mem_cons_self] at hl
    cases hl

/-- The job on top gives way to another one with the same turn. -/
theorem Escorted.swap {j j' : Job} {rest : List Job} (h : Escorted (j :: rest))
    (turn : ∀ l, j'.turn? = some l → j.turn? = some l) : Escorted (j' :: rest) :=
  ⟨fun l hl => h.1 l (turn l hl), h.2⟩

theorem turn?_replay (t : Stub) (w : WorkerId) (next : LinkId) :
    ∀ j ∈ replay t w next, j.turn? = none := by
  intro j hj
  simp only [replay, List.mem_append, mem_releaseLink?, List.mem_flatMap, List.mem_cons,
    List.not_mem_nil, or_false] at hj
  obtain (⟨l, -, rfl⟩ | ⟨r, -, rfl | rfl⟩) | rfl | rfl | rfl := hj <;> rfl

theorem turn?_releaseLink? (l : Option LinkId) : ∀ j ∈ releaseLink? l, j.turn? = none := by
  intro j hj
  obtain ⟨l, -, rfl⟩ := mem_releaseLink?.1 hj
  rfl

theorem Escorted.hold (hs : Escorted s.agenda) (h : Hold s t) : Escorted t.agenda := by
  cases h with
  | keep => exact hs
  | letGo | hold => exact ⟨fun _ h => (by cases h), hs⟩
  | plan j idle escort => exact ⟨escort, hs⟩
  | loose ref rest top | done j rest top => exact (top ▸ hs).2

theorem Escorted.wire (hs : Escorted s.agenda) (h : Wire s t) : Escorted t.agenda := by
  cases h with
  | closeStub id st here empty free =>
    simp only [List.append_assoc]
    exact ((hs.append (turn?_releaseLink? _)).append (turn?_releaseLink? _)).append
      (turn?_releaseLink? _)
  | closeEndpoint id e rest top =>
    refine (top ▸ hs : Escorted (_ :: rest)).2.append fun j hj => ?_
    obtain ⟨c, -, rfl⟩ := mem_releaseSlots.1 hj
    rfl
  | closeWorker id w rest top =>
    refine (top ▸ hs : Escorted (_ :: rest)).2.append fun j hj => ?_
    simp only [List.mem_append, List.mem_map] at hj
    obtain ⟨r, -, rfl⟩ | ⟨entry, -, rfl⟩ := hj <;> rfl
  | _ => exact hs

theorem Escorted.pass (hs : Escorted s.agenda) (h : Pass wild s t) : Escorted t.agenda := by
  cases h with
  | bring | send | takeHeld | take => exact ⟨fun _ h => (by cases h), hs⟩
  | dequeue l lk r queue here front escort => exact ⟨fun _ h => (by cases h; exact escort), hs⟩
  | putHeld r rest top | backHeld r o h rest top | endHeld r o h rest top
  | requeue l lk r o rest top | queue c l lk r rest top | close j r o rest top
  | letGo r rest top | replayed w rest top | park id st w wk r rest top => exact (top ▸ hs).2
  | offer c r rest top | refuse c r rest top | lend r h rest top | cover id st r rest top
  | handBack c r rest top | again r o c rest top =>
    exact (top ▸ hs : Escorted (_ :: rest)).swap fun _ h => (by cases h)
  | answer r r' o w rest top | accept r m w l dest rest top =>
    exact (top ▸ hs : Escorted (_ :: rest)).swap fun _ h => (by cases w <;> exact h)
  | first r o e c rest top =>
    have := (top ▸ hs : Escorted (_ :: rest)).2
    exact ⟨fun _ h => (by cases h), fun _ h => (by cases h), this⟩
  | switch id st w wk next => exact hs.append (turn?_replay _ _ _)

theorem Escorted.move (hs : Escorted s.agenda) (h : Move wild s t) : Escorted t.agenda := by
  cases h with
  | aside h => exact h.agenda ▸ hs
  | hold h => exact hs.hold h
  | wire h => exact hs.wire h
  | pass h => exact hs.pass h

/-! ## What the application keeps -/

/-- What the application has lent, by the place it comes back to. -/
def lending (agenda : List Job) : List (HeldId × Request) := agenda.filterMap Job.lending?

@[simp] theorem lending_cons (j : Job) (rest : List Job) :
    lending (j :: rest) = j.lending?.toList ++ lending rest := by
  unfold lending
  rw [List.filterMap_cons]
  cases j.lending? <;> rfl

theorem lending_append {jobs rest : List Job} (h : ∀ j ∈ jobs, j.lending? = none) :
    lending (jobs ++ rest) = lending rest := by
  unfold lending
  rw [List.filterMap_append, List.filterMap_eq_nil_iff.2 h, List.nil_append]

/-- A request lent to an attempt has a place of its own to come back to. Sends are not the
application's, unless it is wild. -/
structure Lent (wild : Prop) (s : Network) : Prop where
  place : ∀ p ∈ lending s.agenda, p.1 < s.held.next ∧ s.held.get? p.1 = none
  alone : ((lending s.agenda).map Prod.fst).Nodup
  sober : wild ∨ (∀ h r, s.held.get? h = some r → r.send? = none) ∧
    ∀ p ∈ lending s.agenda, p.2.send? = none

theorem Lent.of_eq (hs : Lent wild s) (held : t.held = s.held)
    (agenda : lending t.agenda = lending s.agenda) : Lent wild t := by
  obtain ⟨place, alone, sober⟩ := hs
  rw [← held, ← agenda] at place sober
  rw [← agenda] at alone
  exact ⟨place, alone, sober⟩

theorem Hold.lending (h : Hold s t) : Network.lending t.agenda = Network.lending s.agenda := by
  cases h with
  | keep => rfl
  | letGo | hold => simp [Job.lending?]
  | plan j idle => cases j <;> simp_all [Job.lending?, Job.isIdle]
  | loose ref rest top => simp [top, Job.lending?]
  | done j rest top idle => cases j <;> simp_all [Job.lending?, Job.isIdle]

theorem Hold.held (h : Hold s t) : t.held = s.held := by cases h <;> rfl

theorem lending?_releaseLink? (l : Option LinkId) : ∀ j ∈ releaseLink? l, j.lending? = none := by
  intro j hj
  obtain ⟨l, -, rfl⟩ := mem_releaseLink?.1 hj
  rfl

theorem Wire.lending (h : Wire s t) : Network.lending t.agenda = Network.lending s.agenda := by
  cases h with
  | closeStub id st here empty free =>
    simp only [List.append_assoc]
    rw [lending_append (lending?_releaseLink? _), lending_append (lending?_releaseLink? _),
      lending_append (lending?_releaseLink? _)]
  | closeEndpoint id e rest top =>
    rw [top, lending_cons, lending_append]
    · rfl
    · intro j hj
      obtain ⟨c, -, rfl⟩ := mem_releaseSlots.1 hj
      rfl
  | closeWorker id w rest top =>
    rw [top, lending_cons, lending_append]
    · rfl
    · intro j hj
      simp only [List.mem_append, List.mem_map] at hj
      obtain ⟨r, -, rfl⟩ | ⟨entry, -, rfl⟩ := hj <;> rfl
  | _ => rfl

theorem Wire.held (h : Wire s t) : t.held = s.held := by cases h <;> rfl

theorem lending?_replay (t : Stub) (w : WorkerId) (next : LinkId) :
    ∀ j ∈ replay t w next, j.lending? = none := by
  intro j hj
  simp only [replay, List.mem_append, mem_releaseLink?, List.mem_flatMap, List.mem_cons,
    List.not_mem_nil, or_false] at hj
  obtain (⟨l, -, rfl⟩ | ⟨r, -, rfl | rfl⟩) | rfl | rfl | rfl := hj <;> rfl

/-- The request lent comes back to its place. -/
theorem Lent.back (hs : Lent wild s) {r r' : Request} {o : Outcome} {h : HeldId} {rest : List Job}
    (top : s.agenda = .conclude r o (.application h) :: rest)
    (send : ∀ m, r'.send? = some m → r.send? = some m)
    (held : t.held = s.held.set h r') (agenda : t.agenda = rest) : Lent wild t := by
  obtain ⟨place, alone, sober⟩ := hs
  rw [top] at place alone sober
  simp only [lending_cons, Job.lending?, Option.toList_some, List.singleton_append, List.map_cons,
    List.nodup_cons, List.mem_cons, forall_eq_or_imp] at place alone sober
  rw [← agenda] at place alone sober
  refine ⟨fun p hp => ?_, alone.2, sober.imp_right fun ⟨kept, sent, sober⟩ => ⟨?_, sober⟩⟩
  · have hne : h ≠ p.1 := by
      rintro rfl
      exact alone.1 (List.mem_map_of_mem hp)
    rw [held, Table.next_set, Table.get?_set, if_neg (fun hc => hne hc.1)]
    exact place.2 p hp
  · intro k q hk
    rw [held, Table.get?_set] at hk
    split at hk
    · cases hk
      cases hm : r'.send? with
      | none => rfl
      | some m => exact absurd ((send m hm).symm.trans sent) (by simp)
    · exact kept k q hk

theorem Lent.pass (hs : Lent wild s) (h : Pass wild s t) : Lent wild t := by
  cases h with
  | bring | send | take | dequeue => exact hs.of_eq rfl (by simp [Job.lending?])
  | takeHeld h r here =>
    refine ⟨fun p hp => ?_, hs.alone, hs.sober.imp_right fun sober => ⟨fun k q hk => ?_, sober.2⟩⟩
    · obtain ⟨room, empty⟩ := hs.place p hp
      refine ⟨by simpa using room, ?_⟩
      rw [Table.get?_erase]
      split
      · rfl
      · exact empty
    · exact sober.1 k q (Table.get?_of_erase hk)
  | putHeld r rest top sober =>
    have hl : lending rest = lending s.agenda := by simp [top, Job.lending?]
    refine ⟨fun p hp => ?_, hl ▸ hs.alone, ?_⟩
    · obtain ⟨room, empty⟩ := hs.place p (hl ▸ hp)
      rw [Table.next_push, Table.get?_push, if_neg room.ne]
      exact ⟨Nat.lt_succ_of_lt room, empty⟩
    · obtain hw | hr := sober
      · exact .inl hw
      · refine hs.sober.imp_right fun sober => ⟨fun k q hk => ?_, hl ▸ sober.2⟩
        obtain ⟨-, rfl⟩ | hk := Table.get?_of_push hk
        · exact hr
        · exact sober.1 k q hk
  | lend r h rest top room empty alone sober =>
    have hl : lending rest = lending s.agenda := by simp [top, Job.lending?]
    obtain ⟨place, single, sobers⟩ := hs
    rw [← hl] at place single sobers
    refine ⟨?_, ?_, ?_⟩
    · simp only [lending_cons, Job.lending?, Option.toList_some, List.singleton_append,
        List.mem_cons, forall_eq_or_imp]
      exact ⟨⟨room, empty⟩, place⟩
    · simp only [lending_cons, Job.lending?, Option.toList_some, List.singleton_append,
        List.map_cons, List.nodup_cons]
      refine ⟨fun hm => ?_, single⟩
      obtain ⟨⟨k, r'⟩, hp, rfl⟩ := List.mem_map.1 hm
      obtain ⟨j, hj, h⟩ := List.mem_filterMap.1 hp
      exact alone j hj r' h
    · obtain hw | hr := sober
      · exact .inl hw
      · refine sobers.imp_right fun sobers => ⟨sobers.1, ?_⟩
        simp only [lending_cons, Job.lending?, Option.toList_some, List.singleton_append,
          List.mem_cons, forall_eq_or_imp]
        exact ⟨hr, sobers.2⟩
  | backHeld r o h rest top => exact hs.back top (fun m hm => by simpa using hm) rfl rfl
  | endHeld r o h rest top =>
    exact hs.back top (fun m hm => Request.send?_finished hm) rfl rfl
  | offer c r rest top | refuse c r rest top | requeue l lk r o rest top
  | queue c l lk r rest top | letGo r rest top | replayed w rest top
  | park id st w wk r rest top =>
    exact hs.of_eq rfl (by simp [top, Job.lending?])
  | close j r o rest top hand lent => exact hs.of_eq rfl (by simp [top, lent])
  | cover id st r rest top | handBack c r rest top | again r o c rest top
  | first r o e c rest top => exact hs.of_eq rfl (by simp [top, Job.lending?])
  | answer r r' o w rest top answered =>
    cases w with
    | application h =>
      obtain ⟨place, alone, sober⟩ := hs
      rw [top] at place alone sober
      simp only [lending_cons, Job.lending?, Option.toList_some, List.singleton_append,
        List.map_cons, List.mem_cons, forall_eq_or_imp] at place alone sober
      refine ⟨?_, ?_, ?_⟩ <;> simp only [lending_cons, Job.lending?, Option.toList_some,
        List.singleton_append, List.map_cons, List.mem_cons, forall_eq_or_imp, answered.send]
      · exact place
      · exact alone
      · exact sober
    | _ => exact hs.of_eq rfl (by simp [top, Job.lending?])
  | accept r m w l dest rest top =>
    cases w with
    | _ => exact hs.of_eq rfl (by simp [top, Job.lending?])
  | switch id st w wk next => exact hs.of_eq rfl (lending_append (lending?_replay _ _ _))

theorem Lent.move (hs : Lent wild s) (h : Move wild s t) : Lent wild t := by
  cases h with
  | aside h => exact hs.of_eq h.held (by rw [h.agenda])
  | hold h => exact hs.of_eq h.held h.lending
  | wire h => exact hs.of_eq h.held h.lending
  | pass h => exact hs.pass h

/-! ## Directories and senders -/

/-- No worker has two endpoints to one peer, and what things and sends refer to was given a number
before. -/
structure Keyed (s : Network) : Prop where
  keys : ∀ w wk, s.workers.get? w = some wk → (wk.directory.map Prod.fst).Nodup
  stubs : ∀ x t, s.stubs.get? x = some t → t.endpoint < s.endpoints.next
  endpoints : ∀ e ep, s.endpoints.get? e = some ep → ep.worker < s.workers.next
  sent : ∀ h e messageId payload, .sent h e messageId payload ∈ s.trace →
    e < s.endpoints.next ∧ h < s.handles.next

theorem Aside.mem_trace (h : Aside s t) {x : Happening} (hx : x.isPlain = false) :
    x ∈ t.trace ↔ x ∈ s.trace := by
  obtain ⟨marks, ht, plain⟩ := h.trace
  rw [ht, Array.mem_append]
  constructor
  · rintro (hm | hm)
    · exact hm
    · rw [plain x (by simpa using hm)] at hx
      cases hx
  · exact .inl

theorem Hold.frame (h : Hold s t) : t = { s with holds := t.holds, agenda := t.agenda } := by
  cases h <;> rfl

theorem Keyed.aside (hs : Keyed s) (h : Aside s t) : Keyed t := by
  refine ⟨fun w wk hw => ?_, fun x st hx => ?_, fun e ep he => ?_,
    fun h' e messageId payload hm => ?_⟩
  · obtain ⟨wk', hw', hb⟩ := h.worker hw
    have : wk'.books.directory = wk.books.directory := by rw [hb]
    have : wk'.directory = wk.directory := this
    exact this ▸ hs.keys w wk' hw'
  · rw [h.endpoints]
    exact hs.stubs x st (h.stubs ▸ hx)
  · rw [h.workersNext]
    exact hs.endpoints e ep (h.endpoints ▸ he)
  · rw [h.endpoints, h.handles]
    exact hs.sent h' e messageId payload ((h.mem_trace rfl).1 hm)

/-- What was sent before is found before what has happened since. -/
theorem mem_push_ne {trace : Array Happening} {x y : Happening} (h : y ∈ trace.push x)
    (hne : y ≠ x) : y ∈ trace := by
  obtain h | h := Array.mem_push.1 h
  · exact h
  · exact absurd h hne

theorem Keyed.wire (hs : Keyed s) (h : Wire s t) : Keyed t := by
  obtain ⟨keys, stubs, endpoints, sent⟩ := hs
  cases h with
  | closeStub id st here empty free =>
    exact ⟨keys, fun x st' hx => stubs x st' (Table.get?_of_erase hx), endpoints, sent⟩
  | closeEndpoint id e rest top here free =>
    refine ⟨keys, by simpa using stubs, fun k ep he => ?_, by simpa using sent⟩
    exact endpoints k ep (Table.get?_of_erase he)
  | closeWorker id w rest top here free =>
    exact ⟨fun k wk hk => keys k wk (Table.get?_of_erase hk), stubs, by simpa using endpoints, sent⟩
  | openStub st gate unparked unmarked unswitched next auxiliary endpoint =>
    refine ⟨keys, fun x st' hx => ?_, endpoints, sent⟩
    obtain ⟨-, rfl⟩ | hx := Table.get?_of_push hx
    · obtain ⟨ep, he⟩ := Table.contains_iff.1 endpoint
      exact Table.lt_next_of_get? he
    · exact stubs x st' hx
  | openEndpoint id w e here fresh worker empty =>
    refine ⟨fun k wk hk => ?_, fun x st hx => ?_, fun k ep he => ?_,
      fun h e' messageId payload hm => ?_⟩
    · rw [Table.get?_set_of here] at hk
      split at hk
      · cases hk
        rw [List.map_append, List.nodup_append]
        refine ⟨keys id w here, by simp, ?_⟩
        intro a ha b hb hab
        obtain ⟨entry, he, rfl⟩ := List.mem_map.1 ha
        exact fresh entry he (hab.trans (by simpa using hb))
      · exact keys k wk hk
    · rw [Table.next_push]
      exact Nat.lt_succ_of_lt (stubs x st hx)
    · rw [Table.next_set]
      obtain ⟨-, rfl⟩ | he := Table.get?_of_push he
      · rw [worker]
        exact Table.lt_next_of_get? here
      · exact endpoints k ep he
    · obtain ⟨he, hh⟩ := sent h e' messageId payload (mem_push_ne hm (by simp))
      rw [Table.next_push]
      exact ⟨Nat.lt_succ_of_lt he, hh⟩
  | openWorker w registry fresh resources =>
    refine ⟨fun k wk hk => ?_, stubs, fun k ep he => ?_, sent⟩
    · obtain ⟨-, rfl⟩ | hk := Table.get?_of_push hk
      · simp [fresh.2]
      · exact keys k wk hk
    · rw [Table.next_push]
      exact Nat.lt_succ_of_lt (endpoints k ep he)
  | install id e lane c here live own unsent | clear id =>
    refine ⟨keys, by simpa [setSlots] using stubs, fun k ep he => ?_, by simpa [setSlots] using sent⟩
    obtain ⟨ep', he', rfl | rfl⟩ := Table.get?_of_modify he
    · exact endpoints k ep he'
    · exact endpoints k ep' he'
  | strike id dest pledged =>
    refine ⟨fun k wk hk => ?_, stubs, by simpa using endpoints, sent⟩
    obtain ⟨wk', hk', rfl | rfl⟩ := Table.get?_of_modify hk
    · exact keys k wk hk'
    · exact (keys k wk' hk').sublist (List.filter_sublist.map _)
  | markLocal id here | markRemote id here =>
    refine ⟨keys, fun x st hx => ?_, endpoints, fun h e messageId payload hm => ?_⟩
    · obtain ⟨st', hx', rfl | rfl⟩ := Table.get?_of_modify hx
      · exact stubs x st hx'
      · exact stubs x st' hx'
    · exact sent h e messageId payload (mem_push_ne hm (by simp))
  | _ => exact ⟨keys, stubs, endpoints, sent⟩

theorem Keyed.pass (hs : Keyed s) (h : Pass wild s t) : Keyed t := by
  obtain ⟨keys, stubs, endpoints, sent⟩ := hs
  cases h with
  | send m handle live alone =>
    refine ⟨keys, stubs, endpoints, fun h e messageId payload hm => ?_⟩
    rw [Table.next_push]
    obtain hm | hm := Array.mem_push.1 hm
    · obtain ⟨he, hh⟩ := sent h e messageId payload hm
      exact ⟨he, Nat.lt_succ_of_lt hh⟩
    · cases hm
      obtain ⟨ep, he⟩ := Table.contains_iff.1 live
      exact ⟨Table.lt_next_of_get? he, handle ▸ Nat.lt_succ_self _⟩
  | endHeld r o h rest top | close j r o rest top =>
    refine ⟨keys, stubs, endpoints, fun h e messageId payload hm => ?_⟩
    rw [endHandle_next]
    exact sent h e messageId payload hm
  | accept r m w l dest rest top =>
    refine ⟨keys, stubs, endpoints, fun h e messageId payload hm => ?_⟩
    exact sent h e messageId payload (mem_push_ne hm (by simp))
  | park id st w wk r rest top here data worker books unswitched =>
    refine ⟨fun k wk' hk => ?_, fun x st' hx => ?_, by simpa using endpoints,
      fun h e messageId payload hm => ?_⟩
    · rw [Table.get?_set_of books] at hk
      split at hk
      · cases hk
        exact keys w wk books
      · exact keys k wk' hk
    · rw [Table.get?_set_of here] at hx
      split at hx
      · cases hx
        exact stubs id st here
      · exact stubs x st' hx
    · exact sent h e messageId payload (mem_push_ne hm (by simp))
  | switch id st w wk next here worker books unswitched ready =>
    refine ⟨keys, fun x st' hx => ?_, fun k ep he => ?_, fun h e messageId payload hm => ?_⟩
    · rw [Table.next_modify]
      rw [Table.get?_set_of here] at hx
      split at hx
      · cases hx
        exact stubs id st here
      · exact stubs x st' hx
    · obtain ⟨ep', he', rfl | rfl⟩ := Table.get?_of_modify he
      · exact endpoints k ep he'
      · exact endpoints k ep' he'
    · rw [Table.next_modify]
      exact sent h e messageId payload (mem_push_ne hm (by simp))
  | replayed w rest top =>
    refine ⟨fun k wk' hk => ?_, stubs, by simpa using endpoints, sent⟩
    obtain ⟨wk, hk', rfl | rfl⟩ := Table.get?_of_modify hk
    · exact keys k wk' hk'
    · exact keys k wk hk'
  | _ => exact ⟨keys, stubs, endpoints, sent⟩

theorem Keyed.move (hs : Keyed s) (h : Move wild s t) : Keyed t := by
  cases h with
  | aside h => exact hs.aside h
  | hold h =>
    rw [h.frame]
    exact ⟨hs.keys, hs.stubs, hs.endpoints, hs.sent⟩
  | wire h => exact hs.wire h
  | pass h => exact hs.pass h

/-! ## Soundness -/

/-- What every step of work relies on. -/
structure Sound (wild : Prop) (s : Network) : Prop where
  live : Live s
  escorted : Escorted s.agenda
  lent : Lent wild s
  keyed : Keyed s

theorem Sound.move (hs : Sound wild s) (h : Move wild s t) : Sound wild t :=
  ⟨hs.live.move h, hs.escorted.move h, hs.lent.move h, hs.keyed.move h⟩

theorem Sound.aside (hs : Sound wild s) (h : Aside s t) : Sound wild t :=
  hs.move (.aside h : Move wild s t)

theorem Sound.moves (hs : Sound wild s) (h : Moves wild s t) : Sound wild t := by
  induction h with
  | refl => exact hs
  | tail _ h ih => exact ih.move h

theorem Sound.initial (process : UInt32) : Sound wild { process } where
  live ref h := by
    rw [isHeld_iff, isOwned_iff] at h
    simp at h
  escorted := trivial
  lent := ⟨by simp [lending], by simp [lending], .inr ⟨by simp, by simp [lending]⟩⟩
  keyed := ⟨by simp, by simp, by simp, by simp⟩

end Network

end Wiring
