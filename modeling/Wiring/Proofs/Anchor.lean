import Mathlib
import Wiring.Proofs.Sound

/-!
# Endpoints and workers live while they are held

Between operations whatever lives of them is held by the application or stands in the directory of
a worker, so that the holds of an activity can be let go of without an end to any of them.
-/
namespace Wiring.Network

variable {s t : Network} {ref : Ref} {wild : Prop}

/-- Whatever endpoint or worker lives is held. -/
def Anchored (s : Network) : Prop :=
  ∀ ref, ref.isAnchor = true → s.isLive ref = true → s.isHeld ref = true

theorem Anchored.initial (process : UInt32) : Anchored { process } := by
  intro ref anchor live
  cases ref <;> cases anchor <;> cases live

/-- What is held stays held. -/
theorem Anchored.of_held (hs : Anchored s)
    (live : ∀ ref, ref.isAnchor = true → t.isLive ref = true →
      s.isLive ref = true ∨ t.isHeld ref = true)
    (held : ∀ ref, ref.isAnchor = true → t.isLive ref = true → s.isHeld ref = true →
      t.isHeld ref = true) : Anchored t := by
  intro ref anchor h
  rcases live ref anchor h with before | now
  · exact held ref anchor h (hs ref anchor before)
  · exact now

/-- Anchors are owned by directories only. -/
theorem isOwned_anchor (anchor : ref.isAnchor = true) : s.isOwned ref = true ↔
    ∃ w wk, s.workers.get? w = some wk ∧ ∃ entry ∈ wk.directory, ref = .endpoint entry.2 := by
  rw [isOwned_iff]
  constructor
  · rintro (⟨w, wk, hw, ⟨r, -, rfl⟩ | h⟩ | ⟨e, ep, c, -, -, rfl⟩ | ⟨x, st, l, -, -, rfl⟩)
    · cases anchor
    · exact ⟨w, wk, hw, h⟩
    · cases c <;> cases anchor
    · cases anchor
  · rintro ⟨w, wk, hw, h⟩
    exact .inl ⟨w, wk, hw, .inr h⟩

/-- Holds, releases and directories are all that keeps anchors. -/
theorem isHeld_anchor (anchor : ref.isAnchor = true) (held : s.isHeld ref = true)
    (holds : ∀ ref, ref ∈ s.holds → ref ∈ t.holds ∨ .release ref ∈ t.agenda)
    (agenda : .release ref ∈ s.agenda → t.isHeld ref = true)
    (directory : ∀ w wk, s.workers.get? w = some wk → ∀ entry ∈ wk.directory,
      ref = .endpoint entry.2 → .release ref ∈ t.agenda ∨
        ∃ v, t.workers.get? w = some v ∧ entry ∈ v.directory) : t.isHeld ref = true := by
  rcases isHeld_iff.1 held with h | h | h
  · rcases holds ref h with h | h
    · exact isHeld_of_holds h
    · exact isHeld_of_release h
  · exact agenda h
  · rcases (isOwned_anchor anchor).1 h with ⟨w, wk, hw, entry, he, hr⟩
    rcases directory w wk hw entry he hr with h | ⟨v, hv, he'⟩
    · exact isHeld_of_release h
    · exact isHeld_of_owned ((isOwned_anchor anchor).2 ⟨w, v, hv, entry, he', hr⟩)

/-! ## Moves -/

theorem Anchored.aside (hs : Anchored s) (h : Aside s t) : Anchored t := by
  refine hs.of_held (fun ref anchor live => .inl ?_) fun ref anchor _ held => ?_
  · cases ref with
    | endpoint e => simpa only [isLive, h.endpoints] using live
    | worker w =>
      have same := congrArg Option.isSome (h.books w)
      simp only [Option.isSome_map] at same
      exact same.symm.trans live
    | _ => cases anchor
  · refine isHeld_anchor anchor held (fun ref hr => .inl (h.holds ▸ hr))
      (fun hr => isHeld_of_release (h.agenda ▸ hr)) fun w wk hw entry he _ => .inr ?_
    have books := h.books w
    rw [hw] at books
    rcases Option.map_eq_some_iff.1 books with ⟨wk', hw', hb⟩
    have directory : wk'.directory = wk.directory := by
      simp only [Worker.books, Worker.mk.injEq] at hb
      exact hb.2.2.2.2.2.2.2
    exact ⟨wk', hw', directory ▸ he⟩

theorem Anchored.hold (hs : Anchored s) (h : Hold s t) : Anchored t := by
  have workers : t.workers = s.workers := by rw [h.frame]
  have endpoints : t.endpoints = s.endpoints := by rw [h.frame]
  have live (ref : Ref) (anchor : ref.isAnchor = true) : t.isLive ref = s.isLive ref := by
    cases ref with
    | endpoint e => simp only [isLive, endpoints]
    | worker w => simp only [isLive, workers]
    | _ => cases anchor
  refine hs.of_held (fun ref anchor h => .inl (live ref anchor ▸ h)) fun ref anchor hl held => ?_
  refine isHeld_anchor anchor held (fun ref hr => ?_) (fun hr => ?_)
    fun w wk hw entry he _ => .inr ⟨wk, workers ▸ hw, he⟩
  · cases h with
    | keep r live => exact .inl (List.mem_cons_of_mem _ hr)
    | letGo r held =>
      by_cases hne : ref = r
      · subst hne
        exact .inr List.mem_cons_self
      · exact .inl ((List.mem_erase_of_ne hne).2 hr)
    | _ => exact .inl hr
  · cases h with
    | keep r live => exact isHeld_of_release hr
    | letGo r held => exact isHeld_of_release (List.mem_cons_of_mem _ hr)
    | hold r live => exact isHeld_of_release (List.mem_cons_of_mem _ hr)
    | plan j idle escort => exact isHeld_of_release (List.mem_cons_of_mem _ hr)
    | loose r rest top anchored =>
      rw [top] at hr
      rcases List.mem_cons.1 hr with hr | hr
      · cases hr
        exact anchored anchor ((live ref anchor).symm.trans hl)
      · exact isHeld_of_release hr
    | done j rest top idle =>
      rw [top] at hr
      rcases List.mem_cons.1 hr with hr | hr
      · subst hr
        cases idle
      · exact isHeld_of_release hr

theorem Anchored.wire (hs : Anchored s) (h : Wire s t) : Anchored t := by
  cases h with
  | closeStub id st here empty free =>
    refine hs.of_held (fun ref anchor live => .inl ?_) fun ref anchor _ held => ?_
    · cases ref <;> first | exact live | cases anchor
    · exact isHeld_anchor anchor held (fun ref hr => .inl hr)
        (fun hr => isHeld_of_release (List.mem_append_right _ hr))
        fun w wk hw entry he _ => .inr ⟨wk, hw, he⟩
  | closeEndpoint id e rest top here free =>
    refine hs.of_held (fun ref anchor live => .inl ?_) fun ref anchor live held => ?_
    · cases ref with
      | endpoint k =>
        rw [isLive, Table.contains_erase] at live
        exact ((Bool.and_eq_true _ _).mp live).2
      | worker k => exact live
      | _ => cases anchor
    · refine isHeld_anchor anchor held (fun ref hr => .inl hr) (fun hr => ?_)
        fun w wk hw entry he _ => .inr ⟨wk, hw, he⟩
      rw [top] at hr
      rcases List.mem_cons.1 hr with hr | hr
      · cases hr
        rw [isLive, Table.contains_erase] at live
        simp at live
      · exact isHeld_of_release (List.mem_append_right _ hr)
  | closeWorker id wk rest top here free =>
    refine hs.of_held (fun ref anchor live => .inl ?_) fun ref anchor live held => ?_
    · cases ref with
      | endpoint k => exact live
      | worker k =>
        rw [isLive, Table.contains_erase] at live
        exact ((Bool.and_eq_true _ _).mp live).2
      | _ => cases anchor
    · refine isHeld_anchor anchor held (fun ref hr => .inl hr) (fun hr => ?_)
        fun w wk' hw entry he hr => ?_
      · rw [top] at hr
        rcases List.mem_cons.1 hr with hr | hr
        · cases hr
          rw [isLive, Table.contains_erase] at live
          simp at live
        · exact isHeld_of_release (List.mem_append_right _ hr)
      · by_cases hid : id = w
        · subst hid
          cases here.symm.trans hw
          refine .inl (List.mem_append_left _ (List.mem_append_right _ ?_))
          exact List.mem_map.2 ⟨entry, he, by rw [hr]⟩
        · exact .inr ⟨wk', by rw [Table.get?_erase, if_neg hid, hw], he⟩
  | openEndpoint id wk e here fresh worker empty =>
    have directory : (s.workers.set id { wk with
        directory := wk.directory ++ [(e.dest, s.endpoints.next)] }).get? id =
          some { wk with directory := wk.directory ++ [(e.dest, s.endpoints.next)] } := by
      rw [Table.get?_set_of here, if_pos rfl]
    refine hs.of_held (fun ref anchor live => ?_) fun ref anchor _ held => ?_
    · cases ref with
      | endpoint k =>
        rw [isLive, Table.contains_push] at live
        rcases (Bool.or_eq_true _ _).mp live with hk | live
        · have hk : k = s.endpoints.next := of_decide_eq_true hk
          subst hk
          refine .inr (isHeld_of_owned ((isOwned_anchor rfl).2 ⟨id, _, directory, ?_⟩))
          exact ⟨(e.dest, s.endpoints.next), by simp, rfl⟩
        · exact .inl live
      | worker k => exact .inl ((Table.contains_set here _ k).symm.trans live)
      | _ => cases anchor
    · refine isHeld_anchor anchor held (fun ref hr => .inl hr) (fun hr => isHeld_of_release hr)
        fun w wk' hw entry he _ => .inr ?_
      by_cases hid : id = w
      · subst hid
        cases here.symm.trans hw
        exact ⟨_, directory, List.mem_append_left _ he⟩
      · exact ⟨wk', by rw [Table.get?_set_of here, if_neg hid, hw], he⟩
  | openWorker wk registry fresh resources =>
    refine hs.of_held (fun ref anchor live => ?_) fun ref anchor _ held => ?_
    · cases ref with
      | endpoint k => exact .inl live
      | worker k =>
        rw [isLive, Table.contains_push] at live
        rcases (Bool.or_eq_true _ _).mp live with hk | live
        · have hk : k = s.workers.next := of_decide_eq_true hk
          subst hk
          exact .inr (isHeld_of_holds List.mem_cons_self)
        · exact .inl live
      | _ => cases anchor
    · refine isHeld_anchor anchor held (fun ref hr => .inl (List.mem_cons_of_mem _ hr))
        (fun hr => isHeld_of_release hr) fun w wk' hw entry he _ => .inr ⟨wk', ?_, he⟩
      rw [Table.get?_push, if_neg (Table.lt_next_of_get? hw).ne, hw]
  | strike id dest pledged =>
    refine hs.of_held (fun ref anchor live => .inl ?_) fun ref anchor _ held => ?_
    · cases ref with
      | endpoint k => exact live
      | worker k => exact (Table.contains_modify _ _ _ _).symm.trans live
      | _ => cases anchor
    · refine isHeld_anchor anchor held (fun ref hr => .inl hr) (fun hr => isHeld_of_release hr)
        fun w wk hw entry he hr => ?_
      by_cases hid : id = w
      · subst hid
        by_cases hd : entry.1 = dest
        · exact .inl (hr ▸ pledged wk hw entry he hd)
        · refine .inr ⟨{ wk with directory := wk.directory.filter fun entry => entry.1 != dest },
            ?_, List.mem_filter.2 ⟨he, by simpa using hd⟩⟩
          rw [Table.get?_modify, if_pos rfl, hw]
          rfl
      · exact .inr ⟨wk, by rw [Table.get?_modify, if_neg hid, hw], he⟩
  | install id e lane c here live own unsent =>
    refine hs.of_held (fun ref anchor live => .inl ?_) fun ref anchor _ held => ?_
    · cases ref with
      | endpoint k => exact (Table.contains_modify _ _ _ _).symm.trans live
      | worker k => exact live
      | _ => cases anchor
    · exact isHeld_anchor anchor held (fun ref hr => .inl hr) (fun hr => isHeld_of_release hr)
        fun w wk hw entry he _ => .inr ⟨wk, hw, he⟩
  | clear id =>
    refine hs.of_held (fun ref anchor live => .inl ?_) fun ref anchor _ held => ?_
    · cases ref with
      | endpoint k => exact (Table.contains_modify _ _ _ _).symm.trans live
      | worker k => exact live
      | _ => cases anchor
    · exact isHeld_anchor anchor held (fun ref hr => .inl hr) (fun hr => isHeld_of_release hr)
        fun w wk hw entry he _ => .inr ⟨wk, hw, he⟩
  | _ =>
    refine hs.of_held (fun ref anchor live => .inl ?_) fun ref anchor _ held => ?_
    · cases ref <;> first | exact live | cases anchor
    · exact isHeld_anchor anchor held (fun ref hr => .inl hr) (fun hr => isHeld_of_release hr)
        fun w wk hw entry he _ => .inr ⟨wk, hw, he⟩

theorem mem_rest {j : Job} {rest : List Job} {ref : Ref} (top : s.agenda = j :: rest)
    (hj : j.hold? = none) (h : .release ref ∈ s.agenda) : .release ref ∈ rest := by
  rw [top] at h
  rcases List.mem_cons.1 h with h | h
  · subst h
    cases hj
  · exact h

/-- Whoever passes a request on lets go of nothing. -/
theorem Pass.keeps (h : Pass wild s t) (hr : .release ref ∈ s.agenda) :
    .release ref ∈ t.agenda := by
  cases h with
  | bring c => exact List.mem_cons_of_mem _ hr
  | send m handle live alone => exact List.mem_cons_of_mem _ hr
  | takeHeld h r here => exact List.mem_cons_of_mem _ hr
  | take l lk r queue here front => exact List.mem_cons_of_mem _ hr
  | dequeue l lk r queue here front escort => exact List.mem_cons_of_mem _ hr
  | switch id st w wk next here worker books unswitched ready => exact List.mem_append_right _ hr
  | offer c r rest top | refuse c r rest top | lend r h rest top | cover id st r rest top
  | handBack c r rest top | answer r r' o w rest top | accept r m w l dest rest top
  | again r o c rest top =>
    exact List.mem_cons_of_mem _ (mem_rest top rfl hr)
  | first r o e c rest top =>
    exact List.mem_cons_of_mem _ (List.mem_cons_of_mem _ (mem_rest top rfl hr))
  | close j r o rest top hand =>
    refine mem_rest top ?_ hr
    cases j <;> simp_all [Job.request?, Job.hold?]
  | putHeld r rest top | backHeld r o h rest top | endHeld r o h rest top
  | requeue l lk r o rest top | queue c l lk r rest top | letGo r rest top
  | park id st w wk r rest top | replayed w rest top => exact mem_rest top rfl hr

theorem Anchored.pass (hs : Anchored s) (h : Pass wild s t) : Anchored t := by
  have holds : t.holds = s.holds := by cases h <;> rfl
  have directory {w : WorkerId} {wk : Worker} (hw : s.workers.get? w = some wk) :
      ∃ wk', t.workers.get? w = some wk' ∧ wk'.directory = wk.directory := by
    cases h with
    | park id st v vk r rest top here data worker books unswitched =>
      by_cases hv : v = w
      · subst hv
        cases books.symm.trans hw
        refine ⟨{ wk with parkedCount := wk.parkedCount + 1 }, ?_, rfl⟩
        rw [Table.get?_set_of books, if_pos rfl]
      · exact ⟨wk, by rw [Table.get?_set_of books, if_neg hv, hw], rfl⟩
    | replayed v rest top =>
      by_cases hv : v = w
      · subst hv
        refine ⟨{ wk with parkedCount := wk.parkedCount - 1 }, ?_, rfl⟩
        rw [Table.get?_modify, if_pos rfl, hw]
        rfl
      · exact ⟨wk, by rw [Table.get?_modify, if_neg hv, hw], rfl⟩
    | _ => exact ⟨wk, hw, rfl⟩
  refine hs.of_held (fun ref _ live => .inl (h.isLive ref ▸ live)) fun ref anchor _ held => ?_
  refine isHeld_anchor anchor held (fun ref hr => .inl (holds ▸ hr))
    (fun hr => isHeld_of_release (h.keeps hr)) fun w wk hw entry he _ => .inr ?_
  rcases directory hw with ⟨wk', hw', hd⟩
  exact ⟨wk', hw', hd ▸ he⟩

theorem Anchored.move (hs : Anchored s) (h : Move wild s t) : Anchored t := by
  cases h with
  | aside h => exact hs.aside h
  | hold h => exact hs.hold h
  | wire h => exact hs.wire h
  | pass h => exact hs.pass h

end Wiring.Network
