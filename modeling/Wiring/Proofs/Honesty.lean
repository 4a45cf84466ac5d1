import Mathlib
import Wiring.Proofs.Signals

/-!
# Networks in agreement

Where all signals that were ever sent are true, and stubs are connected and marked on account of
signals only, a lane that was switched over leads to the peer and the peer's lane leads back.
-/
namespace Wiring.Network

open Layout (Charted Between Honest Genuine Tells Site)

variable {s t u : Network} {plan : Plan} {doomed doomed' : Option EndpointId} {a b : WorkerId}
  {wk vk : Worker} {e : EndpointId} {ep : Endpoint}

/-- The layout is in order, all signals are true, and what was switched over is known of. -/
structure Agreed (plan : Plan) (doomed : Option EndpointId) (s : Network) : Prop where
  tidy : Tidy s
  charted : Charted plan s.layout doomed
  honest : ∀ h e payload, .sent h e Signal.messageId payload ∈ s.trace →
    ∃ g : Signal, payload = g.encode ∧ Honest plan s.layout g
  switched : ∀ x l, .switched x l ∈ s.trace → s.layout.Switched l

theorem Agreed.charts (hs : Agreed plan doomed s) (h : Charts plan doomed' s t) :
    Agreed plan doomed' t := by
  rcases h.trace with ⟨marks, trace, idle⟩
  refine ⟨h.tidy hs.tidy, h.charted, fun h' e payload sent => ?_, fun x l switched => ?_⟩
  · rw [trace] at sent
    rcases Array.mem_append.1 sent with sent | sent
    · rcases hs.honest h' e payload sent with ⟨g, written, honest⟩
      exact ⟨g, written, honest.lasts h.lasts hs.charted.toSite⟩
    · have other := idle _ (by simpa using sent)
      exact absurd rfl other
  · rw [trace] at switched
    rcases Array.mem_append.1 switched with switched | switched
    · exact h.lasts.switched l (hs.switched x l switched)
    · exact absurd (idle _ (by simpa using switched)) id

/-! ## Making signals -/

/-- The lanes listed by an endpoint are those that its stubs stand in for. -/
theorem localLanes_lists {lanes : List Category} {listed : List LaneAddress}
    (ok : s.localLanes ep lanes = .ok listed) :
    (∀ la ∈ listed, la.lane ∈ lanes ∧ ∃ x, ep.slots.get la.lane = some (.stub x) ∧
      s.carrierAddress (.stub x) = .ok la.linkAddress) ∧
    ∀ lane ∈ lanes, ∀ x, ep.slots.get lane = some (.stub x) → ∃ la ∈ listed, la.lane = lane := by
  induction lanes generalizing listed with
  | nil =>
    cases ok
    exact ⟨fun la h => absurd h List.not_mem_nil, fun lane h => absurd h List.not_mem_nil⟩
  | cons lane lanes ih =>
    unfold localLanes at ok
    split at ok
    · rename_i x held
      split at ok
      · rename_i w _
        split at ok
        · rename_i r _
          split at ok
          · rename_i i _
            rcases bind_ok ok with ⟨address, written, ok⟩
            rcases bind_ok ok with ⟨rest, others, ok⟩
            cases ok
            have written' : s.carrierAddress (.stub x) = .ok address := by
              cases h : s.carrierAddress (.stub x) with
              | error why =>
                rw [h] at written
                cases written
              | ok address' =>
                rw [h] at written
                cases written
                rfl
            rcases ih others with ⟨genuine, complete⟩
            refine ⟨fun la hla => ?_, fun lane' hl y hy => ?_⟩
            · rcases List.mem_cons.1 hla with rfl | hla
              · exact ⟨List.mem_cons_self, x, held, written'⟩
              · rcases genuine la hla with ⟨hl, rest⟩
                exact ⟨List.mem_cons_of_mem _ hl, rest⟩
            · rcases List.mem_cons.1 hl with rfl | hl
              · exact ⟨_, List.mem_cons_self, rfl⟩
              · rcases complete lane' hl y hy with ⟨la, hla, same⟩
                exact ⟨la, List.mem_cons_of_mem _ hla, same⟩
          · cases ok
        · cases ok
      · cases ok
    · rename_i unstubbed
      rcases ih ok with ⟨genuine, complete⟩
      refine ⟨fun la hla => ?_, fun lane' hl y hy => ?_⟩
      · rcases genuine la hla with ⟨hl, rest⟩
        exact ⟨List.mem_cons_of_mem _ hl, rest⟩
      · rcases List.mem_cons.1 hl with rfl | hl
        · exact absurd hy (unstubbed y)
        · exact complete lane' hl y hy

/-- The address of a stub begins with the number of the interface that its link belongs to. -/
theorem carrierAddress_names {x : StubId} {st : Stub} {l : LinkId} {c : Course} {f : Face}
    (here : s.layout.stub x = some st) (next : st.next = some l)
    (course : s.layout.course l = some c) (face : s.layout.face c.owner = some f) {address : Bytes}
    (ok : s.carrierAddress (.stub x) = .ok address) : address.word? = some f.number := by
  rcases Option.map_eq_some_iff.1 here with ⟨st', hx, rfl⟩
  rcases Option.map_eq_some_iff.1 course with ⟨lk, hl, rfl⟩
  rcases Option.map_eq_some_iff.1 face with ⟨i, hi, rfl⟩
  have next' : st'.next = some l := next
  have hi' : s.interfaces.get? lk.owner = some i := hi
  simp only [carrierAddress, hx, Option.bind_some, next', linkAddress, hl] at ok
  rcases bind_ok ok with ⟨-, -, ok⟩
  rw [hi'] at ok
  cases ok
  exact Bytes.word?_append_word _ _

/-- An endpoint makes true signals: it may answer a peer once it is linked to it. -/
theorem signal_honest (hk : Charted plan s.layout none) (h : Between s.layout a b wk vk e ep)
    {kind : Signal.Kind} {g : Signal} (made : s.signal e kind = .ok g)
    (linked : kind ≠ .request → ∀ lane ∈ plan.lanes, s.layout.Pairs wk vk lane →
      s.layout.Linked a b lane) : Honest plan s.layout g := by
  have here : s.endpoints.get? e = some ep := h.here
  rcases Option.map_eq_some_iff.1 h.worker with ⟨w, hw, rfl⟩
  have owner : ep.worker = a := h.owner hk
  have planned : ep.plan = plan := (hk.peers e ep h.here).1
  unfold signal at made
  simp only [here, owner, hw] at made
  split at made
  · -- an acknowledgement lists no lanes
    rename_i ack
    cases made
    refine ⟨a, b, w.seat, vk, ⟨h.worker, rfl⟩, h.peer, fun la hla => ?_, linked, fun other => ?_⟩
    · cases hla
    · exact absurd ack other
  · rcases bind_ok made with ⟨listed, lanes, made⟩
    cases made
    refine ⟨a, b, w.seat, vk, ⟨h.worker, rfl⟩, h.peer, fun la hla => ?_, linked,
      fun _ lane hl both => ?_⟩
    · rcases (localLanes_lists lanes).1 la hla with ⟨hl, x, held, address⟩
      rw [planned] at hl
      cases h.becomes hk hl with
      | direct unpaired free => exact absurd held (free x)
      | promoted l _ _ _ _ slot => cases held.symm.trans slot
      | waiting y st l c f slot here' own next course able face settings =>
        cases held.symm.trans slot
        exact ⟨hl, c.owner, f, able, face, carrierAddress_names here' next course face address⟩
    · cases h.becomes hk hl with
      | direct unpaired free =>
        have able := both.1
        rw [unpaired] at able
        cases able
      | waiting x st l c f slot here' own next course able face settings =>
        exact .inl ((localLanes_lists lanes).2 lane (planned ▸ hl) x slot)
      | promoted l _ _ _ _ slot =>
        refine .inr (h.promoted hk hl both.1 fun x hx => ?_).2
        cases slot.symm.trans hx

/-- A signal that is made is sent, which changes nothing else. -/
theorem newSignal_agreed (hs : Agreed plan none s) (h : Between s.layout a b wk vk e ep)
    {kind : Signal.Kind} (linked : kind ≠ .request → ∀ lane ∈ plan.lanes,
      s.layout.Pairs wk vk lane → s.layout.Linked a b lane) :
    (∃ why, s.newSignal e kind = (s, .error why)) ∨
    ∃ (t : Network) (g : Signal), s.newSignal e kind = (t, .ok (s.handles.next,
        .attempt (.send ⟨e, Signal.messageId, g.encode, s.handles.next⟩) (.endpoint e))) ∧
      Agreed plan none t ∧ t.layout = s.layout ∧ t.agenda = s.agenda := by
  unfold newSignal
  cases made : s.signal e kind with
  | error why => exact .inl ⟨why, rfl⟩
  | ok g =>
    refine .inr ⟨_, g, rfl, ⟨?_, hs.charted, fun h' e' payload sent => ?_, fun x l switched => ?_⟩,
      rfl, rfl⟩
    · have handled : Tidy { s with handles := s.handles.push none } := { hs.tidy with }
      exact handled.note fun _ _ _ _ h => by cases h
    · rcases Array.mem_push.1 sent with sent | sent
      · exact hs.honest h' e' payload sent
      · cases sent
        exact ⟨g, rfl, signal_honest hs.charted h made linked⟩
    · rcases Array.mem_push.1 switched with switched | switched
      · exact hs.switched x l switched
      · cases switched

/-- What is put on the agenda is tame. -/
def Plans (s t : Network) : Prop :=
  ∃ jobs, t.agenda = jobs ++ s.agenda ∧ ∀ j ∈ jobs, j.Tame t.trace

theorem answer_agreed (hs : Agreed plan none s) (h : Between s.layout a b wk vk e ep)
    (kind : Signal.Kind) (linked : kind ≠ .request → ∀ lane ∈ plan.lanes,
      s.layout.Pairs wk vk lane → s.layout.Linked a b lane) :
    Agreed plan none (s.answer e kind) ∧ Plans s (s.answer e kind) := by
  unfold answer
  rcases newSignal_agreed hs h linked with ⟨why, made⟩ | ⟨t, g, made, agreed, -, agenda⟩
  · rw [made]
    exact ⟨hs, [], rfl, by simp⟩
  · rw [made]
    have tame : ∀ j ∈ [Job.attempt (.send ⟨e, Signal.messageId, g.encode, s.handles.next⟩)
        (.endpoint e)], j.Tame t.trace := by
      intro j hj
      rw [List.mem_singleton.1 hj]
      exact Request.isPlain_send _
    have pushed : Still t (t.push _) := .push tame
    refine ⟨agreed.charts (pushed.charts agreed.charted), _, ?_, tame⟩
    rw [← agenda]
    rfl

end Wiring.Network
