import Mathlib
import Wiring.Proofs.Lanes

/-!
# Handling signals

Connecting and marking stubs, opening endpoints and answering signals are moves.
-/
namespace Wiring.Network

variable {s t u : Network} {wild : Prop}

/-! ## Marks -/

theorem isLive_of_directory (hs : Live s) {w : WorkerId} {wk : Worker}
    (hw : s.workers.get? w = some wk) {entry : UInt64 × EndpointId} (he : entry ∈ wk.directory) :
    s.isLive (.endpoint entry.2) = true :=
  hs _ (isHeld_of_owned (isOwned_iff.2 (.inl ⟨w, wk, hw, .inr ⟨entry, he, rfl⟩⟩)))

theorem lookup_mem {α β : Type} [BEq α] [LawfulBEq α] {l : List (α × β)} {a : α} {b : β}
    (h : l.lookup a = some b) : (a, b) ∈ l := by
  obtain ⟨l₁, l₂, rfl, -⟩ := List.lookup_eq_some_iff.1 h
  simp

/-- Nothing changes but that stubs are marked as connected from the remote side. -/
structure Marked (s t : Network) : Prop where
  frame : t = { s with stubs := t.stubs, trace := t.trace }
  stubs : ∀ x, ∃ b, t.stubs.get? x =
    (s.stubs.get? x).map fun st => { st with remoteConnected := st.remoteConnected || b }
  trace : ∃ marks : List StubId, t.trace = s.trace ++ (marks.map Happening.marked).toArray

theorem Marked.refl (s : Network) : Marked s s :=
  ⟨rfl, fun x => ⟨false, by simp⟩, [], by simp⟩

theorem Marked.trans (h : Marked s t) (g : Marked t u) : Marked s u := by
  refine ⟨?_, fun x => ?_, ?_⟩
  · rw [g.frame, h.frame]
  · obtain ⟨b, hb⟩ := h.stubs x
    obtain ⟨b', hb'⟩ := g.stubs x
    refine ⟨b || b', ?_⟩
    rw [hb', hb]
    simp [Function.comp_def, Bool.or_assoc]
  · obtain ⟨marks, hm⟩ := h.trace
    obtain ⟨marks', hm'⟩ := g.trace
    exact ⟨marks ++ marks', by simp [hm', hm]⟩

theorem markRemoteConnected_marked (s : Network) (id : StubId) :
    Marked s (s.markRemoteConnected id) := by
  refine ⟨rfl, fun x => ⟨decide (id = x), ?_⟩, [id], by simp [markRemoteConnected, note]⟩
  simp only [markRemoteConnected, note, Table.get?_modify]
  by_cases h : id = x
  · simp [h]
  · simp [h]

theorem markSlot_marked (s : Network) (c : Slot) : Marked s (s.markSlot c) := by
  unfold markSlot
  split
  · exact markRemoteConnected_marked s _
  · exact .refl s

theorem applyEvent_marked (directory : List (UInt64 × EndpointId)) (s : Network)
    (event : RemoteConnected) : Marked s (s.applyEvent directory event) := by
  unfold applyEvent
  split
  · exact markSlot_marked s _
  · exact .refl s

theorem applyEvents_marked (directory : List (UInt64 × EndpointId)) (s : Network)
    (events : List RemoteConnected) : Marked s (events.foldl (applyEvent directory) s) := by
  induction events generalizing s with
  | nil => exact .refl s
  | cons event events ih => exact (applyEvent_marked directory s event).trans (ih _)

theorem markSlot_moves (hs : Sound wild s) {e : EndpointId} {ep : Endpoint}
    (he : s.endpoints.get? e = some ep) (category : Category) :
    Moves wild s (s.markSlot (ep.slots.get category)) := by
  unfold markSlot
  split
  · rename_i x hx
    refine Moves.wire (.markRemote x ?_)
    have : s.slot e category = some (.stub x) := by simp [slot, he, hx]
    exact isLive_of_slot hs.live this
  · exact .refl

theorem markLanes_moves (hs : Sound wild s) (e : EndpointId) : Moves wild s (s.markLanes e) := by
  unfold markLanes
  cases he : s.endpoints.get? e with
  | none => exact .refl
  | some ep =>
    simp only
    induction ep.plan.lanes generalizing s with
    | nil => exact .refl
    | cons lane lanes ih =>
      have marked : Moves wild s _ := markSlot_moves hs he lane
      refine marked.trans (ih (hs.moves marked) ?_)
      rw [(markSlot_marked s _).frame]
      exact he

theorem applyEvent_moves (hs : Sound wild s) (directory : List (UInt64 × EndpointId))
    (event : RemoteConnected) : Moves wild s (s.applyEvent directory event) := by
  unfold applyEvent
  split
  · rename_i ep he
    obtain ⟨e, -, he⟩ := Option.bind_eq_some_iff.1 he
    exact markSlot_moves hs he event.category
  · exact .refl

theorem applyPosted_moves (hs : Sound wild s) (w : WorkerId) :
    Moves wild s (s.applyPosted w).1 := by
  unfold applyPosted
  cases hw : s.workers.get? w with
  | none => exact .refl
  | some wk =>
    simp only
    have taken : Aside s { s with workers := s.workers.set w { wk with posted := [] } } := by
      rw [← Table.modify_eq_set hw fun wk => { wk with posted := [] }]
      exact Aside.modifyWorker s w fun wk => rfl
    refine (Moves.aside taken).trans ?_
    have hs := hs.aside taken
    revert hs
    generalize { s with workers := s.workers.set w { wk with posted := [] } } = u
    intro hs
    induction wk.posted generalizing u with
    | nil => exact .refl
    | cons event posted ih =>
      have applied : Moves wild u _ := applyEvent_moves hs wk.directory event
      exact applied.trans (ih _ (hs.moves applied))

/-- A worker's events are gone once they are applied, and stubs may be marked. -/
theorem applyPosted_marked (s : Network) (w : WorkerId) :
    Marked { s with workers := s.workers.modify w fun wk => { wk with posted := [] } }
      (s.applyPosted w).1 := by
  unfold applyPosted
  cases hw : s.workers.get? w with
  | none =>
    have : s.workers.modify w (fun wk => { wk with posted := [] }) = s.workers :=
      Table.modify_of_none hw
    rw [this]
    exact .refl s
  | some wk =>
    rw [Table.modify_eq_set hw]
    exact applyEvents_marked _ _ _

theorem applyPosted_workerOf? (s : Network) (w : WorkerId) (e : EndpointId) :
    (s.applyPosted w).1.workerOf? e = s.workerOf? e := by
  rw [(applyPosted_marked s w).frame]
  simp [workerOf?]

theorem applyPosted_agenda (s : Network) (w : WorkerId) :
    (s.applyPosted w).1.agenda = s.agenda := by rw [(applyPosted_marked s w).frame]

/-! ## Connecting -/

theorem connectLink_cases (s : Network) (l : LinkId) (device address : Bytes) :
    (∃ why, s.connectLink l device address = (s, .error why)) ∨
    ∃ u, Aside s u ∧ s.connectLink l device address = (u, .ok ()) := by
  unfold connectLink
  split
  · exact .inl ⟨_, rfl⟩
  · rename_i dest hd
    exact .inr ⟨{ s with links := s.links.modify l fun lk => { lk with dest := some dest } },
      Aside.modifyLink s l fun lk => rfl, rfl⟩

/-- A refusal to connect changes nothing. -/
theorem connect_moves (s : Network) (c : Carrier) (device address : Bytes) :
    Moves wild s (s.connect c device address).1 := by
  unfold connect
  cases c with
  | link l =>
    obtain ⟨why, h⟩ | ⟨u, ha, h⟩ := s.connectLink_cases l device address
    · simp only [h]
      exact .refl
    · simp only [h]
      exact Moves.aside ha
  | stub id =>
    simp only
    split
    · exact .refl
    · rename_i next hn
      obtain ⟨st, here, -⟩ := Option.bind_eq_some_iff.1 hn
      obtain ⟨why, h⟩ | ⟨u, ha, h⟩ := s.connectLink_cases next device address
      · simp only [h]
        exact .refl
      · simp only [h]
        refine (Moves.aside ha).trans (Moves.wire (.markLocal id ?_))
        rw [ha.stubs]
        exact Table.contains_of_get? here

theorem connectLanes_moves (s : Network) (e : EndpointId) (lanes : List LaneAddress) :
    Moves wild s (s.connectLanes e lanes).1 := by
  induction lanes generalizing s with
  | nil => exact .refl
  | cons lane lanes ih =>
    unfold connectLanes
    split
    · rename_i x hx
      have connected : Moves wild s _ :=
        connect_moves s (.stub x) lane.deviceAddress lane.linkAddress
      split
      · rename_i u h
        rw [h] at connected
        exact connected.trans (ih u)
      · rename_i u why h
        rw [h] at connected
        exact connected
    · exact ih s

/-! ## Sending signals -/

theorem newSend_moves {e : EndpointId} (live : s.endpoints.contains e = true) (messageId : UInt8)
    (payload : Bytes) (alone : messageId ≠ Signal.messageId → s.agenda = []) :
    Moves wild s (push (s.newSend e messageId payload).1 [(s.newSend e messageId payload).2.2]) :=
  Moves.pass (.send ⟨e, messageId, payload, s.handles.next⟩ rfl live alone)

/-- A signal is sent from an endpoint that lives, or not at all. -/
theorem newSignal_cases (s : Network) (e : EndpointId) (kind : Signal.Kind) :
    (∃ why, s.newSignal e kind = (s, .error why)) ∨
    ∃ payload, s.endpoints.contains e = true ∧ s.newSignal e kind =
      ((s.newSend e Signal.messageId payload).1,
        .ok (s.newSend e Signal.messageId payload).2) := by
  unfold newSignal
  split
  · exact .inl ⟨_, rfl⟩
  · rename_i m hm
    refine .inr ⟨m.encode, ?_, rfl⟩
    unfold signal at hm
    cases he : s.endpoints.get? e with
    | none => simp [he, throw, throwThe, MonadExceptOf.throw] at hm
    | some ep => exact Table.contains_of_get? he

theorem answer_moves (s : Network) (e : EndpointId) (kind : Signal.Kind) :
    Moves wild s (s.answer e kind) := by
  unfold answer
  obtain ⟨why, h⟩ | ⟨payload, live, h⟩ := s.newSignal_cases e kind
  · simp only [h]
    exact .refl
  · simp only [h]
    exact newSend_moves live Signal.messageId payload fun h => absurd rfl h

/-! ## Handling -/

theorem replyTo_moves (s : Network) (e : EndpointId) (lanes : List LaneAddress) :
    Moves wild s (s.replyTo e lanes) := by
  unfold replyTo
  have connected : Moves wild s _ := connectLanes_moves s e lanes
  split
  · rename_i u why h
    rw [h] at connected
    exact connected
  · rename_i u h
    rw [h] at connected
    exact connected.trans (answer_moves u e .reply)

/-- A worker without an endpoint to a peer has none in its directory. -/
theorem strangers {w : WorkerId} {wk : Worker} (here : s.workers.get? w = some wk) {dest : UInt64}
    (fresh : s.findEndpoint? w dest = none) : ∀ entry ∈ wk.directory, entry.1 ≠ dest := by
  simp only [findEndpoint?, here, Option.bind_some, List.lookup_eq_none_iff] at fresh
  intro entry he h
  simpa [h] using fresh entry he

/-- A worker opens an endpoint to a peer that it has none to. -/
theorem openEndpoint_moves {w : WorkerId} {wk : Worker} (here : s.workers.get? w = some wk)
    {dest : UInt64} (peer : String) (fresh : s.findEndpoint? w dest = none) :
    Moves wild s (s.openEndpoint w dest peer).1 := by
  have others : (wk.directory.filter fun entry => entry.1 != dest) = wk.directory :=
    List.filter_eq_self.2 fun entry he => bne_iff_ne.2 (strangers here fresh entry he)
  have fresh := strangers here fresh
  unfold openEndpoint
  simp only [here, others]
  exact Moves.wire (.openEndpoint w wk
    { worker := w, dest, peer, plan := wk.plan, flushAttempts := wk.settings.flushAttempts }
    here fresh rfl rfl)

/-- A new endpoint lives in the directory of a worker that lives, and has not sent anything. -/
theorem openEndpoint_new (hs : Sound wild s) {w : WorkerId} {wk : Worker}
    (here : s.workers.get? w = some wk) (dest : UInt64) (peer : String) :
    (s.openEndpoint w dest peer).2 = s.endpoints.next ∧
    (s.openEndpoint w dest peer).1.endpoints.contains s.endpoints.next = true ∧
    (s.openEndpoint w dest peer).1.workers.contains w = true ∧
    ∀ h messageId payload,
      .sent h s.endpoints.next messageId payload ∉ (s.openEndpoint w dest peer).1.trace := by
  unfold openEndpoint
  simp only [here, note]
  refine ⟨trivial, by simp [Table.contains_push], ?_, fun h messageId payload hm => ?_⟩
  · rw [Table.contains_set here]
    exact Table.contains_of_get? here
  · obtain hm | hm := Array.mem_push.1 hm
    · exact absurd (hs.keyed.sent _ _ _ _ hm) (by simp)
    · cases hm

theorem openEndpoint_agenda (s : Network) (w : WorkerId) (dest : UInt64) (peer : String) :
    (s.openEndpoint w dest peer).1.agenda = s.agenda := by
  unfold openEndpoint
  split <;> rfl

/-- A worker opens an endpoint to a stranger, and its lanes, and holds on to both meanwhile. -/
theorem founding_moves (hs : Sound wild s) {w : WorkerId} {wk : Worker}
    (here : s.workers.get? w = some wk) {dest : UInt64} (peer : String)
    (fresh : s.findEndpoint? w dest = none) (entries : List AddressEntry) (lanes : List Category) :
    Moves wild s (openLanes (push (s.openEndpoint w dest peer).1
        [.release (.endpoint (s.openEndpoint w dest peer).2), .release (.worker w)])
      (s.openEndpoint w dest peer).2 entries lanes).1 := by
  have opened : Moves wild s _ := openEndpoint_moves here peer fresh
  obtain ⟨id, liveEndpoint, liveWorker, unsent⟩ := openEndpoint_new hs here dest peer
  rw [← id] at liveEndpoint unsent
  have held : Moves wild s (push (s.openEndpoint w dest peer).1
      [.release (.endpoint (s.openEndpoint w dest peer).2), .release (.worker w)]) := by
    refine opened.trans (Moves.push fun j hj => ?_)
    obtain rfl | hj := List.mem_cons.1 hj
    · exact .inr ⟨_, rfl, liveEndpoint⟩
    · cases List.mem_singleton.1 hj
      exact .inr ⟨_, rfl, liveWorker⟩
  exact held.trans (openLanes_moves (hs.moves held) entries lanes unsent)

theorem welcome_moves (hs : Sound wild s) {w : WorkerId} {wk : Worker}
    (here : s.workers.get? w = some wk) (m : Signal) (address : WorkerAddress)
    (fresh : s.findEndpoint? w m.source = none) : Moves wild s (s.welcome w m address) := by
  have founded : Moves wild s _ := founding_moves hs here address.name fresh address.entries
    (((push (s.openEndpoint w m.source address.name).1
      [.release (.endpoint (s.openEndpoint w m.source address.name).2),
        .release (.worker w)]).workers.get? w).map (fun w => w.plan.lanes) |>.getD [])
  unfold welcome
  simp only
  split
  · rename_i u why h
    rw [h] at founded
    refine founded.trans (Moves.push fun j hj => ?_)
    cases List.mem_singleton.1 hj
    exact .inl ⟨rfl, rfl⟩
  · rename_i u h
    rw [h] at founded
    exact founded.trans (replyTo_moves u _ m.lanes)

theorem receive_moves (hs : Sound wild s) {w : WorkerId} {wk : Worker}
    (here : s.workers.get? w = some wk) (m : Signal) : Moves wild s (s.receive w m) := by
  unfold receive
  cases hf : s.findEndpoint? w m.source with
  | none =>
    simp only
    split
    · exact welcome_moves hs here m _ hf
    · exact .refl
  | some e =>
    simp only
    have live : s.isLive (.endpoint e) = true := by
      simp only [findEndpoint?, here, Option.bind_some] at hf
      exact isLive_of_directory hs.live here (lookup_mem hf)
    have held : Moves wild s (s.push [.release (.endpoint e), .release (.worker w)]) := by
      refine Moves.push fun j hj => ?_
      obtain rfl | hj := List.mem_cons.1 hj
      · exact .inr ⟨_, rfl, live⟩
      · cases List.mem_singleton.1 hj
        exact .inr ⟨_, rfl, Table.contains_of_get? here⟩
    refine held.trans ?_
    have hs := hs.moves held
    revert hs
    generalize s.push [.release (.endpoint e), .release (.worker w)] = u
    intro hs
    split
    · exact replyTo_moves u e m.lanes
    · have connected : Moves wild u _ := connectLanes_moves u e m.lanes
      split
      · rename_i v why h
        rw [h] at connected
        exact connected
      · rename_i v h
        rw [h] at connected
        have marked : Moves wild v _ := markLanes_moves (hs.moves connected) e
        exact (connected.trans marked).trans (answer_moves _ e .ack)
    · exact markLanes_moves hs e

theorem handleSignal_moves (hs : Sound wild s) (w : WorkerId) (payload : Bytes) :
    Moves wild s (s.handleSignal w payload) := by
  unfold handleSignal
  split
  · rename_i wk m here hm
    split
    · exact receive_moves hs here m
    · exact .refl
  · exact .refl

end Wiring.Network
