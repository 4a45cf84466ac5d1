import Mathlib
import Wiring.Proofs.Opening
import Wiring.Proofs.Sends

/-!
# Work keeps the agreement

What one step of work does to a network in agreement: things are released, stubs switched over,
signals handled, and endpoints taken down whose request could not be sent.
-/
namespace Wiring.Network

open Layout (Charted Between Honest Opening)

variable {s t u : Network} {plan : Plan} {doomed : Option EndpointId} {wild : Prop}

theorem Agreed.withAgenda (hs : Agreed plan doomed s) (agenda : List Job) :
    Agreed plan doomed { s with agenda } :=
  ⟨{ hs.tidy with }, hs.charted, hs.honest, hs.switched⟩

/-- Work that leaves the layout alone keeps the agreement. -/
theorem Agreed.still (hs : Agreed plan doomed s) (h : Still s t) : Agreed plan doomed t :=
  hs.charts (h.charts hs.charted)

/-! ## Releasing -/

theorem releaseLink?_eq (l : Option LinkId) :
    releaseLink? l = (l.toList.map Ref.link).map Job.release := by
  simp [releaseLink?, Function.comp_def]

/-- A stub that goes without a violation leaves its links to be released. -/
theorem retireStub_eq {x : StubId} {st : Stub} (here : s.stubs.get? x = some st)
    (calm : (s.retireStub x).violation = none) : s.retireStub x = push
      { s with stubs := s.stubs.erase x }
      (releaseLink? st.next ++ releaseLink? st.auxiliary ++ releaseLink? st.promoted) := by
  simp only [retireStub, here] at calm ⊢
  split at calm
  · rename_i empty
    rw [if_pos empty, List.isEmpty_iff.1 empty]
    simp
  · exact absurd calm (violate_violation _ _)

/-- Only releases are left to do when something is released without a violation. -/
theorem release_plans {ref : Ref} (calm : (s.release ref).violation = none) :
    ∃ refs : List Ref, (s.release ref).agenda = refs.map Job.release ++ s.agenda := by
  unfold release at calm ⊢
  split
  · exact ⟨[], rfl⟩
  · rename_i free
    rw [if_neg free] at calm
    cases ref with
    | interface i => exact ⟨[], (retireInterface_quiet s i).agenda⟩
    | link l => exact ⟨[], (retireLink_quiet s l).agenda⟩
    | stub x =>
      cases here : s.stubs.get? x with
      | none => exact ⟨[], by simp [retire, retireStub, here]⟩
      | some st =>
        have retired : s.retire (.stub x) = _ := retireStub_eq here calm
        rw [retired]
        refine ⟨st.next.toList.map Ref.link ++ st.auxiliary.toList.map Ref.link
          ++ st.promoted.toList.map Ref.link, ?_⟩
        simp [push, releaseLink?_eq]
    | endpoint e =>
      simp only [retire, retireEndpoint]
      split
      · exact ⟨[], rfl⟩
      · rename_i ep here
        exact ⟨(ep.slots.toList.filterMap id).map Carrier.ref, by simp [push, releaseSlots]⟩
    | worker w =>
      simp only [retire, retireWorker]
      split
      · exact ⟨[], rfl⟩
      · rename_i wk here
        refine ⟨wk.resources.map (fun r => .interface r.interface)
          ++ wk.directory.map (fun entry => .endpoint entry.2), ?_⟩
        simp [push, Function.comp_def]
    | callback c => exact ⟨[], rfl⟩

/-- A stub that nobody holds any more is closed. -/
theorem retireStub_builds {x : StubId} (free : s.isHeld (.stub x) = false)
    (calm : (s.retireStub x).violation = none) : Builds s (s.retireStub x) := by
  cases here : s.stubs.get? x with
  | none =>
    simp only [retireStub, here]
    exact .refl s
  | some st =>
    rw [retireStub_eq here calm]
    have closed : Mild s { s with stubs := s.stubs.erase x } := .of_tidy rfl rfl fun hs =>
      { hs with parked := fun y st' hy => hs.parked y st' (Table.get?_of_erase hy) }
    have tame : ∀ j ∈ releaseLink? st.next ++ releaseLink? st.auxiliary ++ releaseLink? st.promoted,
        j.Tame s.trace := by
      intro j hj
      simp only [List.mem_append, mem_releaseLink?] at hj
      rcases hj with (⟨l, -, rfl⟩ | ⟨l, -, rfl⟩) | ⟨l, -, rfl⟩ <;> trivial
    refine (closed.trans (.push tame)).builds rfl rfl rfl (fun _ _ h => h) (fun _ _ => rfl) (fun y held => ?_)
      (fun _ _ => rfl) fun y st' hy => ?_
    · have other : x ≠ y := by
        rintro rfl
        rw [free] at held
        cases held
      simp only [Network.layout, push, Table.get?_erase, if_neg other]
    · rcases Option.map_eq_some_iff.1 hy with ⟨st'', hy', rfl⟩
      have before := Table.get?_of_erase hy'
      exact .inl (by simp [layout, before])

/-- So is an endpoint. -/
theorem retireEndpoint_builds {e : EndpointId} (free : s.isHeld (.endpoint e) = false) :
    Builds s (s.retireEndpoint e) := by
  unfold retireEndpoint
  split
  · exact .refl s
  · rename_i ep here
    have closed : Mild s { s with endpoints := s.endpoints.erase e } :=
      .of_tidy rfl rfl fun hs => { hs with }
    have tame : ∀ j ∈ releaseSlots ep.slots, j.Tame s.trace := by
      intro j hj
      rcases mem_releaseSlots.1 hj with ⟨c, -, rfl⟩
      trivial
    refine (closed.trans (.push tame)).builds rfl rfl rfl (fun e' ep' he => Table.get?_of_erase he) (fun e' held => ?_)
      (fun _ _ => rfl) (fun _ _ => rfl) fun _ _ h => .inl h
    have other : e ≠ e' := by
      rintro rfl
      rw [free] at held
      cases held
    simp only [Network.layout, push, Table.get?_erase, if_neg other]

/-- What is released without being held is closed, and nothing that is in use changes. -/
theorem release_builds (tidy : Tidy s) {ref : Ref} (calm : (s.release ref).violation = none) :
    Builds s (s.release ref) := by
  unfold release at calm ⊢
  split
  · exact .refl s
  · rename_i free
    rw [if_neg free] at calm
    rw [Bool.not_eq_true] at free
    cases ref with
    | interface i =>
      -- the application holds every interface
      have gone : s.interfaces.get? i = none := by
        cases hi : s.interfaces.get? i with
        | none => rfl
        | some f =>
          rw [isHeld_of_holds (tidy.interfaces i (Table.contains_of_get? hi))] at free
          cases free
      simp only [retire, retireInterface, gone]
      exact .refl s
    | worker w =>
      have gone : s.workers.get? w = none := by
        cases hw : s.workers.get? w with
        | none => rfl
        | some wk =>
          rw [isHeld_of_holds (tidy.workers w (Table.contains_of_get? hw))] at free
          cases free
      simp only [retire, retireWorker, gone]
      exact .refl s
    | callback c =>
      have none : s.callbacks.erase c = s.callbacks := Table.erase_of_none (tidy.callbacks c)
      simp only [retire, none]
      exact .refl s
    | link l => exact retireLink_builds free
    | endpoint e => exact retireEndpoint_builds free
    | stub x => exact retireStub_builds free calm

/-! ## Switching over -/

theorem switch_layout {x : StubId} {st : Stub} {w : WorkerId} {wk : Worker} {l : LinkId}
    {ep : Endpoint} (here : s.stubs.get? x = some st) (hw : s.workers.get? w = some wk)
    (he : s.endpoints.get? st.endpoint = some ep) :
    (s.switch x st w l).layout = s.layout.promote x st.stand l ep := by
  have endpoints (e : EndpointId) :
      (s.endpoints.modify st.endpoint fun ep => promoteSlots ep x st.category l).get? e =
        Function.update s.layout.endpoint st.endpoint (some (promoteSlots ep x st.category l)) e := by
    rw [Table.modify_eq_set he, Table.get?_set_of he, Function.update_apply]
    by_cases h : st.endpoint = e
    · rw [if_pos h, if_pos h.symm]
    · rw [if_neg h, if_neg (Ne.symm h)]
      rfl
  have stubs (st' : Stub) (y : StubId) : ((s.stubs.set x st').get? y).map Stub.stand =
      Function.update s.layout.stub x (some st'.stand) y :=
    congrFun (congrArg Layout.stub (layout_setStub here)) y
  rw [switch_eq x st hw]
  simp only [Network.layout, endpoints, stubs]
  rfl

/-- Once both sides have connected, a switchover is accounted for. -/
theorem switch_agreed (hs : Agreed plan none s) {x : StubId} {st : Stub} {w : WorkerId} {l : LinkId}
    (here : s.stubs.get? x = some st) (worker : s.workerOf? st.endpoint = some w)
    (next : st.next = some l) (connected : st.isConnected = true) :
    Agreed plan none (s.switch x st w l) ∧ Plans s (s.switch x st w l) := by
  rcases workerOf?_eq_some.1 worker with ⟨ep, he, rfl, live⟩
  rcases Table.contains_iff.1 live with ⟨wk, hw⟩
  rcases Bool.and_eq_true_iff.1 connected with ⟨joined, marked⟩
  have stand : s.layout.stub x = some st.stand := by simp [layout, here]
  have layout := switch_layout (l := l) here hw he
  have charted := hs.charted.promote stand he next joined marked
  have lasts := Layout.promote_lasts hs.charted stand he next
  have tame : ∀ j ∈ replay st ep.worker l, j.Tame (s.switch x st ep.worker l).trace := by
    intro j hj
    simp only [replay, List.mem_append, mem_releaseLink?, List.mem_flatMap, List.mem_cons,
      List.not_mem_nil, or_false] at hj
    rcases hj with (⟨l', -, rfl⟩ | ⟨r, hr, rfl | rfl⟩) | rfl | rfl | rfl
    · trivial
    · exact hs.tidy.parked x st here r hr
    all_goals trivial
  have switched : (s.switch x st ep.worker l).layout.Switched l := by
    rcases hs.charted.connected x st.stand ep l stand he next joined with ⟨planned, slot, -⟩
    rcases hs.charted.listed st.endpoint ep st.category _ he slot with ⟨wk', hw', entry⟩
    have waits := hs.charted.lanes _ _ hw' _ entry (by simp) ep he st.category
      ((hs.charted.peers _ _ he).1 ▸ planned)
    rw [layout]
    refine ⟨ep.worker, wk', st.endpoint, promoteSlots ep x st.category l, st.category, hw',
      ⟨ep.dest, entry⟩, Function.update_self _ _ _, ?_, ?_, ?_⟩
    · rw [hs.charted.plans _ _ hw', ← (hs.charted.peers _ _ he).1]
      exact planned
    · cases waits with
      | direct unpaired free => exact absurd slot (free x)
      | waiting y st' l' c f slot' here' own next' course able =>
        change (s.layout.pairing? wk' st.category).isSome = true
        rw [able]
        rfl
      | promoted l' b vk i j slot' able =>
        change (s.layout.pairing? wk' st.category).isSome = true
        rw [able]
        rfl
    · rw [Layout.promoteSlots_get, if_pos ⟨by simp [Plan.shares], slot⟩]
  have trace : (s.switch x st ep.worker l).trace = s.trace.push (.switched x l) := by
    rw [switch_eq x st hw]
  refine ⟨⟨?_, layout ▸ charted, fun h e payload sent => ?_, fun y l' hy => ?_⟩, _, ?_, tame⟩
  · rw [switch_eq x st hw]
    have noted := hs.tidy.note (x := .switched x l) fun _ _ _ _ h => by cases h
    refine { noted with parked := fun y st' hy r hr => ?_ }
    rw [Table.get?_set_of here] at hy
    split at hy
    · cases hy
      cases hr
    · exact hs.tidy.parked y st' hy r hr
  · rw [trace] at sent
    rcases Array.mem_push.1 sent with sent | sent
    · rcases hs.honest h e payload sent with ⟨g, written, honest⟩
      exact ⟨g, written, layout ▸ honest.lasts lasts hs.charted.toSite⟩
    · cases sent
  · rw [trace] at hy
    rcases Array.mem_push.1 hy with hy | hy
    · exact layout ▸ lasts.switched l' (hs.switched y l' hy)
    · cases hy
      exact switched
  · rw [switch_eq x st hw]

/-- A stub is switched over, or nothing happens. -/
theorem switchover_agreed (hs : Agreed plan none s) (x : StubId) :
    Agreed plan none (s.switchover x) ∧ Plans s (s.switchover x) := by
  have nothing : Agreed plan none s ∧ Plans s s := ⟨hs, [], rfl, by simp⟩
  unfold switchover
  split
  · exact nothing
  · rename_i w hw
    rcases Option.bind_eq_some_iff.1 hw with ⟨st, here, worker⟩
    simp only [applyPosted_eq hs.tidy, here]
    split
    · rename_i l next
      split
      · rename_i ready
        exact switch_agreed hs here worker next (Bool.and_eq_true_iff.1 ready).1
      · exact nothing
    · exact nothing

/-! ## Handling signals -/

theorem Plans.of_agenda (h : Plans t u) (agenda : t.agenda = s.agenda) : Plans s u := by
  rcases h with ⟨jobs, above, tame⟩
  exact ⟨jobs, by rw [above, agenda], tame⟩

/-- Other tame work may lie between. -/
theorem Plans.above {jobs : List Job} (h : Plans t u) (agenda : t.agenda = jobs ++ s.agenda)
    (tame : ∀ j ∈ jobs, j.Tame u.trace) : Plans s u := by
  rcases h with ⟨more, above, tame'⟩
  refine ⟨more ++ jobs, by rw [above, agenda, List.append_assoc], fun j hj => ?_⟩
  rcases List.mem_append.1 hj with hj | hj
  · exact tame' j hj
  · exact tame j hj

theorem lanes_nodup (plan : Plan) : plan.lanes.Nodup :=
  List.Nodup.filter _ (by decide)

section

variable {a b : WorkerId} {wk vk : Worker} {e : EndpointId} {ep : Endpoint} {g : Signal}

/-- Whoever replies has connected all lanes that the peer has not switched over. -/
theorem replyTo_agreed (hs : Agreed plan none s) (h : Between s.layout b a vk wk e ep)
    (tells : Layout.Tells plan s.layout a b wk vk g) (kind : g.kind ≠ .ack) :
    Agreed plan none (s.replyTo e g.lanes) ∧ Plans s (s.replyTo e g.lanes) := by
  rcases connectLanes_charts hs.charted h tells.genuine with ⟨charts, between, linked⟩
  have agenda := (connectLanes_quiet s e g.lanes).agenda
  unfold replyTo
  split
  · rename_i t why ran
    rw [ran] at charts agenda
    exact ⟨hs.charts charts, [], agenda, by simp⟩
  · rename_i t ran
    rw [ran] at charts between linked agenda
    have all : ∀ lane ∈ plan.lanes, t.layout.Pairs vk wk lane → t.layout.Linked b a lane := by
      intro lane hl both
      rw [Layout.Pairs, charts.lasts.pairing? hs.charted.toSite h.worker rfl rfl,
        charts.lasts.pairing? hs.charted.toSite h.peer.1 rfl rfl] at both
      rcases tells.complete kind lane hl both.symm with ⟨la, hla, rfl⟩ | done
      · exact linked rfl la hla both.1
      · exact charts.lasts.linked _ _ _ done
    rcases answer_agreed (hs.charts charts) between .reply (fun _ => all) with ⟨agreed, plans⟩
    exact ⟨agreed, plans.of_agenda agenda⟩

/-- Whoever has a reply has all lanes connected and marked. -/
theorem acknowledge_agreed (hs : Agreed plan none s) (h : Between s.layout b a vk wk e ep)
    (tells : Layout.Tells plan s.layout a b wk vk g) (kind : g.kind = .reply) {t : Network}
    (ran : s.connectLanes e g.lanes = (t, .ok ())) :
    Agreed plan none ((t.markLanes e).answer e .ack) ∧ Plans s ((t.markLanes e).answer e .ack) := by
  rcases connectLanes_charts hs.charted h tells.genuine with ⟨charts, between, linked⟩
  have agenda := (connectLanes_quiet s e g.lanes).agenda
  rw [ran] at charts between linked agenda
  have pairs (lane : Category) (both : t.layout.Pairs wk vk lane) : s.layout.Pairs wk vk lane := by
    rwa [Layout.Pairs, charts.lasts.pairing? hs.charted.toSite h.worker rfl rfl,
      charts.lasts.pairing? hs.charted.toSite h.peer.1 rfl rfl] at both
  have theirs : ∀ lane ∈ plan.lanes, t.layout.Pairs wk vk lane → t.layout.Linked a b lane := by
    intro lane hl both
    exact charts.lasts.linked _ _ _ (tells.answered (by simp [kind]) lane hl (pairs lane both))
  have ours : ∀ lane ∈ plan.lanes, t.layout.Pairs wk vk lane → t.layout.Linked b a lane := by
    intro lane hl both
    rcases tells.complete (by simp [kind]) lane hl (pairs lane both) with ⟨la, hla, rfl⟩ | done
    · exact linked rfl la hla (pairs _ both).2
    · exact charts.lasts.linked _ _ _ done
  rcases markLanes_charts charts.charted between theirs with ⟨marked, between'⟩
  have agreed := (hs.charts charts).charts marked
  have site := charts.charted.toSite
  have all : ∀ lane ∈ plan.lanes, (t.markLanes e).layout.Pairs vk wk lane →
      (t.markLanes e).layout.Linked b a lane := by
    intro lane hl both
    rw [Layout.Pairs, marked.lasts.pairing? site between.worker rfl rfl,
      marked.lasts.pairing? site between.peer.1 rfl rfl] at both
    exact marked.lasts.linked _ _ _ (ours lane hl both.symm)
  rcases answer_agreed agreed between' .ack (fun _ => all) with ⟨agreed', plans⟩
  have quiet : (t.markLanes e).agenda = s.agenda := (markLanes_quiet t e).agenda.trans agenda
  exact ⟨agreed', plans.of_agenda quiet⟩

/-- An endpoint that nothing was done with may be taken down, with or without all its lanes. -/
structure Spare (plan : Plan) (s : Network) (e : EndpointId) : Prop where
  agreed : Agreed plan (some e) s
  opening : ∃ w wk ep todo, Opening plan s.layout w wk e ep todo

/-- What comes of a signal that is true: there is tame work to do, or an endpoint whose lanes could
not all be opened is taken down first. -/
inductive Handled (plan : Plan) (s : Network) : Network → Prop
  | agreed {t : Network} (agreed : Agreed plan none t) (plans : Plans s t) : Handled plan s t
  | failed {t : Network} (e : EndpointId) (spare : Spare plan t e) (plans : Plans s t) :
      Handled plan s (t.push [.destroy e])

theorem Handled.of_agenda {jobs : List Job} (h : Handled plan t u)
    (agenda : t.agenda = jobs ++ s.agenda) (tame : ∀ trace, ∀ j ∈ jobs, j.Tame trace) :
    Handled plan s u := by
  cases h with
  | agreed agreed plans => exact .agreed agreed (plans.above agenda (tame _))
  | failed e spare plans => exact .failed e spare (plans.above agenda (tame _))

/-- The lanes of a new endpoint are opened and connected, or it is taken down again. -/
theorem openLanes_handled (hs : Agreed plan (some e) s) (sound : Sound wild s)
    (opening : Opening plan s.layout b vk e ep plan.lanes) (dest : ep.dest = g.source)
    (tells : Layout.Tells plan s.layout a b wk vk g) (kind : g.kind ≠ .ack)
    (unsent : ∀ h messageId payload, .sent h e messageId payload ∉ s.trace)
    (entries : List AddressEntry) :
    Handled plan s (match s.openLanes e entries plan.lanes with
      | (t, .error _) => t.push [.destroy e]
      | (t, .ok ()) => t.replyTo e g.lanes) := by
  rcases openLanes_charts sound opening (lanes_nodup plan) (fun _ h => h) entries unsent with
    ⟨charts, ep', left, opening', dest', done⟩
  have agenda := (openLanes_quiet s e entries plan.lanes).agenda
  have agreed := hs.charts charts
  split
  · rename_i t why ran
    rw [ran] at agreed opening' agenda
    exact .failed e ⟨agreed, b, vk, ep', left, opening'⟩ ⟨[], agenda, by simp⟩
  · rename_i t ran
    rw [ran] at charts agreed opening' agenda done
    rw [done rfl] at opening'
    have complete : Agreed plan none t := { agreed with charted := opening'.complete }
    rcases tells.lasts charts.lasts hs.charted.toSite with ⟨wk', vk', tells'⟩
    cases opening'.worker.symm.trans tells'.dest.1
    have between : Between t.layout b a vk wk' e ep' := by
      refine ⟨opening'.worker, ?_, opening'.entry, opening'.here⟩
      rw [dest', dest]
      exact tells'.source
    rcases replyTo_agreed complete between tells' kind with ⟨agreed', plans⟩
    exact .agreed agreed' (plans.of_agenda agenda)

/-- A peer that is not known yet gets an endpoint. -/
theorem welcome_handled (hs : Agreed plan none s) (sound : Sound wild s)
    (hw : s.workers.get? b = some vk) (fresh : s.findEndpoint? b g.source = none)
    (tells : Layout.Tells plan s.layout a b wk vk.seat g) (kind : g.kind ≠ .ack)
    (address : WorkerAddress) : Handled plan s (s.welcome b g address) := by
  rcases openEndpoint_charts sound hs.charted hw fresh ⟨a, wk, tells.source⟩ address.name with
    ⟨charts, id, vk', ep, opening, dest, planned⟩
  rcases openEndpoint_new sound hw g.source address.name with ⟨-, liveEndpoint, liveWorker, unsent⟩
  have agenda := openEndpoint_agenda s b g.source address.name
  -- the endpoint and its worker are held until the work that follows is done
  let e := s.endpoints.next
  let t := (s.openEndpoint b g.source address.name).1
  let jobs : List Job := [.release (.endpoint e), .release (.worker b)]
  have opened : Moves wild s t := openEndpoint_moves hw address.name fresh
  have held : Moves wild s (t.push jobs) := by
    refine opened.trans (Moves.push fun j hj => .inr ?_)
    simp only [jobs, List.mem_cons, List.not_mem_nil, or_false] at hj
    rcases hj with rfl | rfl
    · exact ⟨_, rfl, liveEndpoint⟩
    · exact ⟨_, rfl, liveWorker⟩
  have tame (trace : Array Happening) : ∀ j ∈ jobs, j.Tame trace := by
    intro j hj
    simp only [jobs, List.mem_cons, List.not_mem_nil, or_false] at hj
    rcases hj with rfl | rfl <;> trivial
  have agreed : Agreed plan (some e) (t.push jobs) := (hs.charts charts).still (.push (tame _))
  rcases tells.lasts charts.lasts hs.charted.toSite with ⟨wk', vk'', tells'⟩
  cases opening.worker.symm.trans tells'.dest.1
  have lanes : (((t.push jobs).workers.get? b).map fun w => w.plan.lanes).getD [] = plan.lanes := by
    rcases Option.map_eq_some_iff.1 opening.worker with ⟨w, hw', rfl⟩
    have here : (t.push jobs).workers.get? b = some w := hw'
    rw [here, ← planned]
    rfl
  have handled := openLanes_handled agreed (sound.moves held) opening dest tells' kind unsent
    address.entries
  rw [← lanes] at handled
  have welcomed : Handled plan s _ := handled.of_agenda (congrArg (jobs ++ ·) agenda) tame
  have shape : s.openEndpoint b g.source address.name = (t, e) := Prod.ext rfl id
  unfold welcome
  rw [shape]
  exact welcomed

/-- A worker handles a true signal of a peer. -/
theorem receive_handled (hs : Agreed plan none s) (sound : Sound wild s)
    (hw : s.workers.get? b = some vk) (tells : Layout.Tells plan s.layout a b wk vk.seat g) :
    Handled plan s (s.receive b g) := by
  have nothing : Handled plan s s := .agreed hs ⟨[], rfl, by simp⟩
  unfold receive
  cases found : s.findEndpoint? b g.source with
  | none =>
    simp only
    split
    · rename_i address kind _
      exact welcome_handled hs sound hw found tells (by simp [kind]) address
    · exact nothing
  | some e =>
    have entry : (g.source, e) ∈ vk.directory := by
      simp only [findEndpoint?, hw, Option.bind_some] at found
      exact lookup_mem found
    have seat : s.layout.worker b = some vk.seat := by simp [layout, hw]
    rcases hs.charted.known b vk.seat seat _ entry with ⟨ep, here, owner, dest⟩
    let jobs : List Job := [.release (.endpoint e), .release (.worker b)]
    have tame (trace : Array Happening) : ∀ j ∈ jobs, j.Tame trace := by
      intro j hj
      simp only [jobs, List.mem_cons, List.not_mem_nil, or_false] at hj
      rcases hj with rfl | rfl <;> trivial
    have held : Agreed plan none (s.push jobs) := hs.still (.push (tame _))
    have between : Between (s.push jobs).layout b a vk.seat wk e ep := by
      refine ⟨seat, ?_, ?_, here⟩
      · rw [dest]
        exact tells.source
      · rw [dest]
        exact entry
    have above {u : Network} (h : Agreed plan none u ∧ Plans (s.push jobs) u) : Handled plan s u :=
      .agreed h.1 (h.2.above rfl (tame _))
    simp only
    split
    · rename_i kind
      exact above (replyTo_agreed held between tells (by simp [kind]))
    · rename_i kind
      split
      · rename_i t why ran
        rcases connectLanes_charts held.charted between tells.genuine with ⟨charts, -, -⟩
        have agenda := (connectLanes_quiet (s.push jobs) e g.lanes).agenda
        have ran' : (s.push jobs).connectLanes e g.lanes = (t, .error why) := ran
        rw [ran'] at charts agenda
        exact above ⟨held.charts charts, [], agenda, by simp⟩
      · rename_i t ran
        exact above (acknowledge_agreed held between tells kind ran)
    · rename_i kind
      have linked : ∀ lane ∈ plan.lanes, (s.push jobs).layout.Pairs wk vk.seat lane →
          (s.push jobs).layout.Linked a b lane := tells.answered (by simp [kind])
      rcases markLanes_charts held.charted between linked with ⟨charts, -⟩
      have agenda := (markLanes_quiet (s.push jobs) e).agenda
      exact above ⟨held.charts charts, [], agenda, by simp⟩

/-- Bytes that were written as a true signal are handled as one. -/
theorem handleSignal_handled (hs : Agreed plan none s) (sound : Sound wild s) {payload : Bytes}
    (written : payload = g.encode) (small : payload.length < UInt64.size)
    (honest : Honest plan s.layout g) (w : WorkerId) :
    Handled plan s (s.handleSignal w payload) := by
  have nothing : Handled plan s s := .agreed hs ⟨[], rfl, by simp⟩
  subst written
  unfold handleSignal
  split
  · rename_i wk' m hw decoded
    rw [Signal.decode_encode g small] at decoded
    cases decoded
    split
    · rename_i mine
      rcases honest with ⟨a, b, wk, vk, tells⟩
      have bears : s.layout.Bears w wk'.seat g.dest := ⟨by simp [layout, hw], mine.symm⟩
      rcases hs.charted.toSite.bears_unique bears tells.dest with ⟨rfl, rfl⟩
      exact receive_handled hs sound hw tells
    · exact nothing
  · exact nothing

end

/-! ## Taking a spare endpoint down -/

theorem destroy_agreed {e : EndpointId} (spare : Spare plan s e) (keyed : Keyed s) :
    Agreed plan none (s.destroy e) ∧ Plans s (s.destroy e) := by
  rcases spare with ⟨hs, w, wk, ep, todo, opening⟩
  have here : s.endpoints.get? e = some ep := opening.here
  rcases Option.map_eq_some_iff.1 opening.worker with ⟨wk', hw, rfl⟩
  have owner : ep.worker = w := by
    rcases hs.charted.known w _ opening.worker _ opening.entry with ⟨ep', he, owner, -⟩
    cases opening.here.symm.trans he
    exact owner
  have entry : (ep.dest, e) ∈ wk'.directory := opening.entry
  have unique : ∀ entry ∈ wk'.seat.directory, entry.1 = ep.dest → entry.2 = e := by
    intro entry' hentry same
    have found := lookup_of_mem (keyed.keys w wk' hw) hentry
    rw [same, lookup_of_mem (keyed.keys w wk' hw) entry] at found
    exact (Option.some.inj found).symm
  have charted := hs.charted.strike opening.unused opening.worker opening.here owner unique
  have lasts := Layout.strike_lasts hs.charted opening.unused opening.worker opening.here unique
  have working : (s.setSlots e (.const none)).workerOf? e = some w := by
    rw [setSlots_workerOf?]
    exact workerOf?_eq_some.2 ⟨ep, here, owner, Table.contains_of_get? hw⟩
  -- the slots are emptied and the directory entry goes; the rest is left to do
  let struck : Network := { s.setSlots e (.const none) with
    workers := s.workers.modify w fun w =>
      { w with directory := w.directory.filter fun entry => entry.1 != ep.dest } }
  have layout : struck.layout = s.layout.strike w wk'.seat e ep := by
    have endpoints := congrArg Layout.endpoint (setSlots_layout here (.const none))
    have workers (v : WorkerId) : (struck.workers.get? v).map Worker.seat =
        Function.update s.layout.worker w (some { wk'.seat with
          directory := wk'.directory.filter fun entry => entry.1 != ep.dest }) v := by
      simp only [struck, Table.modify_eq_set hw, Table.get?_set_of hw, Function.update_apply]
      by_cases h : w = v
      · rw [if_pos h, if_pos h.symm]
        rfl
      · rw [if_neg h, if_neg (Ne.symm h)]
        rfl
    simp only [Network.layout] at endpoints
    simp only [Network.layout, workers]
    simp only [struck, endpoints]
    rfl
  have mild : Mild s struck := by
    have emptied := setSlots_mild s e (.const none)
    exact emptied.trans (.modifyWorker _ w (fun _ => rfl))
  have agreed : Agreed plan none struck := hs.charts ⟨mild, layout ▸ lasts, layout ▸ charted⟩
  have planned : ∃ jobs, s.destroy e = struck.push jobs ∧ ∀ j ∈ jobs, j.Tame struck.trace := by
    unfold destroy
    simp only [here, working, Option.toList_some, List.map_cons, List.map_nil]
    refine ⟨_, rfl, fun j hj => ?_⟩
    simp only [List.mem_append, List.mem_map, List.mem_flatMap, List.mem_singleton,
      mem_releaseSlots] at hj
    rcases hj with ((⟨r, -, rfl⟩ | ⟨c, -, hj⟩) | rfl) | ⟨c, -, rfl⟩
    · trivial
    · cases c with
      | link l =>
        simp only [List.mem_cons, List.not_mem_nil, or_false] at hj
        rcases hj with rfl | rfl <;> trivial
      | stub x =>
        rw [List.mem_singleton.1 hj]
        trivial
    · trivial
    · trivial
  rcases planned with ⟨jobs, planned, tame⟩
  rw [planned]
  exact ⟨agreed.still (.push tame), jobs, rfl, tame⟩

end Wiring.Network
