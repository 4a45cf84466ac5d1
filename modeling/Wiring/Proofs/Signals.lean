import Mathlib
import Wiring.Proofs.Codec
import Wiring.Proofs.Endpoints

/-!
# Signals tell the truth

A signal lists the lanes that its sender has a stub for, with the interfaces they belong to. A reply
says besides that the sender's lanes lead to the receiver, and an acknowledgement says so again. What
a signal says stays true, so that it does not matter when it is read.
-/
namespace Wiring

theorem bind_ok {ε α β : Type} {x : Except ε α} {f : α → Except ε β} {b : β}
    (h : x >>= f = .ok b) : ∃ a, x = .ok a ∧ f a = .ok b := by
  cases x with
  | error e => cases h
  | ok a => exact ⟨a, rfl, h⟩

namespace Layout

variable {k m : Layout} {plan : Plan} {a b : WorkerId} {wk vk : Worker} {lane : Category}

/-- A lane address names the interface that a worker has for the lane. -/
def Genuine (plan : Plan) (k : Layout) (wk : Worker) (la : LaneAddress) : Prop :=
  la.lane ∈ plan.lanes ∧ ∃ i f, k.pairing? wk la.lane = some i ∧ k.face i = some f ∧
    la.linkAddress.word? = some f.number

theorem Genuine.lasts {la : LaneAddress} (h : Genuine plan k wk la) (lasts : Lasts k m)
    (hk : Site plan k) (hw : k.worker a = some wk) {wk' : Worker} (same : wk'.plan = wk.plan)
    (resources : wk'.resources = wk.resources) : Genuine plan m wk' la := by
  rcases h with ⟨hl, i, f, paired, face, number⟩
  refine ⟨hl, i, f, ?_, lasts.face i f face, number⟩
  rwa [lasts.pairing? hk hw same resources]

/-- Two workers wire a lane up if both can pair its links. -/
def Pairs (k : Layout) (wk vk : Worker) (lane : Category) : Prop :=
  (k.pairing? wk lane).isSome = true ∧ (k.pairing? vk lane).isSome = true

/-- What the signals of worker `a` to worker `b` say is true. -/
structure Tells (plan : Plan) (k : Layout) (a b : WorkerId) (wk vk : Worker) (g : Signal) : Prop where
  source : k.Bears a wk g.source
  dest : k.Bears b vk g.dest
  genuine : ∀ la ∈ g.lanes, Genuine plan k wk la
  answered : g.kind ≠ .request → ∀ lane ∈ plan.lanes, k.Pairs wk vk lane → k.Linked a b lane
  complete : g.kind ≠ .ack → ∀ lane ∈ plan.lanes, k.Pairs wk vk lane →
    (∃ la ∈ g.lanes, la.lane = lane) ∨ k.Linked b a lane

def Honest (plan : Plan) (k : Layout) (g : Signal) : Prop :=
  ∃ a b wk vk, Tells plan k a b wk vk g

theorem Tells.lasts {g : Signal} (tells : Tells plan k a b wk vk g) (lasts : Lasts k m)
    (hk : Site plan k) : ∃ wk' vk', Tells plan m a b wk' vk' g := by
  rcases lasts.bears tells.source with ⟨wk', source, hplan, hres⟩
  rcases lasts.bears tells.dest with ⟨vk', dest, hplan', hres'⟩
  have same (lane : Category) : m.pairing? wk' lane = k.pairing? wk lane :=
    lasts.pairing? hk tells.source.1 hplan hres lane
  have same' (lane : Category) : m.pairing? vk' lane = k.pairing? vk lane :=
    lasts.pairing? hk tells.dest.1 hplan' hres' lane
  refine ⟨wk', vk', source, dest, fun la hla => ?_, fun kind lane hl both => ?_,
    fun kind lane hl both => ?_⟩
  · exact (tells.genuine la hla).lasts lasts hk tells.source.1 hplan hres
  · rw [Pairs, same, same'] at both
    exact lasts.linked _ _ _ (tells.answered kind lane hl both)
  · rw [Pairs, same, same'] at both
    rcases tells.complete kind lane hl both with listed | linked
    · exact .inl listed
    · exact .inr (lasts.linked _ _ _ linked)

theorem Honest.lasts {g : Signal} (h : Honest plan k g) (lasts : Lasts k m) (hk : Site plan k) :
    Honest plan m g := by
  rcases h with ⟨a, b, wk, vk, tells⟩
  rcases tells.lasts lasts hk with ⟨wk', vk', tells'⟩
  exact ⟨a, b, wk', vk', tells'⟩

/-- An endpoint of worker `b` to worker `a`. -/
structure Between (k : Layout) (b a : WorkerId) (vk wk : Worker) (e : EndpointId) (ep : Endpoint) :
    Prop where
  worker : k.worker b = some vk
  peer : k.Bears a wk ep.dest
  entry : (ep.dest, e) ∈ vk.directory
  here : k.endpoint e = some ep

section

variable {e : EndpointId} {ep : Endpoint}

theorem Between.owner (h : Between k b a vk wk e ep) (hk : Charted plan k none) : ep.worker = b := by
  rcases hk.known b vk h.worker _ h.entry with ⟨ep', he, owner, -⟩
  cases h.here.symm.trans he
  exact owner

theorem Between.becomes (h : Between k b a vk wk e ep) (hk : Charted plan k none)
    (hl : lane ∈ plan.lanes) : Lane k b vk e ep lane :=
  hk.lanes b vk h.worker _ h.entry (by simp) ep h.here lane hl

theorem Between.congr (h : Between k b a vk wk e ep) (worker : m.worker = k.worker)
    (endpoint : m.endpoint = k.endpoint) : Between m b a vk wk e ep := by
  refine ⟨?_, ⟨?_, h.peer.2⟩, h.entry, ?_⟩
  · rw [worker]
    exact h.worker
  · rw [worker]
    exact h.peer.1
  · rw [endpoint]
    exact h.here

/-- A slot that leads to the peer's interface links the workers. -/
theorem Between.linked (h : Between k b a vk wk e ep) (hk : Charted plan k none)
    (hl : lane ∈ plan.lanes) (able : (k.pairing? vk lane).isSome = true) {i : InterfaceId}
    (paired : k.pairing? wk lane = some i) (leads : k.Leads (ep.slots.get lane) i) :
    k.Linked b a lane := by
  have entry := h.entry
  rw [← h.peer.2] at entry
  have planned : lane ∈ vk.plan.lanes := by rwa [hk.plans b vk h.worker]
  exact ⟨vk, wk, e, ep, i, h.worker, h.peer.1, planned, able, paired, entry, h.here, leads⟩

/-- A lane that was switched over links the workers both ways. -/
theorem Between.promoted (h : Between k b a vk wk e ep) (hk : Charted plan k none)
    (hl : lane ∈ plan.lanes) (able : (k.pairing? vk lane).isSome = true)
    (unstubbed : ∀ x, ep.slots.get lane ≠ some (.stub x)) :
    k.Linked b a lane ∧ k.Linked a b lane := by
  cases h.becomes hk hl with
  | direct unpaired free =>
    rw [unpaired] at able
    cases able
  | waiting x st l c f slot => exact absurd slot (unstubbed x)
  | promoted l a' wk' i j slot paired peer there dest linked =>
    rcases hk.toSite.bears_unique peer h.peer with ⟨rfl, rfl⟩
    refine ⟨h.linked hk hl able there ?_, linked⟩
    rw [slot]
    exact ⟨rfl, l, rfl, dest⟩

end

end Layout

namespace Network

variable {s t u : Network} {plan : Plan} {doomed doomed' : Option EndpointId}

/-! ## Changes of the layout -/

theorem layout_setStub {x : StubId} {st st' : Stub} (here : s.stubs.get? x = some st) :
    layout { s with stubs := s.stubs.set x st' } =
      { s.layout with stub := Function.update s.layout.stub x (some st'.stand) } := by
  have stubs (y : StubId) : ((s.stubs.set x st').get? y).map Stub.stand =
      Function.update s.layout.stub x (some st'.stand) y := by
    rw [Table.get?_set_of here, Function.update_apply]
    by_cases h : x = y
    · rw [if_pos h, if_pos h.symm]
      rfl
    · rw [if_neg h, if_neg (Ne.symm h)]
      rfl
  simp only [layout, stubs]

theorem layout_setLink {l : LinkId} {lk lk' : Link} (here : s.links.get? l = some lk) :
    layout { s with links := s.links.set l lk' } =
      { s.layout with course := Function.update s.layout.course l (some lk'.course) } := by
  have links (j : LinkId) : ((s.links.set l lk').get? j).map Link.course =
      Function.update s.layout.course l (some lk'.course) j := by
    rw [Table.get?_set_of here, Function.update_apply]
    by_cases h : l = j
    · rw [if_pos h, if_pos h.symm]
      rfl
    · rw [if_neg h, if_neg (Ne.symm h)]
      rfl
  simp only [layout, links]

/-- A mild change that keeps what is known of the layout. -/
structure Charts (plan : Plan) (doomed : Option EndpointId) (s t : Network) : Prop
    extends Mild s t where
  lasts : Layout.Lasts s.layout t.layout
  charted : Layout.Charted plan t.layout doomed

theorem Charts.refl (hk : Layout.Charted plan s.layout doomed) : Charts plan doomed s s :=
  ⟨.refl s, .refl _, hk⟩

theorem Charts.trans (h : Charts plan doomed s t) (g : Charts plan doomed' t u) :
    Charts plan doomed' s u :=
  ⟨h.toMild.trans g.toMild, h.lasts.trans g.lasts, g.charted⟩

theorem Still.charts (h : Still s t) (hk : Layout.Charted plan s.layout doomed) :
    Charts plan doomed s t := by
  refine ⟨h.toMild, ?_, ?_⟩
  · rw [h.layout]
    exact .refl _
  · rw [h.layout]
    exact hk

/-! ## Connecting -/

/-- An address leads to the interface that has the number in it. -/
theorem destination_finds {l : LinkId} {device address : Bytes} {dest : InterfaceId}
    (ok : s.destination l device address = .ok dest) :
    ∃ number fabric, address.word? = some number ∧ s.findInterface? fabric number = some dest := by
  unfold destination at ok
  cases hl : s.links.get? l with
  | none =>
    rw [hl] at ok
    cases ok
  | some lk =>
    rw [hl] at ok
    rcases bind_ok ok with ⟨-, -, ok⟩
    cases ho : s.interfaces.get? lk.owner with
    | none =>
      rw [ho] at ok
      cases ok
    | some io =>
      by_cases near : s.reaches io device = true
      · by_cases wide : address.length = 16
        · cases hw : address.word? with
          | none => simp [ho, near, wide, hw] at ok
          | some number =>
            cases hd : s.findInterface? io.fabric number with
            | none => simp [ho, near, wide, hw, hd] at ok
            | some dest' =>
              simp only [ho, near, wide, hw, hd, Bool.not_true, Bool.false_eq_true, if_false, ne_eq,
                not_true_eq_false] at ok
              cases ok
              exact ⟨number, io.fabric, rfl, hd⟩
        · simp only [ho, near, wide, Bool.not_true, Bool.false_eq_true, if_false, ne_eq,
            not_false_eq_true, if_true] at ok
          cases ok
      · simp only [ho, near, Bool.not_false, if_true] at ok
        cases ok

/-- The interface that an address of a lane leads to is the one that it names. -/
theorem destination_of_ok (hk : Layout.Site plan s.layout) {l : LinkId} {device address : Bytes}
    {dest i : InterfaceId} {f : Face} (named : address.word? = some f.number)
    (face : s.layout.face i = some f) (ok : s.destination l device address = .ok dest) :
    dest = i := by
  rcases destination_finds ok with ⟨number, fabric, word, found⟩
  rcases Table.mem_keysWhere (List.mem_of_head? found) with ⟨io, hio, matching⟩
  have face' : s.layout.face dest = some io.face := by simp [layout, hio]
  refine hk.faces dest i io.face f face' face ?_
  simp only [Bool.and_eq_true, beq_iff_eq] at matching
  exact matching.2.trans (Option.some.inj (word.symm.trans named))

/-- Connecting the stub of a lane pairs its link with the interface that the address names, or is
refused. -/
theorem connect_joins (hk : Layout.Site plan s.layout) {x : StubId} {st : Stub} {l : LinkId}
    {c : Course} {i : InterfaceId} {f : Face} (here : s.layout.stub x = some st)
    (next : st.next = some l) (course : s.layout.course l = some c) {address : Bytes}
    (named : address.word? = some f.number) (face : s.layout.face i = some f) (device : Bytes) :
    (∃ why, s.connect (.stub x) device address = (s, .error why)) ∨
    ∃ t, s.connect (.stub x) device address = (t, .ok ()) ∧ Mild s t ∧
      t.layout = s.layout.join x st l c i := by
  rcases Option.map_eq_some_iff.1 here with ⟨st', hx, rfl⟩
  rcases Option.map_eq_some_iff.1 course with ⟨lk, hl, rfl⟩
  have next' : st'.next = some l := next
  unfold connect
  simp only [hx, Option.bind_some, next', connectLink]
  cases hd : s.destination l device address with
  | error why => exact .inl ⟨why, rfl⟩
  | ok dest =>
    have same := destination_of_ok hk named face hd
    subst same
    refine .inr ⟨_, rfl, ?_, ?_⟩
    · rw [Table.modify_eq_set hl, Table.modify_eq_set hx]
      have paired : Mild s { s with links := s.links.set l { lk with dest := some dest } } :=
        .setLink hl rfl fun r hr => .inl hr
      refine (paired.trans (.setStub hx fun r hr => .inl ?_)).trans (.note trivial)
      exact hr
    · rw [Table.modify_eq_set hl, Table.modify_eq_set hx]
      let paired := { s with links := s.links.set l { lk with dest := some dest } }
      refine (layout_setStub (s := paired) hx).trans ?_
      rw [layout_setLink hl]
      rfl

open Layout in
/-- Connecting the stub of a lane to that of its peer links the lane, or is refused. -/
theorem connect_charts (hk : Charted plan s.layout none) {a b : WorkerId} {wk vk : Worker}
    {e : EndpointId} {ep : Endpoint} (h : Between s.layout b a vk wk e ep) {la : LaneAddress}
    (genuine : Genuine plan s.layout wk la) {x : StubId}
    (held : ep.slots.get la.lane = some (.stub x)) :
    (∃ why, s.connect (.stub x) la.deviceAddress la.linkAddress = (s, .error why)) ∨
    ∃ t, s.connect (.stub x) la.deviceAddress la.linkAddress = (t, .ok ()) ∧
      Charts plan none s t ∧ Between t.layout b a vk wk e ep ∧ t.layout.Linked b a la.lane := by
  rcases genuine with ⟨planned, i, f, paired, face, named⟩
  cases h.becomes hk planned with
  | direct unpaired free => exact absurd held (free x)
  | promoted l _ _ _ _ slot => cases held.symm.trans slot
  | waiting y st l c g slot here own next course able face' settings =>
    cases held.symm.trans slot
    rcases connect_joins hk.toSite here next course named face la.deviceAddress with
      refused | ⟨t, ok, mild, same⟩
    · exact .inl refused
    · have joins : Joins plan s.layout x st ep l c wk i := by
        rw [← own.2] at held planned paired
        have owner : s.layout.endpoint st.endpoint = some ep := own.1 ▸ h.here
        exact ⟨here, owner, held, planned, next, course, ⟨a, h.peer⟩, paired⟩
      have charts : Charts plan none s t := by
        refine ⟨mild, ?_, ?_⟩
        · rw [same]
          exact (joins.refits hk).lasts hk.toSite
        · rw [same]
          exact hk.join joins
      have between : Between t.layout b a vk wk e ep := by
        rw [same]
        exact h.congr rfl rfl
      have leads : t.layout.Leads (ep.slots.get la.lane) i := by
        rw [same, held]
        exact join_leads next
      have able' : (t.layout.pairing? vk la.lane).isSome = true := by
        rw [charts.lasts.pairing? hk.toSite h.worker rfl rfl, able]
        rfl
      have paired' : t.layout.pairing? wk la.lane = some i := by
        rwa [charts.lasts.pairing? hk.toSite h.peer.1 rfl rfl]
      exact .inr ⟨t, ok, charts, between,
        between.linked charts.charted planned able' paired' leads⟩

open Layout in
/-- Connecting the lanes of an endpoint to those that its peer has listed links all of them, unless
one is refused. -/
theorem connectLanes_charts (hk : Charted plan s.layout none) {a b : WorkerId} {wk vk : Worker}
    {e : EndpointId} {ep : Endpoint} (h : Between s.layout b a vk wk e ep) {lanes : List LaneAddress}
    (genuine : ∀ la ∈ lanes, Genuine plan s.layout wk la) :
    Charts plan none s (s.connectLanes e lanes).1 ∧
    Between (s.connectLanes e lanes).1.layout b a vk wk e ep ∧
    ((s.connectLanes e lanes).2 = .ok () → ∀ la ∈ lanes,
      (s.layout.pairing? vk la.lane).isSome = true →
        (s.connectLanes e lanes).1.layout.Linked b a la.lane) := by
  induction lanes generalizing s with
  | nil => exact ⟨.refl hk, h, by simp⟩
  | cons la lanes ih =>
    have slot : s.slot e la.lane = ep.slots.get la.lane := by
      have here : s.endpoints.get? e = some ep := h.here
      simp [Network.slot, here]
    unfold connectLanes
    rw [slot]
    split
    · rename_i x held
      rcases connect_charts hk h (genuine la List.mem_cons_self) held with
        ⟨why, refused⟩ | ⟨t, ok, charts, between, linked⟩
      · rw [refused]
        exact ⟨.refl hk, h, by simp⟩
      · rw [ok]
        have others : ∀ la ∈ lanes, Genuine plan t.layout wk la := fun la hla =>
          (genuine la (List.mem_cons_of_mem _ hla)).lasts charts.lasts hk.toSite h.peer.1 rfl rfl
        rcases ih charts.charted between others with ⟨charts', between', rest⟩
        refine ⟨charts.trans charts', between', fun ok' la' hla able => ?_⟩
        rcases List.mem_cons.1 hla with rfl | hla
        · exact charts'.lasts.linked _ _ _ linked
        · rw [← charts.lasts.pairing? hk.toSite h.worker rfl rfl] at able
          exact rest ok' la' hla able
    · -- the lane is not wired up by a stub, or not any more
      rename_i unstubbed
      have others : ∀ la ∈ lanes, Genuine plan s.layout wk la :=
        fun la hla => genuine la (List.mem_cons_of_mem _ hla)
      rcases ih hk h others with ⟨charts, between, rest⟩
      refine ⟨charts, between, fun ok la' hla able => ?_⟩
      rcases List.mem_cons.1 hla with rfl | hla
      · have planned := (genuine la' List.mem_cons_self).1
        have both := h.promoted hk planned able fun x hx => unstubbed x hx
        exact charts.lasts.linked _ _ _ both.1
      · exact rest ok la' hla able

/-! ## Marking -/

theorem markRemoteConnected_layout {x : StubId} {st : Stub} (hx : s.stubs.get? x = some st) :
    (s.markRemoteConnected x).layout = s.layout.mark x st.stand := by
  unfold markRemoteConnected
  rw [Table.modify_eq_set hx]
  have set : layout { s with stubs := s.stubs.set x { st with remoteConnected := true } } =
      s.layout.mark x st.stand := by
    rw [layout_setStub hx]
    rfl
  exact set

theorem markRemoteConnected_mild {x : StubId} {st : Stub} (hx : s.stubs.get? x = some st) :
    Mild s (s.markRemoteConnected x) := by
  unfold markRemoteConnected
  rw [Table.modify_eq_set hx]
  have set : Mild s { s with stubs := s.stubs.set x { st with remoteConnected := true } } :=
    .setStub hx fun r hr => .inl hr
  exact set.trans (.note trivial)

open Layout in
/-- The stub of a lane may be marked once the peer is linked. -/
theorem markSlot_charts (hk : Charted plan s.layout none) {a b : WorkerId} {wk vk : Worker}
    {e : EndpointId} {ep : Endpoint} (h : Between s.layout b a vk wk e ep) {lane : Category}
    (hl : lane ∈ plan.lanes) (linked : s.layout.Pairs wk vk lane → s.layout.Linked a b lane) :
    Charts plan none s (s.markSlot (ep.slots.get lane)) ∧
    Between (s.markSlot (ep.slots.get lane)).layout b a vk wk e ep := by
  cases h.becomes hk hl with
  | direct unpaired free =>
    unfold markSlot
    split
    · rename_i x hx
      exact absurd hx (free x)
    · exact ⟨.refl hk, h⟩
  | promoted l _ _ _ _ slot =>
    rw [slot]
    exact ⟨.refl hk, h⟩
  | waiting x st l c f slot here own next course able face settings =>
    rcases Option.map_eq_some_iff.1 here with ⟨st', hx, rfl⟩
    have acknowledged : ∀ ep', s.layout.endpoint st'.stand.endpoint = some ep' →
        Acknowledged s.layout st'.stand ep' := by
      intro ep' he
      rw [own.1] at he
      cases h.here.symm.trans he
      refine ⟨a, wk, h.peer, fun paired => ?_⟩
      rw [own.2] at paired ⊢
      rw [h.owner hk]
      exact linked ⟨paired, by rw [able]; rfl⟩
    have same := markRemoteConnected_layout hx
    rw [slot]
    refine ⟨⟨markRemoteConnected_mild hx, ?_, ?_⟩, ?_⟩
    · exact same ▸ (mark_refits here).lasts hk.toSite
    · exact same ▸ hk.mark here acknowledged
    · exact h.congr (by rw [markSlot, same]; rfl) (by rw [markSlot, same]; rfl)

open Layout in
/-- Once its peer is linked, all lanes of an endpoint may be marked. -/
theorem markLanes_charts (hk : Charted plan s.layout none) {a b : WorkerId} {wk vk : Worker}
    {e : EndpointId} {ep : Endpoint} (h : Between s.layout b a vk wk e ep)
    (linked : ∀ lane ∈ plan.lanes, s.layout.Pairs wk vk lane → s.layout.Linked a b lane) :
    Charts plan none s (s.markLanes e) ∧ Between (s.markLanes e).layout b a vk wk e ep := by
  have marked (lanes : List Category) (planned : ∀ lane ∈ lanes, lane ∈ plan.lanes) :
      Charts plan none s (lanes.foldl (fun s lane => s.markSlot (ep.slots.get lane)) s) ∧
      Between (lanes.foldl (fun s lane => s.markSlot (ep.slots.get lane)) s).layout b a vk wk e ep := by
    induction lanes generalizing s with
    | nil => exact ⟨.refl hk, h⟩
    | cons lane lanes ih =>
      have hl := planned lane List.mem_cons_self
      rcases markSlot_charts hk h hl (linked lane hl) with ⟨charts, between⟩
      have linked' : ∀ lane' ∈ plan.lanes, (s.markSlot (ep.slots.get lane)).layout.Pairs wk vk lane' →
          (s.markSlot (ep.slots.get lane)).layout.Linked a b lane' := by
        intro lane' hl' both
        rw [Pairs, charts.lasts.pairing? hk.toSite h.peer.1 rfl rfl,
          charts.lasts.pairing? hk.toSite h.worker rfl rfl] at both
        exact charts.lasts.linked _ _ _ (linked lane' hl' both)
      rcases ih charts.charted between linked' fun lane' h => planned lane' (List.mem_cons_of_mem _ h)
        with ⟨charts', between'⟩
      exact ⟨charts.trans charts', between'⟩
  have here : s.endpoints.get? e = some ep := h.here
  unfold markLanes
  simp only [here, (hk.peers e ep h.here).1]
  exact marked plan.lanes fun _ h => h

end Network

end Wiring
