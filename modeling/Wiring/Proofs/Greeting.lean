import Mathlib
import Wiring.Proofs.Cargo

/-!
# Signals between the parties

A party can always tell the other one the addresses of its lanes, and the other one can always
connect its stubs to them. Connecting and marking brings the lanes of a party forward and leaves
those of the other one alone.
-/
namespace Wiring

/-! ## What is told -/

/-- The lanes that pair links. -/
def Outfit.stubbed (o : Outfit) : List Category := o.plan.lanes.filter o.paired

/-- The lanes of a party as it tells them: those that pair links, each with an address that leads to
its interface. -/
structure Announced (o : Outfit) (p : Party) (lanes : List LaneAddress) : Prop where
  which : lanes.map LaneAddress.lane = o.stubbed
  addresses : ∀ entry ∈ lanes, entry.deviceAddress = Bytes.word 1 ∧ ∃ w, entry.linkAddress =
    Bytes.word (UInt64.ofNat (p.at (o.serves entry.lane) + 1)) ++ Bytes.word w

/-- What a party tells the other one. -/
def Outfit.message (o : Outfit) (p q : Party) (kind : Signal.Kind) (lanes : List LaneAddress) :
    Signal where
  kind := kind
  source := p.uuid
  dest := q.uuid
  address := if kind = .request then some ⟨p.uuid, p.name, o.entries p⟩ else none
  lanes := lanes

theorem lanes_encode_length {o : Outfit} {p : Party} {lanes : List LaneAddress}
    (h : ∀ entry ∈ lanes, entry.deviceAddress = Bytes.word 1 ∧ ∃ w, entry.linkAddress =
      Bytes.word (UInt64.ofNat (p.at (o.serves entry.lane) + 1)) ++ Bytes.word w) :
    (Codec.putList LaneAddress.encode lanes).length = 8 + 44 * lanes.length := by
  have bytes (content : Bytes) : (Codec.putBytes content).length = 8 + content.length := by
    simp [Codec.putBytes, Codec.putList, Codec.putNat, Codec.putByte, Bytes.littleEndian_length]
  have each : (lanes.flatMap LaneAddress.encode).length = 44 * lanes.length := by
    induction lanes with
    | nil => rfl
    | cons entry lanes ih =>
      rcases h entry List.mem_cons_self with ⟨device, w, link⟩
      rw [List.flatMap_cons, List.length_append, ih fun e he => h e (List.mem_cons_of_mem _ he)]
      simp only [LaneAddress.encode, Category.encode, List.length_append, bytes, device, link,
        Bytes.word_length, Codec.putVariant, Codec.putNat, Bytes.littleEndian_length,
        List.length_cons]
      omega
  rw [Codec.putList, List.length_append, each, Codec.putNat, Bytes.littleEndian_length]

/-- How long what is told is when it is written. -/
theorem Announced.encode_length {o : Outfit} {p : Party} {lanes : List LaneAddress}
    (h : Announced o p lanes) (q : Party) (kind : Signal.Kind) :
    (o.message p q kind lanes).encode.length = 29 + 44 * o.stubbed.length +
      if kind = .request then (WorkerAddress.encode ⟨p.uuid, p.name, o.entries p⟩).length else 0 := by
  have count : o.stubbed.length = lanes.length := by rw [← h.which, List.length_map]
  simp only [Signal.encode, Outfit.message, List.length_append, lanes_encode_length h.addresses,
    count, Codec.putVariant, Codec.putNat, Codec.putWord, Bytes.word_length,
    Bytes.littleEndian_length]
  split
  · simp only [Codec.putOption, List.length_cons]
    omega
  · simp only [Codec.putOption, List.length_cons, List.length_nil]
    omega

namespace Network

variable {o : Outfit} {ps : List Party} {p q : Party} {s t u : Network} {size : Nat} {c : Category}
  {l v : LinkId} {x : StubId} {st : Stub} {loc rem : Category → Bool} {slots : PerCategory Slot}
  {links : Category → LinkId} {n m : Nat}

namespace Scene

/-- A party can tell the addresses of its stubs. -/
theorem localLanes (h : Scene o ps s) (fair : o.Fair size) (hp : p ∈ ps)
    (aboard : Aboard o p q s.layout o.plan.lanes loc rem slots links)
    (unready : ∀ c, (loc c && rem c) = false) (lanes : List Category)
    (planned : ∀ c ∈ lanes, c ∈ o.plan.lanes) :
    ∃ entries, s.localLanes (o.endpoint p q slots) lanes = .ok entries ∧
      entries.map LaneAddress.lane = lanes.filter o.paired ∧
      ∀ entry ∈ entries, entry.deviceAddress = Bytes.word 1 ∧ ∃ w, entry.linkAddress =
        Bytes.word (UInt64.ofNat (p.at (o.serves entry.lane) + 1)) ++ Bytes.word w := by
  induction lanes with
  | nil => exact ⟨[], rfl, rfl, fun entry mem => by cases mem⟩
  | cons c lanes ih =>
    rcases ih fun c' hc' => planned c' (List.mem_cons_of_mem _ hc') with ⟨entries, told, which, addresses⟩
    have hc := planned c List.mem_cons_self
    cases paired : o.paired c with
    | false =>
      refine ⟨entries, ?_, ?_, addresses⟩
      · have slot := ((aboard.lanes c hc).direct paired).1
        have slot : (o.endpoint p q slots).slots.get c = some (.link (links c)) := slot
        simp only [Network.localLanes, slot]
        exact told
      · rw [List.filter_cons_of_neg (by simp [paired])]
        exact which
    | true =>
      rcases (aboard.lanes c hc).stub paired (unready c) with ⟨x, st, slot, stub, -, -, next, -⟩
      rcases Option.map_eq_some_iff.1 stub with ⟨st', there, rfl⟩
      rcases (aboard.lanes c hc).course with ⟨dest, course⟩
      rcases Option.map_eq_some_iff.1 course with ⟨lk, link, course⟩
      rcases Option.map_eq_some_iff.1 aboard.worker with ⟨wk, books, seat⟩
      have resources : wk.resources = o.resources p := (congrArg Worker.resources seat :)
      have owner : lk.owner = p.at (o.serves c) := congrArg Course.owner course
      have settings : lk.settings = o.settings (o.serves c) := congrArg Course.settings course
      rcases h.stations p hp (o.serves c) (fair.serves_lt hc) with ⟨f, here, -⟩
      have able : lk.settings.capabilities.contains .connectToLink = true := by
        rw [settings]
        exact paired
      have address : s.carrierAddress (.stub x) = .ok
          (Bytes.word (UInt64.ofNat (p.at (o.serves c) + 1)) ++ Bytes.word lk.number) := by
        have next' : st'.next = some (links c) := next
        simp only [carrierAddress, there, Option.bind_some, next', linkAddress, link, require, able,
          if_true, owner, here, (h.numbers _ _ here).2.1]
        rfl
      have worker : s.workers.get? (o.endpoint p q slots).worker = some wk := books
      have resource := fair.resource (p := p) hc
      rw [← resources] at resource
      have resource : ((o.endpoint p q slots).plan.resource c).bind
        (fun index => wk.resources[index.toNat]?) = _ := resource
      have slot : (o.endpoint p q slots).slots.get c = some (.stub x) := slot
      refine ⟨⟨c, Bytes.word 1, Bytes.word (UInt64.ofNat (p.at (o.serves c) + 1)) ++
        Bytes.word lk.number⟩ :: entries, ?_, ?_, fun entry mem => ?_⟩
      · simp only [Network.localLanes, slot, worker, resource, here, address, told,
          h.deviceAddress here]
        rfl
      · rw [List.filter_cons_of_pos paired, List.map_cons, which]
      · rcases List.mem_cons.1 mem with rfl | mem
        · exact ⟨rfl, lk.number, rfl⟩
        · exact addresses entry mem

/-- A party can make every signal as long as its lanes are not ready. -/
theorem signal (h : Scene o ps s) (fair : o.Fair size) (hp : p ∈ ps)
    (aboard : Aboard o p q s.layout o.plan.lanes loc rem slots links)
    (unready : ∀ c, (loc c && rem c) = false) {kind : Signal.Kind} (telling : kind ≠ .ack) :
    ∃ entries, Announced o p entries ∧
      s.signal p.endpoint kind = .ok (o.message p q kind entries) := by
  rcases h.localLanes fair hp aboard unready o.plan.lanes fun _ hc => hc with
    ⟨entries, told, which, addresses⟩
  rcases Option.map_eq_some_iff.1 aboard.worker with ⟨wk, books, seat⟩
  have here : s.endpoints.get? p.endpoint = some (o.endpoint p q slots) := aboard.endpoint
  have worker : s.workers.get? (o.endpoint p q slots).worker = some wk := books
  have told : s.localLanes (o.endpoint p q slots) (o.endpoint p q slots).plan.lanes = .ok entries :=
    told
  have uuid : wk.uuid = p.uuid := (congrArg Worker.uuid seat :)
  have address : s.workerAddress wk = ⟨p.uuid, p.name, o.entries p⟩ := by
    refine h.workerAddress hp (?_ : wk = { o.seat p [(q.uuid, p.endpoint)] with
      parkedCount := wk.parkedCount })
    rw [← seat]
    rfl
  refine ⟨entries, ⟨which, addresses⟩, ?_⟩
  simp only [Network.signal, here, worker, if_neg telling, told, uuid, address]
  rfl

/-- It can acknowledge at any time. -/
theorem signal_ack (aboard : Aboard o p q s.layout o.plan.lanes loc rem slots links) :
    s.signal p.endpoint .ack = .ok (o.message p q .ack []) := by
  rcases Option.map_eq_some_iff.1 aboard.worker with ⟨wk, books, seat⟩
  have here : s.endpoints.get? p.endpoint = some (o.endpoint p q slots) := aboard.endpoint
  have worker : s.workers.get? (o.endpoint p q slots).worker = some wk := books
  have uuid : wk.uuid = p.uuid := (congrArg Worker.uuid seat :)
  simp only [Network.signal, here, worker, uuid]
  rfl

end Scene

/-! ## Connecting -/

theorem Scene.destination (h : Scene o ps s) (hp : p ∈ ps) (hq : q ∈ ps)
    (small : o.serves c < o.specs.length) (paired : o.paired c = true) {dest : Option InterfaceId}
    (course : s.layout.course l = some (o.course p (o.serves c) dest)) (w : UInt64) :
    s.destination l (Bytes.word 1)
      (Bytes.word (UInt64.ofNat (q.at (o.serves c) + 1)) ++ Bytes.word w) =
      .ok (q.at (o.serves c)) := by
  rcases Option.map_eq_some_iff.1 course with ⟨lk, link, course⟩
  have owner : lk.owner = p.at (o.serves c) := congrArg Course.owner course
  have settings : lk.settings = o.settings (o.serves c) := congrArg Course.settings course
  rcases h.stations p hp _ small with ⟨f, here, -⟩
  rcases h.stations q hq _ small with ⟨f', there, -⟩
  have able : lk.settings.capabilities.contains .connectToLink = true := by
    rw [settings]
    exact paired
  have long : (Bytes.word (UInt64.ofNat (q.at (o.serves c) + 1)) ++ Bytes.word w).length = 16 := by
    rw [List.length_append, Bytes.word_length, Bytes.word_length]
  simp only [Network.destination, link, require, able, if_true, owner, here, h.reaches here, long,
    Bytes.word?_append_word, (h.numbers _ _ here).1, h.finds there]
  rfl

/-- A stub of a party is connected to the interface of the other one. -/
theorem Scene.connect (h : Scene o ps s) (hp : p ∈ ps) (hq : q ∈ ps)
    (small : o.serves c < o.specs.length) (paired : o.paired c = true)
    (stub : s.layout.stub x = some st) (next : st.next = some l) {dest : Option InterfaceId}
    (course : s.layout.course l = some (o.course p (o.serves c) dest)) (w : UInt64) :
    ∃ t, s.connect (.stub x) (Bytes.word 1)
        (Bytes.word (UInt64.ofNat (q.at (o.serves c) + 1)) ++ Bytes.word w) = (t, .ok ()) ∧
      Rewires s t ∧
      t.layout = s.layout.join x st l (o.course p (o.serves c) dest) (q.at (o.serves c)) := by
  have found := h.destination hp hq small paired course w
  rcases Option.map_eq_some_iff.1 stub with ⟨st', here, rfl⟩
  rcases Option.map_eq_some_iff.1 course with ⟨lk, link, course⟩
  have next' : (s.stubs.get? x).bind Stub.next = some l := by
    rw [here]
    exact next
  let paired := { s with links := s.links.set l { lk with dest := some (q.at (o.serves c)) } }
  let joined := { paired with stubs := s.stubs.set x { st' with localConnected := true } }
  refine ⟨joined.note (.connected x), ?_, ⟨rfl, fun k => ?_, fun y => ?_, ?_, ?_, ?_⟩, ?_⟩
  · simp only [Network.connect, next', connectLink, found, Table.modify_eq_set link,
      Table.modify_eq_set here]
    rfl
  · refine Table.map_get?_set (f := Link.undirected) link ?_ k
    rfl
  · refine Table.map_get?_set (f := Stub.unmarked) here ?_ y
    rfl
  · exact arrivalCount_push _ rfl
  · simp [joined, paired, note]
  · simp [joined, paired, note]
  · rw [← course]
    refine (layout_setStub (s := paired) here).trans ?_
    rw [layout_setLink link]
    rfl

end Network

/-! ## Lanes that are brought forward -/

namespace Aboard

variable {o : Outfit} {p q : Party} {k : Layout} {done : List Category} {loc rem : Category → Bool}
  {slots : PerCategory Slot} {links : Category → LinkId} {c : Category} {x : StubId} {st : Stub}
  {l : LinkId} {dest : Option InterfaceId}

/-- A stub belongs to one lane. -/
theorem stub_inj (h : Aboard o p q k done loc rem slots links) {c' : Category} {y : StubId}
    (hc : c ∈ done) (hc' : c' ∈ done) (slot : slots.get c = some (.stub x))
    (slot' : slots.get c' = some (.stub y)) (same : x = y) : c = c' := by
  have first := h.lanes c hc
  have second := h.lanes c' hc'
  rw [slot] at first
  rw [slot', ← same] at second
  cases first with
  | waiting _ st l paired stub own category =>
    cases second with
    | waiting _ st' l' paired' stub' own' category' =>
      cases stub.symm.trans stub'
      exact category.symm.trans category'

/-- A lane is connected. -/
theorem join (h : Aboard o p q k done loc rem slots links) (hc : c ∈ done)
    (slot : slots.get c = some (.stub x)) (stub : k.stub x = some st)
    (course : k.course (links c) = some (o.course p (o.serves c) dest)) :
    Aboard o p q (k.join x st (links c) (o.course p (o.serves c) dest) (q.at (o.meets c))) done
      (Function.update loc c true) rem slots links where
  worker := h.worker
  endpoint := h.endpoint
  others := h.others
  apart := h.apart
  lanes c' hc' := by
    have lane := h.lanes c' hc'
    by_cases same : c' = c
    · subst same
      rw [slot] at lane ⊢
      generalize hl : links c' = l at lane ⊢
      cases lane with
      | waiting _ st' _ paired stub' own category next sole marks _ =>
        cases stub.symm.trans stub'
        refine .waiting x { st with localConnected := true } _ paired ?_ own category next
          sole ⟨?_, marks.2⟩ ?_
        · simp [Layout.join]
        · simp
        · simp [Layout.join, Outfit.course]
    · rw [Function.update_of_ne same]
      have other : links c' ≠ links c := fun equal => same (h.apart c' hc' c hc equal)
      generalize hs : slots.get c' = slot' at lane ⊢
      generalize hl : links c' = l at lane other ⊢
      cases lane with
      | linked _ free here =>
        refine .linked _ free ?_
        rw [← here]
        exact Function.update_of_ne other _ _
      | waiting y st' _ paired stub' own category next sole marks here =>
        have apart : y ≠ x := fun equal => same (h.stub_inj hc' hc hs slot equal)
        refine .waiting y st' _ paired ?_ own category next sole marks ?_
        · rw [← stub']
          exact Function.update_of_ne apart _ _
        · rw [← here]
          exact Function.update_of_ne other _ _

/-- A lane is marked. -/
theorem mark (h : Aboard o p q k done loc rem slots links) (hc : c ∈ done)
    (slot : slots.get c = some (.stub x)) (stub : k.stub x = some st) :
    Aboard o p q (k.mark x st) done loc (Function.update rem c true) slots links where
  worker := h.worker
  endpoint := h.endpoint
  others := h.others
  apart := h.apart
  lanes c' hc' := by
    have lane := h.lanes c' hc'
    by_cases same : c' = c
    · subst same
      rw [slot] at lane ⊢
      generalize hl : links c' = l at lane ⊢
      cases lane with
      | waiting _ st' _ paired stub' own category next sole marks here =>
        cases stub.symm.trans stub'
        refine .waiting x { st with remoteConnected := true } _ paired ?_ own category next
          sole ⟨marks.1, ?_⟩ here
        · simp [Layout.mark]
        · simp
    · rw [Function.update_of_ne same]
      generalize hs : slots.get c' = slot' at lane ⊢
      generalize hl : links c' = l at lane ⊢
      cases lane with
      | linked _ free here => exact .linked _ free here
      | waiting y st' _ paired stub' own category next sole marks here =>
        have apart : y ≠ x := fun equal => same (h.stub_inj hc' hc hs slot equal)
        refine .waiting y st' _ paired ?_ own category next sole marks here
        rw [← stub']
        exact Function.update_of_ne apart _ _

/-- A lane that does not pair links has no marks. -/
theorem flags (h : Aboard o p q k done loc rem slots links) {loc' rem' : Category → Bool}
    (same : ∀ c ∈ done, o.paired c = true → loc' c = loc c ∧ rem' c = rem c) :
    Aboard o p q k done loc' rem' slots links where
  worker := h.worker
  endpoint := h.endpoint
  others := h.others
  apart := h.apart
  lanes c hc := by
    have lane := h.lanes c hc
    cases paired : o.paired c with
    | true =>
      rcases same c hc paired with ⟨loc, rem⟩
      rw [loc, rem]
      exact lane
    | false =>
      rcases lane.direct paired with ⟨slot, course⟩
      rw [slot]
      exact .linked _ (.inl paired) course

end Aboard

section

variable {o : Outfit} {p q : Party} {k : Layout} {done : List Category} {slots : PerCategory Slot}
  {links : Category → LinkId} {c : Category} {x : StubId} {st : Stub} {l v : LinkId} {n m : Nat}
  {dest : Option InterfaceId} {i : InterfaceId}

/-- What a party connects is not the other one's. -/
theorem Strangers.join (h : Strangers o p q) (own : st.endpoint = p.endpoint)
    (stub : k.stub x = some st) (inside : n < o.specs.length)
    (course : k.course l = some (o.course p n dest)) :
    ClearOf o q k (k.join x st l (o.course p n dest) i) where
  worker := rfl
  endpoint := rfl
  course l' c here owner := by
    have other : l' ≠ l := by
      rintro rfl
      cases course.symm.trans here
      rcases owner with ⟨m, small, same⟩
      exact h.faces n inside m small same
    rw [← here]
    exact Function.update_of_ne other _ _
  stub y st' here own' := by
    have other : y ≠ x := by
      rintro rfl
      cases stub.symm.trans here
      exact h.endpoint (own.symm.trans own')
    rw [← here]
    exact Function.update_of_ne other _ _

/-- Nor is what it marks. -/
theorem Strangers.mark (h : Strangers o p q) (own : st.endpoint = p.endpoint)
    (stub : k.stub x = some st) : ClearOf o q k (k.mark x st) where
  worker := rfl
  endpoint := rfl
  course _ _ here _ := here
  stub y st' here own' := by
    have other : y ≠ x := by
      rintro rfl
      cases stub.symm.trans here
      exact h.endpoint (own.symm.trans own')
    rw [← here]
    exact Function.update_of_ne other _ _

/-- A party that has connected a lane sends its signals over the same link, as long as the lane is
not marked. -/
theorem Vocal.join (h : Vocal o p q k done slots links v n m) (hc : c ∈ done)
    (paired : o.paired c = true) (stub : k.stub x = some st) (unmarked : st.remoteConnected = false)
    (course : Course) : Vocal o p q (k.join x st (links c) course i) done slots links v n m where
  aside := h.aside
  direct := h.direct
  voice := by
    rcases h.voice with ⟨carrier, slot, voice⟩
    have other : v ≠ links c := (h.aside c hc paired).symm
    refine ⟨carrier, slot, ?_, ?_, voice.inside, voice.bulk⟩
    · rcases voice.carries with same | ⟨y, st', same, stub', own, signal⟩
      · exact .inl same
      · by_cases equal : y = x
        · subst equal
          cases stub.symm.trans stub'
          refine .inr ⟨y, { st with localConnected := true }, same, ?_, own, ?_⟩
          · simp [Layout.join]
          · simp only [Stub.signalLink, Stub.isConnected, unmarked, Bool.and_false,
              Bool.false_eq_true, if_false] at signal ⊢
            exact signal
        · refine .inr ⟨y, st', same, ?_, own, signal⟩
          rw [← stub']
          exact Function.update_of_ne equal _ _
    · rw [← voice.course]
      exact Function.update_of_ne other _ _

end

namespace Network

variable {o : Outfit} {ps : List Party} {p q : Party} {s t u : Network} {size : Nat}
  {slots : PerCategory Slot} {links : Category → LinkId}

/-- A party connects its stubs to the lanes that the other one has told. -/
theorem Scene.connectLanes (fair : o.Fair size) (hp : p ∈ ps) (hq : q ∈ ps)
    (strangers : Strangers o p q) (entries : List LaneAddress) :
    ∀ {s loc}, Scene o ps s →
    Aboard o p q s.layout o.plan.lanes loc (fun _ => false) slots links →
    (∀ entry ∈ entries, entry.lane ∈ o.plan.lanes ∧ o.paired entry.lane = true ∧
      entry.deviceAddress = Bytes.word 1 ∧ ∃ w, entry.linkAddress =
        Bytes.word (UInt64.ofNat (q.at (o.serves entry.lane) + 1)) ++ Bytes.word w) →
    ∃ t, s.connectLanes p.endpoint entries = (t, .ok ()) ∧ Rewires s t ∧
      ClearOf o q s.layout t.layout ∧
      Aboard o p q t.layout o.plan.lanes
        (fun c => loc c || decide (c ∈ entries.map LaneAddress.lane)) (fun _ => false) slots links ∧
      ∀ v n m, Vocal o p q s.layout o.plan.lanes slots links v n m →
        Vocal o p q t.layout o.plan.lanes slots links v n m := by
  induction entries with
  | nil =>
    intro s loc scene aboard _
    refine ⟨s, rfl, .refl s, .refl _ _ _, aboard.flags fun c _ _ => ⟨by simp, rfl⟩,
      fun _ _ _ vocal => vocal⟩
  | cons entry entries ih =>
    intro s loc scene aboard named
    rcases named entry List.mem_cons_self with ⟨hc, paired, device, w, link⟩
    have small := fair.serves_lt hc
    rcases (aboard.lanes _ hc).stub paired (Bool.and_false _) with
      ⟨x, st, slot, stub, own, category, next, -, -, unmarked⟩
    rcases (aboard.lanes _ hc).course with ⟨dest, course⟩
    rcases scene.connect hp hq small paired stub next course w with ⟨t, joined, wires, layout⟩
    have meets : o.meets entry.lane = o.serves entry.lane := if_pos paired
    have aboard₁ := aboard.join hc slot stub course
    have clear := strangers.join (i := q.at (o.serves entry.lane)) own stub small course
    rw [meets, ← layout] at aboard₁
    rw [← layout] at clear
    rcases ih (wires.scene scene) aboard₁ fun e he => named e (List.mem_cons_of_mem _ he) with
      ⟨u, done, wires', clear', aboard', vocal'⟩
    refine ⟨u, ?_, wires.trans wires', clear.trans clear', aboard'.flags fun c _ _ => ⟨?_, rfl⟩,
      fun v n m vocal => vocal' v n m ?_⟩
    · have there : s.slot p.endpoint entry.lane = some (.stub x) := by
        have here : s.endpoints.get? p.endpoint = some (o.endpoint p q slots) := aboard.endpoint
        rw [Network.slot, here]
        exact slot
      simp only [Network.connectLanes, there, device, link, joined]
      exact done
    · simp only [List.map_cons, List.mem_cons, Function.update_apply]
      by_cases same : c = entry.lane <;> simp [same]
    · rw [layout]
      exact vocal.join hc paired stub unmarked _

/-- All lanes are connected when everything was told. -/
theorem Scene.connects (h : Scene o ps s) (fair : o.Fair size) (hp : p ∈ ps) (hq : q ∈ ps)
    (strangers : Strangers o p q)
    (aboard : Aboard o p q s.layout o.plan.lanes (fun _ => false) (fun _ => false) slots links)
    {entries : List LaneAddress} (told : Announced o q entries) :
    ∃ t, s.connectLanes p.endpoint entries = (t, .ok ()) ∧ Rewires s t ∧
      ClearOf o q s.layout t.layout ∧
      Aboard o p q t.layout o.plan.lanes (fun _ => true) (fun _ => false) slots links ∧
      ∀ v n m, Vocal o p q s.layout o.plan.lanes slots links v n m →
        Vocal o p q t.layout o.plan.lanes slots links v n m := by
  have named : ∀ entry ∈ entries, entry.lane ∈ o.plan.lanes ∧ o.paired entry.lane = true ∧
      entry.deviceAddress = Bytes.word 1 ∧ ∃ w, entry.linkAddress =
        Bytes.word (UInt64.ofNat (q.at (o.serves entry.lane) + 1)) ++ Bytes.word w := by
    intro entry mem
    have which : entry.lane ∈ o.stubbed := told.which ▸ List.mem_map_of_mem mem
    rcases List.mem_filter.1 which with ⟨planned, paired⟩
    exact ⟨planned, paired, told.addresses entry mem⟩
  rcases h.connectLanes fair hp hq strangers entries aboard named with
    ⟨t, done, wires, clear, aboard', vocal⟩
  refine ⟨t, done, wires, clear, aboard'.flags fun c hc paired => ⟨?_, rfl⟩, vocal⟩
  rw [told.which, Bool.false_or, eq_comm, decide_eq_true_eq]
  exact List.mem_filter.2 ⟨hc, paired⟩

/-! ## Marking -/

theorem Scene.markLanes_foldl (strangers : Strangers o p q) (lanes : List Category) :
    ∀ {s loc rem}, Aboard o p q s.layout o.plan.lanes loc rem slots links →
    (∀ c ∈ lanes, c ∈ o.plan.lanes) →
    ∃ t, lanes.foldl (fun s lane => s.markSlot (slots.get lane)) s = t ∧ Rewires s t ∧
      ClearOf o q s.layout t.layout ∧
      Aboard o p q t.layout o.plan.lanes loc (fun c => rem c || decide (c ∈ lanes)) slots links := by
  induction lanes with
  | nil =>
    intro s loc rem aboard _
    exact ⟨s, rfl, .refl s, .refl _ _ _, aboard.flags fun c _ _ => ⟨rfl, by simp⟩⟩
  | cons c lanes ih =>
    intro s loc rem aboard planned
    have hc := planned c List.mem_cons_self
    have later := fun c' hc' => planned c' (List.mem_cons_of_mem c hc')
    -- the stub of the lane is marked, if it has one
    have marked : ∃ t, s.markSlot (slots.get c) = t ∧ Rewires s t ∧ ClearOf o q s.layout t.layout ∧
        Aboard o p q t.layout o.plan.lanes loc (Function.update rem c true) slots links := by
      have lane := aboard.lanes c hc
      cases slot : slots.get c with
      | none =>
        rw [slot] at lane
        cases lane
      | some carrier =>
        cases carrier with
        | link l =>
          refine ⟨s, rfl, .refl s, .refl _ _ _, aboard.flags fun c' hc' paired => ⟨rfl, ?_⟩⟩
          by_cases same : c' = c
          · subst same
            rw [slot] at lane
            generalize hl : links c' = k at lane
            cases lane with
            | linked _ free course =>
              rcases free with free | free
              · rw [paired] at free
                cases free
              · rw [Function.update_self]
                exact (Bool.and_eq_true_iff.1 free).2.symm
          · exact Function.update_of_ne same _ _
        | stub x =>
          rw [slot] at lane
          generalize hl : links c = l at lane
          cases lane with
          | waiting _ st _ paired stub own category next sole marks course =>
            rcases Option.map_eq_some_iff.1 stub with ⟨st', here, rfl⟩
            have layout := markRemoteConnected_layout here
            refine ⟨s.markRemoteConnected x, rfl, ⟨rfl, fun l => rfl, fun y => ?_, ?_, rfl, ?_⟩, ?_,
              ?_⟩
            · refine Table.map_get?_modify (f := Stub.unmarked) (fun _ => ?_) y
              rfl
            · exact arrivalCount_push _ rfl
            · simp [markRemoteConnected, note]
            · rw [layout]
              exact strangers.mark own stub
            · rw [layout]
              exact aboard.mark hc slot stub
    rcases marked with ⟨t, marked, wires, clear, aboard₁⟩
    rcases ih aboard₁ later with ⟨u, done, wires', clear', aboard'⟩
    refine ⟨u, ?_, wires.trans wires', clear.trans clear', aboard'.flags fun c' _ _ => ⟨rfl, ?_⟩⟩
    · rw [List.foldl_cons, marked]
      exact done
    · simp only [List.mem_cons, Function.update_apply]
      by_cases same : c' = c <;> simp [same]

/-- A party that is connected marks all its lanes. -/
theorem Scene.marks (strangers : Strangers o p q) {loc rem : Category → Bool}
    (aboard : Aboard o p q s.layout o.plan.lanes loc rem slots links) :
    Rewires s (s.markLanes p.endpoint) ∧ ClearOf o q s.layout (s.markLanes p.endpoint).layout ∧
      Aboard o p q (s.markLanes p.endpoint).layout o.plan.lanes loc (fun _ => true) slots links := by
  rcases Scene.markLanes_foldl strangers o.plan.lanes aboard fun _ hc => hc with
    ⟨t, done, wires, clear, aboard'⟩
  have here : s.endpoints.get? p.endpoint = some (o.endpoint p q slots) := aboard.endpoint
  have same : s.markLanes p.endpoint = t := by
    rw [← done]
    simp only [markLanes, here]
    rfl
  rw [same]
  exact ⟨wires, clear, aboard'.flags fun c hc _ => ⟨rfl, by simp [hc]⟩⟩

end Network

end Wiring
