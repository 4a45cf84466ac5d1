import Mathlib
import Wiring.Proofs.Correspondence

/-!
# Signals that are handled

What a party does with a signal of the other one: with a request it opens its endpoint, connects its
stubs and replies; with the reply it connects and marks its stubs and acknowledges; with the
acknowledgement it marks its stubs. Each time everything is done in a few steps, and what the other
party has is left alone.
-/
namespace Wiring

namespace Cargo

/-- A message comes into an inbox and takes a credit of its sender. -/
def put (c : Cargo) (d : InterfaceId) (m : Message) : Cargo := { c with
  mail := Function.update c.mail d (c.mail d ++ [m])
  used := Function.update c.used m.sender (c.used m.sender + 1) }

/-- The first message is taken out of an inbox. -/
def take (c : Cargo) (d : InterfaceId) : Cargo :=
  { c with mail := Function.update c.mail d (c.mail d).tail }

/-- A credit comes back. -/
def repay (c : Cargo) (l : LinkId) : Cargo :=
  { c with used := Function.update c.used l (c.used l - 1) }

end Cargo

/-- The first of two parties that are fitted out alike turns to the second one. Both listen to
signals, the second one records numbers, and there is room for a request. -/
structure Cast (o : Outfit) (p q : Party) (size : Nat) : Prop where
  fair : o.Fair size
  strangers : Strangers o p q
  registries : p.registry ≠ q.registry
  listens : ∀ r ∈ [p, q], r.handlers.lookup Signal.messageId = some (.signals r.worker)
  records : ∃ log, q.handlers.lookup dataMessageId = some (.record log none false)
  room : 29 + 44 * o.stubbed.length +
    (WorkerAddress.encode ⟨p.uuid, p.name, o.entries p⟩).length ≤ size

namespace Cast

variable {o : Outfit} {p q : Party} {size n : Nat} {lanes : List LaneAddress}

theorem request_le (h : Cast o p q size) (told : Announced o p lanes) :
    (o.message p q .request lanes).encode.length ≤ size := by
  rw [told.encode_length, if_pos rfl]
  exact h.room

theorem reply_le (h : Cast o p q size) (told : Announced o q lanes) :
    (o.message q p .reply lanes).encode.length ≤ size := by
  have := h.room
  rw [told.encode_length, if_neg (by simp)]
  omega

theorem ack_le (h : Cast o p q size) : (o.message p q .ack []).encode.length ≤ size := by
  have := h.room
  have written : (o.message p q .ack []).encode.length = 29 := by
    simp [Signal.encode, Outfit.message, Codec.putVariant, Codec.putNat, Codec.putWord,
      Codec.putOption, Codec.putList, Bytes.word_length, Bytes.littleEndian_length]
  omega

/-- What there is room for can be read. -/
theorem readable (h : Cast o p q size) {m : Signal} (small : m.encode.length ≤ size) :
    Signal.decode m.encode = .ok m := by
  have room := h.fair.room _ (h.fair.serves_lt h.fair.messages)
  exact m.decode_encode (by omega)

end Cast

namespace Network

variable {o : Outfit} {ps : List Party} {p q : Party} {s t u : Network} {size n m : Nat}
  {loc rem : Category → Bool} {slots : PerCategory Slot} {links : Category → LinkId} {v l : LinkId}
  {c c' : Cargo} {lanes : List LaneAddress}

/-- A run between two jobs, with what is on its way. -/
structure Stage (o : Outfit) (ps : List Party) (c : Cargo) (s : Network) : Prop where
  scene : Scene o ps s
  housed : s.Housed
  bears : Bears c s

namespace Stage

theorem trades (h : Stage o ps c s) (trades : Trades s t) (bears : Bears c' t) :
    Stage o ps c' t := ⟨trades.scene h.scene, trades.housed h.housed, bears⟩

theorem rewires (h : Stage o ps c s) (wires : Rewires s t) : Stage o ps c t :=
  ⟨wires.scene h.scene, wires.housed h.housed, wires.bears h.bears⟩

theorem withAgenda (h : Stage o ps c s) (agenda : List Job) : Stage o ps c { s with agenda } :=
  ⟨h.scene.withAgenda agenda, h.housed.withAgenda agenda, h.bears.withAgenda agenda⟩

/-- A party is not let go of while something is done for it. -/
theorem stays (h : Stage o ps c s) (hp : p ∈ ps)
    (aboard : Aboard o p q s.layout o.plan.lanes loc rem slots links) :
    Works s [.release (.endpoint p.endpoint), .release (.worker p.worker)] 2 s := by
  rcases Option.map_eq_some_iff.1 aboard.worker with ⟨wk, books, seat⟩
  have directory : wk.directory = [(q.uuid, p.endpoint)] := (congrArg Worker.directory seat :)
  have endpoint : s.Firm (.endpoint p.endpoint) := by
    refine .inr (isOwned_iff.2 (.inl ⟨p.worker, wk, books, .inr ⟨(q.uuid, p.endpoint), ?_, rfl⟩⟩))
    rw [directory]
    exact List.mem_cons_self
  have worker : s.Firm (.worker p.worker) := .inl (h.scene.attended p hp)
  exact (endpoint.released h.scene.calm).cons (worker.released h.scene.calm)

end Stage

/-- A signal that can be read and is meant for a worker is received. -/
theorem handleSignal_read (books : (s.workers.get? q.worker).map Worker.seat =
      some (o.seat q directory)) {kind : Signal.Kind}
    (read : Signal.decode (o.message p q kind lanes).encode = .ok (o.message p q kind lanes)) :
    s.handleSignal q.worker (o.message p q kind lanes).encode =
      s.receive q.worker (o.message p q kind lanes) := by
  rcases Option.map_eq_some_iff.1 books with ⟨wk, here, seat⟩
  have uuid : wk.uuid = q.uuid := (congrArg Worker.uuid seat :)
  have meant : (o.message p q kind lanes).dest = wk.uuid := uuid.symm
  simp only [handleSignal, here, read, if_pos meant]

/-- A party knows its endpoint to the other one. -/
theorem findEndpoint?_aboard (aboard : Aboard o q p s.layout o.plan.lanes loc rem slots links) :
    s.findEndpoint? q.worker p.uuid = some q.endpoint := by
  rcases Option.map_eq_some_iff.1 aboard.worker with ⟨wk, here, seat⟩
  have directory : wk.directory = [(p.uuid, q.endpoint)] := (congrArg Worker.directory seat :)
  simp [findEndpoint?, here, directory]

namespace Stage

/-! ## The acknowledgement -/

/-- The acknowledgement makes a party mark its stubs. -/
theorem handles_ack (h : Stage o ps c s) (cast : Cast o p q size) (hq : q ∈ ps)
    (aboard : Aboard o q p s.layout o.plan.lanes loc rem slots links) :
    Brings s [.handle (.signals q.worker) ⟨Signal.messageId, (o.message p q .ack []).encode, l⟩] 3
      fun t => Stage o ps c t ∧
        Aboard o q p t.layout o.plan.lanes loc (fun _ => true) slots links ∧
        ClearOf o p s.layout t.layout ∧ t.links.next = s.links.next := by
  refine .into h.scene.calm fun rest _ => ?_
  let holding : List Job := [.release (.endpoint q.endpoint), .release (.worker q.worker)]
  let s' : Network := { s with agenda := holding ++ rest }
  have aboard' : Aboard o q p s'.layout o.plan.lanes loc rem slots links := aboard
  rcases Scene.marks cast.strangers.symm aboard' with ⟨wires, clear, marked⟩
  have stage := (h.withAgenda (holding ++ rest)).rewires wires
  refine ⟨s'.markLanes q.endpoint, holding, ?_, (stage.stays hq marked).brings
    ⟨stage, marked, clear, ?_⟩⟩
  · have found : findEndpoint? { s with agenda := rest } q.worker (o.message p q .ack []).source =
        some q.endpoint := findEndpoint?_aboard aboard
    have received : perform { s with agenda := rest }
        (.handle (.signals q.worker) ⟨Signal.messageId, (o.message p q .ack []).encode, l⟩) =
        s'.markLanes q.endpoint := by
      simp only [perform, handle, handleSignal_read (s := { s with agenda := rest }) aboard.worker
        (cast.readable cast.ack_le), receive, found]
      rfl
    rw [received]
    have agenda : (s'.markLanes q.endpoint).agenda = holding ++ rest := by rw [wires.frame]
    rw [← agenda]
  · exact wires.given.1

/-! ## The reply -/

end Stage

/-- A send that is made changes nothing but records. -/
theorem Trades.newSend (s : Network) (e : EndpointId) (messageId : UInt8) (payload : Bytes) :
    Trades s (s.newSend e messageId payload).1 :=
  ⟨rfl, rfl, fun _ => rfl, s.ledger.extends_push.well, rfl, rfl⟩

theorem Bears.newSend (h : Bears c s) (e : EndpointId) (messageId : UInt8) (payload : Bytes) :
    Bears c (s.newSend e messageId payload).1 :=
  { h with arrived := (arrivalCount_push _ rfl).trans h.arrived }

namespace Stage

/-- A party that makes a signal sends it over the link for its signals. -/
theorem tells (h : Stage o ps c s) (hp : p ∈ ps) (hq : q ∈ ps)
    (aboard : Aboard o p q s.layout o.plan.lanes loc rem slots links) {carrier : Carrier}
    (slot : slots.messages = some carrier) (voice : Voice o p q s.layout carrier v n m)
    (credit : c.used v < (o.settings n).credits) {payload : Bytes}
    (fits : payload.length ≤ (o.settings n).maxBulk) :
    ∃ t, Trades s t ∧ Stage o ps (c.put (q.at m) ⟨Signal.messageId, payload, v⟩) t ∧
      Works (s.newSend p.endpoint Signal.messageId payload).1
        [(s.newSend p.endpoint Signal.messageId payload).2.2, .release (.endpoint p.endpoint),
          .release (.worker p.worker)] 4 t := by
  have made := Trades.newSend s p.endpoint Signal.messageId payload
  have stage := h.trades made (h.bears.newSend p.endpoint Signal.messageId payload)
  have aboard' : Aboard o p q (s.newSend p.endpoint Signal.messageId payload).1.layout
      o.plan.lanes loc rem slots links := aboard
  rcases stage.scene.sendsOver hq aboard' slot voice stage.bears credit
      (w := .endpoint p.endpoint)
      (rfl : (⟨p.endpoint, Signal.messageId, payload, s.handles.next⟩ : Send).endpoint = p.endpoint)
      (.inl rfl) fits (fun _ => by simp) with ⟨t, trades, bears, goes⟩
  have sent := stage.trades trades bears
  rw [← trades.layout] at aboard'
  exact ⟨t, made.trans trades, sent, (goes (.refl t)).cons (sent.stays hp aboard')⟩

/-- The reply makes a party connect and mark its stubs, and acknowledge. -/
theorem handles_reply (h : Stage o ps c s) (cast : Cast o p q size) (hp : p ∈ ps) (hq : q ∈ ps)
    (aboard : Aboard o p q s.layout o.plan.lanes (fun _ => false) (fun _ => false) slots links)
    (told : Announced o q lanes)
    (credit : c.used (links .messages) < (o.settings (o.serves .messages)).credits) :
    Brings s [.handle (.signals p.worker)
      ⟨Signal.messageId, (o.message q p .reply lanes).encode, l⟩] 5 fun t =>
      Stage o ps (c.put (q.at (o.meets .messages))
        ⟨Signal.messageId, (o.message p q .ack []).encode, links .messages⟩) t ∧
      Aboard o p q t.layout o.plan.lanes (fun _ => true) (fun _ => true) slots links ∧
      ClearOf o q s.layout t.layout ∧ t.links.next = s.links.next := by
  refine .into h.scene.calm fun rest _ => ?_
  let holding : List Job := [.release (.endpoint p.endpoint), .release (.worker p.worker)]
  let s' : Network := { s with agenda := holding ++ rest }
  have stage' := h.withAgenda (holding ++ rest)
  have aboard' : Aboard o p q s'.layout o.plan.lanes (fun _ => false) (fun _ => false) slots links :=
    aboard
  rcases stage'.scene.connects cast.fair hp hq cast.strangers aboard' told with
    ⟨t₁, connected, wires, clear, joined, -⟩
  rcases Scene.marks cast.strangers joined with ⟨wires', clear', marked⟩
  have both := wires.trans wires'
  have stage := stage'.rewires both
  rcases marked.voice cast.fair fun _ => rfl with ⟨carrier, slot, voice⟩
  have room := cast.fair.room _ (cast.fair.serves_lt cast.fair.messages)
  rcases stage.tells hp hq marked slot voice credit (cast.ack_le.trans room.2.1) with
    ⟨t, trades, sent, works⟩
  refine ⟨_, _, ?_, works.brings ⟨sent, ?_, ?_, ?_⟩⟩
  · have found : findEndpoint? { s with agenda := rest } p.worker (o.message q p .reply lanes).source =
        some p.endpoint := findEndpoint?_aboard aboard
    have received : perform { s with agenda := rest }
        (.handle (.signals p.worker) ⟨Signal.messageId, (o.message q p .reply lanes).encode, l⟩) =
        (t₁.markLanes p.endpoint).answer p.endpoint .ack := by
      have kind : (o.message q p .reply lanes).kind = .reply := rfl
      have lanes' : (o.message q p .reply lanes).lanes = lanes := rfl
      have pushed : push { s with agenda := rest }
          [.release (.endpoint p.endpoint), .release (.worker p.worker)] = s' := rfl
      simp only [perform, handle, handleSignal_read (s := { s with agenda := rest }) aboard.worker
        (cast.readable (cast.reply_le told)), receive, found, kind, lanes']
      rw [pushed]
      simp only [s', connected]
    have agenda : (t₁.markLanes p.endpoint).agenda = holding ++ rest := by rw [both.frame]
    rw [received]
    simp only [answer, newSignal, Scene.signal_ack marked, push]
    have kept : (newSend (t₁.markLanes p.endpoint) p.endpoint Signal.messageId
        (o.message p q .ack []).encode).1.agenda = holding ++ rest := agenda
    rw [kept]
    rfl
  · rw [trades.layout]
    exact marked
  · rw [trades.layout]
    exact clear.trans clear'
  · rw [trades.given.1, both.given.1]

/-! ## The request -/

end Stage

theorem openEndpoint_snd (s : Network) (w : WorkerId) (dest : UInt64) (peer : String) :
    (s.openEndpoint w dest peer).2 = s.endpoints.next := by
  unfold openEndpoint
  split <;> rfl

theorem openEndpoint_push (s : Network) (w : WorkerId) (dest : UInt64) (peer : String)
    (jobs : List Job) : (s.openEndpoint w dest peer).1.push jobs =
      (openEndpoint { s with agenda := jobs ++ s.agenda } w dest peer).1 := by
  simp only [openEndpoint]
  cases s.workers.get? w <;> rfl

namespace Stage

/-- The request makes a party open its endpoint, connect its stubs and reply. -/
theorem handles_request (h : Stage o ps c s) (cast : Cast o p q size) (hp : p ∈ ps) (hq : q ∈ ps)
    (aboard : Aboard o p q s.layout o.plan.lanes loc rem slots links)
    (alone : (s.workers.get? q.worker).map Worker.seat = some (o.seat q []))
    (number : s.endpoints.next = q.endpoint) (told : Announced o p lanes)
    (unused : ∀ l n dest, n < o.specs.length → s.layout.course l = some (o.course q n dest) →
      c.used l = 0) :
    Brings s [.handle (.signals q.worker)
      ⟨Signal.messageId, (o.message p q .request lanes).encode, l⟩] 5 fun t =>
      ∃ slots' links' v n m entries, Announced o q entries ∧
        n < o.specs.length ∧ m < o.specs.length ∧
        (o.paired .messages = false → m = o.meets .messages) ∧
        Stage o ps (c.put (p.at m)
          ⟨Signal.messageId, (o.message q p .reply entries).encode, v⟩) t ∧
        Aboard o q p t.layout o.plan.lanes (fun _ => true) (fun _ => false) slots' links' ∧
        t.layout.course v = some (o.course q n (some (p.at m))) ∧
        ClearOf o p s.layout t.layout ∧ t.links.next ≤ s.links.next + 6 := by
  refine .into h.scene.calm fun rest loose => ?_
  let holding : List Job := [.release (.endpoint q.endpoint), .release (.worker q.worker)]
  let s' : Network := { s with agenda := holding ++ rest }
  have stage' := h.withAgenda (holding ++ rest)
  have loose' : Loose s'.agenda := by
    refine Loose.append (fun l mem => ?_) loose
    simp [holding] at mem
  rcases stage'.scene.embarks cast.fair hq hp alone number with
    ⟨named, t₁, slots', links', v, n, m, opened, embarked⟩
  have stage₁ : Stage o ps c t₁ :=
    ⟨embarked.scene, embarked.housed loose' stage'.housed, embarked.bears stage'.bears⟩
  have clear := embarked.clear cast.strangers.symm aboard.endpoint
  rcases stage₁.scene.connects cast.fair hq hp cast.strangers.symm embarked.aboard told with
    ⟨t₂, connected, wires, clear', joined, vocal⟩
  have stage₂ := stage₁.rewires wires
  rcases stage₂.scene.signal cast.fair hq joined (fun _ => Bool.and_false _)
    (by simp : Signal.Kind.reply ≠ .ack) with ⟨entries, announced, signal⟩
  rcases (vocal v n m embarked.vocal).voice with ⟨carrier, slot, voice⟩
  have idle : c.used v = 0 := by
    rcases embarked.vocal.voice with ⟨_, _, before⟩
    rcases embarked.founded with ⟨wk, founded⟩
    rcases Nat.lt_or_ge v s.links.next with old | new
    · have same : t₁.links.get? v = s.links.get? v := founded.raised.links.same v old
      refine unused v n (some (p.at m)) before.inside.1 ?_
      rw [← before.course]
      exact congrArg (Option.map Link.course) same.symm
    · exact (h.bears.freshLinks v new).1
  have room := cast.fair.room _ voice.inside.1
  have credits := cast.fair.credits _ voice.inside.1
  rcases stage₂.tells hq hp joined slot voice (by omega) ((cast.reply_le announced).trans room.2.1)
    with ⟨t, trades, sent, works⟩
  refine ⟨_, _, ?_, works.brings ⟨slots', links', v, n, m, entries, announced, voice.inside.1,
    voice.inside.2, fun direct => (embarked.vocal.direct direct).2.2, sent, ?_, ?_, ?_, ?_⟩⟩
  · have unknown : findEndpoint? { s with agenda := rest } q.worker p.uuid = none := by
      rcases Option.map_eq_some_iff.1 alone with ⟨wk, here, seat⟩
      have directory : wk.directory = [] := (congrArg Worker.directory seat :)
      simp [findEndpoint?, here, directory]
    have planned : (((openEndpoint s' q.worker p.uuid p.name).1.workers.get? q.worker).map
        fun w => w.plan.lanes).getD [] = o.plan.lanes := by
      rcases Option.map_eq_some_iff.1 alone with ⟨wk, here, seat⟩
      have here : s'.workers.get? q.worker = some wk := here
      have plan : wk.plan = o.plan := (congrArg Worker.plan seat :)
      simp only [openEndpoint, here, note, Table.get?_set_of here, if_true, Option.map_some, plan,
        Option.getD_some]
    have address : (o.message p q .request lanes).address = some ⟨p.uuid, p.name, o.entries p⟩ := rfl
    have received : perform { s with agenda := rest }
        (.handle (.signals q.worker) ⟨Signal.messageId, (o.message p q .request lanes).encode, l⟩) =
        t₂.answer q.endpoint .reply := by
      have kind : (o.message p q .request lanes).kind = .request := rfl
      have source : (o.message p q .request lanes).source = p.uuid := rfl
      have lanes' : (o.message p q .request lanes).lanes = lanes := rfl
      have pushed := openEndpoint_push { s with agenda := rest } q.worker p.uuid p.name holding
      have named' := (openEndpoint_snd { s with agenda := rest } q.worker p.uuid p.name).trans number
      simp only [perform, handle, handleSignal_read (s := { s with agenda := rest }) alone
        (cast.readable (cast.request_le told)), receive, kind, address, welcome, source, unknown]
      rw [named', pushed]
      simp only [s', holding] at planned opened
      simp only [holding, planned, opened, replyTo, lanes', connected]
    have agenda : t₂.agenda = holding ++ rest := by rw [wires.frame, embarked.frame]
    rw [received]
    simp only [answer, newSignal, signal, push]
    have kept : (newSend t₂ q.endpoint Signal.messageId
        (o.message q p .reply entries).encode).1.agenda = holding ++ rest := agenda
    rw [kept]
    rfl
  · rw [trades.layout]
    exact joined
  · rw [trades.layout]
    exact voice.course
  · rw [trades.layout]
    exact clear.trans clear'
  · rw [trades.given.1, wires.given.1]
    exact embarked.few

end Stage

end Network

end Wiring
