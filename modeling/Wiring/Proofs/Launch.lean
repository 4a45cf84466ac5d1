import Mathlib
import Wiring.Proofs.Rounds
import Wiring.Proofs.Stub

/-!
# Before the first round

The sender sends its request when it opens its endpoint. The numbers that it sends then go out over
the same link as long as there are credits, wait in its queue, or are parked on the stub that stands
in for it.
-/
namespace Wiring

namespace Cargo

/-- A request is parked on a stub, which is registered for it. -/
def park (c : Cargo) (x : StubId) (id : RegistryId) (r : Request) : Cargo := { c with
  parked := Function.update c.parked x (c.parked x ++ [r])
  runners := Function.update c.runners id
    ((c.runners id).map fun entries => (entries.add (.stub x) true).1) }

/-- A request joins the queue of a link. -/
def join (c : Cargo) (l : LinkId) (r : Request) : Cargo :=
  { c with queue := Function.update c.queue l (c.queue l ++ [r]) }

namespace Waits

variable {c : Cargo} {p : Party} {waiting : List Request} {x : StubId} {l : LinkId}

theorem park (h : c.Waits p waiting (some (.stub x))) (r : Request) :
    (c.park x p.registry r).Waits p (waiting ++ [r]) (some (.stub x)) := by
  cases h with
  | parked _ queue parked runners =>
    refine .parked x queue (fun y => ?_) ?_
    · by_cases same : y = x
      · rw [same, if_pos rfl]
        simp only [Cargo.park, Function.update_self, parked, if_pos]
      · rw [if_neg same]
        simp only [Cargo.park, Function.update_of_ne same, parked, if_neg same]
    · simp only [Cargo.park, Function.update_self, runners, Option.map_some]
      rw [if_neg (List.append_ne_nil_of_right_ne_nil _ (List.cons_ne_nil _ _)), List.length_append]
      cases waiting with
      | nil => rfl
      | cons first rest => simp [Registry.add, Registry.replace]

theorem join (h : c.Waits p waiting (some (.link l))) (r : Request) :
    (c.join l r).Waits p (waiting ++ [r]) (some (.link l)) := by
  cases h with
  | queued _ queue parked runners =>
    refine .queued l (fun k => ?_) parked runners
    by_cases same : k = l
    · rw [same, if_pos rfl]
      simp only [Cargo.join, Function.update_self, queue, if_pos]
    · rw [if_neg same]
      simp only [Cargo.join, Function.update_of_ne same, queue, if_neg same]

end Waits

end Cargo

namespace Network

variable {o : Outfit} {ps : List Party} {p q : Party} {s t u : Network} {size n m total : Nat}
  {c : Cargo} {x : StubId} {st : Stub} {l : LinkId} {lk : Link} {e : EndpointId} {ep : Endpoint}
  {loc rem : Category → Bool} {slots : PerCategory Slot} {links : Category → LinkId} {msg : Send}
  {v : LinkId} {new : List Message} {waiting : List Request}

/-! ## Requests that wait -/

/-- A request joins a queue. -/
theorem Trades.join (here : s.links.get? l = some lk) (r : Request) :
    Trades s { s with links := s.links.set l { lk with queue := lk.queue ++ [r] } } where
  frame := rfl
  layout := by
    have course := Table.map_get?_set here (b := { lk with queue := lk.queue ++ [r] })
      (f := Link.course) rfl
    simp only [Network.layout, course]
  stations _ := rfl
  well := id
  given := ⟨Table.next_set .., rfl⟩

theorem Bears.join (h : Bears c s) (here : s.links.get? l = some lk) (r : Request) :
    Bears (c.join l r) { s with links := s.links.set l { lk with queue := lk.queue ++ [r] } } :=
  { h with
    links := fun k lk' there => by
      rw [Table.get?_set_of here] at there
      by_cases same : l = k
      · rw [if_pos same] at there
        rcases h.links l lk here with ⟨credits, queue⟩
        rw [← Option.some.inj there, ← same]
        exact ⟨credits, by simp only [Cargo.join, Function.update_self, queue]⟩
      · rw [if_neg same] at there
        simp only [Cargo.join, Function.update_of_ne (Ne.symm same)]
        exact h.links k lk' there
    freshLinks := fun k hk => by
      rw [Table.next_set] at hk
      have given := Table.lt_next_of_get? here
      simp only [Cargo.join, Function.update_of_ne (show k ≠ l by omega)]
      exact h.freshLinks k hk }

/-- A request is parked. -/
theorem Trades.park {w : WorkerId} {wk : Worker} (stub : s.stubs.get? x = some st)
    (books : s.workers.get? w = some wk) (r : Request) : Trades s (s.park x st w r) := by
  have stand := Table.map_get?_set stub (b := { st with parked := st.parked ++ [r] })
    (f := Stub.stand) rfl
  have seat := Table.map_get?_set books (b := { wk with parkedCount := wk.parkedCount + 1 })
    (f := Worker.seat) rfl
  rw [park_eq stub books]
  exact {
    frame := rfl
    layout := by simp only [Network.layout, stand, seat]
    stations := fun _ => rfl
    well := id
    given := ⟨rfl, Table.next_set ..⟩ }

namespace Stage

/-- A send without resources waits on what serves the messages of its endpoint. -/
theorem gives (h : Stage o ps c s) (hp : p ∈ ps)
    (aboard : Aboard o p q s.layout o.plan.lanes loc rem slots links) {carrier : Carrier}
    (slot : slots.messages = some carrier) (trades : Trades s t)
    (added : Works s [.add carrier (.send msg)] 1 t) :
    Works s [.conclude (.send msg) (.error .noResource) (.endpoint p.endpoint)] 3 t := by
  have serves : s.slot p.endpoint .messages = some carrier := by
    rw [Network.slot, show s.endpoints.get? p.endpoint = some (o.endpoint p q slots) from
      aboard.endpoint]
    exact slot
  have firm := trades.firm (h.firmly (d := .messages) hp aboard slot).1
  have calm : t.violation = none := (trades.scene h.scene).calm
  refine .into (added.cons (firm.released calm)) h.scene.calm fun agenda => ?_
  have serves' : Network.slot { s with agenda } p.endpoint .messages = some carrier := serves
  simp only [perform, conclude, recordAttempt, Request.inner?, Outcome.isNoResource,
    Refusal.isNoResource, if_true, giveUp, serves']
  rfl

/-- A request to send a number over a link without a credit joins the queue. -/
theorem asks_join (h : Stage o ps c s) (fair : o.Fair size) (hp : p ∈ ps) (hq : q ∈ ps)
    (aboard : Aboard o p q s.layout o.plan.lanes loc rem slots links)
    (slot : slots.messages = some (.link l))
    (spent : (o.settings (o.serves .messages)).credits ≤ c.used l)
    (number : (Request.send msg).IsNumber p.endpoint) :
    ∃ t, Trades s t ∧ Stage o ps (c.join l (.send msg)) t ∧
      Works s [.attempt (.send msg) (.endpoint p.endpoint)] 4 t := by
  rcases h.pipe fair hq aboard slot with ⟨rfl, lk, f, pipe, settings, credits, queue, inbox⟩
  rcases number with ⟨m, same, own, data, length⟩
  cases same
  have empty : lk.credits = 0 := by omega
  have here : s.endpoints.get? msg.endpoint = some (o.endpoint p q slots) := by
    rw [own]
    exact aboard.endpoint
  let t : Network := { s with
    links := s.links.set (links .messages) { lk with queue := lk.queue ++ [.send msg] } }
  have trades : Trades s t := .join pipe.link (.send msg)
  have queued : Works s [.add (.link (links .messages)) (.send msg)] 1 t := by
    refine .one h.scene.calm fun agenda => ?_
    simp [perform, offer, enqueue, pipe.link, empty, t]
  refine ⟨t, trades, h.trades trades (h.bears.join pipe.link _),
    .into (h.gives hp aboard slot trades queued) h.scene.calm fun agenda => ?_⟩
  have refused : Network.sendOver { s with agenda } (.link (links .messages)) msg.messageId msg.payload
      (some msg.handle) = ({ s with agenda }, some (.error .noResource)) := by
    simp [sendOver, sendBulk, pipe.link, require, pipe.leads.bulk, sendWithin,
      Nat.not_lt.2 (length ▸ pipe.leads.fits : msg.payload.length ≤ _), transmit, pipe.leads.dest,
      pipe.face, empty]
  have slot' : (o.endpoint p q slots).slots.messages = some (.link (links .messages)) := slot
  simp only [perform, attempt, Request.inner?, here, slot', attemptOver, refused]
  rfl

/-- A request to send a number over a stub that waits is parked there. -/
theorem asks_park (h : Stage o ps c s) (fair : o.Fair size) (hp : p ∈ ps)
    (aboard : Aboard o p q s.layout o.plan.lanes loc rem slots links)
    (slot : slots.messages = some (.stub x)) (unready : (loc .messages && rem .messages) = false)
    {entries : Registry} (runners : c.runners p.registry = some entries)
    (number : (Request.send msg).IsNumber p.endpoint) :
    ∃ t, Trades s t ∧ Stage o ps (c.park x p.registry (.send msg)) t ∧
      Works s [.attempt (.send msg) (.endpoint p.endpoint)] 8 t := by
  rcases h.looks aboard fair.messages slot with
    ⟨st, wk, stub, owner, -, next, -, -, -, books, registry, -⟩
  rcases number with ⟨m, same, own, data, length⟩
  cases same
  have data' : msg.messageId ≠ Signal.messageId := by
    rw [data]
    decide
  have here : s.endpoints.get? msg.endpoint = some (o.endpoint p q slots) := by
    rw [own]
    exact aboard.endpoint
  have slot' : (o.endpoint p q slots).slots.messages = some (.stub x) := slot
  rcases h.firmly (d := .messages) hp aboard slot with ⟨firmX, -, firmE⟩
  rw [← own] at firmE
  let t := s.park x st p.worker (.send msg)
  have trades : Trades s t := .park stub books _
  have bears : Bears (c.park x p.registry (.send msg)) t := by
    have bears := h.bears.parks stub books (.send msg) (registry ▸ runners)
    rw [registry] at bears
    simp only [Cargo.park, runners, Option.map_some]
    exact bears
  have parked : Works s [.add (.stub x) (.send msg)] 1 t := by
    refine .one h.scene.calm fun agenda => ?_
    have alive : workerOf? { s with agenda } st.endpoint = some p.worker := by
      have there : s.endpoints.get? p.endpoint = some (o.endpoint p q slots) := aboard.endpoint
      have live : s.workers.contains p.worker = true := Table.contains_of_get? books
      simp only [workerOf?, owner, there]
      exact if_pos live
    simp only [perform, offer, stub, Request.isSignal, beq_eq_false_iff_ne.2 data', alive, next,
      Bool.false_eq_true, if_false]
    rw [park_eq (s := { s with agenda }) stub books]
    simp only [t, park_eq stub books]
    rfl
  have recounted : Works s [.recount s.tally] 1 s := .one h.scene.calm fun _ => rfl
  have rest := (h.declines aboard fair.messages slot unready).cons (recounted.cons
    ((firmX.released h.scene.calm).cons ((firmE.released h.scene.calm).cons
      (h.gives hp aboard slot trades parked))))
  refine ⟨t, trades, h.trades trades bears, .into rest h.scene.calm fun agenda => ?_⟩
  have held : Network.sendOver { s with agenda } (.stub x) msg.messageId msg.payload
      (some msg.handle) = ({ s with agenda }, none) := by
    simp only [sendOver, data', ne_eq, not_false_eq_true, if_true]
  simp only [perform, attempt, Request.inner?, here, slot', attemptOver, held]
  rfl

end Stage

/-! ## Numbers -/

/-- What takes few steps is done within the fuel. -/
theorem few_le_fuel (s : Network) (few : n ≤ 1000000) : n ≤ s.fuel := by
  have fuel := s.extent_le_fuel
  omega

/-- An operation that makes a send is done when the send has come to its end. -/
theorem sendMessage_ends {messageId : UInt8} {payload : Bytes} (idle : s.agenda = [])
    (works : Works { (s.newSend e messageId payload).1 with tally := 0 }
      [.attempt (.send ⟨e, messageId, payload, s.handles.next⟩) (.endpoint e)] n t)
    (few : n ≤ 1000000) (calm : t.violation = none) :
    s.sendMessage e messageId payload = ({ t with agenda := [] }, .ok s.handles.next) :=
  works.answers idle (few_le_fuel _ few) calm fun _ => s.handles.next

/-- Another number is sent: it goes out, or waits with the others. -/
theorem Requested.asks (h : Requested o p q total c slots links m v new waiting s)
    (cast : Cast o p q size) (idle : s.agenda = []) {payload : Bytes} (length : payload.length = 4) :
    ∃ t handle c' new' waiting', s.sendMessage p.endpoint dataMessageId payload = (t, .ok handle) ∧
      Requested o p q (total + 1) c' slots links m v new' waiting' t ∧ t.agenda = [] := by
  have hp : p ∈ [p, q] := by simp
  have hq : q ∈ [p, q] := by simp
  let msg : Send := ⟨p.endpoint, dataMessageId, payload, s.handles.next⟩
  have number : (Request.send msg).IsNumber p.endpoint := ⟨msg, rfl, rfl, rfl, length⟩
  let s' : Network := { (s.newSend p.endpoint dataMessageId payload).1 with tally := 0 }
  have made : Stage o [p, q] c s' := by
    have trades := Trades.newSend s p.endpoint dataMessageId payload
    exact (h.stage.trades trades (h.stage.bears.newSend _ _ _)).counted 0
  have aboard : Aboard o p q s'.layout o.plan.lanes (fun _ => false) (fun _ => false) slots links :=
    h.aboard
  have arrived := h.arrived
  -- whatever becomes of it, the wiring stays as it is
  have sent {c' : Cargo} {new' : List Message} {waiting' : List Request} {t : Network}
      (trades : Trades s' t) (stage : Stage o [p, q] c' t)
      (request : ∃ entries, Announced o p entries ∧ c'.Flies (q.at m) v
        (⟨Signal.messageId, (o.message p q .request entries).encode, v⟩ :: new'))
      (numbers : ∀ msg ∈ new', msg.IsNumber v) (parked : o.paired .messages = true → new' = [])
      (waits : c'.Waits p waiting' slots.messages) (pending : ∀ r ∈ waiting', r.IsNumber p.endpoint)
      (spent : o.paired .messages = false →
        waiting' = [] ∨ (o.settings (o.serves .messages)).credits ≤ new'.length + 1)
      (rested : c'.runners q.registry = some [])
      (arrived : c'.arrived + new'.length + waiting'.length = total + 1) :
      Requested o p q (total + 1) c' slots links m v new' waiting' { t with agenda := [] } := {
    stage := stage.withAgenda []
    aboard := by
      change Aboard o p q t.layout _ _ _ _ _
      rw [trades.layout]
      exact aboard
    alone := by
      change t.layout.worker q.worker = _
      rw [trades.layout]
      exact h.alone
    number := by
      change t.endpoints.next = _
      rw [trades.frame]
      exact h.number
    inside := h.inside
    course := by
      change ∃ n < _, t.layout.course v = _
      rw [trades.layout]
      exact h.course
    direct := h.direct
    request := request
    numbers := numbers
    parked := parked
    waits := waits
    pending := pending
    spent := spent
    rested := rested
    arrived := arrived
    few := by
      change t.links.next ≤ 6
      rw [trades.given.1]
      exact h.few }
  rcases h.request with ⟨entries, told, flies⟩
  have waits := h.waits
  have pending (r : Request) (mem : r ∈ waiting ++ [.send msg]) : r.IsNumber p.endpoint := by
    rcases List.mem_append.1 mem with mem | mem
    · exact h.pending r mem
    · exact List.mem_singleton.1 mem ▸ number
  generalize hs : slots.messages = slot at waits
  cases waits with
  | parked x queue parked runners =>
    rcases h.aboard.ready cast.fair.messages hs with ⟨-, -, -, -, -, -, -, -, -, paired, -⟩
    rcases made.asks_park cast.fair hp aboard hs rfl runners number with ⟨t, trades, stage, works⟩
    refine ⟨_, _, _, new, waiting ++ [.send msg], sendMessage_ends idle works (by omega)
      stage.scene.calm, sent trades stage ⟨entries, told, ⟨flies.mail, flies.used⟩⟩ h.numbers h.parked ?_
      pending (fun direct => ?_) ?_ ?_, rfl⟩
    · have waits := h.waits
      rw [hs] at waits
      rw [hs]
      exact waits.park _
    · rw [paired] at direct
      cases direct
    · exact (Function.update_of_ne cast.registries.symm _ _).trans h.rested
    · rw [List.length_append, List.length_singleton]
      change c.arrived + _ + _ = _
      omega
  | queued l queue parked runners =>
    have unpaired := h.aboard.unpaired cast.fair.messages rfl hs
    rcases h.direct unpaired with ⟨rfl, rfl⟩
    rcases h.stage.served cast.fair hq h.aboard hs with ⟨rfl, -⟩
    have paired : ¬ o.paired .messages = true := by
      rw [unpaired]
      exact Bool.false_ne_true
    have taken : c.used (links .messages) = new.length + 1 := flies.at_link
    by_cases credit : c.used (links .messages) < (o.settings (o.serves .messages)).credits
    · have nothing : waiting = [] := (h.spent unpaired).resolve_right (by omega)
      rcases aboard.voice cast.fair fun both => absurd both paired with ⟨carrier, slot, voice⟩
      obtain rfl : carrier = .link (links .messages) := Option.some.inj (slot.symm.trans hs)
      have room := cast.fair.room _ (cast.fair.serves_lt cast.fair.messages)
      rcases made.scene.sendsOver hq aboard slot voice made.bears credit
        (rfl : msg.endpoint = p.endpoint) (.inr rfl)
        (length ▸ room.1) (w := .endpoint p.endpoint) (fun _ => by simp) with ⟨t, trades, bears, goes⟩
      let data : Message := ⟨dataMessageId, payload, links .messages⟩
      have flies' := flies.put (m := data) rfl
      refine ⟨_, _, _, new ++ [data], waiting,
        sendMessage_ends idle (goes (.refl t)) (by omega) (trades.scene made.scene).calm,
        sent trades (made.trades trades bears) ⟨entries, told, flies'⟩ (fun k mem => ?_)
          (fun both => absurd both paired) ?_ h.pending (fun _ => .inl nothing) h.rested ?_, rfl⟩
      · rcases List.mem_append.1 mem with mem | mem
        · exact h.numbers k mem
        · exact List.mem_singleton.1 mem ▸ ⟨rfl, length, rfl⟩
      · exact h.waits.same rfl rfl rfl
      · rw [List.length_append, List.length_singleton]
        change c.arrived + _ + _ = _
        omega
    · rcases made.asks_join cast.fair hp hq aboard hs (by omega) number with
        ⟨t, trades, stage, works⟩
      refine ⟨_, _, _, new, waiting ++ [.send msg], sendMessage_ends idle works (by omega)
        stage.scene.calm, sent trades stage ⟨entries, told, ⟨flies.mail, flies.used⟩⟩ h.numbers h.parked
        ?_ pending (fun _ => .inr (by omega)) h.rested ?_, rfl⟩
      · have waits := h.waits
        rw [hs] at waits
        rw [hs]
        exact waits.join _
      · rw [List.length_append, List.length_singleton]
        change c.arrived + _ + _ = _
        omega

/-- All numbers are sent. -/
theorem Requested.asks_all (cast : Cast o p q size) {messages : Nat} (ns : List Nat) :
    ∀ {s c new waiting total}, Requested o p q total c slots links m v new waiting s →
    s.agenda = [] → ∃ t handles c' new' waiting',
      (p.setup q messages).sendAll ns s = .ok (handles, t) ∧
      Requested o p q (total + ns.length) c' slots links m v new' waiting' t ∧ t.agenda = [] := by
  induction ns with
  | nil =>
    intro s c new waiting total h idle
    exact ⟨s, [], c, new, waiting, rfl, h, idle⟩
  | cons n ns ih =>
    intro s c new waiting total h idle
    have length : (Bytes.littleEndian 4 n).length = 4 := Bytes.littleEndian_length 4 n
    rcases h.asks cast idle length with ⟨t, handle, c', new', waiting', sent, requested, idle'⟩
    rcases ih requested idle' with ⟨u, handles, c'', new'', waiting'', others, requested', done⟩
    refine ⟨u, handle :: handles, c'', new'', waiting'', ?_, ?_, done⟩
    · unfold RunSetup.sendAll
      rw [Activity.bind_of (Activity.perform_of (f := fun s => s.sendMessage (p.setup q messages).endpoint
        dataMessageId (Bytes.littleEndian 4 n)) sent), Activity.bind_of others]
      rfl
    · rw [List.length_cons, Nat.add_comm ns.length, ← Nat.add_assoc]
      exact requested'

end Network

/-! ## The request -/

/-- Nothing is on its way, and nothing has arrived. -/
structure Cargo.Nothing (c : Cargo) (p q : Party) : Prop where
  mail : ∀ i, c.mail i = []
  used : ∀ l, c.used l = 0
  queue : ∀ l, c.queue l = []
  parked : ∀ x, c.parked x = []
  sender : c.runners p.registry = some []
  receiver : c.runners q.registry = some []
  arrived : c.arrived = 0

namespace Network

variable {o : Outfit} {ps : List Party} {p q : Party} {s t u : Network} {size n m total : Nat}
  {c : Cargo} {x : StubId} {st : Stub} {l : LinkId} {lk : Link} {e : EndpointId} {ep : Endpoint}
  {loc rem : Category → Bool} {slots : PerCategory Slot} {links : Category → LinkId} {msg : Send}
  {v : LinkId} {new : List Message} {waiting : List Request}

theorem openLanes_endpoints_next (e : EndpointId) (entries : List AddressEntry)
    (lanes : List Category) : ∀ s : Network,
    (s.openLanes e entries lanes).1.endpoints.next = s.endpoints.next := by
  induction lanes with
  | nil => exact fun _ => rfl
  | cons lane lanes ih =>
    intro s
    unfold openLanes
    split
    · rfl
    · rename_i ep _
      split
      · rfl
      · rename_i w _
        rcases s.openLane_adds e ep w lane entries with ⟨u, why, added, opened⟩ |
          ⟨u, c, ⟨-, refs, added, -⟩, opened⟩
        · simp only [opened, added.same.1]
        · simp only [opened]
          rw [ih, setSlots]
          exact (Table.next_modify ..).trans (congrArg Table.next added.same.1)

/-- An endpoint that has just been opened knows which auxiliary resource it uses, if it does. -/
theorem auxiliaryIndex_aboard (vocal : Vocal o p q s.layout o.plan.lanes slots links v n m)
    (fair : o.Fair size)
    (aboard : Aboard o p q s.layout o.plan.lanes (fun _ => false) rem slots links) :
    ∃ index, s.auxiliaryIndex (s.slot p.endpoint .messages) = .ok index := by
  have serves : s.slot p.endpoint .messages = slots.messages := by
    rw [Network.slot, show s.endpoints.get? p.endpoint = some (o.endpoint p q slots) from
      aboard.endpoint]
    rfl
  rw [serves]
  rcases vocal.voice with ⟨carrier, slot, voice⟩
  rw [slot]
  rcases voice.carries with rfl | ⟨x, st, rfl, stub, -, signal⟩
  · exact ⟨none, rfl⟩
  · rcases aboard.ready fair.messages slot with ⟨st', stub', -, -, -, -, -, unjoined, -⟩
    obtain rfl : st' = st := Option.some.inj (stub'.symm.trans stub)
    have auxiliary : st'.auxiliary = some v := by
      simpa [Stub.signalLink, Stub.isConnected, unjoined] using signal
    rcases Option.map_eq_some_iff.1 stub with ⟨st'', here, rfl⟩
    have auxiliary : st''.auxiliary = some v := auxiliary
    exact ⟨st''.auxiliaryResource, by
      simp only [auxiliaryIndex, here, auxiliary, Option.isSome_some, if_true]⟩

/-- When the sender creates its endpoint it sends its request. -/
theorem Stage.launches (h : Stage o [p, q] c s) (cast : Cast o p q size) (idle : s.agenda = [])
    (alone : s.layout.worker p.worker = some (o.seat p []))
    (alone' : s.layout.worker q.worker = some (o.seat q []))
    (number : s.endpoints.next = p.endpoint) (number' : q.endpoint = p.endpoint + 1)
    (nothing : c.Nothing p q) (fresh : s.links.next = 0) :
    ∃ t c' slots links m v index,
      s.createEndpoint p.worker ⟨q.uuid, q.name, o.entries q⟩ = (t, .ok (.ok p.endpoint)) ∧
      Requested o p q 0 c' slots links m v [] [] t ∧ t.agenda = [] ∧
      t.auxiliaryIndex (t.slot p.endpoint .messages) = .ok index := by
  have hp : p ∈ [p, q] := by simp
  have hq : q ∈ [p, q] := by simp
  rcases h.scene.embarks cast.fair hp hq alone number with
    ⟨named, t₁, slots, links, v, n, m, opened, embarked⟩
  have loose : Loose s.agenda := by
    rw [idle]
    exact fun l mem => List.not_mem_nil mem
  have stage₁ : Stage o [p, q] c t₁ :=
    ⟨embarked.scene, embarked.housed loose h.housed, embarked.bears h.bears⟩
  rcases stage₁.scene.signal cast.fair hp embarked.aboard (fun _ => rfl)
    (by simp : Signal.Kind.request ≠ .ack) with ⟨entries, announced, signal⟩
  rcases embarked.vocal.voice with ⟨carrier, slot, voice⟩
  let payload := (o.message p q .request entries).encode
  let msg : Send := ⟨p.endpoint, Signal.messageId, payload, t₁.handles.next⟩
  let s' : Network := { (t₁.newSend p.endpoint Signal.messageId payload).1 with tally := 0 }
  have made : Stage o [p, q] c s' :=
    (stage₁.trades (.newSend ..) (stage₁.bears.newSend ..)).counted 0
  have aboard : Aboard o p q s'.layout o.plan.lanes (fun _ => false) (fun _ => false) slots links :=
    embarked.aboard
  have credits := cast.fair.credits _ voice.inside.1
  have room := cast.fair.room _ voice.inside.1
  have unused := nothing.used v
  rcases made.scene.sendsOver hq aboard slot voice made.bears (by omega)
    (rfl : msg.endpoint = p.endpoint) (.inl rfl)
    ((cast.request_le announced).trans room.2.1) (w := .endpoint p.endpoint) (fun _ => by simp) with
    ⟨t₂, trades, bears, goes⟩
  have stage₂ : Stage o [p, q] (c.put (q.at m) ⟨Signal.messageId, payload, v⟩) t₂ :=
    made.trades trades bears
  have aboard₂ : Aboard o p q t₂.layout o.plan.lanes (fun _ => false) (fun _ => false) slots links := by
    rw [trades.layout]
    exact aboard
  have firm := (stage₂.firmly (d := .messages) hp aboard₂ slot).2.2
  have well (k : HandleId) (why : Refusal) : t₂.handles.get? k ≠ some (some (.error why)) :=
    fun failed => by cases stage₂.scene.well k _ failed
  have confirmed : Works t₂ [.confirm p.endpoint t₁.handles.next] 1 t₂ := by
    refine .one stage₂.scene.calm fun agenda => ?_
    simp only [perform, confirm]
    split
    · rename_i failed
      exact absurd failed (well _ _)
    · rfl
  have works := (goes (.refl t₂)).cons (confirmed.cons (firm.released stage₂.scene.calm))
  let t : Network := { t₂ with agenda := [], holds := .endpoint p.endpoint :: t₂.holds }
  have stage : Stage o [p, q] (c.put (q.at m) ⟨Signal.messageId, payload, v⟩) t :=
    stage₂.beside t₂.tally []
      (fun r hr => List.mem_cons_of_mem _ (stage₂.scene.attended r hr))
      fun l held => stage₂.scene.unheld l (by simpa using held)
  have aboard' : Aboard o p q t.layout o.plan.lanes (fun _ => false) (fun _ => false) slots links :=
    aboard₂
  have vocal : Vocal o p q t.layout o.plan.lanes slots links v n m := by
    change Vocal o p q t₂.layout _ _ _ _ _ _
    rw [trades.layout]
    exact embarked.vocal
  rcases auxiliaryIndex_aboard vocal cast.fair aboard' with ⟨index, auxiliary⟩
  rcases embarked.founded with ⟨wk, founded⟩
  refine ⟨t, _, slots, links, m, v, index, ?_, {
    stage := stage
    aboard := aboard'
    alone := ?_
    number := ?_
    inside := voice.inside.2
    course := ⟨n, voice.inside.1, ?_⟩
    direct := fun direct => ⟨(embarked.vocal.direct direct).2.2, (embarked.vocal.direct direct).1⟩
    request := ⟨entries, announced, ?_⟩
    numbers := fun _ mem => (List.not_mem_nil mem).elim
    parked := fun _ => rfl
    waits := ?_
    pending := fun _ mem => (List.not_mem_nil mem).elim
    spent := fun _ => .inl rfl
    rested := nothing.receiver
    arrived := nothing.arrived
    few := ?_ }, rfl, auxiliary⟩
  · have unknown : s.findEndpoint? p.worker q.uuid = none := by
      rcases Option.map_eq_some_iff.1 alone with ⟨wk', here, seat⟩
      have directory : wk'.directory = [] := (congrArg Worker.directory seat :)
      simp [findEndpoint?, here, directory]
    have planned : (((s.openEndpoint p.worker q.uuid q.name).1.workers.get? p.worker).map
        fun w => w.plan.lanes).getD [] = o.plan.lanes := by
      rcases Option.map_eq_some_iff.1 alone with ⟨wk', here, seat⟩
      have plan : wk'.plan = o.plan := (congrArg Worker.plan seat :)
      simp only [openEndpoint, here, note, Table.get?_set_of here, if_true, Option.map_some, plan,
        Option.getD_some]
    have idle' : (t₁.newSend p.endpoint Signal.messageId payload).1.agenda = [] := by
      change t₁.agenda = []
      rw [embarked.frame]
      exact idle
    have answered := works.answers idle' (few_le_fuel _ (by omega)) stage₂.scene.calm
      (status · t₁.handles.next)
    have made : t₁.newSignal p.endpoint .request =
        ((t₁.newSend p.endpoint Signal.messageId payload).1, .ok (t₁.handles.next,
          .attempt (.send msg) (.endpoint p.endpoint))) := by
      simp only [newSignal, signal]
      rfl
    have live : isLive { t₂ with agenda := [] } (.endpoint p.endpoint) = true :=
      Table.contains_of_get? aboard₂.endpoint
    simp only [createEndpoint, unknown]
    rw [named, planned, opened]
    simp only [made]
    rw [answered]
    have kept : keep { t₂ with agenda := [] } (.endpoint p.endpoint) = t := by
      simp only [keep, live, if_true]
      rfl
    cases ended : status { t₂ with agenda := [] } t₁.handles.next with
    | none => exact congrArg (·, _) kept
    | some out =>
      cases out with
      | ok => exact congrArg (·, _) kept
      | error why => exact absurd (Option.join_eq_some_iff.1 ended) (well _ why)
  · change t₂.layout.worker q.worker = _
    rw [trades.layout]
    change (t₁.workers.get? q.worker).map Worker.seat = _
    rw [founded.raised.workers]
    simp only [enlist]
    rw [Table.get?_set_of founded.books, if_neg cast.strangers.worker]
    exact alone'
  · have next := openLanes_endpoints_next p.endpoint (o.entries q) o.plan.lanes
      (s.openEndpoint p.worker q.uuid q.name).1
    rw [opened] at next
    change t₂.endpoints.next = _
    rw [trades.frame]
    rw [number', ← number]
    refine next.trans ?_
    simp only [openEndpoint, founded.books, note, Table.next_push]
  · rw [show t.layout = t₂.layout from rfl, trades.layout]
    exact voice.course
  · have flies : c.Flies (q.at m) v [] :=
      ⟨fun i => by rw [nothing.mail, ite_self], fun k => by rw [nothing.used, List.length_nil, ite_self]⟩
    exact flies.put rfl
  · rw [slot]
    cases carrier with
    | link l => exact .queued l (fun k => by rw [ite_self]; exact nothing.queue k) nothing.parked nothing.sender
    | stub x => exact .parked x nothing.queue (fun y => by rw [ite_self]; exact nothing.parked y) nothing.sender
  · have few := embarked.few
    rw [fresh] at few
    change t₂.links.next ≤ 6
    rw [trades.given.1]
    exact few

end Network

end Wiring
