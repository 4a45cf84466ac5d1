import Mathlib
import Wiring.Proofs.Greeting

/-!
# The handshake between the parties

A request makes the receiver open its endpoint, connect its stubs and reply; the reply makes the
sender connect and mark its stubs and acknowledge; the acknowledgement makes the receiver mark its
own. None of this can fail between parties that are fitted out alike, and each signal takes one
credit.
-/
namespace Wiring

namespace Network

variable {o : Outfit} {ps : List Party} {p q : Party} {s t u : Network} {size : Nat}
  {loc rem : Category → Bool} {slots : PerCategory Slot} {links : Category → LinkId}
  {carrier : Carrier} {v : LinkId} {n m : Nat} {c : Cargo} {w : Waiter} {rest : List Job}
  {ref : Ref}

/-! ## What there is to do does not matter -/

theorem Scene.withAgenda (h : Scene o ps s) (agenda : List Job) :
    Scene o ps { s with agenda } := { h with }

theorem Bears.withAgenda (h : Bears c s) (agenda : List Job) : Bears c { s with agenda } :=
  { h with }

theorem Housed.withAgenda (h : s.Housed) (agenda : List Job) : Housed { s with agenda } := h

/-! ## Sending -/


/-- A party sends over a link that leads to the other one, for a credit. -/
theorem Scene.sendsOver (h : Scene o ps s) (hq : q ∈ ps)
    (aboard : Aboard o p q s.layout o.plan.lanes loc rem slots links)
    (slot : slots.messages = some carrier) (voice : Voice o p q s.layout carrier v n m)
    (bears : Bears c s) (credit : c.used v < (o.settings n).credits) {msg : Send}
    (own : msg.endpoint = p.endpoint)
    (free : msg.messageId = Signal.messageId ∨ carrier = .link v)
    (fits : msg.payload.length ≤ (o.settings n).maxBulk) (waits : ∀ k, w ≠ .application k) :
    ∃ t, Trades s t ∧ Bears { c with
        mail := Function.update c.mail (q.at m)
          (c.mail (q.at m) ++ [⟨msg.messageId, msg.payload, v⟩])
        used := Function.update c.used v (c.used v + 1) } t ∧
      ∀ {k u}, Works t w.next k u → Works s [.attempt (.send msg) w] (k + 2) u := by
  rcases Option.map_eq_some_iff.1 voice.course with ⟨lk, link, course⟩
  have settings : lk.settings = o.settings n := congrArg Course.settings course
  have dest : lk.dest = some (q.at m) := congrArg Course.dest course
  rcases h.stations q hq m voice.inside.2 with ⟨f, there, -⟩
  rcases bears.links v lk link with ⟨credits, queue⟩
  rw [settings] at credits
  have free' : ∃ k, lk.credits = k + 1 := ⟨lk.credits - 1, by omega⟩
  rcases free' with ⟨k, free'⟩
  have here : s.endpoints.get? msg.endpoint = some (o.endpoint p q slots) := by
    rw [own]
    exact aboard.endpoint
  have carries : s.CarriesSignals carrier v := by
    rcases voice.carries with same | ⟨x, st, same, stub, -, signal⟩
    · exact .inl same
    · rcases Option.map_eq_some_iff.1 stub with ⟨st', stub', rfl⟩
      exact .inr ⟨x, st', same, stub', signal⟩
  have leads : lk.Leads (q.at m) msg.payload.length :=
    ⟨dest, by rw [settings]; exact voice.bulk, by rw [settings]; exact fits⟩
  rcases attempt_sent here slot carries free link leads free' there waits h.calm with
    ⟨g, grows, goes⟩
  let lk' : Link := { lk with credits := k }
  let f' : Interface := { f with inbox := f.inbox ++ [⟨msg.messageId, msg.payload, v⟩] }
  have spent : lk'.credits + (c.used v + 1) = lk.settings.credits := by
    rw [settings]
    change k + (c.used v + 1) = _
    omega
  have bears' := bears.traded link there lk' rfl (c.used v + 1) spent f' g
  have arrived : arrivalCount g.trace = c.arrived := grows.arrivals.trans bears.arrived
  have queued : Function.update c.queue v lk'.queue = c.queue := by
    rw [show lk'.queue = c.queue v from queue, Function.update_eq_self]
  have inbox : f'.inbox = c.mail (q.at m) ++ [⟨msg.messageId, msg.payload, v⟩] := by
    rw [← bears.mail _ _ there]
  rw [arrived, queued, inbox] at bears'
  exact ⟨s.traded v lk' (q.at m) f' g, Trades.traded link there rfl rfl grows, bears', goes⟩

end Network

/-- The link that carries the signals of a party whose lane for messages is ready, or needs not be
made ready, is that of the lane. -/
theorem Aboard.voice {o : Outfit} {p q : Party} {k : Layout} {loc rem : Category → Bool}
    {slots : PerCategory Slot} {links : Category → LinkId} {size : Nat} (fair : o.Fair size)
    (h : Aboard o p q k o.plan.lanes loc rem slots links)
    (ready : o.paired .messages = true → (loc .messages && rem .messages) = true) :
    ∃ carrier, slots.messages = some carrier ∧ Voice o p q k carrier (links .messages)
      (o.serves .messages) (o.meets .messages) := by
  have lane := h.lanes .messages fair.messages
  have inside := And.intro (fair.serves_lt fair.messages) (fair.meets_lt fair.messages)
  have messages : slots.get .messages = slots.messages := rfl
  rw [messages] at lane
  generalize slots.messages = slot at lane ⊢
  generalize links .messages = l at lane ⊢
  cases lane with
  | linked _ free course => exact ⟨.link l, rfl, .inl rfl, course, inside, fair.bulk⟩
  | waiting x st _ paired stub own category next sole marks course =>
    rcases Bool.and_eq_true_iff.1 (ready paired) with ⟨connected, marked⟩
    rw [connected] at course marks
    rw [marked] at marks
    refine ⟨.stub x, rfl, .inr ⟨x, st, rfl, stub, own, ?_⟩, course, inside, fair.bulk⟩
    simp [Stub.signalLink, Stub.isConnected, marks.1, marks.2, next]

/-! ## A new endpoint -/

namespace Network

variable {o : Outfit} {ps : List Party} {p q : Party} {s t u : Network} {size : Nat}
  {slots : PerCategory Slot} {links : Category → LinkId} {v : LinkId} {n m : Nat} {c : Cargo}

/-- A party has opened its endpoint to the other one with all its lanes. -/
structure Embarked (o : Outfit) (ps : List Party) (p q : Party) (s t : Network)
    (slots : PerCategory Slot) (links : Category → LinkId) (v : LinkId) (n m : Nat) : Prop where
  scene : Scene o ps t
  aboard : Aboard o p q t.layout o.plan.lanes (fun _ => false) (fun _ => false) slots links
  vocal : Vocal o p q t.layout o.plan.lanes slots links v n m
  founded : ∃ wk, Founded s p.worker wk q.uuid p.endpoint t
  few : t.links.next ≤ s.links.next + 6
  frame : t = { s with
    interfaces := t.interfaces, links := t.links, stubs := t.stubs, gates := t.gates
    endpoints := t.endpoints, workers := t.workers
    trace := s.trace.push (.opened p.endpoint p.worker) }

theorem Scene.embarks (h : Scene o ps s) (fair : o.Fair size) (hp : p ∈ ps) (hq : q ∈ ps)
    (alone : (s.workers.get? p.worker).map Worker.seat = some (o.seat p []))
    (number : s.endpoints.next = p.endpoint) :
    (s.openEndpoint p.worker q.uuid q.name).2 = p.endpoint ∧
    ∃ t slots links v n m, (s.openEndpoint p.worker q.uuid q.name).1.openLanes p.endpoint
      (o.entries q) o.plan.lanes = (t, .ok ()) ∧ Embarked o ps p q s t slots links v n m := by
  rcases Option.map_eq_some_iff.1 alone with ⟨wk, books, seat⟩
  have plan : wk.plan = o.plan := (congrArg Worker.plan seat :)
  have directory : wk.directory = [] := (congrArg Worker.directory seat :)
  have settings : wk.settings = { name := p.name } := (congrArg Worker.settings seat :)
  have unknown : s.findEndpoint? p.worker q.uuid = none := by
    simp [findEndpoint?, books, directory]
  rcases Founded.openEndpoint books unknown q.name with ⟨founded, -⟩
  let ep := o.endpoint p q (.const none)
  let wk' : Worker :=
    { wk with settings := { name := p.name }, plan := o.plan, directory := [(q.uuid, p.endpoint)] }
  let u : Network := { s with
    endpoints := s.endpoints.push ep, workers := s.workers.set p.worker wk'
    trace := s.trace.push (.opened p.endpoint p.worker) }
  have opened : s.openEndpoint p.worker q.uuid q.name = (u, p.endpoint) := by
    simp only [Network.openEndpoint, books, number, directory, plan, settings]
    rfl
  rw [opened] at founded ⊢
  refine ⟨rfl, ?_⟩
  have here : u.endpoints.get? p.endpoint = some ep := by
    rw [← number]
    exact (Table.get?_push ..).trans (if_pos rfl)
  have scene : Scene o ps u :=
    h.next rfl rfl (fun _ => rfl) (fun _ _ => .inl) id (fun _ => id) fun _ => id
  have aboard : Aboard o p q u.layout [] (fun _ => false) (fun _ => false) (.const none)
      fun _ => 0 := by
    refine ⟨?_, here, fun c hc => (List.not_mem_nil hc).elim,
      fun c _ => PerCategory.get_const none c, fun c hc => (List.not_mem_nil hc).elim⟩
    have there : u.workers.get? p.worker = some wk' :=
      (Table.get?_set_of books wk' _).trans (if_pos rfl)
    refine (congrArg (Option.map Worker.seat) there).trans ?_
    rw [Option.map_some, Outfit.seat]
    have same : wk'.seat = { wk.seat with
      settings := { name := p.name }, plan := o.plan, directory := [(q.uuid, p.endpoint)] } := rfl
    rw [same, seat]
    rfl
  rcases scene.openLanes fair hp hq o.plan.lanes (fun _ hc => hc)
      (List.Nodup.filter _ (by decide)) aboard (fun messages => by cases messages) with
    ⟨t, slots, links, done, scene', aboard', vocal, few, frame⟩
  rcases vocal fair.messages with ⟨v, n, m, vocal⟩
  have three : o.plan.lanes.length ≤ 3 := List.length_filter_le _ _
  refine ⟨t, slots, links, v, n, m, done, scene', aboard', vocal, ⟨wk, ?_⟩, ?_, ?_⟩
  · have raised : Founded s p.worker wk q.uuid p.endpoint
        (u.openLanes p.endpoint (o.entries q) wk.plan.lanes).1 := by
      refine founded.openLanes (o.entries q) (fun _ hc => hc) (List.Nodup.filter _ (by decide)) ?_
      intro ep' here' lane _ category _
      cases here.symm.trans here'
      exact PerCategory.get_const none category
    rw [plan, done] at raised
    exact raised
  · have same : u.links.next = s.links.next := rfl
    omega
  · rw [frame]

namespace Embarked

theorem housed (h : Embarked o ps p q s t slots links v n m) (loose : Loose s.agenda)
    (housed : s.Housed) : t.Housed := by
  rcases h.founded with ⟨wk, founded⟩
  intro l live
  rcases Nat.lt_or_ge l s.links.next with old | new
  · have same : t.links.get? l = s.links.get? l := founded.raised.links.same l old
    have before : s.links.contains l = true := by
      rw [Table.contains, ← same]
      exact live
    refine founded.raised.isOwned (isOwned_mono (fun w wk' here => ?_) (fun e ep here => ?_)
      (fun x st here => ?_) (housed l before))
    · by_cases equal : p.worker = w
      · subst equal
        cases founded.books.symm.trans here
        refine ⟨_, (Table.get?_set_of founded.books _ _).trans (if_pos rfl), fun _ h => h,
          List.subset_append_left _ _⟩
      · exact ⟨wk', (Table.get?_set_of founded.books _ _).trans ((if_neg equal).trans here),
          fun _ h => h, fun _ h => h⟩
    · exact ⟨ep, here, fun _ h => h⟩
    · exact ⟨st, here, fun _ h => h⟩
  · rcases isHeld_iff.1 (founded.raised.secured (.link l) new live) with held | planned | owned
    · exact absurd held (h.scene.unheld l)
    · rw [h.frame] at planned
      exact absurd planned (loose l)
    · exact owned

theorem bears (h : Embarked o ps p q s t slots links v n m) (bears : Bears c s) : Bears c t := by
  rcases h.founded with ⟨wk, founded⟩
  have raised := founded.raised
  refine bears.carry (fun i f here => ?_) (fun l lk here => ?_) (fun x st here => ?_) ?_ ?_
    ⟨raised.links.next, raised.stubs.next⟩
  · have same := raised.interfaces i
    rw [here] at same
    rcases Option.map_eq_some_iff.1 same.symm with ⟨f', there, same⟩
    exact ⟨f', there, (congrArg Interface.inbox same.symm :)⟩
  · rcases Nat.lt_or_ge l s.links.next with old | new
    · rw [raised.links.same l old] at here
      exact .inr ⟨lk, here, rfl, rfl, rfl⟩
    · exact .inl ⟨new, raised.idle l lk new here⟩
  · rcases Nat.lt_or_ge x s.stubs.next with old | new
    · rw [raised.stubs.same x old] at here
      exact .inr ⟨st, here, rfl⟩
    · exact .inl ⟨new, (raised.empty x st new here).1⟩
  · rw [h.frame]
  · rw [h.frame]
    exact arrivalCount_push _ rfl

/-- What the other party has stays as it is. -/
theorem clear (h : Embarked o ps p q s t slots links v n m) (strangers : Strangers o p q)
    {ep : Endpoint} (here : s.layout.endpoint q.endpoint = some ep) :
    ClearOf o q s.layout t.layout := by
  rcases h.founded with ⟨wk, founded⟩
  have raised := founded.raised
  refine ⟨?_, ?_, fun l c course _ => ?_, fun x st stub _ => ?_⟩
  · have same : t.workers = _ := raised.workers
    have other := Table.get?_set_of founded.books
      { wk with directory := wk.directory ++ [(q.uuid, p.endpoint)] } q.worker
    rw [if_neg strangers.worker] at other
    change (t.workers.get? q.worker).map _ = (s.workers.get? q.worker).map _
    rw [same]
    exact congrArg _ other
  · exact (raised.endpoints.get? here).trans here.symm
  · rcases Option.map_eq_some_iff.1 course with ⟨lk, link, rfl⟩
    exact Option.map_eq_some_iff.2 ⟨lk, raised.links.get? link, rfl⟩
  · rcases Option.map_eq_some_iff.1 stub with ⟨st', there, rfl⟩
    exact Option.map_eq_some_iff.2 ⟨st', raised.stubs.get? there, rfl⟩

end Embarked

end Network

end Wiring
