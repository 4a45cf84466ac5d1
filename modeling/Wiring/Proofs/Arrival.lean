import Mathlib
import Wiring.Proofs.Handling

/-!
# What arrives and what goes out

Messages are taken out of an inbox one after another: each is handled, and its credit goes back.
Numbers are recorded; they go out over the link that serves the messages of their sender, as long as
there are credits, and the others wait in its queue.
-/
namespace Wiring

namespace Cargo

/-- The first messages of an inbox, numbers that a link has carried, have arrived. -/
def land (c : Cargo) (d : InterfaceId) (l : LinkId) (k : Nat) : Cargo := { c with
  mail := Function.update c.mail d ((c.mail d).drop k)
  used := Function.update c.used l (c.used l - k)
  arrived := c.arrived + k }

/-- Messages of a link have gone out, and some requests wait in its queue. -/
def ship (c : Cargo) (d : InterfaceId) (l : LinkId) (new : List Message) (queue : List Request) :
    Cargo := { c with
  mail := Function.update c.mail d (c.mail d ++ new)
  used := Function.update c.used l (c.used l + new.length)
  queue := Function.update c.queue l queue }

end Cargo

namespace Network

variable {o : Outfit} {ps : List Party} {p q : Party} {s t u : Network} {size n m a b k : Nat}
  {loc rem : Category → Bool} {slots : PerCategory Slot} {links : Category → LinkId} {v l : LinkId}
  {c c' : Cargo} {msg : Message} {later : List Message} {hd : Handler} {P Q : Network → Prop}
  {log : String}

/-! ## Messages one after another -/

/-- An inbox changes. -/
theorem Trades.mail {d : InterfaceId} {f f' : Interface} (face : s.interfaces.get? d = some f)
    (plain : f'.plain = f.plain) (trace : Array Happening) (tally : Nat) :
    Trades s { s with interfaces := s.interfaces.set d f', trace, tally } where
  frame := rfl
  layout := by
    have faced : f'.plain.face = f.plain.face := congrArg _ plain
    have faces (i : InterfaceId) : ((s.interfaces.set d f').get? i).map Interface.face =
        (s.interfaces.get? i).map Interface.face :=
      Table.map_get?_set face (show f'.face = f.face from faced) i
    simp only [Network.layout, faces]
  stations i := Table.map_get?_set face plain i
  well := id
  given := ⟨rfl, rfl⟩

/-- A credit comes back. -/
theorem Trades.returnCredit (s : Network) (l : LinkId) : Trades s (s.returnCredit l) where
  frame := rfl
  layout := by
    let more (lk : Link) : Link := { lk with credits := lk.credits + 1 }
    have courses (k : LinkId) : ((s.links.modify l more).get? k).map Link.course =
        (s.links.get? k).map Link.course :=
      Table.map_get?_modify (f := Link.course) (g := more) (fun _ => rfl) k
    simp only [Network.layout, Network.returnCredit]
    exact congrArg (fun course => (⟨_, _, course, _, _, _⟩ : Layout)) (funext courses)
  stations _ := rfl
  well := id
  given := ⟨by simp [Network.returnCredit], rfl⟩

namespace Stage

/-- The next message of an inbox is taken out for its handler. -/
theorem takes (h : Stage o ps c s) (hp : p ∈ ps) (hn : n < o.specs.length)
    (mail : c.mail (p.at n) = msg :: later) (hears : p.handlers.lookup msg.id = some hd) :
    ∃ t, Trades s t ∧ Stage o ps (c.take (p.at n)) t ∧ ∀ k agenda,
      perform { s with agenda } (.deliver (p.at n) (k + 1)) =
        { t with agenda := [.handle hd msg, .giveBack msg.sender, .deliver (p.at n) k] ++ agenda } := by
  rcases h.scene.stations p hp n hn with ⟨f, here, -, handlers⟩
  have inbox : f.inbox = msg :: later := (h.bears.mail _ f here).trans mail
  let f' : Interface := { f with inbox := later }
  let t : Network := { s with
    interfaces := s.interfaces.set (p.at n) f', trace := s.trace.push (.delivered (p.at n) msg)
    tally := s.tally + 1 }
  have plain : f'.plain = f.plain := rfl
  have heard : f.handlers.lookup msg.id = some hd := handlers ▸ hears
  have trades : Trades s t := .mail here plain _ _
  refine ⟨t, trades, h.trades trades ?_, fun k agenda => ?_⟩
  · exact {
      mail := fun i g there => by
        simp only [t, Table.get?_set_of here] at there
        simp only [Cargo.take, Function.update_apply, mail]
        by_cases same : p.at n = i
        · rw [if_pos same] at there
          rw [if_pos same.symm, ← Option.some.inj there]
          rfl
        · rw [if_neg same] at there
          rw [if_neg (Ne.symm same)]
          exact h.bears.mail i g there
      links := h.bears.links
      parked := h.bears.parked
      runners := h.bears.runners
      arrived := (arrivalCount_push _ rfl).trans h.bears.arrived
      freshLinks := h.bears.freshLinks
      freshStubs := h.bears.freshStubs }
  · simp only [perform, deliver, here, inbox, heard]
    rfl

/-- The credit of a message goes back. -/
theorem repays (h : Stage o ps c s) (taken : 0 < c.used l) :
    ∃ t, Trades s t ∧ Stage o ps (c.repay l) t ∧ Works s [.giveBack l] 1 t := by
  have trades := Trades.returnCredit s l
  refine ⟨s.returnCredit l, trades, h.trades trades ?_, .one h.scene.calm fun agenda => rfl⟩
  exact {
    mail := h.bears.mail
    links := fun k lk here => by
      simp only [Network.returnCredit, Table.get?_modify] at here
      simp only [Cargo.repay, Function.update_apply]
      by_cases same : l = k
      · subst same
        rw [if_pos rfl] at here
        rcases Option.map_eq_some_iff.1 here with ⟨lk', there, rfl⟩
        rcases h.bears.links l lk' there with ⟨credits, queue⟩
        rw [if_pos rfl]
        exact ⟨by simp only; omega, queue⟩
      · rw [if_neg same] at here
        rw [if_neg (Ne.symm same)]
        exact h.bears.links k lk here
    parked := h.bears.parked
    runners := h.bears.runners
    arrived := h.bears.arrived
    freshLinks := fun k hk => by
      simp only [Network.returnCredit, Table.next_modify] at hk
      rcases h.bears.freshLinks k hk with ⟨used, queue⟩
      refine ⟨?_, queue⟩
      simp only [Cargo.repay, Function.update_apply]
      split
      · rename_i same
        rw [← same, used]
      · exact used
    freshStubs := h.bears.freshStubs }

/-- A message is handled, its credit goes back, and the others follow. -/
theorem delivers (h : Stage o ps c s) (hp : p ∈ ps) (hn : n < o.specs.length)
    (mail : c.mail (p.at n) = msg :: later) (hears : p.handlers.lookup msg.id = some hd)
    (handled : ∀ t, Trades s t → Stage o ps (c.take (p.at n)) t → Brings t [.handle hd msg] a P)
    (others : ∀ t, P t → ∃ c', Stage o ps c' t ∧ 0 < c'.used msg.sender ∧
      ∀ u, Trades t u → Stage o ps (c'.repay msg.sender) u →
        Brings u [.deliver (p.at n) k] b Q) :
    Brings s [.deliver (p.at n) (k + 1)] (a + b + 2) Q := by
  rcases h.takes hp hn mail hears with ⟨t, trades, stage, taken⟩
  have loose (j : Job) (jobs : List Job) (quiet : ∀ l, j ≠ .release (.link l)) (later : Loose jobs) :
      Loose (j :: jobs) := by
    intro l mem
    rcases List.mem_cons.1 mem with same | mem
    · exact quiet l same.symm
    · exact later l mem
  have none : Loose [] := fun l mem => by cases mem
  have last : Loose [.deliver (p.at n) k] := loose _ _ (fun _ => by simp) none
  refine .mono (.into (n := a + (1 + b)) h.scene.calm fun rest _ =>
    ⟨t, _, taken k rest, ?_⟩) (by omega) fun _ holds => holds
  refine (handled t trades stage).cons (loose _ _ (fun _ => by simp) last) fun u hu => ?_
  rcases others u hu with ⟨c', stage', owed, more⟩
  rcases stage'.repays owed with ⟨w, trades', stage'', repaid⟩
  exact (repaid.brings (Q := fun t => t = w) rfl).cons last fun x hx => hx ▸ more w trades' stage''

/-- No message is left to be delivered. -/
theorem delivered (h : Stage o ps c s) (i : InterfaceId) : Works s [.deliver i 0] 1 s :=
  .one h.scene.calm fun _ => rfl

/-! ## Numbers -/

/-- The messages of a party go over the link that serves them. -/
theorem pipe (h : Stage o ps c s) (fair : o.Fair size) (hq : q ∈ ps)
    (aboard : Aboard o p q s.layout o.plan.lanes loc rem slots links)
    (slot : slots.messages = some (.link l)) :
    l = links .messages ∧ ∃ lk f, s.Pipe p.endpoint l lk (q.at (o.meets .messages)) f ∧
      lk.settings = o.settings (o.serves .messages) ∧
      lk.credits + c.used l = (o.settings (o.serves .messages)).credits ∧ lk.queue = c.queue l ∧
      f.inbox = c.mail (q.at (o.meets .messages)) := by
  have lane := aboard.lanes .messages fair.messages
  have served : slots.get .messages = some (.link l) := slot
  rw [served] at lane
  generalize hl : links .messages = l' at lane
  cases lane with
  | linked _ free course =>
    rcases Option.map_eq_some_iff.1 course with ⟨lk, link, course⟩
    have settings : lk.settings = o.settings (o.serves .messages) := congrArg Course.settings course
    have dest : lk.dest = some (q.at (o.meets .messages)) := congrArg Course.dest course
    rcases h.scene.stations q hq _ (fair.meets_lt fair.messages) with ⟨f, face, -⟩
    rcases h.bears.links l lk link with ⟨credits, queue⟩
    have room := fair.room _ (fair.serves_lt fair.messages)
    refine ⟨rfl, lk, f, ⟨⟨_, aboard.endpoint, slot⟩, link, face,
      ⟨dest, settings ▸ fair.bulk, settings ▸ room.1⟩, h.scene.calm⟩, settings, settings ▸ credits,
      queue, h.bears.mail _ f face⟩

/-- Traffic over a link changes the cargo at the link and at the inbox that it leads to. -/
theorem traded {e : EndpointId} {lk : Link} {d : InterfaceId} {f : Interface}
    (h : Stage o ps c s) (pipe : s.Pipe e l lk d f) (credits used : Nat) (queue : List Request)
    (inbox : List Message) {g : Ledger} {k : Nat} (grows : s.ledger.Extends k g)
    (balance : credits + used = lk.settings.credits) :
    Trades s (s.traded l { lk with credits, queue } d { f with inbox } g) ∧
    Stage o ps { c with
      mail := Function.update c.mail d inbox
      used := Function.update c.used l used
      queue := Function.update c.queue l queue
      arrived := c.arrived + k } (s.traded l { lk with credits, queue } d { f with inbox } g) := by
  have trades : Trades s (s.traded l { lk with credits, queue } d { f with inbox } g) :=
    .traded pipe.link pipe.face rfl rfl grows
  refine ⟨trades, h.trades trades ?_⟩
  have bears := h.bears.traded pipe.link pipe.face { lk with credits, queue } rfl used balance
    { f with inbox } g
  rw [grows.arrivals, show s.ledger.trace = s.trace from rfl, h.bears.arrived] at bears
  exact bears

/-- Numbers arrive. -/
theorem lands (h : Stage o ps c s) (fair : o.Fair size) (hq : q ∈ ps)
    (aboard : Aboard o p q s.layout o.plan.lanes loc rem slots links)
    (slot : slots.messages = some (.link l))
    (records : q.handlers.lookup dataMessageId = some (.record log none false))
    {new : List Message} (mail : c.mail (q.at (o.meets .messages)) = new ++ later)
    (numbers : ∀ msg ∈ new, msg.IsNumber l) (taken : new.length ≤ c.used l) :
    ∃ t, Trades s t ∧ Stage o ps (c.land (q.at (o.meets .messages)) l new.length) t ∧
      Works s [.deliver (q.at (o.meets .messages)) new.length] (3 * new.length + 1) t := by
  rcases h.pipe fair hq aboard slot with ⟨-, lk, f, pipe, settings, credits, queue, inbox⟩
  have handlers : f.handlers = q.handlers := by
    rcases h.scene.stations q hq _ (fair.meets_lt fair.messages) with ⟨f', face, -, handlers⟩
    cases pipe.face.symm.trans face
    exact handlers
  rcases pipe.delivers (handlers ▸ records) lk.queue later new lk.credits s.ledger numbers with
    ⟨g, grows, works⟩
  have start : s.traded l { lk with credits := lk.credits, queue := lk.queue }
      (q.at (o.meets .messages)) { f with inbox := new ++ later } s.ledger = s := by
    rw [← mail, ← inbox]
    exact traded_self pipe.link pipe.face
  rw [start] at works
  rcases h.traded pipe (lk.credits + new.length) (c.used l - new.length) lk.queue later grows
      (by rw [settings]; omega) with ⟨trades, stage⟩
  refine ⟨_, trades, ?_, works⟩
  have dropped : (c.mail (q.at (o.meets .messages))).drop new.length = later := by
    rw [mail, List.drop_left]
  have queued : Function.update c.queue l lk.queue = c.queue := by
    rw [queue, Function.update_eq_self]
  rw [queued] at stage
  rw [Cargo.land, dropped]
  exact stage

/-- Numbers that wait in the queue go out as long as there are credits. -/
theorem ships (h : Stage o ps c s) (fair : o.Fair size) (hq : q ∈ ps)
    (aboard : Aboard o p q s.layout o.plan.lanes loc rem slots links)
    (slot : slots.messages = some (.link l))
    (numbers : ∀ r ∈ c.queue l, r.IsNumber p.endpoint) :
    ∃ t new, Trades s t ∧ new.length =
        min ((o.settings (o.serves .messages)).credits - c.used l) (c.queue l).length ∧
      (∀ msg ∈ new, msg.IsNumber l) ∧
      Stage o ps (c.ship (q.at (o.meets .messages)) l new ((c.queue l).drop new.length)) t ∧
      Works s [.dispatch l] (3 * (c.queue l).length + 1) t := by
  rcases h.pipe fair hq aboard slot with ⟨-, lk, f, pipe, settings, credits, queue, inbox⟩
  rcases pipe.dispatches lk.queue lk.credits f.inbox s.ledger (queue ▸ numbers) with
    ⟨g, new, grows, few, numbers', works⟩
  have start : s.traded l { lk with credits := lk.credits, queue := lk.queue }
      (q.at (o.meets .messages)) { f with inbox := f.inbox } s.ledger = s :=
    traded_self pipe.link pipe.face
  rw [start, queue] at works
  rw [queue] at few
  have free : lk.credits = (o.settings (o.serves .messages)).credits - c.used l := by omega
  rcases h.traded pipe (lk.credits - new.length) (c.used l + new.length) ((c.queue l).drop new.length)
      (f.inbox ++ new) grows (by rw [settings]; omega) with ⟨trades, stage⟩
  refine ⟨_, new, trades, by rw [few, free], numbers', ?_, works⟩
  rw [Cargo.ship, ← inbox]
  exact stage

/-- So do numbers that are replayed over an idle link; the others wait in its queue. -/
theorem replays (h : Stage o ps c s) (fair : o.Fair size) (hq : q ∈ ps)
    (aboard : Aboard o p q s.layout o.plan.lanes loc rem slots links)
    (slot : slots.messages = some (.link l)) (empty : c.queue l = []) (worker : WorkerId)
    {requests : List Request} (numbers : ∀ r ∈ requests, r.IsNumber p.endpoint) :
    ∃ t new, Trades s t ∧ new.length =
        min ((o.settings (o.serves .messages)).credits - c.used l) requests.length ∧
      (∀ msg ∈ new, msg.IsNumber l) ∧
      Stage o ps (c.ship (q.at (o.meets .messages)) l new (requests.drop new.length)) t ∧
      Works s (requests.flatMap fun r => [.add (.link l) r, .replayed worker])
        (5 * requests.length) t := by
  rcases h.pipe fair hq aboard slot with ⟨-, lk, f, pipe, settings, credits, queue, inbox⟩
  rcases pipe.replays worker requests lk.credits f.inbox s.ledger numbers with
    ⟨g, new, grows, few, numbers', works⟩
  have start : s.traded l { lk with credits := lk.credits, queue := [] }
      (q.at (o.meets .messages)) { f with inbox := f.inbox } s.ledger = s := by
    rw [← empty, ← queue]
    exact traded_self pipe.link pipe.face
  rw [start] at works
  have free : lk.credits = (o.settings (o.serves .messages)).credits - c.used l := by omega
  rcases h.traded pipe (lk.credits - new.length) (c.used l + new.length) (requests.drop new.length)
      (f.inbox ++ new) grows (by rw [settings]; omega) with ⟨trades, stage⟩
  refine ⟨_, new, trades, by rw [few, free], numbers', ?_, works⟩
  rw [Cargo.ship, ← inbox]
  exact stage

end Stage

end Network

end Wiring
