import Mathlib
import Wiring.Proofs.Bounded
import Wiring.Proofs.Reporting

/-!
# Data over a link

A link with credits takes the requests of its queue one after another, and the messages are handed
to the recorder of the interface that it leads to, which gives the credits back. Each message costs
a few steps, and nothing changes but the link, the inbox and the records of what was done.
-/
namespace Wiring

/-- How many numbers have been recorded: payloads of four bytes. -/
def arrivalCount (trace : Array Happening) : Nat :=
  ((seen trace).filter fun payload => payload.length = 4).length

theorem received_length (s : Network) : (received s).length = arrivalCount s.trace := by
  rw [received_eq, arrivalCount]
  induction seen s.trace with
  | nil => rfl
  | cons payload payloads ih =>
    by_cases four : payload.length = 4
    · simp [four, ih]
    · simp [four, ih]

theorem arrivalCount_push (trace : Array Happening) {x : Happening} (mute : x.data = []) :
    arrivalCount (trace.push x) = arrivalCount trace := by
  rw [arrivalCount, seen_push, mute, List.append_nil, arrivalCount]

/-- What is kept of the work that was done: the counts of the workers, the ends of the sends and
all that happened. -/
structure Ledger where
  workers : Table Worker
  handles : Table (Option Outcome)
  trace : Array Happening
  tally : Nat

namespace Ledger

variable {g g' g'' : Ledger} {k n : Nat}

/-- No send has failed. -/
def AllWell (g : Ledger) : Prop := ∀ h o, g.handles.get? h = some (some o) → o = .ok ()

/-- A number of arrivals is added, and nothing fails. -/
structure Extends (k : Nat) (g g' : Ledger) : Prop where
  seats : ∀ w, (g'.workers.get? w).map Worker.seat = (g.workers.get? w).map Worker.seat
  well : g.AllWell → g'.AllWell
  arrivals : arrivalCount g'.trace = arrivalCount g.trace + k

theorem Extends.refl (g : Ledger) : Extends 0 g g := ⟨fun _ => rfl, id, rfl⟩

theorem Extends.trans (h : Extends k g g') (h' : Extends n g' g'') : Extends (k + n) g g'' where
  seats w := (h'.seats w).trans (h.seats w)
  well := h'.well ∘ h.well
  arrivals := by rw [h'.arrivals, h.arrivals, Nat.add_assoc]

/-- What is noted is no arrival. -/
theorem extends_note (g : Ledger) {x : Happening} (mute : x.data = []) (tally : Nat) :
    Extends 0 g { g with trace := g.trace.push x, tally } :=
  ⟨fun _ => rfl, id, arrivalCount_push _ mute⟩

theorem extends_tally (g : Ledger) (tally : Nat) : Extends 0 g { g with tally } :=
  ⟨fun _ => rfl, id, rfl⟩

/-- A send ends well. -/
theorem extends_complete (g : Ledger) (h : HandleId) (tally : Nat) : Extends 0 g { g with
    handles := g.handles.modify h fun old => some (old.getD (.ok ())), tally } where
  seats _ := rfl
  well all k o here := by
    rcases Table.get?_of_modify here with ⟨old, there, rfl | same⟩
    · exact all k o there
    · cases old with
      | none => exact Option.some.inj same
      | some o' =>
        cases all k o' there
        exact Option.some.inj same
  arrivals := rfl

/-- A new send has not ended. -/
theorem extends_push (g : Ledger) : Extends 0 g { g with handles := g.handles.push none } where
  seats _ := rfl
  well all h o here := by
    rcases Table.get?_of_push here with ⟨-, same⟩ | there
    · cases same
    · exact all h o there
  arrivals := rfl

end Ledger

/-- A request to send a number. -/
def Request.IsNumber (e : EndpointId) (r : Request) : Prop :=
  ∃ m : Send, r = .send m ∧ m.endpoint = e ∧ m.messageId = dataMessageId ∧ m.payload.length = 4

/-- A number on its way. -/
structure Message.IsNumber (l : LinkId) (m : Message) : Prop where
  id : m.id = dataMessageId
  length : m.payload.length = 4
  sender : m.sender = l

/-- The link leads to an interface and can take a payload of the given length. -/
structure Link.Leads (lk : Link) (d : InterfaceId) (size : Nat) : Prop where
  dest : lk.dest = some d
  bulk : lk.settings.capabilities.contains .bulkMessages = true
  fits : size ≤ lk.settings.maxBulk

/-- What is left to do for who waits for a send that is finished. -/
def Waiter.next : Waiter → List Job
  | .queue l => [.dispatch l]
  | _ => []

namespace Network

variable {s t u : Network} {rest : List Job} {e : EndpointId} {ep : Endpoint} {l : LinkId}
  {lk : Link} {d : InterfaceId} {f : Interface} {g : Ledger} {m : Send} {w : Waiter} {c : Carrier}
  {n : Nat}

def ledger (s : Network) : Ledger := ⟨s.workers, s.handles, s.trace, s.tally⟩

/-- The network with another state of a link and of an interface, and with other records. -/
def traded (s : Network) (l : LinkId) (lk : Link) (d : InterfaceId) (f : Interface) (g : Ledger) :
    Network :=
  { s with
    links := s.links.set l lk
    interfaces := s.interfaces.set d f
    workers := g.workers
    handles := g.handles
    trace := g.trace
    tally := g.tally }

theorem traded_self (here : s.links.get? l = some lk) (there : s.interfaces.get? d = some f) :
    s.traded l lk d f s.ledger = s := by
  unfold traded ledger
  rw [Table.set_get? here, Table.set_get? there]

theorem traded_traded (s : Network) (lk' : Link) (f' : Interface) (g' : Ledger) :
    (s.traded l lk d f g).traded l lk' d f' g' = s.traded l lk' d f' g' := by
  unfold traded
  rw [Table.set_set, Table.set_set]

/-! ## Sending -/

theorem sendBulk_traded {messageId : UInt8} {payload : Bytes} {source : Option HandleId}
    (here : s.links.get? l = some lk) (leads : lk.Leads d payload.length)
    (credit : lk.credits = n + 1) (there : s.interfaces.get? d = some f) :
    s.sendBulk l messageId payload source =
      (s.traded l { lk with credits := n } d
        { f with inbox := f.inbox ++ [⟨messageId, payload, l⟩] }
        { s.ledger with trace := s.trace.push (.accepted l d messageId payload source) },
        .ok ()) := by
  simp only [sendBulk, here, require, leads.bulk, sendWithin, if_true, Nat.not_lt.2 leads.fits,
    if_false, transmit, leads.dest, there, credit]
  rfl

/-- A signal, or data of an endpoint whose messages a link carries, goes out for a credit. -/
theorem perform_attempt_sent (here : s.endpoints.get? m.endpoint = some ep)
    (slot : ep.slots.messages = some c) (carries : s.CarriesSignals c l)
    (free : m.messageId = Signal.messageId ∨ c = .link l) (link : s.links.get? l = some lk)
    (leads : lk.Leads d m.payload.length) (credit : lk.credits = n + 1)
    (there : s.interfaces.get? d = some f) :
    s.perform (.attempt (.send m) w) = (s.traded l { lk with credits := n } d
      { f with inbox := f.inbox ++ [⟨m.messageId, m.payload, l⟩] }
      { s.ledger with
        trace := s.trace.push (.accepted l d m.messageId m.payload (some m.handle)) }).push
      [.conclude (.send m) (.ok ()) w] := by
  have sent : s.sendBulk l m.messageId m.payload (some m.handle) = _ :=
    sendBulk_traded link leads credit there
  have over' : s.sendOver c m.messageId m.payload (some m.handle) =
      ((s.sendBulk l m.messageId m.payload (some m.handle)).1,
        some (s.sendBulk l m.messageId m.payload (some m.handle)).2) := by
    rcases carries with rfl | ⟨x, st, rfl, stub, signal⟩
    · rfl
    · rcases free with same | same
      · simp [sendOver, same, stub, signal]
      · cases same
  simp only [perform, attempt, Request.inner?, here, slot, attemptOver, over', sent]

/-- A send that has gone out ends well; a queue goes on with its next request. -/
theorem perform_conclude_sent (s : Network) (m : Send) {w : Waiter}
    (own : ∀ h, w ≠ .application h) : ∃ tally, ∀ agenda,
    perform { s with agenda } (.conclude (.send m) (.ok ()) w) = { s with
      handles := s.handles.modify m.handle fun old => some (old.getD (.ok ()))
      tally, agenda := w.next ++ agenda } := by
  cases w with
  | application h => exact absurd rfl (own h)
  | queue l => exact ⟨s.tally + 1, fun agenda => rfl⟩
  | retry c => exact ⟨s.tally, fun agenda => rfl⟩
  | endpoint e => exact ⟨s.tally, fun agenda => rfl⟩

/-- An attempt that goes out is finished, and then who waits for it goes on. -/
theorem attempt_sent (here : s.endpoints.get? m.endpoint = some ep)
    (slot : ep.slots.messages = some c) (carries : s.CarriesSignals c l)
    (free : m.messageId = Signal.messageId ∨ c = .link l) (link : s.links.get? l = some lk)
    (leads : lk.Leads d m.payload.length) (credit : lk.credits = n + 1)
    (there : s.interfaces.get? d = some f) (own : ∀ h, w ≠ .application h)
    (calm : s.violation = none) : ∃ g, s.ledger.Extends 0 g ∧ ∀ {k u},
      Works (s.traded l { lk with credits := n } d
        { f with inbox := f.inbox ++ [⟨m.messageId, m.payload, l⟩] } g) w.next k u →
      Works s [.attempt (.send m) w] (k + 2) u := by
  let noted : Ledger := { s.ledger with
    trace := s.trace.push (.accepted l d m.messageId m.payload (some m.handle)) }
  let sent : Network := s.traded l { lk with credits := n } d
    { f with inbox := f.inbox ++ [⟨m.messageId, m.payload, l⟩] } noted
  rcases perform_conclude_sent sent m own with ⟨tally, concluded⟩
  refine ⟨_, (Ledger.extends_note _ rfl _).trans (Ledger.extends_complete noted m.handle tally),
    fun h => ?_⟩
  have ended : Works sent [.conclude (.send m) (.ok ()) w] _ _ := h.into calm concluded
  exact ended.into calm fun agenda => perform_attempt_sent (s := { s with agenda }) here slot
    carries free link leads credit there

/-! ## A queue that is worked off -/

/-- An endpoint's messages go over a link that leads to an interface. -/
structure Pipe (s : Network) (e : EndpointId) (l : LinkId) (lk : Link) (d : InterfaceId)
    (f : Interface) : Prop where
  slot : ∃ ep, s.endpoints.get? e = some ep ∧ ep.slots.messages = some (.link l)
  link : s.links.get? l = some lk
  face : s.interfaces.get? d = some f
  leads : lk.Leads d 4
  calm : s.violation = none

namespace Pipe

variable {r : Request}

theorem link_traded (h : s.Pipe e l lk d f) (lk' : Link) (f' : Interface) (g : Ledger) :
    (s.traded l lk' d f' g).links.get? l = some lk' :=
  (Table.get?_set_of h.link lk' l).trans (if_pos rfl)

theorem face_traded (h : s.Pipe e l lk d f) (lk' : Link) (f' : Interface) (g : Ledger) :
    (s.traded l lk' d f' g).interfaces.get? d = some f' :=
  (Table.get?_set_of h.face f' d).trans (if_pos rfl)

/-- A number is sent for a credit. -/
theorem sends (h : s.Pipe e l lk d f) (number : r.IsNumber e) (own : ∀ k, w ≠ .application k)
    (credits : Nat) (queue : List Request) (inbox : List Message) (g : Ledger) :
    ∃ g' m, g.Extends 0 g' ∧ Message.IsNumber l m ∧ ∀ {k u},
      Works (s.traded l { lk with credits, queue } d { f with inbox := inbox ++ [m] } g')
        w.next k u →
      Works (s.traded l { lk with credits := credits + 1, queue } d { f with inbox } g)
        [.attempt r w] (k + 2) u := by
  rcases number with ⟨m, rfl, rfl, data, four⟩
  rcases h.slot with ⟨ep, here, slot⟩
  rcases attempt_sent
      (s := s.traded l { lk with credits := credits + 1, queue } d { f with inbox } g) here slot
      (.inl rfl) (.inr rfl) (h.link_traded ..) { h.leads with fits := four ▸ h.leads.fits } rfl
      (h.face_traded ..) own h.calm with ⟨g', grows, goes⟩
  refine ⟨g', ⟨m.messageId, m.payload, l⟩, grows, ⟨data, four, rfl⟩, fun works => goes ?_⟩
  rw [traded_traded]
  exact works

theorem dequeue_next (h : s.Pipe e l lk d f) (credits : Nat) (queue : List Request)
    (f' : Interface) (agenda : List Job) :
    Network.dequeue { s.traded l { lk with credits := credits + 1, queue := r :: queue } d f' g with
        agenda } l =
      ({ s.traded l { lk with credits := credits + 1, queue } d f' g with agenda }, some r) := by
  have here := h.link_traded { lk with credits := credits + 1, queue := r :: queue } f' g
  simp only [dequeue, here]
  simp only [traded, Table.set_set]

/-- A link without credits, or without requests, has nothing to send. -/
theorem stalled (h : s.Pipe e l lk d f) (lk' : Link) (none : lk'.queue = [] ∨ lk'.credits = 0)
    (f' : Interface) (g : Ledger) : Stalled (s.traded l lk' d f' g) l := by
  intro lk'' here
  cases (h.link_traded ..).symm.trans here
  exact none

/-- The link sends what is queued as long as it has credits. -/
theorem dispatches (h : s.Pipe e l lk d f) (queue : List Request) :
    ∀ credits inbox (g : Ledger), (∀ r ∈ queue, r.IsNumber e) →
    ∃ (g' : Ledger) (new : List Message), g.Extends 0 g' ∧
      new.length = min credits queue.length ∧ (∀ m ∈ new, m.IsNumber l) ∧
      Works (s.traded l { lk with credits, queue } d { f with inbox } g) [.dispatch l]
        (3 * queue.length + 1)
        (s.traded l { lk with credits := credits - new.length, queue := queue.drop new.length } d
          { f with inbox := inbox ++ new } g') := by
  induction queue with
  | nil =>
    intro credits inbox g numbers
    have done := (h.stalled { lk with credits, queue := [] } (.inl rfl)
      { f with inbox } g).dispatched h.calm
    refine ⟨g, [], .refl g, by simp, by simp, ?_⟩
    simpa using done
  | cons r queue ih =>
    intro credits inbox g numbers
    cases credits with
    | zero =>
      have done := (h.stalled { lk with credits := 0, queue := r :: queue } (.inr rfl)
        { f with inbox } g).dispatched h.calm
      refine ⟨g, [], .refl g, by simp, by simp, ?_⟩
      simpa using done.mono (Nat.le_add_left 1 _)
    | succ credits =>
      rcases h.sends (w := .queue l) (numbers r List.mem_cons_self) (by simp) credits queue inbox
          g with ⟨g', m, grows, number, goes⟩
      rcases ih credits (inbox ++ [m]) g' fun r' hr => numbers r' (List.mem_cons_of_mem _ hr) with
        ⟨g'', new, grows', few, numbers', works⟩
      refine ⟨g'', m :: new, grows.trans grows', by simp [few], ?_, ?_⟩
      · intro m' hm
        rcases List.mem_cons.1 hm with rfl | hm
        · exact number
        · exact numbers' m' hm
      · rw [List.append_assoc, List.singleton_append] at works
        simp only [List.length_cons, List.drop_succ_cons, Nat.add_sub_add_right]
        refine .mono (.into (goes works) h.calm fun agenda => ?_) (by omega)
        simp only [perform, dispatch, h.dequeue_next]
        rfl

/-! ## Requests that are replayed -/

/-- A parked request that was handed over is no longer counted. -/
theorem replayed (h : s.Pipe e l lk d f) (lk' : Link) (f' : Interface) (g : Ledger)
    (worker : WorkerId) : ∃ g', g.Extends 0 g' ∧
      Works (s.traded l lk' d f' g) [.replayed worker] 1 (s.traded l lk' d f' g') := by
  let uncounted (wk : Worker) : Worker := { wk with parkedCount := wk.parkedCount - 1 }
  refine ⟨{ g with workers := g.workers.modify worker uncounted }, ⟨fun v => ?_, id, rfl⟩,
    .one h.calm fun agenda => rfl⟩
  exact Table.map_get?_modify (g := uncounted) (fun _ => rfl) v

/-- Without a credit the link queues what is replayed. -/
theorem queues (h : s.Pipe e l lk d f) (worker : WorkerId) (requests : List Request) :
    ∀ queue (f' : Interface) (g : Ledger), ∃ g', g.Extends 0 g' ∧
      Works (s.traded l { lk with credits := 0, queue } d f' g)
        (requests.flatMap fun r => [.add (.link l) r, .replayed worker]) (5 * requests.length)
        (s.traded l { lk with credits := 0, queue := queue ++ requests } d f' g') := by
  induction requests with
  | nil =>
    intro queue f' g
    rw [List.append_nil]
    exact ⟨g, .refl g, .refl _⟩
  | cons r requests ih =>
    intro queue f' g
    rcases h.replayed { lk with credits := 0, queue := queue ++ [r] } f' g worker with
      ⟨g', grows, counted⟩
    rcases ih (queue ++ [r]) f' g' with ⟨g'', grows', others⟩
    have here := h.link_traded { lk with credits := 0, queue } f' g
    rw [List.append_assoc, List.singleton_append] at others
    have queued : Works (s.traded l { lk with credits := 0, queue } d f' g) [.add (.link l) r] 1
        (s.traded l { lk with credits := 0, queue := queue ++ [r] } d f' g) := by
      refine .one h.calm fun agenda => ?_
      simp only [perform, offer, enqueue, here]
      simp [traded, Table.set_set]
    refine ⟨g'', grows.trans grows', .mono (queued.cons (counted.cons others)) ?_⟩
    rw [List.length_cons]
    omega

/-- What is replayed goes out as long as there are credits, and the rest is queued. -/
theorem replays (h : s.Pipe e l lk d f) (worker : WorkerId) (requests : List Request) :
    ∀ credits inbox (g : Ledger), (∀ r ∈ requests, r.IsNumber e) →
    ∃ (g' : Ledger) (new : List Message), g.Extends 0 g' ∧
      new.length = min credits requests.length ∧ (∀ m ∈ new, m.IsNumber l) ∧
      Works (s.traded l { lk with credits, queue := [] } d { f with inbox } g)
        (requests.flatMap fun r => [.add (.link l) r, .replayed worker]) (5 * requests.length)
        (s.traded l { lk with credits := credits - new.length, queue := requests.drop new.length } d
          { f with inbox := inbox ++ new } g') := by
  induction requests with
  | nil =>
    intro credits inbox g numbers
    refine ⟨g, [], .refl g, by simp, by simp, ?_⟩
    rw [List.append_nil]
    exact .refl _
  | cons r requests ih =>
    intro credits inbox g numbers
    cases credits with
    | zero =>
      rcases h.queues worker (r :: requests) [] { f with inbox } g with ⟨g', grows, done⟩
      refine ⟨g', [], grows, by simp, by simp, ?_⟩
      rw [List.append_nil]
      exact done
    | succ credits =>
      rcases h.sends (w := .retry (.link l)) (numbers r List.mem_cons_self) (by simp) credits []
          inbox g with ⟨g₁, m, grows₁, number, goes⟩
      rcases h.replayed { lk with credits, queue := [] } { f with inbox := inbox ++ [m] } g₁
          worker with ⟨g₂, grows₂, counted⟩
      rcases ih credits (inbox ++ [m]) g₂ fun r' hr => numbers r' (List.mem_cons_of_mem _ hr) with
        ⟨g₃, new, grows₃, few, numbers', done⟩
      have here := h.link_traded { lk with credits := credits + 1, queue := [] } { f with inbox } g
      refine ⟨g₃, m :: new, (grows₁.trans grows₂).trans grows₃, by simp [few], ?_, ?_⟩
      · intro m' hm
        rcases List.mem_cons.1 hm with rfl | hm
        · exact number
        · exact numbers' m' hm
      · rw [List.append_assoc, List.singleton_append] at done
        simp only [List.length_cons, List.drop_succ_cons, Nat.add_sub_add_right]
        refine .mono (.cons (.into (goes (.refl _)) h.calm fun agenda => ?_) (counted.cons done))
          (by omega)
        simp only [perform, offer, enqueue, here]
        simp [push]

/-! ## Delivery -/

/-- The recorder sees the numbers, and their credits go back. -/
theorem delivers (h : s.Pipe e l lk d f) {log : String}
    (recorder : f.handlers.lookup dataMessageId = some (.record log none false))
    (queue : List Request) (later : List Message) (new : List Message) :
    ∀ credits (g : Ledger), (∀ m ∈ new, m.IsNumber l) → ∃ g', g.Extends new.length g' ∧
      Works (s.traded l { lk with credits, queue } d { f with inbox := new ++ later } g)
        [.deliver d new.length] (3 * new.length + 1)
        (s.traded l { lk with credits := credits + new.length, queue } d { f with inbox := later }
          g') := by
  induction new with
  | nil => exact fun credits g numbers => ⟨g, .refl g, .one h.calm fun agenda => rfl⟩
  | cons m new ih =>
    intro credits g numbers
    rcases numbers m List.mem_cons_self with ⟨data, four, sender⟩
    let taken : Ledger := { g with trace := g.trace.push (.delivered d m), tally := g.tally + 1 }
    let seen : Ledger := { taken with
      trace := taken.trace.push (.recorded log m.id (.bytes m.payload)) }
    have grows : g.Extends 1 seen := by
      refine ⟨fun _ => rfl, id, ?_⟩
      simp [seen, taken, arrivalCount, seen_push, Happening.data, four]
    rcases ih (credits + 1) seen fun m' hm => numbers m' (List.mem_cons_of_mem _ hm) with
      ⟨g', grows', others⟩
    have here := h.face_traded { lk with credits, queue } { f with inbox := m :: new ++ later } g
    have link := h.link_traded { lk with credits, queue } { f with inbox := new ++ later } seen
    refine ⟨g', by simpa [Nat.add_comm] using grows.trans grows', ?_⟩
    have handled :
        Works (s.traded l { lk with credits, queue } d { f with inbox := new ++ later } taken)
          [.handle (.record log none false) m] 1
          (s.traded l { lk with credits, queue } d { f with inbox := new ++ later } seen) :=
      .one h.calm fun agenda => rfl
    have returned :
        Works (s.traded l { lk with credits, queue } d { f with inbox := new ++ later } seen)
          [.giveBack l] 1
          (s.traded l { lk with credits := credits + 1, queue } d { f with inbox := new ++ later }
            seen) := by
      refine .one h.calm fun agenda => ?_
      simp only [perform, returnCredit, Table.modify_eq_set link]
      simp only [traded, Table.set_set]
    rw [List.length_cons, show credits + (new.length + 1) = credits + 1 + new.length by omega]
    refine .mono (.into (handled.cons (returned.cons others)) h.calm fun agenda => ?_) (by omega)
    simp only [perform, deliver, here]
    simp only [List.cons_append, traded, Table.set_set, data, recorder, sender]
    rfl

end Pipe

end Network

end Wiring
