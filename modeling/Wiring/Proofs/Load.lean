import Mathlib
import Wiring.Proofs.Sound

/-!
# What a network carries

Requests lie in the queues of links, on stubs, with the application and in the hands of somebody at
work. What they weigh together changes only where a request is made, covered or ended: passing a
request on takes it from one place and puts it to another.
-/
namespace Wiring.Network

variable {s t : Network} {wild : Prop} {f : Request → Nat}

/-- What requests weigh together. -/
def weight (f : Request → Nat) (rs : List Request) : Nat := (rs.map f).sum

@[simp] theorem weight_nil : weight f [] = 0 := rfl

@[simp] theorem weight_cons (r : Request) (rs : List Request) :
    weight f (r :: rs) = f r + weight f rs := by simp [weight]

@[simp] theorem weight_append (rs rs' : List Request) :
    weight f (rs ++ rs') = weight f rs + weight f rs' := by simp [weight]

theorem weight_eq_zero {rs : List Request} : weight f rs = 0 ↔ ∀ r ∈ rs, f r = 0 := by
  simp [weight, List.sum_eq_zero_iff]

/-- The requests that somebody at work has in hand. -/
def hands (agenda : List Job) : List Request := agenda.filterMap Job.request?

@[simp] theorem hands_nil : hands [] = [] := rfl

theorem hands_cons (j : Job) (rest : List Job) :
    hands (j :: rest) = j.request?.toList ++ hands rest := by
  unfold hands
  rw [List.filterMap_cons]
  cases j.request? <;> rfl

theorem hands_some {j : Job} {r : Request} (rest : List Job) (h : j.request? = some r) :
    hands (j :: rest) = r :: hands rest := by
  rw [hands_cons, h]
  rfl

theorem hands_none {j : Job} (rest : List Job) (h : j.request? = none) :
    hands (j :: rest) = hands rest := by
  rw [hands_cons, h]
  rfl

theorem hands_append (jobs rest : List Job) : hands (jobs ++ rest) = hands jobs ++ hands rest :=
  List.filterMap_append

theorem hands_eq_nil {jobs : List Job} (h : ∀ j ∈ jobs, j.request? = none) : hands jobs = [] :=
  List.filterMap_eq_nil_iff.2 h

/-- What the requests in a network weigh. -/
def load (s : Network) (f : Request → Nat) : Nat :=
  s.links.sum (fun _ l => weight f l.queue) + s.stubs.sum (fun _ t => weight f t.parked)
    + s.held.sum (fun _ r => f r) + weight f (hands s.agenda)

/-- A request lies somewhere in the network. -/
inductive Carries (s : Network) (r : Request) : Prop
  | queued (l : LinkId) (lk : Link) (here : s.links.get? l = some lk) (mem : r ∈ lk.queue)
  | parked (x : StubId) (t : Stub) (here : s.stubs.get? x = some t) (mem : r ∈ t.parked)
  | held (h : HeldId) (here : s.held.get? h = some r)
  | inHand (j : Job) (mem : j ∈ s.agenda) (hand : j.request? = some r)

/-- Nothing weighs anything if no request does. -/
theorem load_eq_zero : s.load f = 0 ↔ ∀ r, s.Carries r → f r = 0 := by
  have hands : weight f (hands s.agenda) = 0 ↔
      ∀ r, (∃ j ∈ s.agenda, j.request? = some r) → f r = 0 := by
    rw [weight_eq_zero]
    simp only [Network.hands, List.mem_filterMap]
  simp only [load, Nat.add_eq_zero_iff, Table.sum_eq_zero_iff, weight_eq_zero, hands]
  constructor
  · rintro ⟨⟨⟨queued, parked⟩, held⟩, inHand⟩ r hr
    cases hr with
    | queued l lk here mem => exact queued l lk here r mem
    | parked x t here mem => exact parked x t here r mem
    | held h here => exact held h r here
    | inHand j mem hand => exact inHand r ⟨j, mem, hand⟩
  · intro h
    refine ⟨⟨⟨fun l lk here r mem => ?_, fun x t here r mem => ?_⟩, fun k r here => ?_⟩, ?_⟩
    · exact h r (.queued l lk here mem)
    · exact h r (.parked x t here mem)
    · exact h r (.held k here)
    · rintro r ⟨j, mem, hand⟩
      exact h r (.inHand j mem hand)

/-! ## Moves that carry nothing -/

theorem Aside.load (h : Aside s t) : t.load f = s.load f := by
  have links : t.links.sum (fun _ l => weight f l.queue) =
      s.links.sum (fun _ l => weight f l.queue) := by
    refine Table.sum_congr h.linksNext fun l => ?_
    have := congrArg (Option.elim · 0 (weight f)) (h.queues l)
    simpa only [Option.elim_map, Function.comp_def] using this
  unfold Network.load
  rw [links, h.stubs, h.held, h.agenda]

theorem request?_idle {j : Job} (h : j.isIdle = true) : j.request? = none := by
  cases j <;> simp_all [Job.isIdle, Job.request?]

theorem Hold.hands (h : Hold s t) : Network.hands t.agenda = Network.hands s.agenda := by
  cases h with
  | keep => rfl
  | letGo ref held | hold ref live => rfl
  | loose ref rest top => rw [top]; rfl
  | plan j idle => exact hands_none _ (request?_idle idle)
  | done j rest top idle => rw [top, hands_none _ (request?_idle idle)]

theorem Hold.load (h : Hold s t) : t.load f = s.load f := by
  unfold Network.load
  rw [h.hands, h.frame]

theorem hands_releaseLink? (l : Option LinkId) : Network.hands (releaseLink? l) = [] := by
  refine hands_eq_nil fun j hj => ?_
  obtain ⟨l, -, rfl⟩ := mem_releaseLink?.1 hj
  rfl

theorem hands_releaseSlots (slots : PerCategory Slot) :
    Network.hands (releaseSlots slots) = [] := by
  refine hands_eq_nil fun j hj => ?_
  obtain ⟨c, -, rfl⟩ := mem_releaseSlots.1 hj
  rfl

theorem Wire.hands (h : Wire s t) : Network.hands t.agenda = Network.hands s.agenda := by
  cases h with
  | closeStub id st here empty free => simp [hands_append, hands_releaseLink?]
  | closeEndpoint id e rest top =>
    rw [top, hands_append, hands_releaseSlots]
    rfl
  | closeWorker id w rest top =>
    rw [top, hands_append, hands_eq_nil]
    · rfl
    · intro j hj
      simp only [List.mem_append, List.mem_map] at hj
      obtain ⟨r, -, rfl⟩ | ⟨entry, -, rfl⟩ := hj <;> rfl
  | _ => rfl

theorem Wire.load (h : Wire s t) : t.load f = s.load f := by
  have hands := h.hands
  unfold Network.load
  rw [hands]
  cases h with
  | closeLink l lk here empty free =>
    have := Table.sum_erase (fun _ (l : Link) => weight f l.queue) here
    simp only [empty, weight_nil, Nat.add_zero] at this
    simp only [this]
  | closeStub id st here empty free =>
    have := Table.sum_erase (fun _ (t : Stub) => weight f t.parked) here
    simp only [empty, weight_nil, Nat.add_zero] at this
    simp only [this]
  | openLink l empty => simp [Table.sum_push, empty]
  | openStub st gate unparked => simp [Table.sum_push, unparked]
  | markLocal id here | markRemote id here =>
    simp only [markRemoteConnected, note]
    rw [Table.sum_modify]
    exact fun st _ => rfl
  | _ => rfl

/-! ## Passing on -/

/-- A weight that does not depend on how often a request was attempted, and that what the
application brings does not have. -/
structure Steady (f : Request → Nat) : Prop where
  scripted : ∀ c, f (.scripted c) = 0
  unfinished : ∀ r, f r.unfinished = f r
  answered : ∀ r r' o, Answered r r' o → f r' = f r

/-- What passing a request on does to what the network carries, to gates and to handles. -/
inductive Transfer (wild : Prop) (s t : Network) : Prop
  | kept (load : ∀ f, Steady f → t.load f = s.load f) (gates : t.gates = s.gates)
      (handles : t.handles = s.handles)
  | sent (m : Send) (handle : m.handle = s.handles.next)
      (load : ∀ f, Steady f → t.load f = s.load f + f (.send m)) (gates : t.gates = s.gates)
      (handles : t.handles = s.handles.push none)
      (trace : t.trace = s.trace.push (.sent m.handle m.endpoint m.messageId m.payload))
  | covered (x : StubId) (st : Stub) (r : Request) (here : s.stubs.get? x = some st)
      (load : ∀ f, Steady f → t.load f + f r = s.load f + f (.counted st.gate r))
      (gates : t.gates = s.gates.modify st.gate (· + 1)) (handles : t.handles = s.handles)
  | ended (r : Request) (o : Outcome) (load : ∀ f, Steady f → t.load f + f r = s.load f)
      (gates : t.gates = leaveGates s.gates r) (handles : t.handles = endHandle s.handles r o)
  | back (r : Request) (o : Outcome) (h : HeldId) (lent : (h, r) ∈ lending s.agenda)
      (load : ∀ f, Steady f → t.load f + f r = s.load f + f r.finished)
      (gates : t.gates = leaveGates s.gates r) (handles : t.handles = endHandle s.handles r o)
  | letGo (r : Request) (sober : wild ∨ r.send? = none)
      (load : ∀ f, Steady f → t.load f + f r = s.load f)
      (gates : t.gates = leaveGates s.gates r) (handles : t.handles = s.handles)

/-- A request comes out of the hands of somebody at work. -/
theorem hands_top {j : Job} {r : Request} {rest : List Job} (top : s.agenda = j :: rest)
    (h : j.request? = some r) : weight f (hands s.agenda) = f r + weight f (hands rest) := by
  rw [top, hands_some rest h, weight_cons]

theorem hands_replay (t : Stub) (w : WorkerId) (next : LinkId) :
    hands (replay t w next) = t.parked := by
  have passed (rs : List Request) :
      hands (rs.flatMap fun r => [.add (.link next) r, .replayed w]) = rs := by
    induction rs with
    | nil => rfl
    | cons r rs ih =>
      rw [List.flatMap_cons, hands_append, ih]
      rfl
  rw [replay, hands_append, hands_append, hands_releaseLink?, passed]
  simp [hands, Job.request?]

/-- The job on top gives way to another one. -/
theorem load_swap {j k : Job} {r r' : Request} {rest : List Job} (top : s.agenda = j :: rest)
    (hand : j.request? = some r) (hand' : k.request? = some r') :
    load { s with agenda := k :: rest } f + f r = s.load f + f r' := by
  simp only [load, hands_top top hand, hands_some rest hand', weight_cons]
  omega

theorem load_pop {j : Job} {r : Request} {rest : List Job} (top : s.agenda = j :: rest)
    (hand : j.request? = some r) : load { s with agenda := rest } f + f r = s.load f := by
  simp only [load, hands_top top hand]
  omega

/-- Somebody takes a request in hand. -/
theorem load_push {j : Job} {r : Request} (hand : j.request? = some r) :
    load { s with agenda := j :: s.agenda } f = s.load f + f r := by
  simp only [load, hands_some _ hand, weight_cons]
  omega

theorem load_setLink {l : LinkId} {lk : Link} (here : s.links.get? l = some lk)
    (queue : List Request) :
    load { s with links := s.links.set l { lk with queue } } f + weight f lk.queue =
      s.load f + weight f queue := by
  have := Table.sum_set (b := { lk with queue }) (fun _ (l : Link) => weight f l.queue) here
  simp only [load] at this ⊢
  omega

theorem load_setStub {x : StubId} {st b : Stub} (here : s.stubs.get? x = some st) :
    load { s with stubs := s.stubs.set x b } f + weight f st.parked =
      s.load f + weight f b.parked := by
  have := Table.sum_set (b := b) (fun _ (t : Stub) => weight f t.parked) here
  simp only [load] at this ⊢
  omega

/-- A request that was lent comes back to its place. -/
theorem load_back {j : Job} {r : Request} {h : HeldId} {rest : List Job} (hs : Lent wild s)
    (top : s.agenda = j :: rest) (hand : j.request? = some r) (lent : j.lending? = some (h, r))
    (r' : Request) :
    load { s with held := s.held.set h r', agenda := rest } f + f r = s.load f + f r' := by
  obtain ⟨room, empty⟩ := hs.place (h, r) (by rw [top, lending_cons, lent]; simp)
  have := Table.sum_set_none (b := r') (fun _ (r : Request) => f r) empty room
  simp only [load, hands_top top hand] at this ⊢
  omega

theorem Pass.transfer (hs : Lent wild s) (h : Pass wild s t) : Transfer wild s t := by
  cases h with
  | bring c =>
    refine .kept (fun f hf => (load_push (j := .discard (.scripted c)) rfl).trans ?_) rfl rfl
    rw [hf.scripted, Nat.add_zero]
  | send m handle live alone =>
    exact .sent m handle
      (fun f hf => load_push (j := .attempt (.send m) (.endpoint m.endpoint)) rfl) rfl rfl rfl
  | takeHeld h r here =>
    refine .kept (fun f hf => ?_) rfl rfl
    have := Table.sum_erase (fun _ (r : Request) => f r) here
    have := load_push (s := { s with held := s.held.erase h }) (f := f) (j := .discard r) rfl
    simp only [load] at this ⊢
    omega
  | putHeld r rest top sober =>
    refine .kept (fun f hf => ?_) rfl rfl
    have := load_pop (f := f) top rfl
    simp only [load, Table.sum_push] at this ⊢
    omega
  | offer c r rest top | refuse c r rest top | lend r h rest top | handBack c r rest top =>
    exact .kept (fun f hf => Nat.add_right_cancel (load_swap top rfl rfl)) rfl rfl
  | backHeld r o h rest top =>
    refine .kept (fun f hf => ?_) rfl rfl
    have := load_back (f := f) hs top rfl rfl r.unfinished
    rw [hf.unfinished] at this
    exact Nat.add_right_cancel this
  | endHeld r o h rest top =>
    refine .back r o h ?_ (fun f hf => load_back hs top rfl rfl r.finished) rfl rfl
    rw [top, lending_cons]
    exact List.mem_append_left _ (by simp [Job.lending?])
  | take l lk r queue here front =>
    refine .kept (fun f hf => ?_) rfl rfl
    have := load_setLink (f := f) here queue
    rw [front, weight_cons] at this
    have := load_push (s := { s with links := s.links.set l { lk with queue } }) (f := f)
      (j := .discard r) rfl
    simp only at this ⊢
    omega
  | dequeue l lk r queue here front escort =>
    refine .kept (fun f hf => ?_) rfl rfl
    have := load_setLink (f := f) here queue
    rw [front, weight_cons] at this
    have := load_push (s := { s with links := s.links.set l { lk with queue } }) (f := f)
      (j := .attempt r (.queue l)) rfl
    simp only at this ⊢
    omega
  | requeue l lk r o rest top here unsent =>
    refine .kept (fun f hf => ?_) rfl rfl
    have := load_pop (f := f) top rfl
    have := load_setLink (s := { s with agenda := rest }) (f := f) here (r.unfinished :: lk.queue)
    rw [weight_cons, hf.unfinished] at this
    simp only at this ⊢
    omega
  | queue c l lk r rest top here =>
    refine .kept (fun f hf => ?_) rfl rfl
    have := load_pop (f := f) top rfl
    have := load_setLink (s := { s with agenda := rest }) (f := f) here (lk.queue ++ [r])
    rw [weight_append, weight_cons, weight_nil] at this
    simp only at this ⊢
    omega
  | cover x st r rest top here signal =>
    exact .covered x st r here (fun f hf => load_swap top rfl rfl) rfl rfl
  | answer r r' o w rest top answered =>
    refine .kept (fun f hf => ?_) rfl rfl
    have := load_swap (f := f) (k := .conclude r' o w) top rfl rfl
    rw [hf.answered r r' o answered] at this
    exact Nat.add_right_cancel this
  | accept r m w l dest rest top =>
    exact .kept (fun f hf => Nat.add_right_cancel (load_swap top rfl rfl)) rfl rfl
  | again r o c rest top unsent =>
    refine .kept (fun f hf => ?_) rfl rfl
    have := load_swap (f := f) (k := .add c r.unfinished) top rfl rfl
    rw [hf.unfinished] at this
    exact Nat.add_right_cancel this
  | first r o e c rest top unsent slot =>
    refine .kept (fun f hf => ?_) rfl rfl
    have := load_swap (f := f) (k := .add c r.unfinished) top rfl rfl
    rw [hf.unfinished] at this
    simp only [load, hands_some _ (show (Job.add c r.unfinished).request? = _ from rfl),
      hands_none rest (show (Job.release c.ref).request? = none from rfl)] at this ⊢
    omega
  | close j r o rest top hand =>
    exact .ended r o (fun f hf => load_pop top hand) rfl rfl
  | letGo r rest top sober =>
    exact .letGo r sober (fun f hf => load_pop top rfl) rfl rfl
  | park x st w wk r rest top here =>
    refine .kept (fun f hf => ?_) rfl rfl
    have popped := load_pop (f := f) top rfl
    have added := load_setStub (s := { s with agenda := rest }) (f := f)
      (b := { st with parked := st.parked ++ [r] }) here
    simp only [weight_append, weight_cons, weight_nil, load] at popped added ⊢
    omega
  | switch x st w wk next here =>
    refine .kept (fun f hf => ?_) rfl rfl
    have emptied := load_setStub (f := f) (b := { st with
      next := none, auxiliary := none, parked := [], promoted := some next }) here
    simp only [weight_nil, load, hands_append, hands_replay, weight_append] at emptied ⊢
    omega
  | replayed w rest top =>
    refine .kept (fun f hf => ?_) rfl rfl
    simp only [load]
    rw [top, hands_none rest rfl]

end Wiring.Network
