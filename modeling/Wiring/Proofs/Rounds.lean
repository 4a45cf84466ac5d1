import Mathlib
import Wiring.Proofs.Embarking
import Wiring.Proofs.Equipment
import Wiring.Proofs.Reporting

/-!
# Rounds of a run

In the first round the receiver replies, in the second one both sides are wired up, and in each round
that follows at least one number arrives as long as some are waiting.
-/
namespace Wiring

namespace Activity

variable {s t : Network} {α β : Type} {x : Activity α} {f : α → Activity β} {a : α}

theorem bind_of (h : x s = .ok (a, t)) : (x >>= f) s = f a t := by
  change (x s >>= fun p => f p.1 p.2) = _
  rw [h]
  rfl

theorem perform_of {f : Network → Network × Except Violation α} (h : f s = (t, .ok a)) :
    perform f s = .ok (a, t) := by
  unfold perform
  rw [h]

theorem update_of {f : Network → Network × α} (h : f s = (t, a)) : update f s = .ok (a, t) := by
  unfold update
  rw [h]

theorem drop_of {ref : Ref} (h : s.drop ref = (t, .ok ())) :
    Activity.drop ref s = .ok ((), t) :=
  perform_of (f := fun s => s.drop ref) h

theorem get_of (s : Network) : (get : Activity Network) s = .ok (s, s) := rfl

theorem pure_of (a : α) (s : Network) : (pure a : Activity α) s = .ok (a, s) := rfl

end Activity

open Activity

namespace RunSetup

variable {r : RunSetup} {s t u v w x : Network} {a b c d : Nat} {back : EndpointId}

theorem round_none (alpha : s.progressOf r.alpha = (t, .ok a)) (beta : t.progressOf r.beta = (u, .ok b))
    (sender : u.progressEndpoint r.endpoint = (v, .ok c)) : r.round none s = .ok ((), v) := by
  unfold round
  rw [bind_of (perform_of alpha), bind_of (perform_of beta), bind_of (perform_of sender)]
  rfl

theorem round_some (alpha : s.progressOf r.alpha = (t, .ok a)) (beta : t.progressOf r.beta = (u, .ok b))
    (sender : u.progressEndpoint r.endpoint = (v, .ok c))
    (receiver : v.progressEndpoint back = (w, .ok d))
    (dropped : w.drop (.endpoint back) = (x, .ok ())) : r.round (some back) s = .ok ((), x) := by
  unfold round
  rw [bind_of (perform_of alpha), bind_of (perform_of beta), bind_of (perform_of sender)]
  simp only
  rw [bind_of (perform_of receiver)]
  exact drop_of dropped

end RunSetup

/-- What a run between two parties works with. -/
def Party.setup (p q : Party) (messages : Nat) : RunSetup :=
  ⟨p.worker, q.worker, p.endpoint, messages⟩

namespace Network

variable {o : Outfit} {p q : Party} {s t u : Network} {size n m a b k total : Nat}
  {loc rem : Category → Bool} {slots : PerCategory Slot} {links : Category → LinkId} {v l : LinkId}
  {c c' : Cargo} {first new ms : List Message} {waiting : List Request} {jobs : List Job}

/-! ## The fuel lasts -/

/-- There is at least as much in a network as waits. -/
theorem Stage.waiting_le (h : Stage o [p, q] c s) (fair : o.Fair size)
    (aboard : Aboard o p q s.layout o.plan.lanes loc rem slots links)
    (waits : c.Waits p waiting slots.messages) : waiting.length ≤ s.extent := by
  generalize hs : slots.messages = slot at waits
  cases waits with
  | queued l queue =>
    rcases h.served fair (by simp) aboard hs with ⟨-, lk, here, -⟩
    have waits := (h.bears.links l lk here).2
    rw [queue, if_pos rfl] at waits
    exact waits ▸ queue_le_extent here
  | parked x queue parked =>
    rcases aboard.ready fair.messages hs with ⟨st, stub, -⟩
    rcases Option.map_eq_some_iff.1 stub with ⟨st', here, -⟩
    have waits := h.bears.parked x st' here
    rw [parked, if_pos rfl] at waits
    exact waits ▸ parked_le_extent here

/-- There is at least as much as lies in an inbox. -/
theorem Stage.mail_le (h : Stage o [p, q] c s) {r : Party} (hr : r ∈ [p, q])
    (small : n < o.specs.length) : (c.mail (r.at n)).length ≤ s.extent := by
  rcases h.scene.stations r hr n small with ⟨f, here, -⟩
  rw [← h.bears.mail _ f here]
  exact inbox_le_extent here

theorem extent_push (idle : s.agenda = []) (jobs : List Job) :
    s.extent ≤ (push { s with tally := 0 } jobs).extent := by
  have none : requestsExtent ([].filterMap Job.request?) = 0 := rfl
  unfold extent
  simp only [push, idle, List.append_nil, List.length_nil]
  omega

/-- What is done in as many steps as there are things, some hundreds of times, answers. -/
theorem Brings.settled {Q : Network → Prop} {α : Type}
    (h : Brings { s with tally := 0 } jobs n Q) (idle : s.agenda = [])
    (few : n ≤ 1000000 * (1 + s.extent)) (calm : ∀ t, Q t → t.violation = none)
    (result : Network → α) : ∃ t a, Q t ∧ s.carryOut jobs result = ({ t with agenda := [] }, .ok a) := by
  have more := extent_push idle jobs
  have fuel := (push { s with tally := 0 } jobs).extent_le_fuel
  rcases h.answers idle (by omega) calm result with ⟨t, holds, done⟩
  exact ⟨t, _, holds, done⟩

/-- What is counted, what there is to do and what else the application holds does not matter. -/
theorem Stage.beside (h : Stage o [p, q] c s) (tally : Nat) (agenda : List Job) {holds : List Ref}
    (attended : ∀ r ∈ [p, q], .worker r.worker ∈ holds) (unheld : ∀ l, .link l ∉ holds) :
    Stage o [p, q] c { s with tally, agenda, holds } :=
  ⟨{ h.scene with attended, unheld }, h.housed, { h.bears with }⟩

/-! ## Workers that progress -/

/-- In the first round the sender does nothing. -/
theorem Requested.sender (h : Requested o p q total c slots links m v new waiting s)
    (cast : Cast o p q size) (idle : s.agenda = []) : ∃ t k, s.progressOf p.worker = (t, .ok k) ∧
      Requested o p q total c slots links m v new waiting t ∧ t.agenda = [] := by
  have h' : Requested o p q total c slots links m v new waiting { s with tally := 0 } :=
    h.alike (h.stage.counted 0) rfl rfl rfl
  have few := cast.fair.few
  rcases (h'.idles cast).settled idle (by omega) (fun t ht => by
    rcases ht with ⟨tally, rfl⟩
    exact h.stage.scene.calm) tally with ⟨_, k, ⟨n, rfl⟩, done⟩
  exact ⟨_, k, done, h.alike (h.stage.beside n [] h.stage.scene.attended h.stage.scene.unheld) rfl rfl
    rfl, rfl⟩

/-- In the first round the receiver replies. -/
theorem Requested.receiver (h : Requested o p q total c slots links m v new waiting s)
    (cast : Cast o p q size) (idle : s.agenda = []) : ∃ t k c' m' v',
      s.progressOf q.worker = (t, .ok k) ∧
      Replied o p q total c' slots links m' v' waiting t ∧ t.agenda = [] := by
  have h' : Requested o p q total c slots links m v new waiting { s with tally := 0 } :=
    h.alike (h.stage.counted 0) rfl rfl rfl
  have few := cast.fair.few
  have mail := h.stage.mail_le (r := q) (by simp) h.inside
  rcases h.request with ⟨entries, -, flies⟩
  rw [flies.at_inbox, List.length_cons] at mail
  rcases (h'.progresses cast).settled idle (by omega) (fun t ht => by
    rcases ht with ⟨_, _, _, replied⟩
    exact replied.stage.scene.calm) tally with ⟨t, k, ⟨c', m', v', replied⟩, done⟩
  exact ⟨_, k, c', m', v', done, replied.alike (replied.stage.withAgenda []) rfl rfl, rfl⟩

/-- In the second round the sender acknowledges, and what waits goes out. -/
theorem Replied.sender (h : Replied o p q total c slots links m v waiting s) (cast : Cast o p q size)
    (idle : s.agenda = []) : ∃ t k c' slots' new' waiting', s.progressOf p.worker = (t, .ok k) ∧
      Sailing o p q total (fun _ => false) c' slots' links
        [⟨Signal.messageId, (o.message p q .ack []).encode, links .messages⟩] new' waiting' t ∧
      (∀ x, slots'.messages = some (.stub x) → waiting' = []) ∧ t.agenda = [] := by
  have h' : Replied o p q total c slots links m v waiting { s with tally := 0 } :=
    h.alike (h.stage.counted 0) rfl rfl
  have few := Nat.mul_le_mul_left (3 * waiting.length + 36) cast.fair.few
  have waits := h.stage.waiting_le cast.fair h.aboard h.waits
  rcases (h'.progresses cast).settled idle (by omega) (fun t ht => by
    rcases ht with ⟨_, _, _, _, sailing, -⟩
    exact sailing.stage.scene.calm) tally with
    ⟨t, k, ⟨c', slots', new', waiting', sailing, exhausted⟩, done⟩
  exact ⟨_, k, c', slots', new', waiting', done,
    sailing.alike (sailing.stage.withAgenda []) rfl rfl, exhausted.unparked, rfl⟩

/-- In the rounds that follow what waits goes out until the credits are spent. -/
theorem Sailing.sender (h : Sailing o p q total rem c slots links first new waiting s)
    (cast : Cast o p q size) (idle : s.agenda = []) : ∃ t k c' slots' new' waiting',
      s.progressOf p.worker = (t, .ok k) ∧
      Sailing o p q total rem c' slots' links first new' waiting' t ∧
      Drains new new' waiting waiting' ∧ Exhausted o slots' (first ++ new') waiting' ∧
      t.agenda = [] := by
  have h' : Sailing o p q total rem c slots links first new waiting { s with tally := 0 } :=
    h.alike (h.stage.counted 0) rfl rfl
  have few := Nat.mul_le_mul_left (3 * waiting.length + 29) cast.fair.few
  have waits := h.stage.waiting_le cast.fair h.aboard h.waits
  rcases (h'.progresses cast).settled idle (by omega) (fun t ht => by
    rcases ht with ⟨_, _, _, _, sailing, -⟩
    exact sailing.stage.scene.calm) tally with
    ⟨t, k, ⟨c', slots', new', waiting', sailing, drains, exhausted⟩, done⟩
  exact ⟨_, k, c', slots', new', waiting', done,
    sailing.alike (sailing.stage.withAgenda []) rfl rfl, drains, exhausted, rfl⟩

/-- The receiver takes out all that is in flight. -/
theorem Sailing.receiver (h : Sailing o p q total rem c slots links first new waiting s)
    (cast : Cast o p q size) (idle : s.agenda = []) (heard : first = [] ∧ rem = (fun _ => true) ∨
      first = [⟨Signal.messageId, (o.message p q .ack []).encode, links .messages⟩]) :
    ∃ t k c', s.progressOf q.worker = (t, .ok k) ∧
      Sailing o p q total (fun _ => true) c' slots links [] [] waiting t ∧ t.agenda = [] := by
  have h' : Sailing o p q total rem c slots links first new waiting { s with tally := 0 } :=
    h.alike (h.stage.counted 0) rfl rfl
  have few := cast.fair.few
  have mail := h.stage.mail_le (r := q) (by simp) (cast.fair.meets_lt cast.fair.messages)
  rw [h.flies.at_inbox, List.length_append] at mail
  rcases (h'.receives cast heard).settled idle (by omega) (fun t ht => by
    rcases ht with ⟨_, sailing⟩
    exact sailing.stage.scene.calm) tally with ⟨t, k, ⟨c', sailing⟩, done⟩
  exact ⟨_, k, c', done, sailing.alike (sailing.stage.withAgenda []) rfl rfl, rfl⟩

/-! ## The endpoint of the receiver -/

theorem settle_idle {α : Type} (idle : s.agenda = []) (calm : s.violation = none)
    (result : Network → α) : s.settle result = (s, .ok (result s)) :=
  settle_within (n := 0) result (Nat.zero_le _) idle calm

/-- A thing that is held besides is still there when the application lets go of it. -/
theorem drop_firm {ref : Ref} (idle : s.agenda = []) (calm : s.violation = none)
    (firm : Firm { s with holds := s.holds.erase ref } ref) :
    s.drop ref = ({ s with holds := s.holds.erase ref }, .ok ()) := by
  unfold drop letGo
  split
  · have start : push { s with holds := s.holds.erase ref } [.release ref] =
        { s with holds := s.holds.erase ref, agenda := [.release ref] } := by
      simp only [push, idle, List.append_nil]
    rw [start, (firm.released calm).settles (fuel_pos _) calm, ← idle]
  · rename_i missing
    rw [settle_idle idle calm, List.erase_of_not_mem (by simpa using missing)]

/-- A party stays the owner of its endpoint whatever the application holds. -/
theorem firm_endpoint (aboard : Aboard o q p s.layout o.plan.lanes loc rem slots links)
    (holds : List Ref) : Firm { s with holds } (.endpoint q.endpoint) := by
  rcases Option.map_eq_some_iff.1 aboard.worker with ⟨wk, books, seat⟩
  have directory : wk.directory = [(p.uuid, q.endpoint)] := (congrArg Worker.directory seat :)
  refine .inr (isOwned_iff.2 (.inl ⟨q.worker, wk, books, .inr ⟨(p.uuid, q.endpoint), ?_, rfl⟩⟩))
  rw [directory]
  exact List.mem_cons_self

/-- The application may let go of the endpoint of the receiver. -/
theorem Stage.drops (h : Stage o [p, q] c s) (idle : s.agenda = [])
    (aboard : Aboard o q p s.layout o.plan.lanes loc rem slots links) :
    s.drop (.endpoint q.endpoint) =
      ({ s with holds := s.holds.erase (.endpoint q.endpoint) }, .ok ()) :=
  drop_firm idle h.scene.calm (firm_endpoint aboard _)

/-- So nothing changes. -/
theorem Stage.dropped (h : Stage o [p, q] c s) :
    Stage o [p, q] c { s with holds := s.holds.erase (.endpoint q.endpoint) } :=
  h.beside s.tally s.agenda
    (fun r hr => (List.mem_erase_of_ne (by simp)).2 (h.scene.attended r hr))
    fun l held => h.scene.unheld l (List.mem_of_mem_erase held)

theorem Stage.kept (h : Stage o [p, q] c s) :
    Stage o [p, q] c { s with holds := .endpoint q.endpoint :: s.holds } :=
  h.beside s.tally s.agenda (fun r hr => List.mem_cons_of_mem _ (h.scene.attended r hr))
    fun l held => h.scene.unheld l (by simpa using held)

/-- A receiver that has no endpoint is found to have none. -/
theorem back_none {directory : List (UInt64 × EndpointId)}
    (sender : s.layout.worker p.worker = some (o.seat p directory))
    (alone : s.layout.worker q.worker = some (o.seat q [])) :
    (p.setup q total).back s = .ok (none, s) := by
  rcases Option.map_eq_some_iff.1 sender with ⟨wk, books, seat⟩
  rcases Option.map_eq_some_iff.1 alone with ⟨wk', books', seat'⟩
  have directory : wk'.directory = [] := (congrArg Worker.directory seat' :)
  have unknown : s.findEndpoint? q.worker wk.uuid = none := by
    simp [findEndpoint?, books', directory]
  refine update_of ?_
  simp only [Party.setup, books, lookUp, unknown]

/-- The endpoint of a receiver is found, and the application holds it. -/
theorem back_some {loc' rem' : Category → Bool} {slots' : PerCategory Slot}
    {links' : Category → LinkId}
    (sender : Aboard o p q s.layout o.plan.lanes loc rem slots links)
    (aboard : Aboard o q p s.layout o.plan.lanes loc' rem' slots' links') :
    (p.setup q total).back s =
      .ok (some q.endpoint, { s with holds := .endpoint q.endpoint :: s.holds }) := by
  rcases Option.map_eq_some_iff.1 sender.worker with ⟨wk, books, seat⟩
  have uuid : wk.uuid = p.uuid := (congrArg Worker.uuid seat :)
  have known : s.findEndpoint? q.worker wk.uuid = some q.endpoint := by
    rw [uuid]
    exact findEndpoint?_aboard aboard
  have live : s.isLive (.endpoint q.endpoint) = true := by
    have here : s.endpoints.get? q.endpoint = some (o.endpoint q p slots') := aboard.endpoint
    simp only [isLive, Table.contains, here, Option.isSome_some]
  refine update_of ?_
  simp only [Party.setup, books, lookUp, known, keep, live, if_true]

/-! ## Rounds -/

/-- All lanes of both parties have their links, and of the numbers that were sent some have arrived
and the others wait. -/
structure Moored (o : Outfit) (p q : Party) (total : Nat) (c : Cargo) (slots : PerCategory Slot)
    (links : Category → LinkId) (waiting : List Request) (s : Network) : Prop
    extends Sailing o p q total (fun _ => true) c slots links [] [] waiting s where
  through : Stage.Through o slots links
  back : ∃ slots' links', Aboard o q p s.layout o.plan.lanes (fun _ => true) (fun _ => true)
    slots' links' ∧ Stage.Through o slots' links'

theorem Moored.alike (h : Moored o p q total c slots links waiting s)
    (stage : Stage o [p, q] c t) (layout : t.layout = s.layout)
    (next : t.links.next = s.links.next) : Moored o p q total c slots links waiting t where
  toSailing := h.toSailing.alike stage layout next
  through := h.through
  back := by
    rw [layout]
    exact h.back

/-- Where nothing is parked what waits does so in the queue of the link for messages, or would. -/
theorem Sailing.unparked (h : Sailing o p q total rem c slots links first new waiting s)
    (cast : Cast o p q size) (none : ∀ x, slots.messages = some (.stub x) → waiting = []) :
    c.Waits p waiting (some (.link (links .messages))) := by
  have waits := h.waits
  generalize hs : slots.messages = slot at waits
  cases waits with
  | queued l queue parked runners =>
    rcases h.stage.served cast.fair (by simp) h.aboard hs with ⟨rfl, -⟩
    exact .queued _ queue parked runners
  | parked x queue parked runners =>
    have nothing := none x hs
    refine .queued _ (fun k => ?_) (fun y => ?_) ?_
    · rw [queue, nothing, ite_self]
    · rw [parked, nothing, ite_self]
    · rw [runners, if_pos nothing]

/-- When everything in flight has arrived, both endpoints progress and all lanes get their links. -/
theorem Sailing.moors (h : Sailing o p q total (fun _ => true) c slots links [] [] waiting s)
    (cast : Cast o p q size) (idle : s.agenda = [])
    (none : ∀ x, slots.messages = some (.stub x) → waiting = []) :
    ∃ t u k k' slots', s.progressEndpoint p.endpoint = (t, .ok k) ∧
      t.progressEndpoint q.endpoint = (u, .ok k') ∧
      Moored o p q total c slots' links waiting u ∧ u.agenda = [] := by
  have hp : p ∈ [p, q] := by simp
  have hq : q ∈ [p, q] := by simp
  have waits := h.unparked cast none
  have empty : ∀ x, c.parked x = [] := by
    cases waits with
    | queued _ _ parked => exact parked
  have queues (l : LinkId) : c.queue l = [] ∨ l = links .messages := by
    cases waits with
    | queued _ queue =>
      by_cases same : l = links .messages
      · exact .inr same
      · exact .inl (by rw [queue, if_neg same])
  rcases h.stage.proceeds idle cast.fair cast.strangers hp h.aboard (fun _ _ => rfl) empty
    (fun l => (queues l).imp_right .inl) with
    ⟨t, k, slots', done, stage, idle', aboard, through, unharmed, next⟩
  rcases h.other with ⟨slotsQ, linksQ, other⟩
  have other' := unharmed _ _ _ _ other
  rcases stage.proceeds idle' cast.fair cast.strangers.symm hq other' (fun _ _ => rfl) empty
    (fun l => (queues l).imp_right fun same => .inr ⟨_, _, _, _, aboard, same⟩) with
    ⟨u, k', slotsQ', done', stage', idle'', back, throughQ, unharmed', next'⟩
  have aboard' := unharmed' _ _ _ _ aboard
  refine ⟨t, u, k, k', slots', done, done', ⟨{ h with
    stage := stage'
    aboard := aboard'
    other := ⟨slotsQ', linksQ, back⟩
    waits := by
      have slot : slots'.messages = some (.link (links .messages)) := through _ cast.fair.messages
      rw [slot]
      exact waits
    parked := fun _ _ => rfl
    few := by
      rw [next', next]
      exact h.few }, through, slotsQ', linksQ, back, throughQ⟩, idle''⟩

/-- In the first round the receiver replies. -/
theorem Requested.round (h : Requested o p q total c slots links m v new waiting s)
    (cast : Cast o p q size) (idle : s.agenda = []) : ∃ t c' m' v',
      (p.setup q total).round none s = .ok ((), t) ∧
      Replied o p q total c' slots links m' v' waiting t ∧ t.agenda = [] := by
  rcases h.sender cast idle with ⟨t, a, alpha, requested, idle'⟩
  rcases requested.receiver cast idle' with ⟨u, b, c', m', v', beta, replied, idle''⟩
  rcases replied.stage.waits idle'' replied.aboard (fun _ _ => rfl) with ⟨k, sender⟩
  exact ⟨_, c', m', v', RunSetup.round_none alpha beta sender,
    replied.alike (replied.stage.counted 0) rfl rfl, idle''⟩

/-- In the second round both sides are wired up. -/
theorem Replied.round (h : Replied o p q total c slots links m v waiting s) (cast : Cast o p q size)
    (idle : s.agenda = []) : ∃ t c' slots' waiting',
      (p.setup q total).round (some q.endpoint) s = .ok ((), t) ∧
      Moored o p q total c' slots' links waiting' t ∧ t.agenda = [] := by
  rcases h.sender cast idle with ⟨t, a, c', slots', new', waiting', alpha, sailing, none, idle'⟩
  rcases sailing.receiver cast idle' (.inr rfl) with ⟨u, b, c'', beta, sailing', idle''⟩
  rcases sailing'.moors cast idle'' none with
    ⟨v, w, k, k', slots'', sender, receiver, moored, done⟩
  rcases moored.back with ⟨_, _, back, -⟩
  exact ⟨_, c'', slots'', waiting',
    RunSetup.round_some alpha beta sender receiver (moored.stage.drops done back),
    moored.alike moored.stage.dropped rfl rfl, done⟩

/-- In each round that follows at least one number arrives, as long as some wait. -/
theorem Moored.round (h : Moored o p q total c slots links waiting s) (cast : Cast o p q size)
    (idle : s.agenda = []) : ∃ t c' slots' waiting',
      (p.setup q total).round (some q.endpoint) s = .ok ((), t) ∧
      Moored o p q total c' slots' links waiting' t ∧ t.agenda = [] ∧
      waiting'.length ≤ waiting.length - 1 := by
  rcases h.sender cast idle with
    ⟨t, a, c', slots', new', waiting', alpha, sailing, drains, exhausted, idle'⟩
  rcases sailing.receiver cast idle' (.inl ⟨rfl, rfl⟩) with ⟨u, b, c'', beta, sailing', idle''⟩
  rcases sailing'.moors cast idle'' exhausted.unparked with
    ⟨v, w, k, k', slots'', sender, receiver, moored, done⟩
  rcases moored.back with ⟨_, _, back, -⟩
  refine ⟨_, c'', slots'', waiting',
    RunSetup.round_some alpha beta sender receiver (moored.stage.drops done back),
    moored.alike moored.stage.dropped rfl rfl, done, ?_⟩
  have credits := cast.fair.credits _ (cast.fair.serves_lt cast.fair.messages)
  have whole := drains.whole
  rcases exhausted.spent with none | many
  · rw [none]
    exact Nat.zero_le _
  · simp only [List.nil_append, List.length_nil] at many whole
    omega

/-! ## The end of the rounds -/

/-- All numbers have arrived. Of the signals the reply may not have. -/
structure Ended (o : Outfit) (p q : Party) (c : Cargo) (s : Network) : Prop where
  stage : Stage o [p, q] c s
  sender : ∃ loc rem slots links, Aboard o p q s.layout o.plan.lanes loc rem slots links
  receiver : ∃ loc rem slots links, Aboard o q p s.layout o.plan.lanes loc rem slots links
  queues : ∀ l, c.queue l = []
  parked : ∀ x, c.parked x = []
  rested : c.runners q.registry = some []
  landed : ∀ n < o.specs.length, c.mail (q.at n) = []
  returned : ∀ l n dest, n < o.specs.length → s.layout.course l = some (o.course p n dest) →
    c.used l = 0
  few : s.links.next ≤ 12

theorem Ended.alike (h : Ended o p q c s) (stage : Stage o [p, q] c t)
    (layout : t.layout = s.layout) (next : t.links.next = s.links.next) : Ended o p q c t :=
  { h with
    stage
    sender := by
      rw [layout]
      exact h.sender
    receiver := by
      rw [layout]
      exact h.receiver
    returned := by
      rw [layout]
      exact h.returned
    few := next ▸ h.few }

theorem Replied.ends (h : Replied o p q total c slots links m v [] s) (cast : Cast o p q size) :
    Ended o p q c s := by
  rcases h.reply with ⟨entries, -, flies⟩
  rcases h.other with ⟨slots', links', other⟩
  rcases h.course with ⟨k, small, course⟩
  exact { h with
    sender := ⟨_, _, _, _, h.aboard⟩
    receiver := ⟨_, _, _, _, other⟩
    queues := h.waits.nothing.1
    parked := h.waits.nothing.2
    landed := fun n inside => flies.elsewhere (cast.strangers.faces m h.inside n inside).symm
    returned := fun l n dest inside course' => by
      rw [flies.used, if_neg]
      rintro rfl
      have owner : q.at k = p.at n := congrArg Course.owner (Option.some.inj (course.symm.trans course'))
      exact cast.strangers.faces n inside k small owner.symm }

theorem Moored.ends (h : Moored o p q total c slots links [] s) : Ended o p q c s := by
  rcases h.other with ⟨slots', links', other⟩
  exact { h with
    sender := ⟨_, _, _, _, h.aboard⟩
    receiver := ⟨_, _, _, _, other⟩
    queues := h.waits.nothing.1
    parked := h.waits.nothing.2
    landed := fun n _ => by
      rw [h.flies.mail, List.nil_append, ite_self]
    returned := fun l n _ _ _ => by
      rw [h.flies.used, List.nil_append, List.length_nil, ite_self] }

/-- A run is complete only if as much has arrived as was sent. -/
theorem arrived_of_complete (bears : Bears c s) {back : Option EndpointId}
    (complete : (p.setup q total).isComplete back s = true) : total ≤ c.arrived := by
  simp only [RunSetup.isComplete, Bool.and_eq_true, decide_eq_true_eq] at complete
  rw [← bears.arrived, ← received_length]
  exact complete.2

/-- An endpoint whose lanes have their links is wired up. -/
theorem isWiredUp_through (through : Stage.Through o slots links) :
    isWiredUp (o.endpoint p q slots) = true :=
  isWiredUp_iff.2 fun lane hl => ⟨links lane, through lane hl⟩

/-- A run whose lanes all have their links is complete when nothing waits. -/
theorem Moored.complete (h : Moored o p q total c slots links [] s) :
    (p.setup q total).isComplete (some q.endpoint) s = true := by
  rcases h.back with ⟨slots', links', back, through⟩
  have sender : s.endpoints.get? p.endpoint = some (o.endpoint p q slots) := h.aboard.endpoint
  have receiver : s.endpoints.get? q.endpoint = some (o.endpoint q p slots') := back.endpoint
  have arrived : total ≤ (received s).length := by
    have arrived := h.arrived
    rw [received_length, h.stage.bears.arrived]
    simp only [List.length_nil] at arrived
    omega
  simp only [RunSetup.isComplete, Party.setup, sender, receiver, Option.map_some, Option.getD_some,
    Option.any_some, isWiredUp_through h.through, isWiredUp_through through, arrived, decide_true,
    Bool.and_self]

/-- A run that is complete ends. -/
theorem rounds_complete {back : Option EndpointId} {done left : Nat}
    (found : (p.setup q total).back s = .ok (back, t))
    (complete : (p.setup q total).isComplete back t = true) (dropped : dropBack back t = .ok ((), u)) :
    (p.setup q total).rounds done left s = .ok (.ok done, u) := by
  cases left <;>
  · unfold RunSetup.rounds
    rw [bind_of found, bind_of (get_of t), if_pos complete, bind_of dropped]
    rfl

/-- A run that is not complete goes on. -/
theorem rounds_incomplete {back : Option EndpointId} {done left : Nat}
    (found : (p.setup q total).back s = .ok (back, t))
    (incomplete : (p.setup q total).isComplete back t = false)
    (round : (p.setup q total).round back t = .ok ((), u)) :
    (p.setup q total).rounds done (left + 1) s = (p.setup q total).rounds (done + 1) left u := by
  conv_lhs => unfold RunSetup.rounds
  rw [bind_of found, bind_of (get_of t), if_neg (by rw [incomplete]; exact Bool.false_ne_true),
    bind_of round]

/-- As the application holds the endpoint of the receiver, a run that is complete ends where it is. -/
theorem ends_holding (stage : Stage o [p, q] c s) (idle : s.agenda = [])
    (sender : Aboard o p q s.layout o.plan.lanes loc rem slots links)
    {loc' rem' : Category → Bool} {slots' : PerCategory Slot} {links' : Category → LinkId}
    (receiver : Aboard o q p s.layout o.plan.lanes loc' rem' slots' links') {done left : Nat}
    (complete : (p.setup q total).isComplete (some q.endpoint) s = true) : ∃ t,
      (p.setup q total).rounds done left s = .ok (.ok done, t) ∧ Stage o [p, q] c t ∧
      t.agenda = [] ∧ t.layout = s.layout ∧ t.links.next = s.links.next :=
  ⟨_, rounds_complete (back_some sender receiver) complete
    (drop_of (stage.kept.drops idle receiver)),
    stage.kept.dropped, idle, rfl, rfl⟩

/-- When everything is wired up there are at most as many rounds left as numbers wait. -/
theorem Moored.rounds (cast : Cast o p q size) (left : Nat) :
    ∀ {s c slots waiting done}, Moored o p q total c slots links waiting s → s.agenda = [] →
    waiting.length ≤ left → ∃ t c' k, (p.setup q total).rounds done left s = .ok (.ok k, t) ∧
      Ended o p q c' t ∧ t.agenda = [] := by
  induction left with
  | zero =>
    intro s c slots waiting done h idle few
    obtain rfl : waiting = [] := List.length_eq_zero_iff.1 (Nat.le_zero.1 few)
    rcases h.other with ⟨slots', links', other⟩
    rcases ends_holding h.stage idle h.aboard other h.complete with
      ⟨t, ran, stage, idle', layout, next⟩
    exact ⟨t, c, done, ran, h.ends.alike stage layout next, idle'⟩
  | succ left ih =>
    intro s c slots waiting done h idle few
    rcases h.other with ⟨slots', links', other⟩
    cases complete : (p.setup q total).isComplete (some q.endpoint) s with
    | true =>
      have arrived := h.arrived
      have enough := arrived_of_complete h.stage.bears complete
      obtain rfl : waiting = [] := List.length_eq_zero_iff.1 (by omega)
      rcases ends_holding h.stage idle h.aboard other complete with
        ⟨t, ran, stage, idle', layout, next⟩
      exact ⟨t, c, done, ran, h.ends.alike stage layout next, idle'⟩
    | false =>
      rcases Moored.round (h.alike h.stage.kept rfl rfl) cast idle with
        ⟨t, c', slots'', waiting', round, moored, idle', fewer⟩
      rw [rounds_incomplete (back_some h.aboard other) complete round]
      exact ih moored idle' (by omega)

/-- After the reply there is at most one round more than numbers were sent. -/
theorem Replied.rounds (h : Replied o p q total c slots links m v waiting s) (cast : Cast o p q size)
    (idle : s.agenda = []) {done left : Nat} (enough : total + 1 ≤ left) : ∃ t c' k,
      (p.setup q total).rounds done left s = .ok (.ok k, t) ∧ Ended o p q c' t ∧ t.agenda = [] := by
  rcases h.other with ⟨slots', links', other⟩
  cases complete : (p.setup q total).isComplete (some q.endpoint) s with
  | true =>
    have arrived := h.arrived
    have enough := arrived_of_complete h.stage.bears complete
    obtain rfl : waiting = [] := List.length_eq_zero_iff.1 (by omega)
    rcases ends_holding h.stage idle h.aboard other complete with
      ⟨t, ran, stage, idle', layout, next⟩
    exact ⟨t, c, done, ran, (h.ends cast).alike stage layout next, idle'⟩
  | false =>
    rcases (h.alike h.stage.kept rfl rfl).round cast idle with
      ⟨t, c', slots'', waiting', round, moored, idle'⟩
    obtain ⟨left, rfl⟩ := Nat.exists_eq_add_of_le' (Nat.le_of_add_left_le enough)
    rw [rounds_incomplete (back_some h.aboard other) complete round]
    have arrived := moored.arrived
    exact moored.rounds cast left idle' (by omega)

/-- A run ends after at most two rounds more than numbers were sent. -/
theorem Requested.rounds (h : Requested o p q total c slots links m v new waiting s)
    (cast : Cast o p q size) (idle : s.agenda = []) {left : Nat} (enough : total + 2 ≤ left) :
    ∃ t c' k, (p.setup q total).rounds 0 left s = .ok (.ok k, t) ∧ Ended o p q c' t ∧
      t.agenda = [] := by
  rcases h.round cast idle with ⟨t, c', m', v', round, replied, idle'⟩
  obtain ⟨left, rfl⟩ := Nat.exists_eq_add_of_le' (Nat.le_of_add_left_le enough)
  have incomplete : (p.setup q total).isComplete none s = false := by
    simp only [RunSetup.isComplete, Option.any_none, Bool.and_false, Bool.false_and]
  rw [rounds_incomplete (back_none h.aboard.worker h.alone) incomplete round]
  exact replied.rounds cast idle' (by omega)

end Network

end Wiring
