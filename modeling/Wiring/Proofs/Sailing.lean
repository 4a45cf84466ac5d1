import Mathlib
import Wiring.Proofs.Parting

/-!
# Numbers under way

What is on its way between two parties is of a simple form: what is in flight lies in one inbox and
was sent over one link, and the numbers that have not gone out wait at one place. Once the sender has
connected its lanes, each time that it progresses numbers go out until the credits are spent.
-/
namespace Wiring

namespace Cargo

/-- What is in flight lies in one inbox and was sent over one link. -/
structure Flies (c : Cargo) (d : InterfaceId) (v : LinkId) (ms : List Message) : Prop where
  mail : ∀ i, c.mail i = if i = d then ms else []
  used : ∀ l, c.used l = if l = v then ms.length else 0

/-- The numbers that a party has not sent wait in the queue of its link for messages, or on the stub
that stands in for it. -/
inductive Waits (c : Cargo) (p : Party) (waiting : List Request) : Slot → Prop
  | queued (l : LinkId) (queue : ∀ k, c.queue k = if k = l then waiting else [])
      (parked : ∀ x, c.parked x = []) (runners : c.runners p.registry = some []) :
      Waits c p waiting (some (.link l))
  | parked (x : StubId) (queue : ∀ k, c.queue k = [])
      (parked : ∀ y, c.parked y = if y = x then waiting else [])
      (runners : c.runners p.registry =
        some (if waiting = [] then [] else [(.stub x, waiting.length)])) :
      Waits c p waiting (some (.stub x))

variable {c c' : Cargo} {p : Party} {d d' : InterfaceId} {v l : LinkId} {m : Message}
  {ms new : List Message} {waiting rest : List Request} {slot : Slot} {x : StubId} {n : Nat}

/-! ## In flight -/

namespace Flies

theorem at_inbox (h : c.Flies d v ms) : c.mail d = ms := by rw [h.mail, if_pos rfl]

theorem at_link (h : c.Flies d v ms) : c.used v = ms.length := by rw [h.used, if_pos rfl]

theorem elsewhere (h : c.Flies d v ms) (other : d' ≠ d) : c.mail d' = [] := by
  rw [h.mail, if_neg other]

/-- Where nothing is in flight does not matter. -/
theorem nowhere (h : c.Flies d v []) (d' : InterfaceId) (l : LinkId) : c.Flies d' l [] where
  mail i := by rw [h.mail, ite_self, ite_self]
  used k := by
    rw [h.used]
    simp

/-- One message more is sent over the same link. -/
theorem put (h : c.Flies d v ms) (sender : m.sender = v) : (c.put d m).Flies d v (ms ++ [m]) where
  mail i := by
    simp only [Cargo.put, Function.update_apply, h.mail]
    split <;> rfl
  used k := by
    simp only [Cargo.put, Function.update_apply, h.used, sender, if_true, List.length_append,
      List.length_singleton]
    split <;> rfl

/-- The first message is handled and answered, and then the others land. -/
theorem answered (h : c.Flies d v (m :: ms)) {a : Message} (inbox : d' ≠ d) (link : a.sender ≠ v) :
    ((((c.take d).put d' a).repay v).land d v ms.length).Flies d' a.sender [a] where
  mail i := by
    simp only [Cargo.land, Cargo.repay, Cargo.put, Cargo.take, Function.update_apply, h.mail]
    by_cases first : i = d
    · subst first
      simp [Ne.symm inbox]
    · by_cases second : i = d'
      · subst second
        simp [inbox]
      · simp [first, second]
  used k := by
    simp only [Cargo.land, Cargo.repay, Cargo.put, Cargo.take, Function.update_apply, h.used]
    by_cases first : k = v
    · subst first
      simp [Ne.symm link]
    · by_cases second : k = a.sender
      · subst second
        simp [link]
      · simp [first, second]

/-- The first message is handled, and then the others land. -/
theorem handled (h : c.Flies d v (m :: ms)) :
    (((c.take d).repay v).land d v ms.length).Flies d v [] where
  mail i := by
    simp only [Cargo.land, Cargo.repay, Cargo.take, Function.update_apply, h.mail]
    by_cases first : i = d
    · subst first
      simp
    · simp [first]
  used k := by
    simp only [Cargo.land, Cargo.repay, Cargo.take, Function.update_apply, h.used]
    by_cases first : k = v
    · subst first
      simp
    · simp [first]

/-- All of it lands. -/
theorem landed (h : c.Flies d v ms) : (c.land d v ms.length).Flies d v [] where
  mail i := by
    simp only [Cargo.land, Function.update_apply, h.mail]
    by_cases first : i = d
    · subst first
      simp
    · simp [first]
  used k := by
    simp only [Cargo.land, Function.update_apply, h.used]
    by_cases first : k = v
    · subst first
      simp
    · simp [first]

/-- Numbers go out. -/
theorem ship (h : c.Flies d v ms) (new : List Message) (queue : List Request) :
    (c.ship d v new queue).Flies d v (ms ++ new) where
  mail i := by
    simp only [Cargo.ship, Function.update_apply, h.mail]
    split <;> rfl
  used k := by
    simp only [Cargo.ship, Function.update_apply, h.used, if_true, List.length_append]
    split <;> rfl

end Flies

theorem land_zero (c : Cargo) (d : InterfaceId) (l : LinkId) : c.land d l 0 = c := by
  simp only [land, List.drop_zero, Nat.sub_zero, Nat.add_zero, Function.update_eq_self]

/-! ## Waiting -/

namespace Waits

/-- What is in flight does not matter to what waits. -/
theorem same (h : c.Waits p waiting slot) (queue : c'.queue = c.queue) (parked : c'.parked = c.parked)
    (runners : c'.runners = c.runners) : c'.Waits p waiting slot := by
  cases h with
  | queued l queue' parked' runners' =>
    exact .queued l (queue ▸ queue') (parked ▸ parked') (runners ▸ runners')
  | parked x queue' parked' runners' =>
    exact .parked x (queue ▸ queue') (parked ▸ parked') (runners ▸ runners')

theorem ship (h : c.Waits p waiting (some (.link l))) (d : InterfaceId) (new : List Message)
    (rest : List Request) : (c.ship d l new rest).Waits p rest (some (.link l)) := by
  cases h with
  | queued l queue parked runners =>
    refine .queued l (fun k => ?_) parked runners
    simp only [Cargo.ship, Function.update_apply, queue]
    split <;> rfl

theorem pass (h : c.Waits p waiting (some (.stub x))) (d : InterfaceId) (l : LinkId)
    (new : List Message) :
    (c.pass x p.registry d l new).Waits p (waiting.drop new.length) (some (.link l)) := by
  cases h with
  | parked x queue parked runners =>
    have here : c.parked x = waiting := by rw [parked, if_pos rfl]
    refine .queued l (fun k => ?_) (fun y => ?_) ?_
    · simp only [Cargo.pass, Cargo.ship, Cargo.unpark, Function.update_apply, queue, here]
    · simp only [Cargo.pass, Cargo.ship, Cargo.unpark, Function.update_apply, parked]
      split <;> rfl
    · simp only [Cargo.pass, Cargo.ship, Cargo.unpark, Function.update_self, here, runners]
      split <;> rfl

/-- Where nothing waits, nothing is queued and nothing is parked. -/
theorem nothing (h : c.Waits p [] slot) : (∀ l, c.queue l = []) ∧ ∀ x, c.parked x = [] := by
  cases h with
  | queued l queue parked => exact ⟨fun k => by rw [queue, ite_self], parked⟩
  | parked x queue parked => exact ⟨queue, fun y => by rw [parked, ite_self]⟩

end Waits

end Cargo

namespace Network

variable {o : Outfit} {ps : List Party} {p q : Party} {s t u : Network} {size n m a b k total : Nat}
  {loc rem : Category → Bool} {slots : PerCategory Slot} {links : Category → LinkId} {v l : LinkId}
  {c c' : Cargo} {i : InterfaceId} {first new ms : List Message} {waiting : List Request}
  {due : Prop}

/-! ## What rests -/

/-- The link that serves the messages of a party belongs to the interface that serves them. -/
theorem Stage.served (h : Stage o ps c s) (fair : o.Fair size) (hq : q ∈ ps)
    (aboard : Aboard o p q s.layout o.plan.lanes loc rem slots links)
    (slot : slots.messages = some (.link l)) : l = links .messages ∧ ∃ lk,
      s.links.get? l = some lk ∧ lk.owner = p.at (o.serves .messages) ∧
      lk.settings = o.settings (o.serves .messages) := by
  rcases h.pipe fair hq aboard slot with ⟨rfl, lk, f, pipe, settings, -⟩
  rcases (aboard.lanes .messages fair.messages).course with ⟨dest, course⟩
  rcases Option.map_eq_some_iff.1 course with ⟨lk', here, course⟩
  cases here.symm.trans pipe.link
  exact ⟨rfl, lk, pipe.link, congrArg Course.owner course, settings⟩

/-- Every interface rests, but one that serves messages that wait and have credits. -/
theorem Stage.resting (h : Stage o ps c s) (fair : o.Fair size) (hq : q ∈ ps)
    (aboard : Aboard o p q s.layout o.plan.lanes loc rem slots links)
    (waits : c.Waits p waiting slots.messages)
    (free : i = p.at (o.serves .messages) → ∀ l, slots.messages = some (.link l) →
      waiting = [] ∨ (o.settings (o.serves .messages)).credits ≤ c.used l) : s.Rests i := by
  refine h.rests fun l lk here owner => ?_
  generalize hs : slots.messages = slot at waits
  cases waits with
  | parked x queue => exact .inl (queue l)
  | queued l' queue =>
    rw [queue]
    split
    · rename_i same
      subst same
      rcases h.served fair hq aboard hs with ⟨-, lk', here', owner', settings⟩
      cases here.symm.trans here'
      rw [settings]
      exact free (owner.symm.trans owner') l hs
    · exact .inl rfl

/-! ## Sending -/

/-- What waits can not be sent before credits come back. -/
def Spent (o : Outfit) (inFlight : List Message) (waiting : List Request) : Prop :=
  waiting = [] ∨ (o.settings (o.serves .messages)).credits ≤ inFlight.length

/-- Nothing more can be done before credits come back, and what waits does so in the queue of the
link. -/
structure Exhausted (o : Outfit) (slots : PerCategory Slot) (inFlight : List Message)
    (waiting : List Request) : Prop where
  spent : Spent o inFlight waiting
  unparked : ∀ x, slots.messages = some (.stub x) → waiting = []

/-- Some of the numbers that waited have gone out. -/
structure Drains (new new' : List Message) (waiting waiting' : List Request) : Prop where
  more : new.length ≤ new'.length
  whole : new'.length + waiting'.length = new.length + waiting.length

namespace Drains

variable {new' new'' : List Message} {waiting' waiting'' : List Request}

theorem refl (new : List Message) (waiting : List Request) : Drains new new waiting waiting :=
  ⟨le_rfl, rfl⟩

theorem trans (h : Drains new new' waiting waiting') (g : Drains new' new'' waiting' waiting'') :
    Drains new new'' waiting waiting'' :=
  ⟨h.more.trans g.more, g.whole.trans h.whole⟩

theorem fewer (h : Drains new new' waiting waiting') : waiting'.length ≤ waiting.length := by
  have more := h.more
  have whole := h.whole
  omega

/-- The first requests have become messages. -/
theorem of_drop (new : List Message) {more : List Message} (few : more.length ≤ waiting.length) :
    Drains new (new ++ more) waiting (waiting.drop more.length) where
  more := by
    rw [List.length_append]
    exact Nat.le_add_right _ _
  whole := by
    rw [List.length_append, List.length_drop]
    omega

end Drains

/-- One party has connected and marked its lanes, and the other one has connected them. Of the
numbers of the first one some have arrived, some are in flight and some wait. -/
structure Sailing (o : Outfit) (p q : Party) (total : Nat) (rem : Category → Bool) (c : Cargo)
    (slots : PerCategory Slot) (links : Category → LinkId) (first new : List Message)
    (waiting : List Request) (s : Network) : Prop where
  stage : Stage o [p, q] c s
  aboard : Aboard o p q s.layout o.plan.lanes (fun _ => true) (fun _ => true) slots links
  other : ∃ slots' links', Aboard o q p s.layout o.plan.lanes (fun _ => true) rem slots' links'
  flies : c.Flies (q.at (o.meets .messages)) (links .messages) (first ++ new)
  numbers : ∀ msg ∈ new, msg.IsNumber (links .messages)
  waits : c.Waits p waiting slots.messages
  parked : ∀ x, slots.messages = some (.stub x) → new = []
  pending : ∀ r ∈ waiting, r.IsNumber p.endpoint
  rested : c.runners q.registry = some []
  arrived : c.arrived + new.length + waiting.length = total
  few : s.links.next ≤ 12

namespace Sailing

theorem alike (h : Sailing o p q total rem c slots links first new waiting s)
    (stage : Stage o [p, q] c t) (layout : t.layout = s.layout)
    (next : t.links.next = s.links.next) :
    Sailing o p q total rem c slots links first new waiting t :=
  { h with
    stage
    aboard := by
      rw [layout]
      exact h.aboard
    other := by
      rw [layout]
      exact h.other
    few := next ▸ h.few }

/-- When the queues of an interface of the sender are worked off, numbers go out if it is the one
that serves them. -/
theorem dispatches (h : Sailing o p q total rem c slots links first new waiting s)
    (cast : Cast o p q size) (k : Nat) (small : k < o.specs.length)
    (spent : due → Spent o (first ++ new) waiting) :
    Brings s [.dispatchLinks (p.at k)] (3 * waiting.length + 27) fun t => ∃ c' new' waiting',
      Sailing o p q total rem c' slots links first new' waiting' t ∧
      Drains new new' waiting waiting' ∧
      (due ∨ (k = o.serves .messages ∧ ∃ l, slots.messages = some (.link l)) →
        Spent o (first ++ new') waiting') := by
  have hq : q ∈ [p, q] := by simp
  have few := h.few
  by_cases chosen : k = o.serves .messages ∧ ∃ l, slots.messages = some (.link l)
  · rcases chosen with ⟨rfl, l, slot⟩
    rcases h.stage.served cast.fair hq h.aboard slot with ⟨rfl, lk, here, owner, settings⟩
    have waits := h.waits
    rw [slot] at waits
    have queued : c.queue (links .messages) = waiting ∧ ∀ k, k ≠ links .messages → c.queue k = [] := by
      cases waits with
      | queued _ queue => exact ⟨by rw [queue, if_pos rfl], fun k other => by rw [queue, if_neg other]⟩
    rcases h.stage.ships cast.fair hq h.aboard slot (by rw [queued.1]; exact h.pending) with
      ⟨t, more, trades, shipped, numbers, stage, works⟩
    rw [queued.1] at shipped stage works
    rw [h.flies.at_link] at shipped
    have all := h.stage.dispatchesLinks here owner trades stage (fun k other => ⟨queued.2 k other, by
      simp only [Cargo.ship, Function.update_of_ne other]
      exact queued.2 k other⟩) works
    refine (all.mono (by omega)).brings ⟨_, new ++ more, waiting.drop more.length, ⟨stage, ?_, ?_, ?_,
      fun msg mem => ?_, ?_, fun x stub => ?_, fun r mem => h.pending r (List.mem_of_mem_drop mem), h.rested, ?_, ?_⟩,
      ?_, fun _ => ?_⟩
    · rw [trades.layout]
      exact h.aboard
    · rw [trades.layout]
      exact h.other
    · rw [← List.append_assoc]
      exact h.flies.ship more _
    · rcases List.mem_append.1 mem with mem | mem
      · exact h.numbers msg mem
      · exact numbers msg mem
    · rw [slot]
      exact waits.ship _ _ _
    · cases slot.symm.trans stub
    · have arrived := h.arrived
      have below : more.length ≤ waiting.length := by omega
      rw [List.length_append, List.length_drop]
      change c.arrived + _ + _ = _
      omega
    · rw [trades.given.1]
      exact h.few
    · exact .of_drop new (by omega)
    · unfold Spent
      rw [← List.length_eq_zero_iff, List.length_drop, ← List.append_assoc, List.length_append]
      omega
  · have rests : s.Rests (p.at k) := by
      refine h.stage.resting cast.fair hq h.aboard h.waits fun same l slot => ?_
      exact absurd ⟨Nat.add_left_cancel same, l, slot⟩ chosen
    have all := rests.dispatched h.stage.scene.calm
    refine (all.mono (by omega)).brings ⟨c, new, waiting, h, .refl new waiting, fun both => ?_⟩
    exact spent (both.resolve_right chosen)

/-- So it is when an interface of the sender progresses, since nothing has come in there. -/
theorem steps (h : Sailing o p q total rem c slots links first new waiting s)
    (cast : Cast o p q size) (k : Nat) (small : k < o.specs.length)
    (spent : due → Spent o (first ++ new) waiting) :
    Brings s [.progressInterface (p.at k)] (3 * waiting.length + 29) fun t => ∃ c' new' waiting',
      Sailing o p q total rem c' slots links first new' waiting' t ∧
      Drains new new' waiting waiting' ∧
      (due ∨ (k = o.serves .messages ∧ ∃ l, slots.messages = some (.link l)) →
        Spent o (first ++ new') waiting') := by
  have hp : p ∈ [p, q] := by simp
  rcases h.stage.scene.stations p hp k small with ⟨f, here, -⟩
  have none : c.mail (p.at k) = [] :=
    h.flies.elsewhere
    (cast.strangers.faces k small _ (cast.fair.meets_lt cast.fair.messages))
  have nothing : Brings s [.deliver (p.at k) (c.mail (p.at k)).length] 1 fun t => t = s := by
    rw [none]
    exact (h.stage.delivered (p.at k)).brings rfl
  exact .mono (h.stage.progresses here nothing fun t same => by
    rw [same]
    exact h.dispatches cast k small spent) (by omega) fun _ holds => holds

/-- When the sender has run its registry nothing is parked any more, or nothing waits. -/
theorem runs (h : Sailing o p q total rem c slots links first new waiting s)
    (cast : Cast o p q size)
    (spent : (∃ l, slots.messages = some (.link l)) → Spent o (first ++ new) waiting) :
    Brings s [.runRegistry p.registry] (5 * waiting.length + 10) fun t => ∃ c' slots' new' waiting',
      Sailing o p q total rem c' slots' links first new' waiting' t ∧
      Drains new new' waiting waiting' ∧ Exhausted o slots' (first ++ new') waiting' := by
  have hp : p ∈ [p, q] := by simp
  have hq : q ∈ [p, q] := by simp
  have waits := h.waits
  generalize hs : slots.messages = slot at waits
  cases waits with
  | queued l queue parked runners =>
    exact ((h.stage.sleeps runners).brings
      ⟨c, slots, new, waiting, h, .refl new waiting, spent ⟨l, hs⟩, fun x stub => by
        cases hs.symm.trans stub⟩).mono (by omega) fun _ holds => holds
  | parked x queue parked runners =>
    by_cases empty : waiting = []
    · rw [if_pos empty] at runners
      exact ((h.stage.sleeps runners).brings
        ⟨c, slots, new, waiting, h, .refl new waiting, .inl empty, fun _ _ => empty⟩).mono (by omega) fun _ holds => holds
    · rw [if_neg empty] at runners
      have here : c.parked x = waiting := by rw [parked, if_pos rfl]
      have passes := h.stage.hurries cast.fair cast.strangers hp hq h.aboard hs rfl
        (by rw [here]; exact h.pending) (by rw [here]; exact runners) queue
      rw [here] at passes
      refine passes.mono le_rfl fun t ht => ?_
      rcases ht with ⟨more, passed⟩
      have few := passed.few
      rw [here, h.flies.at_link] at few
      rcases h.other with ⟨slots', links', other⟩
      refine ⟨_, _, new ++ more, waiting.drop more.length, ⟨passed.stage, passed.aboard,
        ⟨slots', links', passed.unharmed _ _ _ _ other⟩, ?_, fun msg mem => ?_, ?_,
        fun x stub => ?_, fun r mem => h.pending r (List.mem_of_mem_drop mem), ?_, ?_, ?_⟩, ?_, ?_⟩
      · have flies := h.flies.ship more ((c.parked x).drop more.length)
        rw [← List.append_assoc]
        exact ⟨flies.mail, flies.used⟩
      · rcases List.mem_append.1 mem with mem | mem
        · exact h.numbers msg mem
        · exact passed.numbers msg mem
      · have waits := h.waits
        rw [hs] at waits
        exact waits.pass _ _ _
      · cases stub
      · have other : (c.pass x p.registry (q.at (o.meets .messages)) (links .messages) more).runners
            q.registry = c.runners q.registry := Function.update_of_ne cast.registries.symm _ _
        rw [other]
        exact h.rested
      · have arrived := h.arrived
        have below : more.length ≤ waiting.length := by omega
        rw [List.length_append, List.length_drop]
        change c.arrived + _ + _ = _
        omega
      · rw [passed.next]
        exact h.few
      · exact .of_drop new (by omega)
      · refine ⟨?_, fun y stub => by cases stub⟩
        unfold Spent
        rw [← List.length_eq_zero_iff, List.length_drop, ← List.append_assoc, List.length_append]
        omega

/-- When the sender progresses numbers go out until the credits are spent. -/
theorem progresses (h : Sailing o p q total rem c slots links first new waiting s)
    (cast : Cast o p q size) :
    Brings s [.progressWorker p.worker]
      ((3 * waiting.length + 29) * o.specs.length + (5 * waiting.length + 10) + 1) fun t =>
      ∃ c' slots' new' waiting', Sailing o p q total rem c' slots' links first new' waiting' t ∧
        Drains new new' waiting waiting' ∧ Exhausted o slots' (first ++ new') waiting' := by
  have faces := Brings.numbered (n := o.specs.length) (m := 3 * waiting.length + 29)
    (J := fun n => .progressInterface (p.at n))
    (Q := fun k t => ∃ c' new' waiting',
      Sailing o p q total rem c' slots links first new' waiting' t ∧
      Drains new new' waiting waiting' ∧ (o.serves .messages < k ∧
        (∃ l, slots.messages = some (.link l)) → Spent o (first ++ new') waiting'))
    (fun _ _ => by simp) (fun k small t ht => by
      rcases ht with ⟨c', new', waiting', sailing, drains, spent⟩
      have fewer := drains.fewer
      refine (sailing.steps cast k small spent).mono (by omega) fun u hu => ?_
      rcases hu with ⟨c'', new'', waiting'', sailing', drains', spent'⟩
      refine ⟨c'', new'', waiting'', sailing', drains.trans drains', fun both => spent' ?_⟩
      rcases Nat.lt_succ_iff_lt_or_eq.1 both.1 with before | now
      · exact .inl ⟨before, both.2⟩
      · exact .inr ⟨now.symm, both.2⟩)
    s ⟨c, new, waiting, h, .refl new waiting, fun both => absurd both.1 (Nat.not_lt_zero _)⟩
  refine (h.stage.progressesWorker h.aboard.worker faces fun t ht => ?_).mono le_rfl
    fun _ holds => holds
  rcases ht with ⟨c', new', waiting', sailing, drains, spent⟩
  have fewer := drains.fewer
  refine (sailing.runs cast fun slot => spent
    ⟨cast.fair.serves_lt cast.fair.messages, slot⟩).mono (by omega) fun u hu => ?_
  rcases hu with ⟨c'', slots', new'', waiting'', sailing', drains', exhausted⟩
  exact ⟨c'', slots', new'', waiting'', sailing', drains.trans drains', exhausted⟩

/-! ## Receiving -/

/-- All that is left in the inbox are numbers, and they arrive. -/
theorem lands (h : Sailing o p q total rem c slots links first new waiting s)
    (cast : Cast o p q size) (stage : Stage o [p, q] c' t)
    (aboard : Aboard o p q t.layout o.plan.lanes (fun _ => true) (fun _ => true) slots links)
    (mail : c'.mail (q.at (o.meets .messages)) = new)
    (used : c'.used (links .messages) = new.length) :
    Brings t [.deliver (q.at (o.meets .messages)) new.length] (3 * new.length + 1) fun u =>
      Stage o [p, q] (c'.land (q.at (o.meets .messages)) (links .messages) new.length) u ∧
      u.layout = t.layout ∧ u.links.next = t.links.next := by
  have hq : q ∈ [p, q] := by simp
  have waits := h.waits
  generalize hs : slots.messages = slot at waits
  cases waits with
  | parked x =>
    have none := h.parked x hs
    rw [none, List.length_nil, Cargo.land_zero]
    exact (stage.delivered _).brings ⟨stage, rfl, rfl⟩
  | queued l =>
    rcases h.stage.served cast.fair hq h.aboard hs with ⟨rfl, -⟩
    rcases cast.records with ⟨log, records⟩
    have whole : c'.mail (q.at (o.meets .messages)) = new ++ [] := by simp [mail]
    rcases stage.lands cast.fair hq aboard hs records whole h.numbers used.ge with
      ⟨u, trades', stage', works⟩
    exact works.brings ⟨stage', trades'.layout, trades'.given.1⟩

/-- An interface of the receiver at which nothing has come in does nothing. -/
theorem rests (h : Sailing o p q total rem c slots links first new waiting s)
    (cast : Cast o p q size) (k : Nat) (small : k < o.specs.length) : s.Rests (q.at k) := by
  refine h.stage.resting cast.fair (by simp) h.aboard h.waits fun same => ?_
  exact absurd same.symm (cast.strangers.faces _ (cast.fair.serves_lt cast.fair.messages) k small)

/-- The receiver takes out what is in flight: an acknowledgement first, if there is one, and then
numbers. -/
theorem delivers (h : Sailing o p q total rem c slots links first new waiting s)
    (cast : Cast o p q size) (heard : first = [] ∧ rem = (fun _ => true) ∨ first =
      [⟨Signal.messageId, (o.message p q .ack []).encode, links .messages⟩]) :
    Brings s [.deliver (q.at (o.meets .messages)) (c.mail (q.at (o.meets .messages))).length]
      (3 * new.length + 6) fun t => ∃ c',
        Sailing o p q total (fun _ => true) c' slots links [] [] waiting t := by
  have hq : q ∈ [p, q] := by simp
  have inside := cast.fair.meets_lt cast.fair.messages
  have mail := h.flies.at_inbox
  have arrived := h.arrived
  rcases heard with ⟨rfl, rfl⟩ | rfl
  · rw [mail, List.nil_append]
    refine (h.lands cast h.stage h.aboard mail h.flies.at_link).mono (by omega) fun t ht => ?_
    rcases ht with ⟨stage, layout, next⟩
    refine ⟨_, stage, ?_, ?_, h.flies.landed, by simp, h.waits.same rfl rfl rfl, by simp, h.pending,
      h.rested, ?_, ?_⟩
    · rw [layout]
      exact h.aboard
    · rw [layout]
      exact h.other
    · change c.arrived + _ + _ + _ = _
      simp only [List.length_nil, Nat.add_zero]
      exact h.arrived
    · rw [next]
      exact h.few
  · rcases h.other with ⟨slots', links', other⟩
    rw [mail]
    refine (h.stage.delivers hq inside (a := 3) (b := 3 * new.length + 1) (k := new.length)
      (P := fun t => Stage o [p, q] (c.take (q.at (o.meets .messages))) t ∧
        Aboard o p q t.layout o.plan.lanes (fun _ => true) (fun _ => true) slots links ∧
        Aboard o q p t.layout o.plan.lanes (fun _ => true) (fun _ => true) slots' links' ∧
        t.links.next ≤ 12) mail (cast.listens q hq) (fun t trades stage => ?_) fun t ht => ?_).mono
          (by omega) fun _ holds => holds
    · rw [← trades.layout] at other
      have aboard := h.aboard
      rw [← trades.layout] at aboard
      refine (stage.handles_ack cast hq other).mono le_rfl fun u hu => ?_
      rcases hu with ⟨stage', other', clear, next⟩
      exact ⟨stage', aboard.clear (fun _ hc => cast.fair.serves_lt hc) clear, other',
        (next.trans trades.given.1).trans_le h.few⟩
    · rcases ht with ⟨stage, aboard, other', few⟩
      have taken : (c.take (q.at (o.meets .messages))).used (links .messages) = new.length + 1 :=
        h.flies.at_link
      refine ⟨_, stage, taken ▸ Nat.succ_pos _, fun u trades stage' => ?_⟩
      let c' := (c.take (q.at (o.meets .messages))).repay (links .messages)
      have mail' : c'.mail (q.at (o.meets .messages)) = new := by
        change Function.update c.mail _ _ _ = _
        rw [Function.update_self, mail]
        rfl
      have used : c'.used (links .messages) = new.length := by
        change Function.update _ _ _ _ = _
        rw [Function.update_self, taken, Nat.add_sub_cancel]
      rw [← trades.layout] at aboard other'
      refine (h.lands cast stage' aboard mail' used).mono le_rfl fun x hx => ?_
      rcases hx with ⟨stage'', layout, next⟩
      rw [← layout] at aboard other'
      refine ⟨_, stage'', aboard, ⟨slots', links', other'⟩, h.flies.handled, by simp,
        h.waits.same rfl rfl rfl, by simp, h.pending, h.rested, ?_, ?_⟩
      · change c.arrived + _ + _ + _ = _
        simp only [List.length_nil, Nat.add_zero]
        exact h.arrived
      · rw [next, trades.given.1]
        exact few

/-- When the receiver progresses all that is in flight arrives. -/
theorem receives (h : Sailing o p q total rem c slots links first new waiting s)
    (cast : Cast o p q size) (heard : first = [] ∧ rem = (fun _ => true) ∨ first =
      [⟨Signal.messageId, (o.message p q .ack []).encode, links .messages⟩]) :
    Brings s [.progressWorker q.worker]
      ((2 * 12 + 3) * o.specs.length + (3 * new.length + 2 * 12 + 8) + 2) fun t => ∃ c',
        Sailing o p q total (fun _ => true) c' slots links [] [] waiting t := by
  have hq : q ∈ [p, q] := by simp
  have few := h.few
  have inside := cast.fair.meets_lt cast.fair.messages
  rcases h.other with ⟨slots', links', other⟩
  rcases h.stage.scene.stations q hq _ inside with ⟨f, here, -⟩
  have idle {k : Nat} (small : k < o.specs.length) (other : k ≠ o.meets .messages)
      {rem c first new waiting t} (h : Sailing o p q total rem c slots links first new waiting t) :
      Works t [.progressInterface (q.at k)] (2 * 12 + 3) t := by
    refine (h.stage.idles (h.rests cast k small) (h.flies.elsewhere fun same => ?_)).mono ?_
    · exact other (Nat.add_left_cancel same)
    · have := h.few
      omega
  have main := h.stage.progresses here (h.delivers cast heard) fun t ht => by
    rcases ht with ⟨c', sailing⟩
    refine (((sailing.rests cast _ inside).dispatched sailing.stage.scene.calm).mono (n := 2 * 12 + 1)
      ?_).brings (Q := fun t => ∃ c', Sailing o p q total (fun _ => true) c' slots links [] [] waiting t)
      ⟨c', sailing⟩
    have := sailing.few
    omega
  have faces := Brings.pivot (J := fun n => .progressInterface (q.at n)) (fun _ _ => by simp) inside
    (fun k before => idle (before.trans inside) before.ne h) main fun k after small t ht => by
      rcases ht with ⟨c', sailing⟩
      exact (idle small after.ne' sailing).brings ⟨c', sailing⟩
  refine (h.stage.progressesWorker (b := 1) other.worker faces fun t ht => ?_).mono (by omega)
    fun _ holds => holds
  rcases ht with ⟨c', sailing⟩
  exact (sailing.stage.sleeps sailing.rested).brings
    (Q := fun t => ∃ c', Sailing o p q total (fun _ => true) c' slots links [] [] waiting t)
    ⟨c', sailing⟩

end Sailing

end Network

end Wiring
