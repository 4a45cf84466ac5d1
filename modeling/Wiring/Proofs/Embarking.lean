import Mathlib
import Wiring.Proofs.Sailing

/-!
# The first two rounds

In the first round of a run the receiver takes out the request and what was sent with it, and
replies; in the second one the sender takes out the reply, acknowledges and sends what waits. After
that only numbers are on their way.
-/
namespace Wiring

/-- A lane that no side has connected has a link only if its resource does not pair links. -/
theorem Aboard.unpaired {o : Outfit} {p q : Party} {k : Layout} {loc rem : Category → Bool}
    {slots : PerCategory Slot} {links : Category → LinkId} {l : LinkId}
    (h : Aboard o p q k o.plan.lanes loc rem slots links) (hc : .messages ∈ o.plan.lanes)
    (unready : (loc .messages && rem .messages) = false)
    (slot : slots.messages = some (.link l)) : o.paired .messages = false := by
  cases paired : o.paired .messages with
  | false => rfl
  | true =>
    rcases (h.lanes .messages hc).stub paired unready with ⟨x, st, stub, -⟩
    have stub : slots.messages = some (.stub x) := stub
    cases slot.symm.trans stub

namespace Network

variable {o : Outfit} {p q : Party} {s t u : Network} {size n m a b k total : Nat}
  {loc rem : Category → Bool} {slots : PerCategory Slot} {links : Category → LinkId} {v l : LinkId}
  {c c' : Cargo} {i : InterfaceId} {first new ms : List Message} {waiting : List Request}

/-- The receiver has replied, and the sender has not taken out the reply. -/
structure Replied (o : Outfit) (p q : Party) (total : Nat) (c : Cargo) (slots : PerCategory Slot)
    (links : Category → LinkId) (m : Nat) (v : LinkId) (waiting : List Request) (s : Network) :
    Prop where
  stage : Stage o [p, q] c s
  aboard : Aboard o p q s.layout o.plan.lanes (fun _ => false) (fun _ => false) slots links
  other : ∃ slots' links',
    Aboard o q p s.layout o.plan.lanes (fun _ => true) (fun _ => false) slots' links'
  inside : m < o.specs.length
  direct : o.paired .messages = false → m = o.meets .messages
  course : ∃ n < o.specs.length, s.layout.course v = some (o.course q n (some (p.at m)))
  reply : ∃ entries, Announced o q entries ∧
    c.Flies (p.at m) v [⟨Signal.messageId, (o.message q p .reply entries).encode, v⟩]
  waits : c.Waits p waiting slots.messages
  pending : ∀ r ∈ waiting, r.IsNumber p.endpoint
  rested : c.runners q.registry = some []
  arrived : c.arrived + waiting.length = total
  few : s.links.next ≤ 12

namespace Replied

theorem alike (h : Replied o p q total c slots links m v waiting s) (stage : Stage o [p, q] c t)
    (layout : t.layout = s.layout) (next : t.links.next = s.links.next) :
    Replied o p q total c slots links m v waiting t :=
  { h with
    stage
    aboard := by
      rw [layout]
      exact h.aboard
    other := by
      rw [layout]
      exact h.other
    course := by
      rw [layout]
      exact h.course
    few := next ▸ h.few }

/-- The sender takes out the reply and acknowledges. -/
theorem delivers (h : Replied o p q total c slots links m v waiting s) (cast : Cast o p q size) :
    Brings s [.deliver (p.at m) (c.mail (p.at m)).length] 8 fun t => ∃ c',
      Sailing o p q total (fun _ => false) c' slots links
        [⟨Signal.messageId, (o.message p q .ack []).encode, links .messages⟩] [] waiting t := by
  have hp : p ∈ [p, q] := by simp
  have hq : q ∈ [p, q] := by simp
  have served := cast.fair.serves_lt cast.fair.messages
  rcases h.reply with ⟨entries, told, flies⟩
  rcases h.other with ⟨slots', links', other⟩
  rcases h.course with ⟨n, hn, course⟩
  have apart : links .messages ≠ v := by
    intro same
    rcases (h.aboard.lanes .messages cast.fair.messages).course with ⟨dest, course'⟩
    rw [same] at course'
    have owner := congrArg Course.owner (Option.some.inj (course'.symm.trans course))
    exact cast.strangers.faces _ served n hn owner
  have spent : c.used (links .messages) = 0 := by rw [flies.used, if_neg apart]
  have credits := cast.fair.credits _ served
  let ack : Message := ⟨Signal.messageId, (o.message p q .ack []).encode, links .messages⟩
  rw [flies.at_inbox]
  refine (h.stage.delivers hp h.inside (a := 5) (b := 1) (k := 0) (P := fun t =>
    Stage o [p, q] ((c.take (p.at m)).put (q.at (o.meets .messages)) ack) t ∧
      Aboard o p q t.layout o.plan.lanes (fun _ => true) (fun _ => true) slots links ∧
      Aboard o q p t.layout o.plan.lanes (fun _ => true) (fun _ => false) slots' links' ∧
      t.links.next ≤ 12) flies.at_inbox (cast.listens p hp) (fun t trades stage => ?_)
    fun t ht => ?_).mono (by omega) fun _ holds => holds
  · rw [← trades.layout] at other
    have aboard := h.aboard
    rw [← trades.layout] at aboard
    refine (stage.handles_reply cast hp hq aboard told (?_ : c.used _ < _)).mono le_rfl fun u hu => ?_
    · omega
    · rcases hu with ⟨stage', aboard', clear, next⟩
      exact ⟨stage', aboard', other.clear (fun _ hc => cast.fair.serves_lt hc) clear,
        (next.trans trades.given.1).trans_le h.few⟩
  · rcases ht with ⟨stage, aboard, other', few⟩
    have owed : ((c.take (p.at m)).put (q.at (o.meets .messages)) ack).used v = 1 := by
      have kept : Function.update c.used (links .messages) (c.used (links .messages) + 1) v =
          c.used v := Function.update_of_ne apart.symm _ _
      exact kept.trans flies.at_link
    refine ⟨_, stage, owed ▸ Nat.one_pos, fun u trades stage' => ?_⟩
    rw [← trades.layout] at aboard other'
    have answered := flies.answered (a := ack)
      (cast.strangers.faces m h.inside _ (cast.fair.meets_lt cast.fair.messages)).symm apart
    rw [List.length_nil, Cargo.land_zero] at answered
    refine (stage'.delivered _).brings ⟨_, stage', aboard, ⟨slots', links', other'⟩, answered,
      by simp, h.waits.same rfl rfl rfl, by simp, h.pending, h.rested, h.arrived, ?_⟩
    rw [trades.given.1]
    exact few

/-- When the sender progresses, it acknowledges, and numbers go out until the credits are spent. -/
theorem progresses (h : Replied o p q total c slots links m v waiting s) (cast : Cast o p q size) :
    Brings s [.progressWorker p.worker]
      ((3 * waiting.length + 36) * o.specs.length + (5 * waiting.length + 10) + 1) fun t =>
      ∃ c' slots' new' waiting', Sailing o p q total (fun _ => false) c' slots' links
        [⟨Signal.messageId, (o.message p q .ack []).encode, links .messages⟩] new' waiting' t ∧
        Exhausted o slots'
          ([⟨Signal.messageId, (o.message p q .ack []).encode, links .messages⟩] ++ new') waiting' := by
  have hp : p ∈ [p, q] := by simp
  have few := h.few
  have served := cast.fair.serves_lt cast.fair.messages
  rcases h.reply with ⟨entries, told, flies⟩
  let ack : Message := ⟨Signal.messageId, (o.message p q .ack []).encode, links .messages⟩
  -- a link for messages is on an interface that does not come before that of the reply
  have later {l : LinkId} (slot : slots.messages = some (.link l)) : m ≤ o.serves .messages := by
    rw [h.direct (h.aboard.unpaired cast.fair.messages rfl slot)]
    exact Outfit.meets_le served
  have faces := Brings.numbered (n := o.specs.length) (m := 3 * waiting.length + 36)
    (J := fun n => .progressInterface (p.at n))
    (Q := fun k t => if k ≤ m then t = s else ∃ c' new' waiting',
      Sailing o p q total (fun _ => false) c' slots links [ack] new' waiting' t ∧
      waiting'.length ≤ waiting.length ∧ (o.serves .messages < k ∧
        (∃ l, slots.messages = some (.link l)) → Spent o ([ack] ++ new') waiting'))
    (fun _ _ => by simp) (fun k small t ht => by
      rcases Nat.lt_trichotomy k m with before | rfl | after
      · rw [if_pos before.le] at ht
        rw [ht]
        have rests := h.stage.resting (i := p.at k) cast.fair (by simp) h.aboard h.waits
          fun same l slot => by
            have := later slot
            have := Nat.add_left_cancel same
            omega
        refine ((h.stage.idles rests (flies.elsewhere fun same => ?_)).mono (by omega)).brings ?_
        · exact before.ne (Nat.add_left_cancel same)
        · rw [if_pos (Nat.succ_le_of_lt before)]
      · rw [if_pos le_rfl] at ht
        rw [ht]
        rcases h.stage.scene.stations p hp k small with ⟨f, here, -⟩
        refine .mono (h.stage.progresses here (h.delivers cast) fun u hu => ?_)
          (by omega : 8 + (3 * waiting.length + 27) + 1 ≤ _) fun _ holds => holds
        rcases hu with ⟨c', sailing⟩
        have unspent : False → Spent o ([ack] ++ []) waiting := False.elim
        refine (sailing.dispatches cast k small unspent).mono le_rfl fun w hw => ?_
        rw [if_neg (by omega)]
        rcases hw with ⟨c', new', waiting', sailing, drains, spent⟩
        refine ⟨c', new', waiting', sailing, drains.fewer, fun both => spent (.inr ⟨?_, both.2⟩)⟩
        rcases both.2 with ⟨l, slot⟩
        have := later slot
        omega
      · rw [if_neg (by omega)] at ht
        rcases ht with ⟨c', new', waiting', sailing, fewer, spent⟩
        refine (sailing.steps cast k small spent).mono (by omega) fun u hu => ?_
        rw [if_neg (by omega)]
        rcases hu with ⟨c'', new'', waiting'', sailing', drains, spent'⟩
        refine ⟨c'', new'', waiting'', sailing', drains.fewer.trans fewer, fun both => spent' ?_⟩
        rcases Nat.lt_succ_iff_lt_or_eq.1 both.1 with before | now
        · exact .inl ⟨before, both.2⟩
        · exact .inr ⟨now.symm, both.2⟩)
    s (by rw [if_pos (Nat.zero_le _)])
  refine (h.stage.progressesWorker h.aboard.worker faces fun t ht => ?_).mono le_rfl
    fun _ holds => holds
  rw [if_neg (Nat.not_le.2 h.inside)] at ht
  rcases ht with ⟨c', new', waiting', sailing, fewer, spent⟩
  refine (sailing.runs cast fun slot => spent ⟨served, slot⟩).mono (by omega) fun u hu => ?_
  rcases hu with ⟨c'', slots', new'', waiting'', sailing', -, exhausted⟩
  exact ⟨c'', slots', new'', waiting'', sailing', exhausted⟩

end Replied

/-! ## The first round -/

/-- The sender has sent its request and some numbers, and the receiver has not taken them out. -/
structure Requested (o : Outfit) (p q : Party) (total : Nat) (c : Cargo) (slots : PerCategory Slot)
    (links : Category → LinkId) (m : Nat) (v : LinkId) (new : List Message) (waiting : List Request)
    (s : Network) : Prop where
  stage : Stage o [p, q] c s
  aboard : Aboard o p q s.layout o.plan.lanes (fun _ => false) (fun _ => false) slots links
  alone : s.layout.worker q.worker = some (o.seat q [])
  number : s.endpoints.next = q.endpoint
  inside : m < o.specs.length
  course : ∃ n < o.specs.length, s.layout.course v = some (o.course p n (some (q.at m)))
  direct : o.paired .messages = false → m = o.meets .messages ∧ v = links .messages
  request : ∃ entries, Announced o p entries ∧
    c.Flies (q.at m) v (⟨Signal.messageId, (o.message p q .request entries).encode, v⟩ :: new)
  numbers : ∀ msg ∈ new, msg.IsNumber v
  parked : o.paired .messages = true → new = []
  waits : c.Waits p waiting slots.messages
  pending : ∀ r ∈ waiting, r.IsNumber p.endpoint
  spent : o.paired .messages = false →
    waiting = [] ∨ (o.settings (o.serves .messages)).credits ≤ new.length + 1
  rested : c.runners q.registry = some []
  arrived : c.arrived + new.length + waiting.length = total
  few : s.links.next ≤ 6

namespace Requested

/-- Nothing can be sent in the first round before the receiver has progressed. -/
theorem rests (h : Requested o p q total c slots links m v new waiting s) (cast : Cast o p q size)
    (i : InterfaceId) : s.Rests i := by
  refine h.stage.resting cast.fair (by simp) h.aboard h.waits fun _ l slot => ?_
  have unpaired := h.aboard.unpaired cast.fair.messages rfl slot
  rcases h.stage.served cast.fair (by simp) h.aboard slot with ⟨rfl, -⟩
  rcases h.request with ⟨entries, -, flies⟩
  rw [← (h.direct unpaired).2, flies.at_link]
  exact h.spent unpaired

/-- The sender does nothing in the first round. -/
theorem idles (h : Requested o p q total c slots links m v new waiting s) (cast : Cast o p q size) :
    Brings s [.progressWorker p.worker] ((2 * 6 + 3) * o.specs.length + 6) fun t =>
      ∃ tally, t = { s with tally } := by
  have few := h.few
  rcases h.request with ⟨entries, -, flies⟩
  have faces := Brings.numbered (n := o.specs.length) (m := 2 * 6 + 3)
    (J := fun n => .progressInterface (p.at n)) (Q := fun _ t => t = s) (fun _ _ => by simp)
    (fun k small t same => by
      rw [same]
      exact ((h.stage.idles (h.rests cast _)
        (flies.elsewhere (cast.strangers.faces k small m h.inside))).mono (by omega)).brings rfl)
    s rfl
  refine (h.stage.progressesWorker (b := 5) h.aboard.worker faces fun t same => ?_).mono le_rfl
    fun _ holds => holds
  rw [same]
  have waits := h.waits
  generalize hs : slots.messages = slot at waits
  have asleep (none : c.runners p.registry = some []) :
      Brings s [.runRegistry p.registry] 5 fun t => ∃ tally, t = { s with tally } :=
    ((h.stage.sleeps none).mono (by omega)).brings ⟨s.tally, rfl⟩
  cases waits with
  | queued l queue parked runners => exact asleep runners
  | parked x queue parked runners =>
    split at runners
    · exact asleep runners
    · exact (h.stage.awaits h.aboard cast.fair.messages hs rfl runners).brings ⟨s.tally + 1, rfl⟩

theorem alike (h : Requested o p q total c slots links m v new waiting s)
    (stage : Stage o [p, q] c t) (layout : t.layout = s.layout)
    (next : t.links.next = s.links.next) (number : t.endpoints.next = s.endpoints.next) :
    Requested o p q total c slots links m v new waiting t :=
  { h with
    stage
    aboard := by
      rw [layout]
      exact h.aboard
    alone := by
      rw [layout]
      exact h.alone
    course := by
      rw [layout]
      exact h.course
    number := number.trans h.number
    few := next ▸ h.few }

/-- The receiver takes out the request, replies, and then takes out what was sent with it. -/
theorem delivers (h : Requested o p q total c slots links m v new waiting s) (cast : Cast o p q size) :
    Brings s [.deliver (q.at m) (c.mail (q.at m)).length] (3 * new.length + 8) fun t =>
      ∃ c' m' v', Replied o p q total c' slots links m' v' waiting t := by
  have hp : p ∈ [p, q] := by simp
  have hq : q ∈ [p, q] := by simp
  rcases h.request with ⟨entries, told, flies⟩
  rcases h.course with ⟨n, hn, course⟩
  have unused {l n' dest} {t : Network} (same : t.layout = s.layout) (small : n' < o.specs.length)
      (course' : t.layout.course l = some (o.course q n' dest)) : l ≠ v := by
    rintro rfl
    rw [same] at course'
    have owner := congrArg Course.owner (Option.some.inj (course.symm.trans course'))
    exact cast.strangers.faces n hn n' small owner
  rw [flies.at_inbox]
  refine (h.stage.delivers hq h.inside (a := 5) (b := 3 * new.length + 1) (k := new.length)
    (P := fun t => ∃ slots' links' v' n' m' entries', Announced o q entries' ∧
      n' < o.specs.length ∧ m' < o.specs.length ∧
      (o.paired .messages = false → m' = o.meets .messages) ∧
      Stage o [p, q] ((c.take (q.at m)).put (p.at m')
        ⟨Signal.messageId, (o.message q p .reply entries').encode, v'⟩) t ∧
      Aboard o p q t.layout o.plan.lanes (fun _ => false) (fun _ => false) slots links ∧
      Aboard o q p t.layout o.plan.lanes (fun _ => true) (fun _ => false) slots' links' ∧
      t.layout.course v' = some (o.course q n' (some (p.at m'))) ∧ v' ≠ v ∧ t.links.next ≤ 12)
    flies.at_inbox (cast.listens q hq) (fun t trades stage => ?_) fun t ht => ?_).mono
      (by omega) fun _ holds => holds
  · have aboard := h.aboard
    rw [← trades.layout] at aboard
    have alone := h.alone
    rw [← trades.layout] at alone
    refine (stage.handles_request cast hp hq aboard alone (by rw [trades.frame]; exact h.number) told
      fun l n' dest small course' => ?_).mono le_rfl fun u hu => ?_
    · exact (flies.used l).trans (if_neg (unused trades.layout small course'))
    · rcases hu with ⟨slots', links', v', n', m', entries', told', hn', hm', direct, stage', other,
        course', clear, next⟩
      refine ⟨slots', links', v', n', m', entries', told', hn', hm', direct, stage',
        aboard.clear (fun _ hc => cast.fair.serves_lt hc) clear, other, course', ?_, ?_⟩
      · -- the link of the request is still one of the sender
        rintro rfl
        have before := clear.course v' _ ((congrArg (·.course v') trades.layout).trans course)
          ⟨n, hn, rfl⟩
        have owner := congrArg Course.owner (Option.some.inj (before.symm.trans course'))
        exact cast.strangers.faces n hn n' hn' owner
      · have := trades.given.1
        have := h.few
        omega
  · rcases ht with ⟨slots', links', v', n', m', entries', told', hn', hm', direct, stage, aboard,
      other, course', apart, few⟩
    let reply : Message := ⟨Signal.messageId, (o.message q p .reply entries').encode, v'⟩
    have owed : ((c.take (q.at m)).put (p.at m') reply).used v = new.length + 1 := by
      have kept : Function.update c.used v' (c.used v' + 1) v = c.used v :=
        Function.update_of_ne apart.symm _ _
      exact kept.trans flies.at_link
    have away : p.at m' ≠ q.at m := cast.strangers.faces m' hm' m h.inside
    refine ⟨_, stage, owed ▸ Nat.succ_pos _, fun u trades stage' => ?_⟩
    rw [← trades.layout] at aboard other course'
    have few' : u.links.next ≤ 12 := trades.given.1 ▸ few
    have answered := flies.answered (a := reply) away apart
    have arrived := h.arrived
    cases paired : o.paired .messages with
    | true =>
      have none := h.parked paired
      rw [none, List.length_nil, Cargo.land_zero] at answered
      rw [none, List.length_nil] at arrived ⊢
      refine (stage'.delivered _).brings ⟨_, m', v', stage', aboard, ⟨slots', links', other⟩, hm',
        direct, ⟨n', hn', course'⟩, ⟨entries', told', answered⟩, h.waits.same rfl rfl rfl, h.pending,
        h.rested, arrived, few'⟩
    | false =>
      rcases h.direct paired with ⟨rfl, rfl⟩
      have slot := ((aboard.lanes .messages cast.fair.messages).direct paired).1
      rcases cast.records with ⟨log, records⟩
      have mail : (((c.take (q.at (o.meets .messages))).put (p.at m') reply).repay
          (links .messages)).mail (q.at (o.meets .messages)) = new ++ [] := by
        change Function.update (Function.update c.mail _ _) _ _ _ = _
        rw [Function.update_of_ne away.symm, Function.update_self, flies.at_inbox, List.append_nil]
        rfl
      have used : new.length ≤ (((c.take (q.at (o.meets .messages))).put (p.at m') reply).repay
          (links .messages)).used (links .messages) := by
        simp only [Cargo.repay, Function.update_self, owed, Nat.add_sub_cancel, le_rfl]
      rcases stage'.lands cast.fair hq aboard slot records mail h.numbers used with
        ⟨w, trades', stage'', works⟩
      rw [← trades'.layout] at aboard other course'
      exact works.brings ⟨_, m', v', stage'', aboard, ⟨slots', links', other⟩, hm', direct,
        ⟨n', hn', course'⟩, ⟨entries', told', answered⟩, h.waits.same rfl rfl rfl, h.pending,
        h.rested, arrived, trades'.given.1 ▸ few'⟩

/-- When the receiver progresses it replies. -/
theorem progresses (h : Requested o p q total c slots links m v new waiting s) (cast : Cast o p q size) :
    Brings s [.progressWorker q.worker]
      ((2 * 12 + 3) * o.specs.length + (3 * new.length + 2 * 12 + 10) + 2) fun t => ∃ c' m' v',
        Replied o p q total c' slots links m' v' waiting t := by
  have hq : q ∈ [p, q] := by simp
  have few := h.few
  rcases h.request with ⟨entries, told, flies⟩
  rcases h.stage.scene.stations q hq m h.inside with ⟨f, here, -⟩
  have resting {c m' v' t} (h : Replied o p q total c slots links m' v' waiting t) {k : Nat}
      (small : k < o.specs.length) : t.Rests (q.at k) :=
    h.stage.resting cast.fair hq h.aboard h.waits fun same => absurd same.symm
      (cast.strangers.faces _ (cast.fair.serves_lt cast.fair.messages) k small)
  have main := h.stage.progresses here (h.delivers cast) (b := 2 * 12 + 1)
    (Q := fun t => ∃ c' m' v', Replied o p q total c' slots links m' v' waiting t) fun t ht => by
    rcases ht with ⟨c', m', v', replied⟩
    have := replied.few
    exact (((resting replied h.inside).dispatched replied.stage.scene.calm).mono (by omega)).brings
      ⟨c', m', v', replied⟩
  have faces := Brings.pivot (a := 2 * 12 + 3) (J := fun n => .progressInterface (q.at n))
    (fun _ _ => by simp) h.inside (fun k before => by
      refine (h.stage.idles (h.rests cast _) (flies.elsewhere fun same => ?_)).mono (by omega)
      exact before.ne (Nat.add_left_cancel same)) main fun k after small t ht => by
        rcases ht with ⟨c', m', v', replied⟩
        rcases replied.reply with ⟨_, -, flies'⟩
        have := replied.few
        exact ((replied.stage.idles (resting replied small) (flies'.elsewhere
          (cast.strangers.faces m' replied.inside k small).symm)).mono (by omega)).brings
          ⟨c', m', v', replied⟩
  refine (h.stage.progressesWorker (b := 1) h.alone faces fun t ht => ?_).mono (by omega)
    fun _ holds => holds
  rcases ht with ⟨c', m', v', replied⟩
  exact (replied.stage.sleeps replied.rested).brings
    (Q := fun t => ∃ c' m' v', Replied o p q total c' slots links m' v' waiting t)
    ⟨c', m', v', replied⟩

end Requested

end Network

end Wiring
