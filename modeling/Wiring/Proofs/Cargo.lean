import Mathlib
import Wiring.Proofs.Furnishing

/-!
# What is on its way

The cargo of a network is what lies in inboxes, what credits are taken, what waits in queues and on
stubs, and how many numbers have arrived. Work is described by the cargo that it finds and the cargo
that it leaves, within a number of steps and above whatever else there is to do, as long as that
does not hold on to links.
-/
namespace Wiring.Network

variable {o : Outfit} {ps : List Party} {p q : Party} {s t u : Network} {i d : InterfaceId}
  {f : Interface} {n m k : Nat} {c : Category} {carrier : Carrier} {l v : LinkId} {lk : Link}
  {rest more jobs : List Job} {j : Job} {P Q R : Network → Prop}

/-! ## Work that leads to something -/

/-- The jobs hold on to no link. -/
def Loose (jobs : List Job) : Prop := ∀ l, Job.release (.link l) ∉ jobs

theorem Loose.append (h : Loose jobs) (g : Loose more) : Loose (jobs ++ more) := by
  intro l mem
  rcases List.mem_append.1 mem with mem | mem
  · exact h l mem
  · exact g l mem

/-- The jobs are done in a number of steps at most, and then something holds. -/
def Brings (s : Network) (jobs : List Job) (steps : Nat) (Q : Network → Prop) : Prop :=
  ∀ rest, Loose rest → ∃ t, Reaches rest s jobs steps t ∧ Q t

theorem Works.brings (h : Works s jobs n t) (holds : Q t) : Brings s jobs n Q :=
  fun rest _ => ⟨t, h rest, holds⟩

namespace Brings

theorem nothing (holds : Q s) : Brings s [] 0 Q := (Works.refl s).brings holds

theorem mono (h : Brings s jobs m P) (few : m ≤ n) (weaker : ∀ t, P t → Q t) :
    Brings s jobs n Q := by
  intro rest loose
  rcases h rest loose with ⟨t, reached, holds⟩
  exact ⟨t, reached.mono few, weaker t holds⟩

theorem trans (h : Brings s jobs m P) (loose : Loose more) (g : ∀ t, P t → Brings t more n Q) :
    Brings s (jobs ++ more) (m + n) Q := by
  intro rest loose'
  rcases h (more ++ rest) (loose.append loose') with ⟨t, reached, holds⟩
  rcases g t holds rest loose' with ⟨u, reached', holds'⟩
  exact ⟨u, reached.trans reached', holds'⟩

theorem cons (h : Brings s [j] m P) (loose : Loose more) (g : ∀ t, P t → Brings t more n Q) :
    Brings s (j :: more) (m + n) Q := h.trans loose g

/-- A job that leaves its work to others. -/
theorem into (calm : s.violation = none) (h : ∀ rest, Loose rest → ∃ t new,
    perform { s with agenda := rest } j = { t with agenda := new ++ rest } ∧ Brings t new n Q) :
    Brings s [j] (n + 1) Q := by
  intro rest loose
  rcases h rest loose with ⟨t, new, done, brings⟩
  rcases brings rest loose with ⟨u, reached, holds⟩
  exact ⟨u, reached.into calm done, holds⟩

/-- Jobs that are numbered are done one after another. -/
theorem numbered {J : Nat → Job} {Q : Nat → Network → Prop} (quiet : ∀ k, ∀ l, J k ≠ .release (.link l))
    (one : ∀ k < n, ∀ s, Q k s → Brings s [J k] m (Q (k + 1))) :
    ∀ s, Q 0 s → Brings s ((List.range n).map J) (m * n) (Q n) := by
  induction n with
  | zero => exact fun s holds => nothing holds
  | succ n ih =>
    intro s holds
    rw [List.range_succ, List.map_append, List.map_singleton, Nat.mul_succ]
    refine (ih (fun k hk => one k (Nat.lt_succ_of_lt hk)) s holds).trans (fun l mem => ?_)
      (one n (Nat.lt_succ_self n))
    exact quiet n l (List.mem_singleton.1 mem).symm

/-- An operation whose jobs are done within its fuel answers. -/
theorem answers {α : Type} (h : Brings { s with tally := 0 } jobs n Q) (idle : s.agenda = [])
    (few : n ≤ (push { s with tally := 0 } jobs).fuel)
    (calm : ∀ t, Q t → t.violation = none) (result : Network → α) :
    ∃ t, Q t ∧ s.carryOut jobs result =
      ({ t with agenda := [] }, .ok (result { t with agenda := [] })) := by
  have loose : Loose [] := fun l mem => by cases mem
  rcases h [] loose with ⟨t, ⟨k, hk, done⟩, holds⟩
  have start : push { s with tally := 0 } jobs = { s with tally := 0, agenda := jobs ++ [] } := by
    simp only [push, idle]
  refine ⟨t, holds, ?_⟩
  unfold carryOut
  rw [settle_within (n := k) result (hk.trans few)]
  · rw [start, done]
  · rw [start, done]
  · rw [start, done]
    exact calm t holds

end Brings

end Network

/-! ## Cargo -/

/-- What is on its way in a network, and how much of it has arrived. -/
structure Cargo where
  mail : InterfaceId → List Message := fun _ => []
  used : LinkId → Nat := fun _ => 0
  queue : LinkId → List Request := fun _ => []
  parked : StubId → List Request := fun _ => []
  runners : RegistryId → Option Registry := fun _ => none
  arrived : Nat := 0

/-- A link apart from where it leads. -/
def Link.undirected (l : Link) : Link := { l with dest := none }

/-- A stub apart from its marks. -/
def Stub.unmarked (t : Stub) : Stub := { t with localConnected := false, remoteConnected := false }

namespace Network

variable {o : Outfit} {ps : List Party} {p q : Party} {s t u : Network} {i d : InterfaceId}
  {f f' : Interface} {n m k : Nat} {carrier : Carrier} {l v : LinkId} {lk lk' : Link}
  {g : Ledger} {c : Cargo} {rest more jobs : List Job}

/-- A network has a cargo. -/
structure Bears (c : Cargo) (s : Network) : Prop where
  mail : ∀ i f, s.interfaces.get? i = some f → f.inbox = c.mail i
  links : ∀ l lk, s.links.get? l = some lk →
    lk.credits + c.used l = lk.settings.credits ∧ lk.queue = c.queue l
  parked : ∀ x st, s.stubs.get? x = some st → st.parked = c.parked x
  runners : ∀ r, s.registries.get? r = c.runners r
  arrived : arrivalCount s.trace = c.arrived
  freshLinks : ∀ l, s.links.next ≤ l → c.used l = 0 ∧ c.queue l = []
  freshStubs : ∀ x, s.stubs.next ≤ x → c.parked x = []

namespace Bears

/-- Messages of a link come into an inbox or leave it. -/
theorem traded (h : Bears c s) (link : s.links.get? l = some lk)
    (face : s.interfaces.get? d = some f) (lk' : Link) (settings : lk'.settings = lk.settings)
    (used : Nat) (credits : lk'.credits + used = lk.settings.credits) (f' : Interface) (g : Ledger) :
    Bears { c with
      mail := Function.update c.mail d f'.inbox
      used := Function.update c.used l used
      queue := Function.update c.queue l lk'.queue
      arrived := arrivalCount g.trace } (s.traded l lk' d f' g) where
  mail i f'' here := by
    simp only [Network.traded, Table.get?_set_of face] at here
    simp only [Function.update_apply]
    by_cases same : d = i
    · rw [if_pos same] at here
      rw [if_pos same.symm, Option.some.inj here]
    · rw [if_neg same] at here
      rw [if_neg (Ne.symm same)]
      exact h.mail i f'' here
  links k lk'' here := by
    simp only [Network.traded, Table.get?_set_of link] at here
    simp only [Function.update_apply]
    by_cases same : l = k
    · rw [if_pos same] at here
      rw [if_pos same.symm, if_pos same.symm, ← Option.some.inj here, settings]
      exact ⟨credits, rfl⟩
    · rw [if_neg same] at here
      rw [if_neg (Ne.symm same), if_neg (Ne.symm same)]
      exact h.links k lk'' here
  parked := h.parked
  runners := h.runners
  arrived := rfl
  freshLinks k hk := by
    have known := Table.lt_next_of_get? link
    simp only [Network.traded, Table.next_set] at hk
    simp only [Function.update_apply, if_neg (show k ≠ l by omega)]
    exact h.freshLinks k hk
  freshStubs := h.freshStubs

/-- A request is parked on a stub, which is registered for it. -/
theorem parks (h : Bears c s) {x : StubId} {st : Stub} (stub : s.stubs.get? x = some st)
    {worker : WorkerId} {wk : Worker} (books : s.workers.get? worker = some wk) (r : Request)
    {entries : Registry} (registry' : c.runners wk.registry = some entries) :
    Bears { c with
      parked := Function.update c.parked x (c.parked x ++ [r])
      runners := Function.update c.runners wk.registry (some (entries.add (.stub x) true).1) }
      (s.park x st worker r) := by
  have there := (h.runners wk.registry).trans registry'
  have known : s.registry wk.registry = entries := by rw [registry, there, Option.getD_some]
  rw [park_eq stub books, known]
  exact {
    mail := h.mail
    links := h.links
    parked := fun y st' here => by
      rw [Table.get?_set_of stub] at here
      simp only [Function.update_apply]
      by_cases same : x = y
      · rw [if_pos same] at here
        rw [if_pos same.symm, ← Option.some.inj here, h.parked x st stub]
      · rw [if_neg same] at here
        rw [if_neg (Ne.symm same)]
        exact h.parked y st' here
    runners := fun id => by
      rw [Table.get?_set_of there]
      simp only [Function.update_apply]
      by_cases same : wk.registry = id
      · rw [if_pos same, if_pos same.symm]
      · rw [if_neg same, if_neg (Ne.symm same)]
        exact h.runners id
    arrived := (arrivalCount_push _ rfl).trans h.arrived
    freshLinks := h.freshLinks
    freshStubs := fun y hy => by
      have given := Table.lt_next_of_get? stub
      rw [Table.next_set] at hy
      simp only [Function.update_apply, if_neg (show y ≠ x by omega)]
      exact h.freshStubs y hy }

/-- What is opened beside is idle, and the rest has the same traffic. -/
theorem carry (h : Bears c s)
    (mail : ∀ i f, t.interfaces.get? i = some f →
      ∃ f', s.interfaces.get? i = some f' ∧ f.inbox = f'.inbox)
    (links : ∀ l lk, t.links.get? l = some lk → (s.links.next ≤ l ∧ lk.Idle) ∨
      ∃ lk', s.links.get? l = some lk' ∧ lk.credits = lk'.credits ∧ lk.settings = lk'.settings ∧
        lk.queue = lk'.queue)
    (stubs : ∀ x st, t.stubs.get? x = some st → (s.stubs.next ≤ x ∧ st.parked = []) ∨
      ∃ st', s.stubs.get? x = some st' ∧ st.parked = st'.parked)
    (runners : t.registries = s.registries) (arrived : arrivalCount t.trace = arrivalCount s.trace)
    (more : s.links.next ≤ t.links.next ∧ s.stubs.next ≤ t.stubs.next) : Bears c t where
  mail i f here := by
    rcases mail i f here with ⟨f', there, same⟩
    exact same.trans (h.mail i f' there)
  links l lk here := by
    rcases links l lk here with ⟨new, idle⟩ | ⟨lk', there, credits, settings, queue⟩
    · rcases h.freshLinks l new with ⟨used, empty⟩
      rw [used, empty]
      exact idle
    · rw [credits, settings, queue]
      exact h.links l lk' there
  parked x st here := by
    rcases stubs x st here with ⟨new, empty⟩ | ⟨st', there, same⟩
    · rw [empty, h.freshStubs x new]
    · exact same.trans (h.parked x st' there)
  runners r := by
    rw [runners]
    exact h.runners r
  arrived := arrived.trans h.arrived
  freshLinks l hl := h.freshLinks l (more.1.trans hl)
  freshStubs x hx := h.freshStubs x (more.2.trans hx)

end Bears

/-! ## Wiring -/

/-- Links are paired and stubs are connected or marked, and nothing else changes. -/
structure Rewires (s t : Network) : Prop where
  frame : t = { s with links := t.links, stubs := t.stubs, trace := t.trace }
  links : ∀ l, (t.links.get? l).map Link.undirected = (s.links.get? l).map Link.undirected
  stubs : ∀ x, (t.stubs.get? x).map Stub.unmarked = (s.stubs.get? x).map Stub.unmarked
  arrived : arrivalCount t.trace = arrivalCount s.trace
  given : t.links.next = s.links.next ∧ t.stubs.next = s.stubs.next

namespace Rewires

theorem refl (s : Network) : Rewires s s := ⟨rfl, fun _ => rfl, fun _ => rfl, rfl, rfl, rfl⟩

theorem trans (h : Rewires s t) (g : Rewires t u) : Rewires s u where
  frame := by rw [g.frame, h.frame]
  links l := (g.links l).trans (h.links l)
  stubs x := (g.stubs x).trans (h.stubs x)
  arrived := g.arrived.trans h.arrived
  given := ⟨g.given.1.trans h.given.1, g.given.2.trans h.given.2⟩

theorem scene (h : Rewires s t) (scene : Scene o ps s) : Scene o ps t := by
  refine scene.next ?_ ?_ (fun i => ?_) (fun g n here => .inl ?_) (fun well => ?_)
    (fun w held => ?_) fun l held => ?_
  · rw [h.frame]
  · rw [h.frame]
  · rw [h.frame]
  · rw [h.frame] at here
    exact here
  · rw [h.frame]
    exact well
  · rw [h.frame]
    exact held
  · rw [h.frame] at held
    exact held

/-- Things own what they owned. -/
theorem isOwned (h : Rewires s t) {ref : Ref} (owned : s.isOwned ref = true) :
    t.isOwned ref = true := by
  refine isOwned_mono (fun w wk here => ⟨wk, ?_, fun _ h => h, fun _ h => h⟩)
    (fun e ep here => ⟨ep, ?_, fun _ h => h⟩) (fun x st here => ?_) owned
  · rw [h.frame]
    exact here
  · rw [h.frame]
    exact here
  · have same := h.stubs x
    rw [here] at same
    rcases Option.map_eq_some_iff.1 same with ⟨st', here', same⟩
    have next : st'.next = st.next := (congrArg Stub.next same :)
    have auxiliary : st'.auxiliary = st.auxiliary := (congrArg Stub.auxiliary same :)
    have promoted : st'.promoted = st.promoted := (congrArg Stub.promoted same :)
    refine ⟨st', here', fun l own => ?_⟩
    unfold Stub.owns at own ⊢
    rw [next, auxiliary, promoted]
    exact own

theorem housed (h : Rewires s t) (housed : s.Housed) : t.Housed := by
  intro l live
  rcases Table.contains_iff.1 live with ⟨lk, here⟩
  have same := h.links l
  rw [here] at same
  rcases Option.map_eq_some_iff.1 same.symm with ⟨lk', here', -⟩
  exact h.isOwned (housed l (Table.contains_of_get? here'))

theorem bears (h : Rewires s t) (bears : Bears c s) : Bears c t := by
  refine bears.carry (fun i f here => ⟨f, ?_, rfl⟩) (fun l lk here => .inr ?_)
    (fun x st here => .inr ?_) ?_ h.arrived ⟨h.given.1.ge, h.given.2.ge⟩
  · rw [h.frame] at here
    exact here
  · have same := h.links l
    rw [here] at same
    rcases Option.map_eq_some_iff.1 same.symm with ⟨lk', here', same⟩
    exact ⟨lk', here', (congrArg Link.credits same.symm :), (congrArg Link.settings same.symm :),
      (congrArg Link.queue same.symm :)⟩
  · have same := h.stubs x
    rw [here] at same
    rcases Option.map_eq_some_iff.1 same.symm with ⟨st', here', same⟩
    exact ⟨st', here', (congrArg Stub.parked same.symm :)⟩
  · rw [h.frame]

end Rewires

end Network

end Wiring
