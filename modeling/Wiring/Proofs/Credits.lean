import Mathlib
import Wiring.Proofs.Starts

/-!
# The credits of a link

A message takes one credit of its link, which comes back when the message has been handled. Until
then the message lies in an inbox or is being handled; if it goes down with the inbox, its credit is
gone for good. What an interface takes in leaves its inbox in the same order, each message once.
-/
namespace Wiring

/-! ## Messages -/

/-- How many of the messages the link has sent. -/
def sentBy (l : LinkId) (ms : List Message) : Nat := ms.countP fun m => m.sender == l

namespace Happening

/-- The message that was put into the inbox of the interface. -/
def acceptedAt (i : InterfaceId) : Happening → List Message
  | .accepted l dest messageId payload _ => if dest = i then [⟨messageId, payload, l⟩] else []
  | _ => []

/-- The message that was taken out of the inbox of the interface. -/
def deliveredAt (i : InterfaceId) : Happening → List Message
  | .delivered dest m => if dest = i then [m] else []
  | _ => []

/-- The message that went down with the interface. -/
def lostAt (i : InterfaceId) : Happening → List Message
  | .lost dest m => if dest = i then [m] else []
  | _ => []

/-- Nothing goes into an inbox or out of one. -/
def isQuiet : Happening → Bool
  | .accepted _ _ _ _ _ | .delivered _ _ | .lost _ _ => false
  | _ => true

/-- The message that went down with an interface. -/
def wasLost : Happening → List Message
  | .lost _ m => [m]
  | _ => []

end Happening

/-- The credit of a message that was handled is given back. -/
def Job.returns (l : LinkId) : Job → Bool
  | .giveBack k => k == l
  | _ => false

/-- Work that belongs to a message that was taken out of an inbox. -/
def Job.owes : Job → Bool
  | .handle _ _ | .giveBack _ => true
  | _ => false

/-- The message that a handler is to be given. -/
def Job.message? : Job → Option Message
  | .handle _ m => some m
  | _ => none

/-- Whoever is to handle a message has its credit given back next. -/
def Shielded (agenda : List Job) : Prop :=
  ∀ h m rest, .handle h m :: rest <:+ agenda →
    ∃ i left rest', rest = .giveBack m.sender :: .deliver i left :: rest'

section

variable {rest : List Job}

theorem free_of_bare {j : Job} (bare : j.isBare = true) : j.owes = false := by
  cases j with
  | handle | giveBack => cases bare
  | _ => rfl

theorem message?_of_free {j : Job} (free : j.owes = false) : j.message? = none := by
  cases j with
  | handle => cases free
  | _ => rfl

theorem returns_of_free {jobs : List Job} (free : ∀ k ∈ jobs, k.owes = false) (l : LinkId) :
    jobs.countP (Job.returns l) = 0 := by
  refine List.countP_eq_zero.2 fun k hk => ?_
  have := free k hk
  cases k with
  | giveBack => cases this
  | _ => exact Bool.false_ne_true

theorem free_replay (st : Stub) (w : WorkerId) (next : LinkId) :
    ∀ k ∈ Network.replay st w next, k.owes = false := by
  intro k hk
  simp only [Network.replay, List.mem_append, List.mem_flatMap, List.mem_cons, List.not_mem_nil,
    or_false] at hk
  rcases hk with (hk | ⟨r, -, rfl | rfl⟩) | rfl | rfl | rfl
  · exact free_of_bare (Network.releaseLink?_bare _ k hk)
  all_goals rfl

theorem Happening.quiet_of_mute {x : Happening} (mute : x.isMute = true) : x.isQuiet = true := by
  cases x with
  | accepted | delivered | lost | recorded => cases mute
  | _ => rfl

theorem Happening.quiet_of_still {x : Happening} (still : x.isStill = true) : x.isQuiet = true :=
  quiet_of_mute (isMute_of_isStill still)

theorem Happening.mute_of_quiet {x : Happening} (quiet : x.isQuiet = true) :
    (∀ i, x.acceptedAt i = []) ∧ (∀ i, x.deliveredAt i = []) ∧ (∀ i, x.lostAt i = []) ∧
      x.wasLost = [] := by
  cases x with
  | accepted | delivered | lost => cases quiet
  | _ => exact ⟨fun _ => rfl, fun _ => rfl, fun _ => rfl, rfl⟩

theorem Shielded.below {j : Job} (h : Shielded (j :: rest)) : Shielded rest :=
  fun handler m below suffix => h handler m below (suffix.trans (List.suffix_cons j rest))

theorem Shielded.cons {j : Job} (h : Shielded rest) (silent : j.message? = none) :
    Shielded (j :: rest) := fun handler m below suffix => by
  rcases List.suffix_cons_iff.1 suffix with same | suffix
  · cases same
    cases silent
  · exact h handler m below suffix

theorem Shielded.append {jobs : List Job} (h : Shielded rest)
    (free : ∀ k ∈ jobs, k.owes = false) : Shielded (jobs ++ rest) := by
  induction jobs with
  | nil => exact h
  | cons j jobs ih =>
    exact (ih fun k hk => free k (List.mem_cons_of_mem _ hk)).cons (message?_of_free (free j List.mem_cons_self))

end

/-- Links that are changed keep their credits and how many they may have; those that are new have
all of theirs. -/
structure KeepsCredits (links links' : Table Link) : Prop where
  given : links.next ≤ links'.next
  credits : ∀ l lk', links'.get? l = some lk' →
    (∃ lk, links.get? l = some lk ∧ lk'.credits = lk.credits ∧ lk'.settings = lk.settings) ∨
    (links.next ≤ l ∧ lk'.credits = lk'.settings.credits)

namespace KeepsCredits

variable {links links' links'' : Table Link}

theorem refl (links : Table Link) : KeepsCredits links links :=
  ⟨le_rfl, fun _ lk here => .inl ⟨lk, here, rfl, rfl⟩⟩

theorem trans (h : KeepsCredits links links') (g : KeepsCredits links' links'') :
    KeepsCredits links links'' where
  given := h.given.trans g.given
  credits l lk'' here := by
    rcases g.credits l lk'' here with ⟨lk', here', credits, settings⟩ | ⟨new, full⟩
    · rcases h.credits l lk' here' with ⟨lk, old, credits', settings'⟩ | ⟨new, full⟩
      · exact .inl ⟨lk, old, credits.trans credits', settings.trans settings'⟩
      · exact .inr ⟨new, by rw [credits, settings, full]⟩
    · exact .inr ⟨h.given.trans new, full⟩

theorem push (links : Table Link) {lk : Link} (new : lk.IsNew) :
    KeepsCredits links (links.push lk) where
  given := by simp [Table.next_push]
  credits l lk' here := by
    rcases Table.get?_of_push here with ⟨rfl, rfl⟩ | here
    · exact .inr ⟨le_rfl, new.full⟩
    · exact .inl ⟨lk', here, rfl, rfl⟩

theorem pushes (links : Table Link) (lks : List Link) (new : ∀ lk ∈ lks, lk.IsNew) :
    KeepsCredits links (lks.foldl Table.push links) := by
  induction lks generalizing links with
  | nil => exact .refl links
  | cons lk lks ih =>
    exact (push links (new lk List.mem_cons_self)).trans
      (ih _ fun k hk => new k (List.mem_cons_of_mem _ hk))

theorem set {l : LinkId} {lk lk' : Link} (here : links.get? l = some lk)
    (credits : lk'.credits = lk.credits) (settings : lk'.settings = lk.settings) :
    KeepsCredits links (links.set l lk') where
  given := by simp
  credits k lk'' there := by
    rcases Table.get?_of_set there with ⟨rfl, rfl⟩ | there
    · exact .inl ⟨lk, here, credits, settings⟩
    · exact .inl ⟨lk'', there, rfl, rfl⟩

theorem modify (links : Table Link) (l : LinkId) {f : Link → Link}
    (same : ∀ lk : Link, (f lk).credits = lk.credits ∧ (f lk).settings = lk.settings) :
    KeepsCredits links (links.modify l f) where
  given := by simp
  credits k lk' there := by
    rcases Table.get?_of_modify there with ⟨lk, here, rfl | rfl⟩
    · exact .inl ⟨_, here, rfl, rfl⟩
    · exact .inl ⟨lk, here, (same lk).1, (same lk).2⟩

theorem erase (links : Table Link) (l : LinkId) : KeepsCredits links (links.erase l) where
  given := by simp
  credits k lk there := .inl ⟨lk, Table.get?_of_erase there, rfl, rfl⟩

end KeepsCredits

namespace Traffic

variable {s t u : Traffic} {rest : List Job} {l : LinkId} {i : InterfaceId}

/-! ## What becomes of a message -/

/-- The messages of the link that lie in inboxes. -/
def undelivered (s : Traffic) (l : LinkId) : Nat :=
  s.interfaces.sum fun _ f => sentBy l f.inbox

/-- The messages of the link that are being handled. -/
def inHand (s : Traffic) (l : LinkId) : Nat := s.agenda.countP (Job.returns l)

/-- The messages of the link that went down with an inbox. -/
def wasted (s : Traffic) (l : LinkId) : Nat :=
  sentBy l (s.trace.toList.flatMap Happening.wasLost)

/-- The messages of the link whose credit has not come back. -/
def outstanding (s : Traffic) (l : LinkId) : Nat := s.undelivered l + s.inHand l + s.wasted l

def accepted (s : Traffic) (i : InterfaceId) : List Message :=
  s.trace.toList.flatMap (Happening.acceptedAt i)

def delivered (s : Traffic) (i : InterfaceId) : List Message :=
  s.trace.toList.flatMap (Happening.deliveredAt i)

def lost (s : Traffic) (i : InterfaceId) : List Message :=
  s.trace.toList.flatMap (Happening.lostAt i)

def inbox (s : Traffic) (i : InterfaceId) : List Message := s.interfaces.listAt Interface.inbox i

/-- The messages that handlers are to be given. -/
def handed (s : Traffic) : List Message := s.agenda.filterMap Job.message?

/-- No credit is made and none is lost, and inboxes keep their order. -/
structure Credited (s : Traffic) : Prop where
  balance : ∀ l lk, s.links.get? l = some lk → lk.credits + s.outstanding l = lk.settings.credits
  unused : ∀ l, s.links.next ≤ l → s.outstanding l = 0
  order : ∀ i, s.accepted i = s.delivered i ++ (s.lost i ++ s.inbox i)
  /-- An inbox loses nothing as long as it is there. -/
  kept : ∀ i, s.interfaces.contains i = true → s.lost i = []
  unopened : ∀ i, s.interfaces.next ≤ i → s.accepted i = []
  shielded : Shielded s.agenda

/-! ## What keeps the balance -/

namespace Credited

/-- Work comes and goes. -/
theorem withAgenda (hs : Credited s) {agenda : List Job}
    (same : ∀ l, agenda.countP (Job.returns l) = s.agenda.countP (Job.returns l))
    (shielded : Shielded agenda) : Credited { s with agenda } := by
  have outstanding (l : LinkId) : Traffic.outstanding { s with agenda } l = s.outstanding l := by
    simp only [Traffic.outstanding, inHand, same]
    rfl
  exact {
    balance := fun l lk here => (outstanding l).symm ▸ hs.balance l lk here
    unused := fun l new => (outstanding l).trans (hs.unused l new)
    order := hs.order
    kept := hs.kept
    unopened := hs.unopened
    shielded }

/-- The work on top is done. -/
theorem pop (hs : Credited s) {j : Job} (top : s.agenda = j :: rest)
    (light : ∀ l, j ≠ .giveBack l) : Credited { s with agenda := rest } := by
  refine hs.withAgenda (fun l => ?_) (Shielded.below (top ▸ hs.shielded))
  have free : j.returns l = false := by
    cases j with
    | giveBack k => exact absurd rfl (light k)
    | _ => rfl
  rw [top, List.countP_cons_of_neg (by simp [free])]

/-- Work that has nothing to do with messages is put on the agenda. -/
theorem push (hs : Credited s) {jobs : List Job} (free : ∀ k ∈ jobs, k.owes = false) :
    Credited { s with agenda := jobs ++ s.agenda } :=
  hs.withAgenda (fun l => by rw [List.countP_append, returns_of_free free, Nat.zero_add])
    (hs.shielded.append free)

theorem pushBare (hs : Credited s) {jobs : List Job} (bare : ∀ k ∈ jobs, k.isBare = true) :
    Credited { s with agenda := jobs ++ s.agenda } :=
  hs.push fun k hk => free_of_bare (bare k hk)

theorem pushOne (hs : Credited s) {j : Job} (free : j.owes = false) :
    Credited { s with agenda := j :: s.agenda } :=
  hs.push (List.forall_mem_singleton.2 free)

/-- The work on top gives way to other work. -/
theorem swap (hs : Credited s) {j k : Job} (top : s.agenda = j :: rest)
    (light : ∀ l, j ≠ .giveBack l) (free : k.owes = false) :
    Credited { s with agenda := k :: rest } :=
  (hs.pop top light).pushOne free

theorem links (hs : Credited s) {links : Table Link} (keeps : KeepsCredits s.links links) :
    Credited { s with links } :=
  { hs with
    balance := fun l lk' there => by
      rcases keeps.credits l lk' there with ⟨lk, here, credits, settings⟩ | ⟨new, full⟩
      · rw [credits, settings]
        exact hs.balance l lk here
      · have none : Traffic.outstanding { s with links } l = 0 := hs.unused l new
        rw [none, full, Nat.add_zero]
    unused := fun l new => hs.unused l (keeps.given.trans new) }

theorem notes (hs : Credited s) {marks : List Happening} (quiet : ∀ x ∈ marks, x.isQuiet = true) :
    Credited { s with trace := s.trace ++ marks.toArray } := by
  have same (f : Happening → List Message) (mute : ∀ x ∈ marks, f x = []) :
      (s.trace ++ marks.toArray).toList.flatMap f = s.trace.toList.flatMap f := by
    simp [List.flatMap_eq_nil_iff.2 mute]
  have accepted (i : InterfaceId) :=
    same (Happening.acceptedAt i) fun x hx => (Happening.mute_of_quiet (quiet x hx)).1 i
  have delivered (i : InterfaceId) :=
    same (Happening.deliveredAt i) fun x hx => (Happening.mute_of_quiet (quiet x hx)).2.1 i
  have lost (i : InterfaceId) :=
    same (Happening.lostAt i) fun x hx => (Happening.mute_of_quiet (quiet x hx)).2.2.1 i
  have wasted := same Happening.wasLost fun x hx => (Happening.mute_of_quiet (quiet x hx)).2.2.2
  have outstanding (l : LinkId) :
      Traffic.outstanding { s with trace := s.trace ++ marks.toArray } l = s.outstanding l := by
    simp only [Traffic.outstanding, Traffic.wasted, wasted]
    rfl
  exact {
    balance := fun l lk here => (outstanding l).symm ▸ hs.balance l lk here
    unused := fun l new => (outstanding l).trans (hs.unused l new)
    order := fun i => by
      simp only [Traffic.accepted, Traffic.delivered, Traffic.lost, accepted, delivered, lost]
      exact hs.order i
    kept := fun i live => (lost i).trans (hs.kept i live)
    unopened := fun i new => (accepted i).trans (hs.unopened i new)
    shielded := hs.shielded }

theorem mutes (hs : Credited s) {marks : List Happening} (mute : ∀ x ∈ marks, x.isMute = true) :
    Credited { s with trace := s.trace ++ marks.toArray } :=
  hs.notes fun x hx => Happening.quiet_of_mute (mute x hx)

theorem note (hs : Credited s) {x : Happening} (quiet : x.isQuiet = true) :
    Credited { s with trace := s.trace.push x } := by
  have noted := hs.notes (List.forall_mem_singleton.2 quiet)
  simpa using noted

/-- Interfaces are changed or opened, and inboxes stay as they are. -/
theorem interfaces (hs : Credited s) {interfaces : Table Interface}
    (opened : s.interfaces.next ≤ interfaces.next)
    (live : ∀ i, interfaces.contains i = true →
      s.interfaces.contains i = true ∨ s.interfaces.next ≤ i)
    (inbox : ∀ i, interfaces.listAt Interface.inbox i = s.interfaces.listAt Interface.inbox i)
    (undelivered : ∀ l, (interfaces.sum fun _ f => sentBy l f.inbox) = s.undelivered l) :
    Credited { s with interfaces } := by
  have outstanding (l : LinkId) : Traffic.outstanding { s with interfaces } l = s.outstanding l := by
    simp only [Traffic.outstanding, Traffic.undelivered, undelivered]
    rfl
  exact {
    balance := fun l lk here => (outstanding l).symm ▸ hs.balance l lk here
    unused := fun l new => (outstanding l).trans (hs.unused l new)
    order := fun i => by
      simp only [Traffic.inbox, inbox]
      exact hs.order i
    kept := fun i there => by
      rcases live i there with old | new
      · exact hs.kept i old
      · have nothing := (hs.order i).symm.trans (hs.unopened i new)
        exact (List.append_eq_nil_iff.1 (List.append_eq_nil_iff.1 nothing).2).1
    unopened := fun i new => hs.unopened i (opened.trans new)
    shielded := hs.shielded }

theorem setInterface (hs : Credited s) {f f' : Interface} (here : s.interfaces.get? i = some f)
    (inbox : f'.inbox = f.inbox) : Credited { s with interfaces := s.interfaces.set i f' } :=
  hs.interfaces (by simp) (fun k live => .inl ((Table.contains_set here f' k).symm.trans live))
    (Table.listAt_set_same here inbox) fun l => Table.sum_set_same here (by rw [inbox])

theorem openInterface (hs : Credited s) {f : Interface} (empty : f.inbox = []) :
    Credited { s with interfaces := s.interfaces.push f } := by
  refine hs.interfaces (by simp [Table.next_push]) (fun k live => ?_) (Table.listAt_push empty)
    fun l => ?_
  · rcases Table.contains_iff.1 live with ⟨f', there⟩
    rcases Table.get?_of_push there with ⟨rfl, -⟩ | there
    · exact .inr le_rfl
    · exact .inl (Table.contains_of_get? there)
  · rw [Table.sum_push, empty]
    rfl

/-- An interface takes its inbox down with it. -/
theorem closeInterface (hs : Credited s) {f : Interface} (here : s.interfaces.get? i = some f) :
    Credited { s with
      interfaces := s.interfaces.erase i
      trace := s.trace ++ (f.inbox.map (Happening.lost i)).toArray } := by
  have silent {g : Happening → List Message} (mute : ∀ m, g (.lost i m) = []) :
      (s.trace ++ (f.inbox.map (Happening.lost i)).toArray).toList.flatMap g =
        s.trace.toList.flatMap g := by
    simp [List.flatMap_map, mute]
  have accepted (k : InterfaceId) := silent (g := Happening.acceptedAt k) fun _ => rfl
  have delivered (k : InterfaceId) := silent (g := Happening.deliveredAt k) fun _ => rfl
  have outstanding (l : LinkId) : Traffic.outstanding { s with
      interfaces := s.interfaces.erase i
      trace := s.trace ++ (f.inbox.map (Happening.lost i)).toArray } l = s.outstanding l := by
    have erased := Table.sum_erase (fun _ f => sentBy l f.inbox) here
    simp only [Traffic.outstanding, Traffic.undelivered, Traffic.inHand, Traffic.wasted,
      Array.toList_append, List.flatMap_append, List.flatMap_map, Happening.wasLost,
      List.flatMap_singleton', sentBy, List.countP_append] at erased ⊢
    omega
  have went (k : InterfaceId) : Traffic.lost { s with
      interfaces := s.interfaces.erase i
      trace := s.trace ++ (f.inbox.map (Happening.lost i)).toArray } k =
        s.lost k ++ if i = k then f.inbox else [] := by
    simp only [Traffic.lost, Array.toList_append, List.flatMap_append, List.flatMap_map,
      Happening.lostAt]
    split <;> simp
  exact {
    balance := fun l lk there => (outstanding l).symm ▸ hs.balance l lk there
    unused := fun l new => (outstanding l).trans (hs.unused l new)
    order := fun k => by
      rw [went k]
      simp only [Traffic.accepted, Traffic.delivered, Traffic.inbox, accepted, delivered]
      refine (hs.order k).trans ?_
      by_cases apart : i = k
      · subst apart
        have gone : (s.interfaces.erase i).listAt Interface.inbox i = [] := by
          simp [Table.listAt, Table.get?_erase]
        rw [if_pos rfl, gone, List.append_nil, Traffic.inbox, Table.listAt_of here]
        rfl
      · have there : (s.interfaces.erase i).listAt Interface.inbox k =
            s.interfaces.listAt Interface.inbox k := by
          simp [Table.listAt, Table.get?_erase, apart]
        rw [if_neg apart, List.append_nil, there]
        rfl
    kept := fun k live => by
      have other : i ≠ k := by
        rintro rfl
        simp [Table.contains, Table.get?_erase] at live
      have old : s.interfaces.contains k = true := by
        simpa [Table.contains, Table.get?_erase, other] using live
      rw [went k, if_neg other, List.append_nil]
      exact hs.kept k old
    unopened := fun k new => (accepted k).trans (hs.unopened k (by simpa using new))
    shielded := hs.shielded }

/-! ## Every change keeps the balance -/

theorem rig (hs : Credited s) (h : Rig s t) : Credited t := by
  cases h with
  | note x still => exact hs.note (Happening.quiet_of_still still)
  | pair x st l dest here next =>
    have paired := hs.links (.modify s.links l (f := fun lk => { lk with dest := some dest }) fun _ => ⟨rfl, rfl⟩)
    exact { paired with }
  | mark | openEndpoint | clear | closeStub | closeEndpoint => exact { hs with }
  | number i f n here => exact hs.setInterface here rfl
  | openLink lk new => exact hs.links (.push _ new)
  | linkLane id e lane lk here new =>
    have opened := hs.links (.push s.links new)
    exact { opened with }
  | stubLane id e lane st lk auxiliary here new new' next aside unmarked unparked unswitched
      able =>
    have opened := hs.links ((KeepsCredits.push s.links new).trans
      (.pushes _ auxiliary.toList fun lk' h => new' lk' (Option.mem_toList.1 h)))
    exact { opened with }
  | cancelFront l lk r queue here front =>
    let left : Link := { lk with queue }
    have taken : Credited { s with links := s.links.set l left } := hs.links (.set here rfl rfl)
    exact { taken.mutes r.mute_cancelNotes with }
  | closeInterface i f here => exact hs.closeInterface here
  | closeLink l => exact hs.links (.erase _ l)

theorem rigs (hs : Credited s) (h : Rigs s t) : Credited t := by
  induction h with
  | refl => exact hs
  | tail _ g ih => exact ih.rig g

/-- An offer sends nothing. -/
theorem offers (hs : Credited s) {c : Carrier} {r : Request} {back : Option Request}
    (h : Offers s c r t back) : Credited t := by
  cases h with
  | queue r l lk here => exact hs.links (.set here rfl rfl)
  | cover r x st l lk stub signal link here => exact hs.links (.set here rfl rfl)
  | promoted r x st l lk stub data switched link here => exact hs.links (.set here rfl rfl)
  | park r x st here data unswitched =>
    have noted := hs.note (x := .parked x r) rfl
    exact { noted with }
  | back => exact hs

/-- A message that is sent takes a credit of its link. -/
theorem transmits (hs : Credited s) {messageId : UInt8} {payload : Bytes}
    {source : Option HandleId} (h : Transmits s l messageId payload source t) : Credited t := by
  cases h with
  | intro lk credits dest f here credit leads there =>
    generalize sent : (⟨messageId, payload, l⟩ : Message) = m
    generalize ht : ({ s with
      links := s.links.set l { lk with credits }
      interfaces := s.interfaces.set dest { f with inbox := f.inbox ++ [m] }
      trace := s.trace.push (.accepted l dest messageId payload source) } : Traffic) = t
    have accepted (i : InterfaceId) : t.accepted i = s.accepted i ++ if dest = i then [m] else [] := by
      simp [← ht, ← sent, Traffic.accepted, Happening.acceptedAt]
    have delivered (i : InterfaceId) : t.delivered i = s.delivered i := by
      simp [← ht, Traffic.delivered, Happening.deliveredAt]
    have lost (i : InterfaceId) : t.lost i = s.lost i := by
      simp [← ht, Traffic.lost, Happening.lostAt]
    have inbox (i : InterfaceId) : t.inbox i = s.inbox i ++ if dest = i then [m] else [] := by
      simp only [← ht, Traffic.inbox, Table.listAt_set there]
      split
      · rename_i here
        rw [← here, Table.listAt_of there]
      · simp
    have outstanding (k : LinkId) : t.outstanding k = s.outstanding k + if l = k then 1 else 0 := by
      have grown := Table.sum_set (b := { f with inbox := f.inbox ++ [m] })
        (fun _ f => sentBy k f.inbox) there
      simp only [← ht, Traffic.outstanding, Traffic.undelivered, Traffic.inHand, Traffic.wasted,
        Array.toList_push, List.flatMap_append, List.flatMap_singleton, Happening.wasLost,
        List.append_nil, sentBy, List.countP_append, List.countP_singleton, ← sent, beq_iff_eq]
        at grown ⊢
      split at grown
      · simp_all
        omega
      · simp_all
    have links : t.links = s.links.set l { lk with credits } := by rw [← ht]
    have interfaces : t.interfaces = s.interfaces.set dest { f with inbox := f.inbox ++ [m] } := by
      rw [← ht]
    have agenda : t.agenda = s.agenda := by rw [← ht]
    exact {
      balance := fun k lk' at_ => by
        rw [links, Table.get?_set_of here] at at_
        rw [outstanding]
        split at at_
        · rename_i same
          cases at_
          have old := hs.balance l lk here
          rw [if_pos same, ← same]
          simp only
          omega
        · rename_i other
          rw [if_neg other, Nat.add_zero]
          exact hs.balance k lk' at_
      unused := fun k new => by
        rw [links, Table.next_set] at new
        have lives := Table.lt_next_of_get? here
        rw [outstanding, hs.unused k new, if_neg (lives.trans_le new).ne]
      order := fun i => by
        rw [accepted, delivered, lost, inbox, hs.order i]
        simp
      kept := fun i live => by
        rw [lost]
        exact hs.kept i (by rwa [interfaces, Table.contains_set there] at live)
      unopened := fun i new => by
        rw [interfaces, Table.next_set] at new
        have lives := Table.lt_next_of_get? there
        rw [accepted, hs.unopened i new, if_neg (lives.trans_le new).ne, List.append_nil]
      shielded := agenda ▸ hs.shielded }

/-- A message goes from its inbox to its handler, if there is one. -/
theorem deliver (hs : Credited s) {f : Interface} {m : Message} {inbox : List Message} {left : Nat}
    (top : s.agenda = .deliver i (left + 1) :: rest) (here : s.interfaces.get? i = some f)
    (front : f.inbox = m :: inbox) : Credited { s with
      interfaces := s.interfaces.set i { f with inbox }
      trace := s.trace.push (.delivered i m)
      agenda := (f.handlers.lookup m.id).toList.map (fun h => .handle h m)
        ++ [.giveBack m.sender, .deliver i left] ++ rest } := by
  generalize ht : ({ s with
    interfaces := s.interfaces.set i { f with inbox }
    trace := s.trace.push (.delivered i m)
    agenda := (f.handlers.lookup m.id).toList.map (fun h => .handle h m)
      ++ [.giveBack m.sender, .deliver i left] ++ rest } : Traffic) = t
  have accepted (k : InterfaceId) : t.accepted k = s.accepted k := by
    simp [← ht, Traffic.accepted, Happening.acceptedAt]
  have delivered (k : InterfaceId) : t.delivered k = s.delivered k ++ if i = k then [m] else [] := by
    simp [← ht, Traffic.delivered, Happening.deliveredAt]
  have lost (k : InterfaceId) : t.lost k = s.lost k := by
    simp [← ht, Traffic.lost, Happening.lostAt]
  have left' (k : InterfaceId) : s.inbox k = (if i = k then [m] else []) ++ t.inbox k := by
    simp only [← ht, Traffic.inbox, Table.listAt_set here]
    split
    · rename_i same
      rw [← same, Table.listAt_of here, front]
      rfl
    · rfl
  have outstanding (l : LinkId) : t.outstanding l = s.outstanding l := by
    have moved := Table.sum_set (b := { f with inbox }) (fun _ f => sentBy l f.inbox) here
    have handled : ((f.handlers.lookup m.id).toList.map fun h => Job.handle h m).countP
        (Job.returns l) = 0 := by
      simp [List.countP_map, Function.comp_def, Job.returns]
    simp only [← ht, Traffic.outstanding, Traffic.undelivered, Traffic.inHand, Traffic.wasted, top,
      Array.toList_push, List.flatMap_append, List.flatMap_singleton, Happening.wasLost,
      List.append_nil, List.countP_append, List.countP_cons, List.countP_nil, handled, Job.returns,
      sentBy, front, Bool.false_eq_true, if_false, beq_iff_eq] at moved ⊢
    omega
  have links : t.links = s.links := by rw [← ht]
  have interfaces : t.interfaces = s.interfaces.set i { f with inbox } := by rw [← ht]
  have there : s.interfaces.contains i = true := Table.contains_of_get? here
  exact {
    balance := fun l lk at_ => (outstanding l).symm ▸ hs.balance l lk (links ▸ at_)
    unused := fun l new => (outstanding l).trans (hs.unused l (links ▸ new))
    order := fun k => by
      have order := hs.order k
      rw [left'] at order
      rw [accepted, delivered, lost, order]
      split
      · rename_i same
        rw [same] at there
        simp [hs.kept k there]
      · simp
    kept := fun k live => by
      rw [lost]
      exact hs.kept k (by rwa [interfaces, Table.contains_set here] at live)
    unopened := fun k new => by
      rw [interfaces, Table.next_set] at new
      exact (accepted k).trans (hs.unopened k new)
    shielded := by
      have below : Shielded (.giveBack m.sender :: .deliver i left :: rest) :=
        ((Shielded.below (top ▸ hs.shielded)).cons rfl).cons rfl
      rw [← ht]
      cases f.handlers.lookup m.id with
      | none => exact below
      | some h =>
        intro h' m' rest' suffix
        rcases List.suffix_cons_iff.1 suffix with same | suffix
        · cases same
          exact ⟨i, left, rest, rfl⟩
        · exact below h' m' rest' suffix }

/-- The credit of a message that has been handled comes back. -/
theorem giveBack (hs : Credited s) (top : s.agenda = .giveBack l :: rest) :
    Credited { s with
      links := s.links.modify l fun lk => { lk with credits := lk.credits + 1 }
      agenda := rest } := by
  generalize ht : ({ s with
    links := s.links.modify l fun lk => { lk with credits := lk.credits + 1 }
    agenda := rest } : Traffic) = t
  have outstanding (k : LinkId) : t.outstanding k + (if l = k then 1 else 0) = s.outstanding k := by
    simp only [← ht, Traffic.outstanding, Traffic.undelivered, Traffic.inHand, Traffic.wasted, top,
      List.countP_cons, Job.returns, beq_iff_eq]
    omega
  have links : t.links = s.links.modify l fun lk => { lk with credits := lk.credits + 1 } := by
    rw [← ht]
  exact {
    balance := fun k lk' there => by
      have returned := outstanding k
      rw [links, Table.get?_modify] at there
      split at there
      · rename_i same
        rcases Option.map_eq_some_iff.1 there with ⟨lk, here, rfl⟩
        have old := hs.balance k lk here
        rw [if_pos same] at returned
        simp only
        omega
      · rename_i other
        rw [if_neg other, Nat.add_zero] at returned
        rw [returned]
        exact hs.balance k lk' there
    unused := fun k new => by
      rw [links, Table.next_modify] at new
      have none := hs.unused k new
      have returned := outstanding k
      omega
    order := fun k => by
      rw [← ht]
      exact hs.order k
    kept := fun k live => by
      rw [← ht] at live ⊢
      exact hs.kept k live
    unopened := fun k new => by
      rw [← ht] at new ⊢
      exact hs.unopened k new
    shielded := by
      rw [← ht]
      exact Shielded.below (top ▸ hs.shielded) }

theorem deed (hs : Credited s) (h : Deed s t) : Credited t := by
  cases h with
  | work j rest jobs u top light free rigged bare =>
    exact ((hs.pop top light).rigs rigged).pushBare bare
  | close j r rest jobs marks handles top ends bare =>
    have light : ∀ l, j ≠ .giveBack l := by cases ends <;> simp
    have noted := (hs.pop top light).mutes ends.mute
    exact { noted.pushBare bare with }
  | ask w message m rest jobs u top rigged bare signal handle =>
    have asked := (((hs.pop top (by simp)).rigs rigged).pushBare bare).pushOne
      (j := .attempt (.send m) (.endpoint m.endpoint)) rfl
    exact { asked with }
  | deliver i f m inbox left rest top here front => exact hs.deliver top here front
  | giveBack l rest top => exact hs.giveBack top
  | record log forward decode m rest jobs marks top bare still =>
    exact ((hs.pop top (by simp)).pushBare bare).note rfl |>.mutes
      fun x hx => Happening.isMute_of_isStill (still x hx)
  | relay log c decode m l rest x t top carries sent still =>
    exact (((hs.pop top (by simp)).note rfl).transmits sent).note (Happening.quiet_of_still still)
  | answer r o w rest top => exact hs.swap top (by simp) rfl
  | accept r w rest c messageId payload source l t top sends carries sent =>
    exact (hs.swap top (by simp) rfl).transmits sent
  | holdOff r w rest x messageId payload source jobs top sends data bare =>
    exact (hs.swap top (by simp) rfl).pushBare bare
  | requeue r l lk rest top here =>
    exact ((hs.pop top (by simp)).mutes (r.mute_answerNotes _)).links (.set here rfl rfl)
  | again r c rest top => exact (hs.swap top (by simp) rfl).mutes (r.mute_answerNotes _)
  | first r e ep c rest top here slot =>
    exact (((hs.pop top (by simp)).pushOne rfl).pushOne rfl).mutes (r.mute_answerNotes _)
  | returned r h rest top =>
    have noted := (hs.pop top (by simp)).mutes (r.mute_answerNotes (.error .noResource))
    exact { noted with }
  | completed r o h rest top done =>
    have noted := (hs.pop top (by simp)).mutes (r.mute_answerNotes o)
    exact { noted with }
  | add r c rest t top taken => exact (hs.pop top (by simp)).offers taken
  | handBack r r' c rest t top back =>
    exact ((hs.pop top (by simp)).offers back).pushOne rfl
  | dequeue r l lk queue rest top here front =>
    exact (hs.swap top (by simp) rfl).links (.set here rfl rfl)
  | switch x st next w rest u top rigged here unswitched connected =>
    have switched := (((hs.pop top (by simp)).rigs rigged).push
      (free_replay st w next)).note (x := .switched x next) rfl
    exact { switched with }

theorem takes (hs : Credited s) {μ : Means} {r : Request} (h : Takes μ s r t) : Credited t := by
  cases h with
  | fresh => exact hs
  | held => exact { hs with }

theorem act (hs : Credited s) {μ : Means} (h : Act μ s t) : Credited t := by
  cases h with
  | rig t rigged => exact hs.rig rigged
  | work jobs bare => exact hs.pushBare bare
  | ask m handle =>
    have asked := hs.pushOne (j := .attempt (.send m) (.endpoint m.endpoint)) rfl
    exact { asked with }
  | openInterface f empty deaf => exact hs.openInterface empty
  | install i messageId h names =>
    cases here : s.interfaces.get? i with
    | none =>
      rw [Table.modify_of_none here]
      exact hs
    | some f =>
      rw [Table.modify_eq_set here]
      exact hs.setInterface here rfl
  | lead l lk dest here => exact hs.links (.set here rfl rfl)
  | send c l messageId payload t name carries sent => exact hs.transmits sent
  | bring | rehold => exact { hs with }
  | cancelHeld h r here used => exact { hs.mutes r.mute_cancelNotes with }
  | discardHeld h r here => exact { hs.mutes r.mute_dropNotes with }
  | attempt h r here used =>
    have begun := hs.pushOne (j := .attempt r (.application h)) rfl
    exact { begun with }
  | add c r u name taken => exact (hs.takes taken).pushOne rfl
  | offer c r u t name taken offered => exact (hs.takes taken).offers offered
  | offerBack c r r' u t name taken offered => exact { (hs.takes taken).offers offered with }
  | offerDrop c r r' u t name taken offered =>
    exact ((hs.takes taken).offers offered).mutes r'.mute_dropNotes
  | purge l lk here =>
    let drained : Link := { lk with queue := [] }
    have purged : Credited { s with links := s.links.set l drained } :=
      hs.links (.set here rfl rfl)
    exact { purged with }

theorem initial (process : UInt32) : Credited (Network.traffic { process }) where
  balance l lk here := by cases here
  unused _ _ := rfl
  order _ := rfl
  kept _ _ := rfl
  unopened _ _ := rfl
  shielded h m rest suffix := by
    have empty : Job.handle h m :: rest = [] := List.suffix_nil.1 suffix
    cases empty

end Credited

/-! ## What handlers are given -/

/-- A message is given to its handler when it is taken out of an inbox, and at no other time. -/
inductive Hands (s t : Traffic) : Prop
  | none (delivered : ∀ i, t.delivered i = s.delivered i) (handed : t.handed <:+ s.handed)
  | one (i : InterfaceId) (f : Interface) (m : Message) (inbox : List Message) (left : Nat)
      (rest : List Job) (top : s.agenda = .deliver i (left + 1) :: rest)
      (here : s.interfaces.get? i = some f) (front : f.inbox = m :: inbox)
      (delivered : ∀ k, t.delivered k = s.delivered k ++ if i = k then [m] else [])
      (handed : t.agenda = (f.handlers.lookup m.id).toList.map (fun h => .handle h m)
        ++ [.giveBack m.sender, .deliver i left] ++ rest)

theorem delivered_notes {marks : List Happening} (quiet : ∀ x ∈ marks, x.isQuiet = true)
    (trace : Array Happening) (i : InterfaceId) :
    (trace ++ marks.toArray).toList.flatMap (Happening.deliveredAt i) =
      trace.toList.flatMap (Happening.deliveredAt i) := by
  have none : marks.flatMap (Happening.deliveredAt i) = [] :=
    List.flatMap_eq_nil_iff.2 fun x hx => (Happening.mute_of_quiet (quiet x hx)).2.1 i
  simp [none]

theorem delivered_mutes {marks : List Happening} (mute : ∀ x ∈ marks, x.isMute = true)
    (trace : Array Happening) (i : InterfaceId) :
    (trace ++ marks.toArray).toList.flatMap (Happening.deliveredAt i) =
      trace.toList.flatMap (Happening.deliveredAt i) :=
  delivered_notes (fun x hx => Happening.quiet_of_mute (mute x hx)) trace i

theorem delivered_note {x : Happening} (none : x.deliveredAt i = []) (trace : Array Happening) :
    (trace.push x).toList.flatMap (Happening.deliveredAt i) =
      trace.toList.flatMap (Happening.deliveredAt i) := by
  simp [none]

theorem Rig.delivered (h : Rig s t) (i : InterfaceId) : t.delivered i = s.delivered i := by
  cases h with
  | note x still =>
    exact delivered_note ((Happening.mute_of_quiet (Happening.quiet_of_still still)).2.1 i) s.trace
  | cancelFront l lk r queue here front => exact delivered_mutes r.mute_cancelNotes s.trace i
  | closeInterface k f here =>
    simp [Traffic.delivered, List.flatMap_map, Happening.deliveredAt]
  | _ => rfl

theorem Rigs.delivered (h : Rigs s t) (i : InterfaceId) : t.delivered i = s.delivered i := by
  induction h with
  | refl => rfl
  | tail _ g ih => exact (g.delivered i).trans ih

theorem Transmits.same {messageId : UInt8} {payload : Bytes} {source : Option HandleId}
    (h : Transmits s l messageId payload source t) :
    t.agenda = s.agenda ∧ ∀ i, t.delivered i = s.delivered i := by
  cases h with
  | intro lk credits dest f here credit leads there =>
    exact ⟨rfl, fun i => delivered_note rfl s.trace⟩

theorem Offers.same {c : Carrier} {r : Request} {back : Option Request} (h : Offers s c r t back) :
    t.agenda = s.agenda ∧ ∀ i, t.delivered i = s.delivered i := by
  cases h with
  | park => exact ⟨rfl, fun i => delivered_note rfl s.trace⟩
  | _ => exact ⟨rfl, fun _ => rfl⟩

/-- No handler is given anything by work that has nothing to do with messages. -/
theorem handed_below {j : Job} (top : s.agenda = j :: rest) (jobs : List Job)
    (free : ∀ k ∈ jobs, k.owes = false) :
    (jobs ++ rest).filterMap Job.message? <:+ s.handed := by
  have silent : jobs.filterMap Job.message? = [] :=
    List.filterMap_eq_nil_iff.2 fun k hk => message?_of_free (free k hk)
  rw [List.filterMap_append, silent, List.nil_append, handed, top]
  exact (List.suffix_cons j rest).filterMap _

theorem Deed.hands (h : Deed s t) : Hands s t := by
  have bare' {jobs : List Job} (bare : ∀ k ∈ jobs, k.isBare = true) : ∀ k ∈ jobs, k.owes = false :=
    fun k hk => free_of_bare (bare k hk)
  have one {j k : Job} {rest : List Job} (top : s.agenda = j :: rest) (free : k.owes = false) :=
    handed_below top [k] (List.forall_mem_singleton.2 free)
  have none {j : Job} {rest : List Job} (top : s.agenda = j :: rest) :=
    handed_below top [] (List.forall_mem_nil _)
  cases h with
  | work j rest jobs u top light free rigged bare =>
    refine .none (fun i => rigged.delivered i) ?_
    simp only [handed, rigged.agenda]
    exact handed_below top jobs (bare' bare)
  | close j r rest jobs marks handles top ends bare =>
    exact .none (delivered_mutes ends.mute s.trace) (handed_below top jobs (bare' bare))
  | ask w message m rest jobs u top rigged bare signal handle =>
    refine .none (fun i => rigged.delivered i) ?_
    simp only [handed, rigged.agenda]
    refine handed_below top (.attempt (.send m) (.endpoint m.endpoint) :: jobs) fun k hk => ?_
    rcases List.mem_cons.1 hk with rfl | hk
    · rfl
    · exact bare' bare k hk
  | deliver i f m inbox left rest top here front =>
    exact .one i f m inbox left rest top here front
      (fun k => by simp [Traffic.delivered, Happening.deliveredAt]) rfl
  | giveBack l rest top => exact .none (fun _ => rfl) (none top)
  | record log forward decode m rest jobs marks top bare still =>
    refine .none (fun i => ?_) (handed_below top jobs (bare' bare))
    have mute := fun x hx => Happening.isMute_of_isStill (still x hx)
    exact (delivered_mutes mute _ i).trans (delivered_note rfl s.trace)
  | relay log c decode m l rest x t top carries sent still =>
    refine .none (fun i => ?_) ?_
    · have mute := (Happening.mute_of_quiet (Happening.quiet_of_still still)).2.1 i
      exact (delivered_note mute t.trace).trans
        ((sent.same.2 i).trans (delivered_note rfl s.trace))
    · simp only [handed, sent.same.1]
      exact none top
  | answer r o w rest top => exact .none (fun _ => rfl) (one top rfl)
  | accept r w rest c messageId payload source l t top sends carries sent =>
    refine .none sent.same.2 ?_
    simp only [handed, sent.same.1]
    exact one top rfl
  | holdOff r w rest x messageId payload source jobs top sends data bare =>
    refine .none (fun _ => rfl) ?_
    have free : ∀ k ∈ jobs ++ [.conclude r.taken (.error .noResource) w], k.owes = false := by
      intro k hk
      rcases List.mem_append.1 hk with hk | hk
      · exact bare' bare k hk
      · exact List.mem_singleton.1 hk ▸ rfl
    simpa [handed] using handed_below top _ free
  | requeue r l lk rest top here =>
    exact .none (delivered_mutes (r.mute_answerNotes _) s.trace) (none top)
  | again r c rest top =>
    exact .none (delivered_mutes (r.mute_answerNotes _) s.trace) (one top rfl)
  | first r e ep c rest top here slot =>
    refine .none (delivered_mutes (r.mute_answerNotes _) s.trace)
      (handed_below top [.add c r.unfinished, .release c.ref] fun k hk => ?_)
    simp only [List.mem_cons, List.not_mem_nil, or_false] at hk
    rcases hk with rfl | rfl <;> rfl
  | returned r h rest top =>
    exact .none (delivered_mutes (r.mute_answerNotes _) s.trace) (none top)
  | completed r o h rest top done =>
    exact .none (delivered_mutes (r.mute_answerNotes _) s.trace) (none top)
  | add r c rest t top taken =>
    refine .none taken.same.2 ?_
    simp only [handed, taken.same.1]
    exact none top
  | handBack r r' c rest t top back =>
    refine .none back.same.2 ?_
    simp only [handed, back.same.1]
    exact one top rfl
  | dequeue r l lk queue rest top here front => exact .none (fun _ => rfl) (one top rfl)
  | switch x st next w rest u top rigged here unswitched connected =>
    refine .none (fun i => (delivered_note rfl u.trace).trans (rigged.delivered i)) ?_
    simp only [handed, rigged.agenda]
    exact handed_below top _ (free_replay st w next)

end Traffic

namespace Network

open Traffic (Credited Hands)

variable {s t : Network}

/-! ## Credits are conserved -/

/-- A link refuses a message and nothing is changed, or it takes one credit and puts the message into
the inbox that it leads to. -/
def Posts (s : Network) (l : LinkId) (messageId : UInt8) (payload : Bytes)
    (source : Option HandleId) (result : Network × Outcome) : Prop :=
  (∃ why, result = (s, .error why)) ∨
    ∃ t, Transmitted s l messageId payload source t ∧ result = (t, .ok ())

/-- What is known of credits and inboxes wherever a run comes by. -/
structure Conserves (s : Network) : Prop where
  /-- A credit is free, or is out with a message in an inbox, with one that is being handled, or with
  one that went down with an inbox. -/
  balance : ∀ l lk, s.links.get? l = some lk →
    lk.credits + (s.traffic.undelivered l + s.traffic.inHand l + s.traffic.wasted l) =
      lk.settings.credits
  bounded : ∀ l lk, s.links.get? l = some lk → lk.credits ≤ lk.settings.credits
  short : ∀ l messageId header payload, s.Posts l messageId (Bytes.word header ++ payload) none
    (s.sendShort l messageId header payload)
  bulk : ∀ l messageId payload source, s.Posts l messageId payload source
    (s.sendBulk l messageId payload source)
  /-- What an interface has taken in, it has delivered or lost, or still has, in this order. -/
  order : ∀ i, s.traffic.accepted i =
    s.traffic.delivered i ++ (s.traffic.lost i ++ s.traffic.inbox i)
  /-- An interface that is there has lost nothing. -/
  kept : ∀ i, s.interfaces.contains i = true → s.traffic.lost i = []
  /-- As long as a message is being handled its credit is out. -/
  shielded : Shielded s.agenda
  hands : s.step.violation = none → s.step = s ∨ Hands s.traffic s.step.traffic
  flushed : ∀ l lk, s.links.get? l = some lk → (s.isFlushed (.link l) = true ↔
    s.traffic.undelivered l + s.traffic.inHand l + s.traffic.wasted l = 0 ∧ lk.queue = [])

theorem credited_of_visited {fits : Network → Call → Prop} (h : Visited fits s) :
    Credited s.traffic :=
  h.traffic_keeps Credited.initial (fun _ _ _ hs _ act => hs.act act) (fun _ _ hs act => hs.act act)
    fun _ _ hs deed => hs.deed deed

/-- Whatever the operations of a run, between two of them and in the middle of each, no credit is
made, and none gets lost but with the inbox that its message lies in. Every message that an
interface takes in comes out once at most, in the order in which it came in. -/
theorem credits_conserved {fits : Network → Call → Prop} (h : Visited fits s) : Conserves s := by
  have hs := credited_of_visited h
  have balance : ∀ l lk, s.links.get? l = some lk →
      lk.credits + (s.traffic.undelivered l + s.traffic.inHand l + s.traffic.wasted l) =
        lk.settings.credits := hs.balance
  refine {
    balance
    bounded := fun l lk here => Nat.le.intro (balance l lk here)
    short := fun l messageId header payload => s.sendShort_transmitted l messageId header payload
    bulk := fun l messageId payload source => s.sendBulk_transmitted l messageId payload source
    order := hs.order
    kept := hs.kept
    shielded := hs.shielded
    hands := fun calm => (step_deed calm).imp_right Traffic.Deed.hands
    flushed := fun l lk here => ?_ }
  have even := balance l lk here
  simp only [isFlushed, linkIsIdle, here, Bool.and_eq_true, beq_iff_eq, List.isEmpty_iff]
  refine and_congr_left fun _ => ?_
  omega

/-- Two interfaces with a link each way. The second one sends back what it gets, and has two
messages to deliver. -/
def mirror : Option Network :=
  Call.runAll { process := 1 }
    [.openFabric, .openInterface 0 { credits := 2 }, .openInterface 0 { credits := 2 },
      .createConnectedLink 0 (Bytes.word 1) (Bytes.word 2),
      .createConnectedLink 1 (Bytes.word 1) (Bytes.word 1),
      .record 1 5 "mirror" (some (.link 1)) false,
      .operate (.link 0) (.bulk 5 [1]), .operate (.link 0) (.bulk 5 [2])]

/-- In the middle of a delivery, one credit is out with the message that waits, and one with the
message that has just been sent back. -/
theorem credits_conserved_mirror : ∃ s, mirror.map (fun s => work 3 (Call.start s (.progress 1))) =
      some s ∧ Visited (fun _ _ => True) s ∧ Conserves s ∧
    (s.links.get? 0).map Link.credits = some 0 ∧ s.traffic.undelivered 0 = 1 ∧
    s.traffic.inHand 0 = 1 ∧ (s.links.get? 1).map Link.credits = some 1 ∧
    s.traffic.undelivered 1 = 1 ∧ s.traffic.delivered 1 = [⟨5, [1], 0⟩] ∧
    s.traffic.inbox 1 = [⟨5, [2], 0⟩] := by
  have known : (mirror.map fun s => work 3 (Call.start s (.progress 1))).map (fun s =>
      decide (s.violation.isNone = true ∧ (s.links.get? 0).map Link.credits = some 0 ∧
        s.traffic.undelivered 0 = 1 ∧ s.traffic.inHand 0 = 1 ∧
        (s.links.get? 1).map Link.credits = some 1 ∧ s.traffic.undelivered 1 = 1 ∧
        s.traffic.delivered 1 = [⟨5, [1], 0⟩] ∧ s.traffic.inbox 1 = [⟨5, [2], 0⟩])) = some true := by
    decide +kernel
  rcases Option.map_eq_some_iff.1 known with ⟨u, hu, known⟩
  rcases Option.map_eq_some_iff.1 hu with ⟨s, hs, rfl⟩
  rcases of_decide_eq_true known with ⟨calm, facts⟩
  have visited : Visited (fun _ _ => True) (work 3 (Call.start s (.progress 1))) :=
    .within (.progress 1) 3 (.of_runAll (.start 1) hs) trivial trivial
      (Option.isNone_iff_eq_none.1 calm)
  exact ⟨_, hu, visited, credits_conserved visited, facts⟩

end Network

end Wiring
