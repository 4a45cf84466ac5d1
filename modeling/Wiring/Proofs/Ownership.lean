import Mathlib
import Wiring.Proofs.Starts
import Wiring.Proofs.Veil

/-!
# Who owns a link

A link belongs to one thing at most for as long as a stub waits: to that stub, as the link that it
is wired up with or as the one that carries its signals until then. Slots and stubs that were
switched over have links that no stub waits with. Whatever the application names, this stays so.
-/
namespace Wiring

namespace Traffic

variable {s t : Traffic} {l : LinkId}

/-- The link was given, and no stub keeps it to itself. -/
def Free (s : Traffic) (l : LinkId) : Prop :=
  l < s.links.next ∧ ∀ x st, s.stubs.get? x = some st → ¬st.Owns l

/-- Links that serve a category, or that a stub was switched over to, are no stub's own. -/
structure Parted (s : Traffic) : Prop extends Proper s where
  slots : ∀ e ep category l, s.endpoints.get? e = some ep →
    ep.slots.get category = some (.link l) → s.Free l
  promoted : ∀ x st l, s.stubs.get? x = some st → st.promoted = some l → s.Free l
  waiting : ∀ x st, s.stubs.get? x = some st → st.next ≠ none → st.promoted = none

/-- Stubs come to no links, and slots to none that no slot held. -/
structure Wanes (s t : Traffic) : Prop where
  given : s.links.next ≤ t.links.next
  stubs : ∀ x st', t.stubs.get? x = some st' → ∃ st, s.stubs.get? x = some st ∧
    st'.next = st.next ∧ st'.auxiliary = st.auxiliary ∧ st'.promoted = st.promoted
  slots : ∀ e' ep' category l, t.endpoints.get? e' = some ep' →
    ep'.slots.get category = some (.link l) →
    ∃ e ep c, s.endpoints.get? e = some ep ∧ ep.slots.get c = some (.link l)

namespace Wanes

theorem of_eq (given : s.links.next ≤ t.links.next) (stubs : t.stubs = s.stubs)
    (endpoints : t.endpoints = s.endpoints) : Wanes s t :=
  ⟨given, fun _ st here => ⟨st, stubs ▸ here, rfl, rfl, rfl⟩,
    fun e ep category _ here slot => ⟨e, ep, category, endpoints ▸ here, slot⟩⟩

/-- A stub changes in what is no link. -/
theorem modifyStub {x : StubId} {f : Stub → Stub} {links : Table Link}
    (kept : ∀ st, (f st).next = st.next ∧ (f st).auxiliary = st.auxiliary ∧
      (f st).promoted = st.promoted) (given : s.links.next ≤ links.next) :
    Wanes s { s with links, stubs := s.stubs.modify x f } := by
  refine ⟨given, fun y st' there => ?_, fun e ep category _ here slot => ⟨e, ep, category, here, slot⟩⟩
  rcases Table.get?_of_modify there with ⟨st, here, rfl | rfl⟩
  · exact ⟨_, here, rfl, rfl, rfl⟩
  · exact ⟨st, here, kept st⟩

theorem owns (h : Wanes s t) {x : StubId} {st' : Stub} (there : t.stubs.get? x = some st') (own : st'.Owns l) :
    ∃ st, s.stubs.get? x = some st ∧ st.Owns l := by
  rcases h.stubs x st' there with ⟨st, here, next, auxiliary, -⟩
  exact ⟨st, here, own.imp next.symm.trans auxiliary.symm.trans⟩

theorem free (h : Wanes s t) (hl : s.Free l) : t.Free l := by
  refine ⟨hl.1.trans_le h.given, fun x st' there own => ?_⟩
  rcases h.owns there own with ⟨st, here, own⟩
  exact hl.2 x st here own

end Wanes

namespace Parted

theorem initial (process : UInt32) : Parted (Network.traffic { process }) := by
  refine { toProper := (Veiled.initial process).toProper, slots := ?_, promoted := ?_, waiting := ?_ }
  all_goals simp [Network.traffic]

theorem wanes (hs : Parted s) (h : Wanes s t) : Parted t where
  given x st' l there own := by
    rcases h.owns there own with ⟨st, here, own⟩
    exact (hs.given x st l here own).trans_le h.given
  own x y st' st'' l hx hy own own' := by
    rcases h.owns hx own with ⟨st, hx, own⟩
    rcases h.owns hy own' with ⟨su, hy, own'⟩
    exact hs.own x y st su l hx hy own own'
  apart x st' l there next' auxiliary' := by
    rcases h.stubs x st' there with ⟨st, here, next, auxiliary, -⟩
    exact hs.apart x st l here (next.symm.trans next') (auxiliary.symm.trans auxiliary')
  slots e' ep' category l there slot := by
    rcases h.slots e' ep' category l there slot with ⟨e, ep, c, here, slot⟩
    exact h.free (hs.slots e ep c l here slot)
  promoted x st' l there switched := by
    rcases h.stubs x st' there with ⟨st, here, -, -, promoted⟩
    exact h.free (hs.promoted x st l here (promoted.symm.trans switched))
  waiting x st' there unswitched := by
    rcases h.stubs x st' there with ⟨st, here, next, -, promoted⟩
    exact promoted.trans (hs.waiting x st here (next ▸ unswitched))

theorem of_eq (hs : Parted s) (given : s.links.next ≤ t.links.next) (stubs : t.stubs = s.stubs)
    (endpoints : t.endpoints = s.endpoints) : Parted t :=
  hs.wanes (.of_eq given stubs endpoints)

/-- The slots of an endpoint are changed, and hold no new links but free ones. -/
theorem modifySlots (hs : Parted s) (id : EndpointId) (f : Endpoint → Endpoint)
    (slots : ∀ ep category l, s.endpoints.get? id = some ep →
      (f ep).slots.get category = some (.link l) →
      ep.slots.get category = some (.link l) ∨ s.Free l) :
    Parted { s with endpoints := s.endpoints.modify id f } := by
  refine { hs with slots := fun e ep category l there slot => ?_ }
  rw [Table.get?_modify] at there
  split at there
  · rename_i same
    rcases Option.map_eq_some_iff.1 there with ⟨ep', here, rfl⟩
    rcases slots ep' category l (same ▸ here) slot with slot | free
    · exact hs.slots e ep' category l here slot
    · exact free
  · exact hs.slots e ep category l there slot

/-- A lane is served by what is no stub's own link. -/
theorem installLane (hs : Parted s) {id : EndpointId} {ep : Endpoint}
    (here : s.endpoints.get? id = some ep) (lane : Category) {c : Carrier}
    (free : ∀ l, c = .link l → s.Free l) :
    Parted { s with endpoints := s.endpoints.modify id fun e =>
      { e with slots := Network.installLane ep lane c } } := by
  refine hs.modifySlots _ _ fun ep' category l here' slot => ?_
  cases here.symm.trans here'
  rcases installLane_get_cases slot with old | rfl
  · exact .inl old
  · exact .inr (free l rfl)

/-- Nobody owns a new link. -/
theorem free_new (hs : Parted s) (lk : Link) :
    ({ s with links := s.links.push lk } : Traffic).Free s.links.next := by
  refine ⟨?_, fun x st here own => absurd (hs.given x st _ here own) (lt_irrefl _)⟩
  change s.links.next < (s.links.push lk).next
  rw [Table.next_push]
  exact Nat.lt_succ_self _

/-- A new stub has new links. -/
theorem openStub (hs : Parted s) {st : Stub} {links : Table Link}
    (next : st.next = some s.links.next) (room : s.links.next < links.next)
    (auxiliary : ∀ l, st.auxiliary = some l → s.links.next < l ∧ l < links.next)
    (unswitched : st.promoted = none) : Parted { s with links, stubs := s.stubs.push st } := by
  have fresh {l : LinkId} (own : st.Owns l) : s.links.next ≤ l ∧ l < links.next := by
    rcases own with own | own
    · cases next.symm.trans own
      exact ⟨le_rfl, room⟩
    · exact ⟨(auxiliary l own).1.le, (auxiliary l own).2⟩
  have free {l : LinkId} (h : s.Free l) :
      ({ s with links, stubs := s.stubs.push st } : Traffic).Free l := by
    refine ⟨h.1.trans room, fun x st' there own => ?_⟩
    rcases Table.get?_of_push there with ⟨-, rfl⟩ | here
    · exact absurd h.1 (Nat.not_lt.2 (fresh own).1)
    · exact h.2 x st' here own
  have old {y : StubId} {st' : Stub} {l : LinkId} (here : s.stubs.get? y = some st')
      (own : st'.Owns l) (own' : st.Owns l) : False :=
    absurd (hs.given y st' l here own) (Nat.not_lt.2 (fresh own').1)
  constructor
  · constructor
    · intro x st' l there own
      rcases Table.get?_of_push there with ⟨-, rfl⟩ | here
      · exact (fresh own).2
      · exact (hs.given x st' l here own).trans room
    · intro x y st' st'' l hx hy own own'
      rcases Table.get?_of_push hx with ⟨rfl, rfl⟩ | kx
      · rcases Table.get?_of_push hy with ⟨rfl, rfl⟩ | ky
        · rfl
        · exact (old ky own' own).elim
      · rcases Table.get?_of_push hy with ⟨rfl, rfl⟩ | ky
        · exact (old kx own own').elim
        · exact hs.own x y st' st'' l kx ky own own'
    · intro x st' l there hn ha
      rcases Table.get?_of_push there with ⟨-, rfl⟩ | here
      · cases next.symm.trans hn
        exact absurd (auxiliary _ ha).1 (lt_irrefl _)
      · exact hs.apart x st' l here hn ha
  · exact fun e ep category l here slot => free (hs.slots e ep category l here slot)
  · intro x st' l there switched
    rcases Table.get?_of_push there with ⟨-, rfl⟩ | here
    · cases unswitched.symm.trans switched
    · exact free (hs.promoted x st' l here switched)
  · intro x st' there waits
    rcases Table.get?_of_push there with ⟨-, rfl⟩ | here
    · exact unswitched
    · exact hs.waiting x st' here waits

theorem rig (hs : Parted s) (h : Rig s t) : Parted t := by
  cases h with
  | note | number | closeInterface => exact hs.of_eq le_rfl rfl rfl
  | cancelFront | closeLink => exact hs.of_eq (by simp [cancel]) rfl rfl
  | openLink lk new => exact hs.of_eq (by simp [Table.next_push]) rfl rfl
  | pair x st l dest here next =>
    exact hs.wanes (.modifyStub (fun _ => ⟨rfl, rfl, rfl⟩) (by simp))
  | mark x => exact hs.wanes (.modifyStub (fun _ => ⟨rfl, rfl, rfl⟩) le_rfl)
  | openEndpoint e empty =>
    refine { hs with slots := fun e' ep category l there slot => ?_ }
    rcases Table.get?_of_push there with ⟨-, rfl⟩ | here
    · rw [empty, PerCategory.get_const] at slot
      cases slot
    · exact hs.slots e' ep category l here slot
  | linkLane id e lane lk here new =>
    have opened : Parted { s with links := s.links.push lk } :=
      hs.of_eq (by simp [Table.next_push]) rfl rfl
    exact opened.installLane here lane fun l same => Carrier.link.inj same ▸ hs.free_new lk
  | stubLane id e lane st lk auxiliary here new new' next aside unmarked unparked unswitched
      able =>
    have opened : Parted { s with
        links := auxiliary.toList.foldl Table.push (s.links.push lk)
        stubs := s.stubs.push st } := by
      cases auxiliary with
      | none =>
        refine hs.openStub next ?_ (fun l hl => ?_) unswitched
        · simp [Table.next_push]
        · cases aside.symm.trans hl
      | some lk' =>
        refine hs.openStub next ?_ (fun l hl => ?_) unswitched
        · simp only [Option.toList_some, List.foldl_cons, List.foldl_nil, Table.next_push]
          omega
        · cases aside.symm.trans hl
          simp [Table.next_push]
    exact opened.installLane here lane fun l other => by cases other
  | clear id =>
    refine hs.modifySlots _ _ fun ep category l _ slot => ?_
    rw [PerCategory.get_const] at slot
    cases slot
  | closeStub x =>
    refine hs.wanes ⟨le_rfl, fun y st there => ?_, ?_⟩
    · exact ⟨st, Table.get?_of_erase there, rfl, rfl, rfl⟩
    · exact fun e ep category _ here slot => ⟨e, ep, category, here, slot⟩
  | closeEndpoint id =>
    exact { hs with
      slots := fun e ep category l there => hs.slots e ep category l (Table.get?_of_erase there) }

theorem rigs (hs : Parted s) (h : Rigs s t) : Parted t := by
  induction h with
  | refl => exact hs
  | tail _ g ih => exact ih.rig g

theorem transmits {messageId : UInt8} {payload : Bytes} {source : Option HandleId} (hs : Parted s)
    (h : Transmits s l messageId payload source t) : Parted t := by
  cases h with
  | intro => exact hs.of_eq (by simp) rfl rfl

theorem offers {c : Carrier} {r : Request} {back : Option Request} (hs : Parted s)
    (h : Offers s c r t back) : Parted t := by
  cases h with
  | queue | cover | promoted => exact hs.of_eq (by simp) rfl rfl
  | back => exact hs
  | park r x st here =>
    refine hs.wanes ⟨le_rfl, fun y st' there => ?_, ?_⟩
    · rcases Table.get?_of_set there with ⟨rfl, rfl⟩ | there
      · exact ⟨st, here, rfl, rfl, rfl⟩
      · exact ⟨st', there, rfl, rfl, rfl⟩
    · exact fun e ep category _ here slot => ⟨e, ep, category, here, slot⟩

/-- A stub that is switched over gives its links up; the slots that held it get one of them. -/
theorem switch (hs : Parted s) {x : StubId} {st : Stub} {next : LinkId} {trace : Array Happening}
    {agenda : List Job} (here : s.stubs.get? x = some st) (unswitched : st.next = some next) :
    Parted { s with
      stubs := s.stubs.set x
        { st with next := none, auxiliary := none, parked := [], promoted := some next }
      endpoints := s.endpoints.modify st.endpoint fun e =>
        Network.promoteSlots e x st.category next
      trace, agenda } := by
  let emptied : Stub := { st with next := none, auxiliary := none, parked := [], promoted := some next }
  have owner {y : StubId} {st' : Stub} {l : LinkId} (there : (s.stubs.set x emptied).get? y = some st')
      (own : st'.Owns l) : x ≠ y ∧ s.stubs.get? y = some st' := by
    rw [Table.get?_set_of here] at there
    split at there
    · cases there
      rcases own with own | own <;> cases own
    · rename_i other
      exact ⟨other, there⟩
  have kept {l : LinkId} (free : s.Free l) :
      ({ s with stubs := s.stubs.set x emptied } : Traffic).Free l :=
    ⟨free.1, fun y st' there own => free.2 y st' (owner there own).2 own⟩
  have free : ({ s with stubs := s.stubs.set x emptied } : Traffic).Free next := by
    refine ⟨hs.given x st next here (.inl unswitched), fun y st' there own => ?_⟩
    exact (owner there own).1 (hs.own x y st st' next here (owner there own).2 (.inl unswitched) own)
  have bared : Parted { s with stubs := s.stubs.set x emptied } := by
    constructor
    · constructor
      · exact fun y st' l there own => hs.given y st' l (owner there own).2 own
      · exact fun y z st' st'' l hy hz own own' =>
          hs.own y z st' st'' l (owner hy own).2 (owner hz own').2 own own'
      · exact fun y st' l there hn => hs.apart y st' l (owner there (.inl hn)).2 hn
    · exact fun e ep category l here slot => kept (hs.slots e ep category l here slot)
    · intro y st' l there switched
      rcases Table.get?_of_set there with ⟨-, rfl⟩ | there
      · cases switched
        exact free
      · exact kept (hs.promoted y st' l there switched)
    · intro y st' there waits
      rcases Table.get?_of_set there with ⟨-, rfl⟩ | there
      · exact absurd rfl waits
      · exact hs.waiting y st' there waits
  have promoted := bared.modifySlots st.endpoint
    (fun e => Network.promoteSlots e x st.category next) fun ep category l _ slot => by
      simp only [Network.promoteSlots, PerCategory.get_mapWith] at slot
      split at slot
      · cases slot
        exact .inr free
      · exact .inl slot
  exact promoted.of_eq le_rfl rfl rfl

theorem deed (hs : Parted s) (h : Deed s t) : Parted t := by
  have below {agenda : List Job} : Parted { s with agenda } := hs.of_eq le_rfl rfl rfl
  cases h with
  | work j rest jobs u top light free rigged bare =>
    exact (below.rigs rigged).of_eq le_rfl rfl rfl
  | ask w message m rest jobs u top rigged bare signal handle =>
    exact (below.rigs rigged).of_eq le_rfl rfl rfl
  | relay log c decode m l rest x t top carries sent still =>
    have seen : Parted { s with
        trace := s.trace.push (.recorded log m.id (Network.content decode m.payload))
        agenda := rest } := hs.of_eq le_rfl rfl rfl
    exact (seen.transmits sent).of_eq le_rfl rfl rfl
  | accept r w rest c messageId payload source l t top sends carries sent =>
    exact below.transmits sent
  | add r c rest t top taken => exact below.offers taken
  | handBack r r' c rest t top back => exact (below.offers back).of_eq le_rfl rfl rfl
  | switch x st next w rest u top rigged here unswitched connected =>
    exact (below.rigs rigged).switch here unswitched
  | _ => exact hs.of_eq (by simp) rfl rfl

theorem takes {μ : Means} {r : Request} (hs : Parted s) (h : Takes μ s r t) : Parted t := by
  cases h with
  | fresh => exact hs
  | held => exact hs.of_eq le_rfl rfl rfl

theorem act {μ : Means} (hs : Parted s) (h : Act μ s t) : Parted t := by
  cases h with
  | rig t rigged => exact hs.rig rigged
  | send c l messageId payload t name carries sent => exact hs.transmits sent
  | add c r u name taken => exact (hs.takes taken).of_eq le_rfl rfl rfl
  | offer c r u t name taken offered => exact (hs.takes taken).offers offered
  | offerBack c r r' u t name taken offered =>
    exact ((hs.takes taken).offers offered).of_eq le_rfl rfl rfl
  | offerDrop c r r' u t name taken offered =>
    exact ((hs.takes taken).offers offered).of_eq le_rfl rfl rfl
  | _ => exact hs.of_eq (by simp [cancel]) rfl rfl

end Parted

end Traffic

/-- Wherever a run comes by, every link has its place. -/
theorem Visited.parted {fits : Network → Call → Prop} {s : Network} (h : Visited fits s) :
    s.traffic.Parted :=
  h.traffic_keeps .initial (fun _ _ _ hs _ act => hs.act act) (fun _ _ hs act => hs.act act)
    fun _ _ hs deed => hs.deed deed

end Wiring
