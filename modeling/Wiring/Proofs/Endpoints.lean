import Mathlib
import Wiring.Proofs.Pairing

/-!
# Endpoints in a layout

What is known of a layout stays known when a stub is switched over, when an endpoint is opened and
gets its lanes one after another, and when an endpoint is taken down that was never used.
-/
namespace Wiring

namespace Plan

/-- A lane shares its slot with no other lane. -/
theorem shares_lane {p : Plan} {lane lane' : Category} (h : lane' ∈ p.lanes) :
    p.shares lane lane' = true ↔ lane' = lane := by
  have own := mem_lanes.1 h
  simp only [isLane, Bool.and_eq_true, Option.isNone_iff_eq_none] at own
  simp [shares, own.1]

end Plan

namespace Layout

open Network (promoteSlots installLane)

variable {k : Layout} {plan : Plan} {doomed : Option EndpointId} {a b : WorkerId}
  {lane : Category}

/-! ## Switching over -/

section

variable {x : StubId} {st : Stub} {ep : Endpoint} {l : LinkId}

/-- The layout in which a stub is switched over to its link. -/
def promote (k : Layout) (x : StubId) (st : Stub) (l : LinkId) (ep : Endpoint) : Layout :=
  { k with
    stub := Function.update k.stub x
      (some { st with next := none, auxiliary := none, promoted := some l })
    endpoint := Function.update k.endpoint st.endpoint
      (some (promoteSlots ep x st.category l)) }

theorem promoteSlots_get (ep : Endpoint) (x : StubId) (category lane : Category) (l : LinkId) :
    (promoteSlots ep x category l).slots.get lane =
      if ep.plan.shares category lane ∧ ep.slots.get lane = some (.stub x) then some (.link l)
      else ep.slots.get lane := by
  simp [promoteSlots]

/-- An endpoint after the switchover: the stub's slots hold the link. -/
theorem promote_endpoint (owner : k.endpoint st.endpoint = some ep) {e : EndpointId}
    {ep' : Endpoint} (h : (k.promote x st l ep).endpoint e = some ep') :
    ∃ old, k.endpoint e = some old ∧ ep'.worker = old.worker ∧ ep'.dest = old.dest ∧
      ep'.plan = old.plan ∧ ∀ lane, ep'.slots.get lane = old.slots.get lane ∨
        e = st.endpoint ∧ old.slots.get lane = some (.stub x) ∧
          ep'.slots.get lane = some (.link l) := by
  simp only [promote, Function.update_apply] at h
  split at h
  · rename_i same
    cases h
    refine ⟨ep, same ▸ owner, rfl, rfl, rfl, fun lane => ?_⟩
    rw [promoteSlots_get]
    split
    · rename_i both
      exact .inr ⟨same, both.2, rfl⟩
    · exact .inl rfl
  · exact ⟨ep', h, rfl, rfl, rfl, fun _ => .inl rfl⟩

theorem promote_link? (here : k.stub x = some st) (next : st.next = some l)
    (owner : k.endpoint st.endpoint = some ep) {e : EndpointId} {ep' : Endpoint}
    (h : (k.promote x st l ep).endpoint e = some ep') (lane : Category) {l' : LinkId}
    (served : (k.promote x st l ep).link? (ep'.slots.get lane) = some l') :
    ∃ old, k.endpoint e = some old ∧ k.link? (old.slots.get lane) = some l' := by
  rcases promote_endpoint owner h with ⟨old, he, -, -, -, slots⟩
  refine ⟨old, he, ?_⟩
  rcases slots lane with same | ⟨-, before, after⟩
  · rw [same] at served
    cases slot : old.slots.get lane with
    | none => rw [slot] at served; exact served
    | some c =>
      cases c with
      | link l'' => rw [slot] at served; exact served
      | stub y =>
        rw [slot] at served
        simp only [link?, promote, Function.update_apply] at served ⊢
        split at served
        · cases served
        · exact served
  · rw [after] at served
    cases served
    simp [before, link?, here, next]

/-- Where a lane led, it leads after the switchover of a stub. -/
theorem promote_leads (hk : Charted plan k none) (here : k.stub x = some st)
    (owner : k.endpoint st.endpoint = some ep) (next : st.next = some l) {w : WorkerId}
    {wk : Worker} (hw : k.worker w = some wk) {entry : UInt64 × EndpointId}
    (known : entry ∈ wk.directory) {old : Endpoint} (he : k.endpoint entry.2 = some old)
    (hl : lane ∈ plan.lanes) {i : InterfaceId} (leads : k.Leads (old.slots.get lane) i) :
    ∃ ep', (k.promote x st l ep).endpoint entry.2 = some ep' ∧
      (k.promote x st l ep).Leads (ep'.slots.get lane) i := by
  rcases leads with ⟨joined, l', served, dest⟩
  by_cases mine : old.slots.get lane = some (.stub x)
  · -- the slot is that of the stub itself
    cases hk.lanes w wk hw entry known (by simp) old he lane hl with
    | direct unpaired free => exact absurd mine (free x)
    | waiting y st' l'' c f slot here' own next' course paired face settings =>
      cases mine.symm.trans slot
      cases here.symm.trans here'
      rcases own with ⟨hse, rfl⟩
      rw [← hse] at he ⊢
      cases owner.symm.trans he
      rw [mine] at served
      simp only [link?, here, Option.bind_some, next, Option.some.injEq] at served
      subst served
      refine ⟨promoteSlots ep x st.category l, by simp [promote], ?_⟩
      rw [promoteSlots_get, if_pos ⟨by simp [Plan.shares], mine⟩]
      exact ⟨rfl, l, rfl, dest⟩
    | promoted l'' b vk i j slot paired peer there dest linked =>
      cases mine.symm.trans slot
  · have slots : ∃ ep', (k.promote x st l ep).endpoint entry.2 = some ep' ∧
        ep'.slots.get lane = old.slots.get lane := by
      simp only [promote, Function.update_apply]
      split
      · rename_i same
        rw [same] at he
        cases owner.symm.trans he
        refine ⟨_, rfl, ?_⟩
        rw [promoteSlots_get, if_neg fun h => mine h.2]
      · exact ⟨old, he, rfl⟩
    rcases slots with ⟨ep', he', same⟩
    refine ⟨ep', he', ?_⟩
    rw [same]
    refine ⟨?_, l', ?_, dest⟩
    · cases slot : old.slots.get lane with
      | none => rw [slot] at joined; exact joined
      | some c =>
        cases c with
        | link l'' => rfl
        | stub y =>
          have other : y ≠ x := by
            rintro rfl
            exact mine slot
          rw [slot] at joined
          simpa [isJoined, promote, Function.update_apply, other] using joined
    · cases slot : old.slots.get lane with
      | none => rw [slot] at served; exact served
      | some c =>
        cases c with
        | link l'' => rw [slot] at served; exact served
        | stub y =>
          have other : y ≠ x := by
            rintro rfl
            exact mine slot
          rw [slot] at served
          simpa [link?, promote, Function.update_apply, other] using served

theorem promote_lasts (hk : Charted plan k none) (here : k.stub x = some st)
    (owner : k.endpoint st.endpoint = some ep) (next : st.next = some l) :
    Lasts k (k.promote x st l ep) where
  face _ _ h := h
  worker _ wk h := ⟨wk, h, rfl, rfl, rfl⟩
  linked b a lane linked := by
    rcases linked with ⟨vk, wk, e, old, i, hv, hw, hl, hp, hi, hd, he, leads⟩
    have planned : lane ∈ plan.lanes := by rwa [hk.plans b vk hv] at hl
    rcases promote_leads hk here owner next hv hd he planned leads with ⟨ep', he', leads'⟩
    exact ⟨vk, wk, e, ep', i, hv, hw, hl, hp, hi, hd, he', leads'⟩
  switched l' switched := by
    rcases switched with ⟨w, wk, e, old, lane, hw, hd, he, hl, paired, slot⟩
    have kept : ∃ ep', (k.promote x st l ep).endpoint e = some ep' ∧
        ep'.slots.get lane = some (.link l') := by
      simp only [promote, Function.update_apply]
      split
      · rename_i same
        rw [same] at he
        cases owner.symm.trans he
        refine ⟨_, rfl, ?_⟩
        rw [promoteSlots_get, if_neg fun h => by cases slot.symm.trans h.2]
        exact slot
      · exact ⟨old, he, slot⟩
    rcases kept with ⟨ep', he', slot'⟩
    exact ⟨w, wk, e, ep', lane, hw, hd, he', hl, paired, slot'⟩

/-- Switching a stub over that is connected and marked keeps what is known. -/
theorem Charted.promote (hk : Charted plan k none) (here : k.stub x = some st)
    (owner : k.endpoint st.endpoint = some ep) (next : st.next = some l)
    (joined : st.localConnected = true) (marked : st.remoteConnected = true) :
    Charted plan (k.promote x st l ep) none where
  toSite := hk.toSite.congr rfl rfl fun w wk hw => ⟨wk, hw, rfl, rfl, rfl⟩
  peers e ep' he := by
    rcases promote_endpoint owner he with ⟨old, he, -, hdest, hplan, -⟩
    rcases hk.peers e old he with ⟨same, b, vk, hb⟩
    exact ⟨hplan.trans same, b, vk, hb.1, hb.2.trans hdest.symm⟩
  known w wk hw entry hentry := by
    rcases hk.known w wk hw entry hentry with ⟨old, he, hworker, hdest⟩
    simp only [Layout.promote, Function.update_apply]
    split
    · rename_i same
      rw [same] at he
      cases owner.symm.trans he
      exact ⟨_, rfl, hworker, hdest⟩
    · exact ⟨old, he, hworker, hdest⟩
  listed e ep' lane c he slot := by
    rcases promote_endpoint owner he with ⟨old, ho, hworker, hdest, -, slots⟩
    have held : ∃ c, old.slots.get lane = some c := by
      rcases slots lane with same | ⟨-, before, -⟩
      · exact ⟨c, same ▸ slot⟩
      · exact ⟨_, before⟩
    rcases held with ⟨c', held⟩
    rw [hworker, hdest]
    exact hk.listed e old lane c' ho held
  lanes w wk hw entry hentry safe ep' he lane hl := by
    have lasts := promote_lasts hk here owner next
    rcases promote_endpoint owner he with ⟨old, he', hworker, hdest, hplan, slots⟩
    have before := hk.lanes w wk hw entry hentry safe old he' lane hl
    rcases slots lane with same | ⟨-, mine, after⟩
    · cases before with
      | direct unpaired free => exact .direct unpaired fun y => same ▸ free y
      | waiting y st' l' c f slot here' own next' course paired face settings =>
        by_cases other : y = x
        · -- then the slot would have been promoted
          exfalso
          subst other
          cases here.symm.trans here'
          rcases own with ⟨hse, hsc⟩
          have changed : ep' = promoteSlots ep y st.category l := by
            have := he
            simp only [Layout.promote, Function.update_apply, hse, if_true] at this
            exact (Option.some.inj this).symm
          rw [hse] at owner
          cases owner.symm.trans he'
          rw [changed, promoteSlots_get, if_pos ⟨by simp [Plan.shares, hsc], slot⟩, slot] at same
          cases same
        · refine .waiting y st' l' c f (same ▸ slot) ?_ own next' course paired face settings
          simp only [Layout.promote, Function.update_apply, if_neg other]
          exact here'
      | promoted l' b vk i j slot paired peer there dest linked =>
        exact .promoted l' b vk i j (same ▸ slot) paired (hdest ▸ peer) there dest
          (lasts.linked _ _ _ linked)
    · cases before with
      | direct unpaired free => exact absurd mine (free x)
      | waiting y st' l' c f slot here' own next' course paired face settings =>
        cases mine.symm.trans slot
        cases here.symm.trans here'
        rcases own with ⟨hse, rfl⟩
        rcases hk.known w wk hw entry hentry with ⟨ep'', he'', hworker'', -⟩
        rw [← hse] at he' he''
        cases owner.symm.trans he'
        cases owner.symm.trans he''
        rcases hk.connected x st ep l here owner next joined with ⟨-, -, b, vk, j, peer, hj, hd⟩
        rcases hk.marked x st ep l here owner next marked with ⟨b', vk', peer', linked⟩
        rcases hk.toSite.bears_unique peer peer' with ⟨rfl, rfl⟩
        have both := linked (by rw [hj]; rfl)
        rw [hworker''] at both
        exact .promoted l b vk _ j after paired (hdest ▸ peer) hj hd (lasts.linked _ _ _ both)
      | promoted l' b vk i j slot paired peer there dest linked => cases mine.symm.trans slot
  single e ep₁ lane₁ e' ep₂ lane₂ l' he he' hl hl' served served' := by
    rcases promote_link? here next owner he lane₁ served with ⟨old, ho, hs⟩
    rcases promote_link? here next owner he' lane₂ served' with ⟨old', ho', hs'⟩
    exact hk.single e old lane₁ e' old' lane₂ l' ho ho' hl hl' hs hs'
  connected y st' ep' l' hy he hn hj := by
    simp only [Layout.promote, Function.update_apply] at hy
    split at hy
    · cases hy
      cases hn
    · rename_i other
      rcases promote_endpoint owner he with ⟨old, he', -, hdest, hplan, slots⟩
      rcases hk.connected y st' old l' hy he' hn hj with ⟨hl, hs, b, vk, j, peer, hj', hd⟩
      refine ⟨hplan ▸ hl, ?_, b, vk, j, hdest ▸ peer, hj', hd⟩
      rcases slots st'.category with same | ⟨-, mine, -⟩
      · rw [same]
        exact hs
      · rw [hs] at mine
        cases mine
        exact absurd rfl other
  marked y st' ep' l' hy he hn hm := by
    simp only [Layout.promote, Function.update_apply] at hy
    split at hy
    · cases hy
      cases hn
    · rcases promote_endpoint owner he with ⟨old, he', hworker, hdest, -, -⟩
      have before := hk.marked y st' old l' hy he' hn hm
      rcases before.lasts (promote_lasts hk here owner next) hk.toSite with ⟨b, vk, peer, linked⟩
      exact ⟨b, vk, hdest ▸ peer, hworker ▸ linked⟩

end

/-! ## Opening an endpoint -/

section

variable {m : Layout} {w : WorkerId} {wk wk' : Worker} {e : EndpointId} {ep ep' : Endpoint}

/-- A lane is what it was as long as links and stubs are and its slot holds the same. -/
theorem Lane.carry (h : Lane k w wk e ep lane) (lasts : Lasts k m) (hk : Site plan k)
    (hw : k.worker w = some wk) (stub : m.stub = k.stub) (course : m.course = k.course)
    (same : wk'.plan = wk.plan) (resources : wk'.resources = wk.resources)
    (dest : ep'.dest = ep.dest) (slot : ep'.slots.get lane = ep.slots.get lane) :
    Lane m w wk' e ep' lane := by
  have pairing : m.pairing? wk' lane = k.pairing? wk lane := lasts.pairing? hk hw same resources lane
  cases h with
  | direct unpaired free => exact .direct (pairing.trans unpaired) fun x hx => free x (slot ▸ hx)
  | waiting x st l c f held here own next there paired face settings =>
    refine .waiting x st l c f (slot.trans held) ?_ own next ?_ (pairing.trans paired)
      (lasts.face _ f face) settings
    · rwa [stub]
    · rwa [course]
  | promoted l b vk i j held paired peer there leads linked =>
    rcases lasts.bears peer with ⟨vk', peer', hplan, hres⟩
    refine .promoted l b vk' i j (slot.trans held) (pairing.trans paired) (dest ▸ peer') ?_ ?_
      (lasts.linked _ _ _ linked)
    · rwa [lasts.pairing? hk peer.1 hplan hres]
    · unfold dest?
      rwa [course]

theorem Connected.carry {x : StubId} {st : Stub} {l : LinkId} (h : Connected k x st ep l)
    (lasts : Lasts k m) (hk : Site plan k) (course : m.course = k.course) :
    Connected m x st ep l := by
  rcases h with ⟨hl, hs, b, vk, j, hb, hj, hd⟩
  rcases lasts.bears hb with ⟨vk', hb', hplan, hres⟩
  refine ⟨hl, hs, b, vk', j, hb', ?_, ?_⟩
  · rwa [lasts.pairing? hk hb.1 hplan hres]
  · unfold dest?
    rwa [course]

end

/-- The layout in which an endpoint looks different. -/
def outfit (k : Layout) (e : EndpointId) (ep : Endpoint) : Layout :=
  { k with endpoint := Function.update k.endpoint e (some ep) }

/-- The layout in which a worker has one endpoint more. -/
def enroll (k : Layout) (w : WorkerId) (wk : Worker) (e : EndpointId) (ep : Endpoint) : Layout :=
  { k.outfit e ep with
    worker := Function.update k.worker w
      (some { wk with directory := wk.directory ++ [(ep.dest, e)] }) }

section

variable {w : WorkerId} {wk : Worker} {e : EndpointId} {ep : Endpoint}

theorem enroll_worker (hw : k.worker w = some wk) {v : WorkerId} {vk : Worker}
    (hv : (k.enroll w wk e ep).worker v = some vk) :
    ∃ old, k.worker v = some old ∧ vk.uuid = old.uuid ∧ vk.plan = old.plan ∧
      vk.resources = old.resources ∧ ∀ entry ∈ vk.directory,
        entry ∈ old.directory ∨ v = w ∧ entry = (ep.dest, e) := by
  simp only [enroll, Function.update_apply] at hv
  split at hv
  · rename_i same
    cases hv
    refine ⟨wk, same ▸ hw, rfl, rfl, rfl, fun entry h => ?_⟩
    rcases List.mem_append.1 h with h | h
    · exact .inl h
    · exact .inr ⟨same, List.mem_singleton.1 h⟩
  · exact ⟨vk, hv, rfl, rfl, rfl, fun entry h => .inl h⟩

theorem enroll_pairing? {v v' : Worker} (same : v'.plan = v.plan)
    (resources : v'.resources = v.resources) (lane : Category) :
    (k.enroll w wk e ep).pairing? v' lane = k.pairing? v lane :=
  pairing?_congr same resources fun _ _ => rfl

theorem enroll_lasts (hw : k.worker w = some wk) (fresh : k.endpoint e = none) :
    Lasts k (k.enroll w wk e ep) := by
  have grown (v : WorkerId) (vk : Worker) (hv : k.worker v = some vk) :
      ∃ vk', (k.enroll w wk e ep).worker v = some vk' ∧ vk'.uuid = vk.uuid ∧ vk'.plan = vk.plan ∧
        vk'.resources = vk.resources ∧ ∀ entry ∈ vk.directory, entry ∈ vk'.directory := by
    simp only [enroll, Function.update_apply]
    split
    · rename_i same
      rw [same] at hv
      cases hw.symm.trans hv
      exact ⟨_, rfl, rfl, rfl, rfl, fun entry h => List.mem_append_left _ h⟩
    · exact ⟨vk, hv, rfl, rfl, rfl, fun _ h => h⟩
  have kept {e' : EndpointId} {ep' : Endpoint} (he : k.endpoint e' = some ep') :
      (k.enroll w wk e ep).endpoint e' = some ep' := by
    have other : e' ≠ e := by
      rintro rfl
      rw [fresh] at he
      cases he
    simp only [enroll, outfit, Function.update_apply, if_neg other]
    exact he
  refine ⟨fun _ _ h => h, fun v vk hv => ?_, fun b a lane linked => ?_,
    fun l switched => ?_⟩
  · rcases grown v vk hv with ⟨vk', hv', huuid, hplan, hres, -⟩
    exact ⟨vk', hv', huuid, hplan, hres⟩
  · rcases linked with ⟨vk, uk, e', ep', i, hv, hu, hl, hp, hi, hd, he, leads⟩
    rcases grown b vk hv with ⟨vk', hv', -, hplan, hres, hd'⟩
    rcases grown a uk hu with ⟨uk', hu', huuid', hplan', hres', -⟩
    refine ⟨vk', uk', e', ep', i, hv', hu', hplan ▸ hl, ?_, ?_, ?_, kept he, leads⟩
    · rwa [enroll_pairing? hplan hres]
    · rwa [enroll_pairing? hplan' hres']
    · rw [huuid']
      exact hd' _ hd
  · rcases switched with ⟨v, vk, e', ep', lane, hv, ⟨dest, hd⟩, he, hl, paired, slot⟩
    rcases grown v vk hv with ⟨vk', hv', -, hplan, hres, hd'⟩
    refine ⟨v, vk', e', ep', lane, hv', ⟨dest, hd' _ hd⟩, kept he, hplan ▸ hl, ?_, slot⟩
    rwa [enroll_pairing? hplan hres]

/-- A new endpoint without lanes keeps what is known, as long as nothing is expected of it. -/
theorem Charted.enroll (hk : Charted plan k none) (hw : k.worker w = some wk)
    (fresh : k.endpoint e = none) (unknown : ∀ x st, k.stub x = some st → st.endpoint ≠ e)
    (own : ep.worker = w) (planned : ep.plan = plan) (empty : ep.slots = .const none)
    (peer : ∃ b vk, k.Bears b vk ep.dest) :
    Charted plan (k.enroll w wk e ep) (some e) ∧ Unused (k.enroll w wk e ep) e := by
  have lasts : Lasts k (k.enroll w wk e ep) := enroll_lasts hw fresh
  have endpoint {e' : EndpointId} {ep' : Endpoint}
      (he : (k.enroll w wk e ep).endpoint e' = some ep') :
      e' = e ∧ ep' = ep ∨ e' ≠ e ∧ k.endpoint e' = some ep' := by
    simp only [Layout.enroll, outfit, Function.update_apply] at he
    split at he
    · rename_i same
      exact .inl ⟨same, (Option.some.inj he).symm⟩
    · rename_i other
      exact .inr ⟨other, he⟩
  have bears {uuid : UInt64} (h : ∃ b vk, k.Bears b vk uuid) :
      ∃ b vk, (k.enroll w wk e ep).Bears b vk uuid := by
    rcases h with ⟨b, vk, hb⟩
    rcases lasts.bears hb with ⟨vk', hb', -⟩
    exact ⟨b, vk', hb'⟩
  refine ⟨⟨?_, ?_, ?_, ?_, ?_, ?_, ?_, ?_⟩, ?_, ?_⟩
  · refine hk.toSite.congr rfl rfl fun v vk hv => ?_
    rcases enroll_worker hw hv with ⟨old, ho, huuid, hplan, hres, -⟩
    exact ⟨old, ho, huuid, hplan, hres⟩
  · intro e' ep' he
    rcases endpoint he with ⟨-, rfl⟩ | ⟨-, he⟩
    · exact ⟨planned, bears peer⟩
    · exact ⟨(hk.peers e' ep' he).1, bears (hk.peers e' ep' he).2⟩
  · intro v vk hv entry hentry
    rcases enroll_worker hw hv with ⟨old, ho, -, -, -, entries⟩
    rcases entries entry hentry with hentry | ⟨rfl, rfl⟩
    · rcases hk.known v old ho entry hentry with ⟨ep', he, hworker, hdest⟩
      refine ⟨ep', ?_, hworker, hdest⟩
      have other : entry.2 ≠ e := by
        intro same
        rw [same, fresh] at he
        cases he
      simp only [Layout.enroll, outfit, Function.update_apply, if_neg other]
      exact he
    · exact ⟨ep, by simp [Layout.enroll, outfit], own, rfl⟩
  · intro e' ep' lane c he slot
    rcases endpoint he with ⟨-, rfl⟩ | ⟨-, he⟩
    · rw [empty, PerCategory.get_const] at slot
      cases slot
    · rcases hk.listed e' ep' lane c he slot with ⟨vk, hv, entry⟩
      simp only [Layout.enroll, Function.update_apply]
      split
      · rename_i same
        rw [same] at hv
        cases hw.symm.trans hv
        exact ⟨_, rfl, List.mem_append_left _ entry⟩
      · exact ⟨vk, hv, entry⟩
  · intro v vk hv entry hentry safe ep' he lane hl
    rcases enroll_worker hw hv with ⟨old, ho, -, hplan, hres, entries⟩
    rcases entries entry hentry with hentry | ⟨-, rfl⟩
    · rcases endpoint he with ⟨same, -⟩ | ⟨-, he⟩
      · exact absurd (congrArg some same) safe
      · exact (hk.lanes v old ho entry hentry (by simp) ep' he lane hl).carry lasts hk.toSite ho rfl
          rfl hplan hres rfl rfl
    · exact absurd rfl safe
  · intro e₁ ep₁ lane₁ e₂ ep₂ lane₂ l h₁ h₂ hl₁ hl₂ hs₁ hs₂
    rcases endpoint h₁ with ⟨-, rfl⟩ | ⟨-, h₁⟩
    · rw [empty, PerCategory.get_const] at hs₁
      cases hs₁
    · rcases endpoint h₂ with ⟨-, rfl⟩ | ⟨-, h₂⟩
      · rw [empty, PerCategory.get_const] at hs₂
        cases hs₂
      · exact hk.single e₁ ep₁ lane₁ e₂ ep₂ lane₂ l h₁ h₂ hl₁ hl₂ hs₁ hs₂
  · intro x st ep' l hx he hn joined
    rcases endpoint he with ⟨same, -⟩ | ⟨-, he⟩
    · exact absurd same (unknown x st hx)
    · exact (hk.connected x st ep' l hx he hn joined).carry lasts hk.toSite rfl
  · intro x st ep' l hx he hn marked
    rcases endpoint he with ⟨same, -⟩ | ⟨-, he⟩
    · exact absurd same (unknown x st hx)
    · exact (hk.marked x st ep' l hx he hn marked).lasts lasts hk.toSite
  · exact fun x st hx same => absurd same (unknown x st hx)
  · intro ep' he lane _
    rcases endpoint he with ⟨-, rfl⟩ | ⟨other, -⟩
    · rw [empty, PerCategory.get_const]
      exact ⟨fun x st h => (by cases h), fun l wk h => (by cases h)⟩
    · exact absurd rfl other

end

/-! ## Installing lanes -/

section

variable {w : WorkerId} {wk : Worker} {e : EndpointId} {ep : Endpoint} {todo : List Category}

/-- An endpoint whose lanes are being opened: those in `todo` are still missing. -/
structure Opening (plan : Plan) (k : Layout) (w : WorkerId) (wk : Worker) (e : EndpointId)
    (ep : Endpoint) (todo : List Category) : Prop where
  charted : Charted plan k (some e)
  unused : Unused k e
  worker : k.worker w = some wk
  entry : (ep.dest, e) ∈ wk.directory
  here : k.endpoint e = some ep
  done : ∀ lane ∈ plan.lanes, lane ∉ todo → Lane k w wk e ep lane
  free : ∀ lane ∈ todo, ep.slots.get lane = none

/-- What may be put into the slot of a lane: a fresh stub, if the lane's resource can pair links,
else a link. -/
inductive Fits (k : Layout) (wk : Worker) (e : EndpointId) (lane : Category) : Carrier → LinkId → Prop
  | link (l : LinkId) (unpaired : k.pairing? wk lane = none) : Fits k wk e lane (.link l) l
  | stub (x : StubId) (st : Stub) (l : LinkId) (c : Course) (f : Face) (here : k.stub x = some st)
      (own : st.endpoint = e ∧ st.category = lane) (next : st.next = some l)
      (course : k.course l = some c) (paired : k.pairing? wk lane = some c.owner)
      (face : k.face c.owner = some f) (settings : c.settings = f.settings) :
      Fits k wk e lane (.stub x) l

theorem Fits.link? {c : Carrier} {l : LinkId} (h : Fits k wk e lane c l) :
    k.link? (some c) = some l := by
  cases h with
  | link => rfl
  | stub x st l c f here own next => simp [Layout.link?, here, next]

theorem installLane_get {lane lane' : Category} (hl : lane' ∈ ep.plan.lanes) (c : Carrier) :
    (installLane ep lane c).get lane' = if lane' = lane then some c else ep.slots.get lane' := by
  simp only [installLane, PerCategory.get_mapWith, Plan.shares_lane hl]

/-- The layout in which a lane of an endpoint has a carrier. -/
def furnish (k : Layout) (e : EndpointId) (ep : Endpoint) (lane : Category) (c : Carrier) : Layout :=
  k.outfit e { ep with slots := installLane ep lane c }

theorem furnish_endpoint (here : k.endpoint e = some ep) {lane : Category} {c : Carrier}
    {e' : EndpointId} {ep' : Endpoint} (he : (k.furnish e ep lane c).endpoint e' = some ep') :
    ∃ old, k.endpoint e' = some old ∧ ep'.plan = old.plan ∧ ep'.worker = old.worker ∧
      ep'.dest = old.dest ∧ (e' = e ∧ old = ep ∧ ep'.slots = installLane ep lane c ∨
        e' ≠ e ∧ ep' = old) := by
  simp only [furnish, outfit, Function.update_apply] at he
  split at he
  · rename_i same
    cases he
    exact ⟨ep, same ▸ here, rfl, rfl, rfl, .inl ⟨same, rfl, rfl⟩⟩
  · rename_i other
    exact ⟨ep', he, rfl, rfl, rfl, .inr ⟨other, rfl⟩⟩

theorem Opening.slots (h : Opening plan k w wk e ep todo) {lane lane' : Category}
    (hl : lane' ∈ plan.lanes) (c : Carrier) :
    (installLane ep lane c).get lane' = if lane' = lane then some c else ep.slots.get lane' := by
  have planned : ep.plan = plan := (h.charted.peers e ep h.here).1
  exact installLane_get (by rwa [planned]) c

/-- The slot of a missing lane leads nowhere, so that nothing is lost. -/
theorem Opening.lasts (h : Opening plan k w wk e ep (lane :: todo)) (c : Carrier) :
    Lasts k (k.furnish e ep lane c) := by
  have kept {e' : EndpointId} {ep' : Endpoint} {lane' : Category} (he : k.endpoint e' = some ep')
      (hl : lane' ∈ plan.lanes) (some : ep'.slots.get lane' ≠ none) :
      ∃ ep'', (k.furnish e ep lane c).endpoint e' = .some ep'' ∧
        ep''.slots.get lane' = ep'.slots.get lane' := by
    simp only [furnish, outfit, Function.update_apply]
    split
    · rename_i same
      rw [same] at he
      cases h.here.symm.trans he
      refine ⟨_, rfl, ?_⟩
      change (installLane ep lane c).get lane' = _
      rw [h.slots hl, if_neg]
      rintro rfl
      exact some (h.free lane' List.mem_cons_self)
    · exact ⟨ep', he, rfl⟩
  refine ⟨fun _ _ h => h, fun v vk hv => ⟨vk, hv, rfl, rfl, rfl⟩,
    fun b a lane' linked => ?_, fun l switched => ?_⟩
  · rcases linked with ⟨vk, uk, e', ep', i, hv, hu, hl, hp, hi, hd, he, leads⟩
    have planned : lane' ∈ plan.lanes := by rwa [h.charted.plans b vk hv] at hl
    have served : ep'.slots.get lane' ≠ none := by
      intro none
      rw [none] at leads
      rcases leads with ⟨-, l', hs, -⟩
      cases hs
    rcases kept he planned served with ⟨ep'', he', same⟩
    exact ⟨vk, uk, e', ep'', i, hv, hu, hl, hp, hi, hd, he', same ▸ leads⟩
  · rcases switched with ⟨v, vk, e', ep', lane', hv, hd, he, hl, paired, slot⟩
    have planned : lane' ∈ plan.lanes := by rwa [h.charted.plans v vk hv] at hl
    rcases kept he planned (by simp [slot]) with ⟨ep'', he', same⟩
    exact ⟨v, vk, e', ep'', lane', hv, hd, he', hl, paired, same.trans slot⟩

/-- A lane of some endpoint that a link serves, after another lane got its carrier. -/
theorem Opening.served (h : Opening plan k w wk e ep (lane :: todo)) {c : Carrier} {l : LinkId}
    (fits : Fits k wk e lane c l) {e' : EndpointId} {ep' : Endpoint} {lane' : Category} {l' : LinkId}
    (he : (k.furnish e ep lane c).endpoint e' = some ep') (hl : lane' ∈ plan.lanes)
    (hs : k.link? (ep'.slots.get lane') = some l') :
    (∃ old, k.endpoint e' = some old ∧ k.link? (old.slots.get lane') = some l') ∨
      e' = e ∧ lane' = lane ∧ l' = l := by
  rcases furnish_endpoint h.here he with ⟨old, ho, -, -, -, ⟨rfl, rfl, same⟩ | ⟨-, rfl⟩⟩
  · rw [same, h.slots hl] at hs
    split at hs
    · rename_i hlane
      exact .inr ⟨rfl, hlane, Option.some.inj (hs.symm.trans fits.link?)⟩
    · exact .inl ⟨old, ho, hs⟩
  · exact .inl ⟨ep', ho, hs⟩

theorem Opening.furnished (h : Opening plan k w wk e ep (lane :: todo)) {c : Carrier} {l : LinkId}
    (fits : Fits k wk e lane c l)
    (fresh : ∀ e' ep' lane', k.endpoint e' = some ep' → k.link? (ep'.slots.get lane') ≠ some l) :
    Charted plan (k.furnish e ep lane c) (some e) where
  toSite := h.charted.toSite.congr rfl rfl fun v vk hv => ⟨vk, hv, rfl, rfl, rfl⟩
  peers e' ep' he := by
    rcases furnish_endpoint h.here he with ⟨old, ho, hplan, -, hdest, -⟩
    rw [hplan, hdest]
    exact h.charted.peers e' old ho
  known v vk hv entry hentry := by
    rcases h.charted.known v vk hv entry hentry with ⟨old, ho, hworker, hdest⟩
    simp only [furnish, outfit, Function.update_apply]
    split
    · rename_i same
      rw [same] at ho
      cases h.here.symm.trans ho
      exact ⟨_, rfl, hworker, hdest⟩
    · exact ⟨old, ho, hworker, hdest⟩
  listed e' ep' lane' c' he slot := by
    rcases furnish_endpoint h.here he with ⟨old, ho, -, hworker, hdest, ⟨rfl, rfl, -⟩ | ⟨-, rfl⟩⟩
    · rcases h.charted.known w wk h.worker _ h.entry with ⟨old', ho', owner, -⟩
      cases ho.symm.trans ho'
      rw [hworker, hdest, owner]
      exact ⟨wk, h.worker, h.entry⟩
    · exact h.charted.listed e' ep' lane' c' ho slot
  lanes v vk hv entry hentry safe ep' he lane' hl := by
    rcases furnish_endpoint h.here he with ⟨old, ho, -, -, -, ⟨same, -, -⟩ | ⟨-, rfl⟩⟩
    · exact absurd (congrArg some same) safe
    · exact (h.charted.lanes v vk hv entry hentry safe ep' ho lane' hl).carry (h.lasts c)
        h.charted.toSite hv rfl rfl rfl rfl rfl rfl
  single e₁ ep₁ lane₁ e₂ ep₂ lane₂ l' h₁ h₂ hl₁ hl₂ hs₁ hs₂ := by
    rcases h.served fits h₁ hl₁ hs₁ with ⟨old₁, ho₁, hs₁⟩ | ⟨rfl, rfl, rfl⟩
    · rcases h.served fits h₂ hl₂ hs₂ with ⟨old₂, ho₂, hs₂⟩ | ⟨-, -, rfl⟩
      · exact h.charted.single e₁ old₁ lane₁ e₂ old₂ lane₂ l' ho₁ ho₂ hl₁ hl₂ hs₁ hs₂
      · exact absurd hs₁ (fresh e₁ old₁ lane₁ ho₁)
    · rcases h.served fits h₂ hl₂ hs₂ with ⟨old₂, ho₂, hs₂⟩ | ⟨rfl, rfl, -⟩
      · exact absurd hs₂ (fresh e₂ old₂ lane₂ ho₂)
      · exact ⟨rfl, rfl⟩
  connected x st ep' l' hx he hn joined := by
    rcases furnish_endpoint h.here he with ⟨old, ho, -, -, -, ⟨same, -, -⟩ | ⟨-, rfl⟩⟩
    · rw [(h.unused.stubs x st hx same).1] at joined
      cases joined
    · exact h.charted.connected x st ep' l' hx ho hn joined
  marked x st ep' l' hx he hn marked := by
    rcases furnish_endpoint h.here he with ⟨old, ho, -, -, -, ⟨same, -, -⟩ | ⟨-, rfl⟩⟩
    · rw [(h.unused.stubs x st hx same).2] at marked
      cases marked
    · exact (h.charted.marked x st ep' l' hx ho hn marked).lasts (h.lasts c) h.charted.toSite

theorem Opening.stillUnused (h : Opening plan k w wk e ep (lane :: todo)) {c : Carrier} {l : LinkId}
    (fits : Fits k wk e lane c l) : Unused (k.furnish e ep lane c) e where
  stubs := h.unused.stubs
  slots ep' he lane' hl := by
    rcases furnish_endpoint h.here he with ⟨old, ho, hplan, hworker, -, ⟨-, rfl, same⟩ | ⟨other, -⟩⟩
    · have planned : lane' ∈ plan.lanes := by rwa [hplan, (h.charted.peers e old ho).1] at hl
      rw [same, h.slots planned, hworker]
      split
      · rename_i hlane
        subst hlane
        refine ⟨fun x st hx here => ?_, fun l' vk hx hv => ?_⟩
        · cases fits with
          | link => cases hx
          | stub y st' l' c' f here' own =>
            cases hx
            cases here'.symm.trans here
            exact own.1
        · cases fits with
          | link l'' unpaired =>
            rcases h.charted.known w wk h.worker _ h.entry with ⟨ep'', he'', howner, -⟩
            cases h.here.symm.trans he''
            rw [howner] at hv
            cases h.worker.symm.trans hv
            exact unpaired
          | stub => cases hx
      · exact h.unused.slots old ho lane' (hplan ▸ hl)
    · exact absurd rfl other

/-- Another lane is opened. -/
theorem Opening.install (h : Opening plan k w wk e ep (lane :: todo))
    (distinct : (lane :: todo).Nodup) (lanes : ∀ lane' ∈ lane :: todo, lane' ∈ plan.lanes)
    {c : Carrier} {l : LinkId} (fits : Fits k wk e lane c l)
    (fresh : ∀ e' ep' lane', k.endpoint e' = some ep' → k.link? (ep'.slots.get lane') ≠ some l) :
    Opening plan (k.furnish e ep lane c) w wk e { ep with slots := installLane ep lane c } todo where
  charted := h.furnished fits fresh
  unused := h.stillUnused fits
  worker := h.worker
  entry := h.entry
  here := by simp [furnish, outfit]
  done lane' hl hnot := by
    by_cases same : lane' = lane
    · subst same
      have slot : (installLane ep lane' c).get lane' = some c := by rw [h.slots hl, if_pos rfl]
      cases fits with
      | link l unpaired => exact .direct unpaired fun x hx => by cases slot.symm.trans hx
      | stub x st l c' f here own next course paired face settings =>
        exact .waiting x st l c' f slot here own next course paired face settings
    · have slot : (installLane ep lane c).get lane' = ep.slots.get lane' := by
        rw [h.slots hl, if_neg same]
      have before : lane' ∉ lane :: todo := by
        rw [List.mem_cons, not_or]
        exact ⟨same, hnot⟩
      exact (h.done lane' hl before).carry (h.lasts c) h.charted.toSite h.worker rfl rfl rfl rfl rfl slot
  free lane' hm := by
    have other : lane' ≠ lane := by
      rintro rfl
      exact (List.nodup_cons.1 distinct).1 hm
    change (installLane ep lane c).get lane' = none
    rw [h.slots (lanes lane' (List.mem_cons_of_mem _ hm)), if_neg other]
    exact h.free lane' (List.mem_cons_of_mem _ hm)

/-- Once no lane is missing, the endpoint is as good as any other. -/
theorem Opening.complete (h : Opening plan k w wk e ep []) : Charted plan k none where
  toSite := h.charted.toSite
  peers := h.charted.peers
  known := h.charted.known
  listed := h.charted.listed
  lanes v vk hv entry hentry _ ep' he lane hl := by
    by_cases same : entry.2 = e
    · rcases h.charted.known v vk hv entry hentry with ⟨old, ho, hv', -⟩
      rcases h.charted.known w wk h.worker _ h.entry with ⟨old', ho', hw', -⟩
      rw [same] at he ho ⊢
      cases h.here.symm.trans he
      cases h.here.symm.trans ho
      cases h.here.symm.trans ho'
      rw [← hv', hw'] at hv ⊢
      cases h.worker.symm.trans hv
      exact h.done lane hl List.not_mem_nil
    · exact h.charted.lanes v vk hv entry hentry (fun h => same (Option.some.inj h)) ep' he lane hl
  single := h.charted.single
  connected := h.charted.connected
  marked := h.charted.marked

end

/-! ## Taking an endpoint down -/

section

variable {w : WorkerId} {wk : Worker} {e : EndpointId} {ep : Endpoint}

theorem Charted.doom (hk : Charted plan k none) (e : EndpointId) : Charted plan k (some e) :=
  { hk with lanes := fun w wk hw entry hentry _ => hk.lanes w wk hw entry hentry (by simp) }

/-- The layout in which an endpoint has no carriers and is not in its worker's directory. -/
def strike (k : Layout) (w : WorkerId) (wk : Worker) (e : EndpointId) (ep : Endpoint) : Layout :=
  { k.outfit e { ep with slots := .const none } with
    worker := Function.update k.worker w
      (some { wk with directory := wk.directory.filter fun entry => entry.1 != ep.dest }) }

theorem strike_worker (hw : k.worker w = some wk) {v : WorkerId} {vk : Worker}
    (hv : (k.strike w wk e ep).worker v = some vk) :
    ∃ old, k.worker v = some old ∧ vk.uuid = old.uuid ∧ vk.plan = old.plan ∧
      vk.resources = old.resources ∧ ∀ entry ∈ vk.directory,
        entry ∈ old.directory ∧ (v = w → entry.1 ≠ ep.dest) := by
  simp only [strike, Function.update_apply] at hv
  split at hv
  · rename_i same
    cases hv
    refine ⟨wk, same ▸ hw, rfl, rfl, rfl, fun entry h => ?_⟩
    rw [List.mem_filter, bne_iff_ne] at h
    exact ⟨h.1, fun _ => h.2⟩
  · rename_i other
    exact ⟨vk, hv, rfl, rfl, rfl, fun entry h => ⟨h, fun same => absurd same other⟩⟩

/-- An endpoint that was not used leads nowhere. -/
theorem Unused.leads (unused : Unused k e) (here : k.endpoint e = some ep)
    (hw : k.worker ep.worker = some wk) (hl : lane ∈ ep.plan.lanes)
    (paired : (k.pairing? wk lane).isSome = true) (i : InterfaceId) :
    ¬ k.Leads (ep.slots.get lane) i := by
  rintro ⟨joined, l, served, -⟩
  have slots := unused.slots ep here lane hl
  cases slot : ep.slots.get lane with
  | none => rw [slot] at served; cases served
  | some c =>
    cases c with
    | link l' =>
      rw [slots.2 l' wk slot hw] at paired
      cases paired
    | stub x =>
      rw [slot] at joined
      simp only [isJoined, Option.any_eq_true] at joined
      rcases joined with ⟨st, hx, hj⟩
      rw [(unused.stubs x st hx (slots.1 x st slot hx)).1] at hj
      cases hj

/-- An endpoint belongs to the worker that has it, and follows the same plan. -/
theorem Charted.owner (hk : Charted plan k doomed) {v : WorkerId} {vk : Worker}
    (hv : k.worker v = some vk) {dest : UInt64} (hd : (dest, e) ∈ vk.directory)
    (here : k.endpoint e = some ep) : v = ep.worker ∧ vk.plan = ep.plan := by
  rcases hk.known v vk hv _ hd with ⟨ep', he, howner, -⟩
  cases here.symm.trans he
  exact ⟨howner.symm, (hk.plans v vk hv).trans (hk.peers e ep here).1.symm⟩

theorem strike_lasts (hk : Charted plan k (some e)) (unused : Unused k e)
    (hw : k.worker w = some wk) (here : k.endpoint e = some ep)
    (unique : ∀ entry ∈ wk.directory, entry.1 = ep.dest → entry.2 = e) :
    Lasts k (k.strike w wk e ep) := by
  have kept (v : WorkerId) (vk : Worker) (hv : k.worker v = some vk) :
      ∃ vk', (k.strike w wk e ep).worker v = some vk' ∧ vk'.uuid = vk.uuid ∧ vk'.plan = vk.plan ∧
        vk'.resources = vk.resources ∧ ∀ entry ∈ vk.directory, entry.2 ≠ e → entry ∈ vk'.directory := by
    simp only [strike, Function.update_apply]
    split
    · rename_i same
      rw [same] at hv
      cases hw.symm.trans hv
      refine ⟨_, rfl, rfl, rfl, rfl, fun entry h other => ?_⟩
      rw [List.mem_filter, bne_iff_ne]
      exact ⟨h, fun hdest => other (unique entry h hdest)⟩
    · exact ⟨vk, hv, rfl, rfl, rfl, fun _ h _ => h⟩
  have pairing {v v' : Worker} (same : v'.plan = v.plan) (resources : v'.resources = v.resources)
      (lane : Category) : (k.strike w wk e ep).pairing? v' lane = k.pairing? v lane :=
    pairing?_congr same resources fun _ _ => rfl
  refine ⟨fun _ _ h => h, fun v vk hv => ?_, fun b a lane linked => ?_,
    fun l switched => ?_⟩
  · rcases kept v vk hv with ⟨vk', hv', huuid, hplan, hres, -⟩
    exact ⟨vk', hv', huuid, hplan, hres⟩
  · rcases linked with ⟨vk, uk, e', ep', i, hv, hu, hl, hp, hi, hd, he, leads⟩
    have other : e' ≠ e := by
      rintro rfl
      cases here.symm.trans he
      rcases hk.owner hv hd here with ⟨rfl, planned⟩
      exact unused.leads here hv (planned ▸ hl) hp i leads
    rcases kept b vk hv with ⟨vk', hv', -, hplan, hres, hd'⟩
    rcases kept a uk hu with ⟨uk', hu', huuid', hplan', hres', -⟩
    refine ⟨vk', uk', e', ep', i, hv', hu', hplan ▸ hl, ?_, ?_, ?_, ?_, leads⟩
    · rwa [pairing hplan hres]
    · rwa [pairing hplan' hres']
    · rw [huuid']
      exact hd' _ hd other
    · simp only [strike, outfit, Function.update_apply, if_neg other]
      exact he
  · rcases switched with ⟨v, vk, e', ep', lane, hv, ⟨dest, hd⟩, he, hl, paired, slot⟩
    have other : e' ≠ e := by
      rintro rfl
      cases here.symm.trans he
      rcases hk.owner hv hd here with ⟨rfl, planned⟩
      rw [(unused.slots ep here lane (planned ▸ hl)).2 l vk slot hv] at paired
      cases paired
    rcases kept v vk hv with ⟨vk', hv', -, hplan, hres, hd'⟩
    refine ⟨v, vk', e', ep', lane, hv', ⟨dest, hd' _ hd other⟩, ?_, hplan ▸ hl, ?_, slot⟩
    · simp only [strike, outfit, Function.update_apply, if_neg other]
      exact he
    · rwa [pairing hplan hres]

/-- Taking down an endpoint that was not used keeps what is known. -/
theorem Charted.strike (hk : Charted plan k (some e)) (unused : Unused k e)
    (hw : k.worker w = some wk) (here : k.endpoint e = some ep) (own : ep.worker = w)
    (unique : ∀ entry ∈ wk.directory, entry.1 = ep.dest → entry.2 = e) :
    Charted plan (k.strike w wk e ep) none := by
  have lasts := strike_lasts hk unused hw here unique
  have endpoint {e' : EndpointId} {ep' : Endpoint}
      (he : (k.strike w wk e ep).endpoint e' = some ep') :
      e' = e ∧ ep' = { ep with slots := .const none } ∨ e' ≠ e ∧ k.endpoint e' = some ep' := by
    simp only [Layout.strike, outfit, Function.update_apply] at he
    split at he
    · rename_i same
      exact .inl ⟨same, (Option.some.inj he).symm⟩
    · rename_i other
      exact .inr ⟨other, he⟩
  have bears {uuid : UInt64} (h : ∃ b vk, k.Bears b vk uuid) :
      ∃ b vk, (k.strike w wk e ep).Bears b vk uuid := by
    rcases h with ⟨b, vk, hb⟩
    rcases lasts.bears hb with ⟨vk', hb', -⟩
    exact ⟨b, vk', hb'⟩
  -- the endpoint is in no directory any more
  have gone {v : WorkerId} {vk : Worker} (hv : (k.strike w wk e ep).worker v = some vk)
      {entry : UInt64 × EndpointId} (hentry : entry ∈ vk.directory) : entry.2 ≠ e := by
    intro same
    rcases strike_worker hw hv with ⟨old, ho, -, -, -, entries⟩
    rcases entries entry hentry with ⟨hentry, hdest⟩
    rcases hk.known v old ho entry hentry with ⟨ep', he, howner, hkey⟩
    rw [same] at he
    cases here.symm.trans he
    exact hdest (howner.symm.trans own) hkey.symm
  refine ⟨?_, ?_, ?_, ?_, ?_, ?_, ?_, ?_⟩
  · refine hk.toSite.congr rfl rfl fun v vk hv => ?_
    rcases strike_worker hw hv with ⟨old, ho, huuid, hplan, hres, -⟩
    exact ⟨old, ho, huuid, hplan, hres⟩
  · intro e' ep' he
    rcases endpoint he with ⟨-, rfl⟩ | ⟨-, he⟩
    · exact ⟨(hk.peers e ep here).1, bears (hk.peers e ep here).2⟩
    · exact ⟨(hk.peers e' ep' he).1, bears (hk.peers e' ep' he).2⟩
  · intro v vk hv entry hentry
    have other := gone hv hentry
    rcases strike_worker hw hv with ⟨old, ho, -, -, -, entries⟩
    rcases hk.known v old ho entry (entries entry hentry).1 with ⟨ep', he, howner, hkey⟩
    refine ⟨ep', ?_, howner, hkey⟩
    simp only [Layout.strike, outfit, Function.update_apply, if_neg other]
    exact he
  · intro e' ep' lane c he slot
    rcases endpoint he with ⟨-, rfl⟩ | ⟨other, he⟩
    · rw [PerCategory.get_const] at slot
      cases slot
    · rcases hk.listed e' ep' lane c he slot with ⟨vk, hv, entry⟩
      simp only [Layout.strike, Function.update_apply]
      split
      · rename_i same
        rw [same] at hv
        cases hw.symm.trans hv
        refine ⟨_, rfl, ?_⟩
        rw [List.mem_filter, bne_iff_ne]
        exact ⟨entry, fun hdest => other (unique _ entry hdest)⟩
      · exact ⟨vk, hv, entry⟩
  · intro v vk hv entry hentry _ ep' he lane hl
    have other := gone hv hentry
    rcases endpoint he with ⟨same, -⟩ | ⟨-, he⟩
    · exact absurd same other
    rcases strike_worker hw hv with ⟨old, ho, -, hplan, hres, entries⟩
    have safe : some entry.2 ≠ some e := fun h => other (Option.some.inj h)
    exact (hk.lanes v old ho entry (entries entry hentry).1 safe ep' he lane hl).carry lasts hk.toSite
      ho rfl rfl hplan hres rfl rfl
  · intro e₁ ep₁ lane₁ e₂ ep₂ lane₂ l h₁ h₂ hl₁ hl₂ hs₁ hs₂
    rcases endpoint h₁ with ⟨-, rfl⟩ | ⟨-, h₁⟩
    · rw [PerCategory.get_const] at hs₁
      cases hs₁
    · rcases endpoint h₂ with ⟨-, rfl⟩ | ⟨-, h₂⟩
      · rw [PerCategory.get_const] at hs₂
        cases hs₂
      · exact hk.single e₁ ep₁ lane₁ e₂ ep₂ lane₂ l h₁ h₂ hl₁ hl₂ hs₁ hs₂
  · intro x st ep' l hx he hn joined
    rcases endpoint he with ⟨same, -⟩ | ⟨-, he⟩
    · rw [(unused.stubs x st hx same).1] at joined
      cases joined
    · exact (hk.connected x st ep' l hx he hn joined).carry lasts hk.toSite rfl
  · intro x st ep' l hx he hn marked
    rcases endpoint he with ⟨same, -⟩ | ⟨-, he⟩
    · rw [(unused.stubs x st hx same).2] at marked
      cases marked
    · exact (hk.marked x st ep' l hx he hn marked).lasts lasts hk.toSite

end

end Layout

end Wiring
