import Mathlib
import Wiring.Proofs.Canonical
import Wiring.Proofs.Fixtures

/-!
# Connecting by address

A stub that waits connects to an interface by two addresses, byte strings that may come from
anywhere. They are accepted exactly if they name the fabric of the stub's link and an interface that
is open on it. Interfaces of one fabric have different numbers, so the link leads to the interface
that was meant; and if the addresses are refused nothing has changed.
-/
namespace Wiring

/-- A word is read exactly where its bytes stand in front. -/
theorem Bytes.word?_eq_some_iff {bs : Bytes} {w : UInt64} :
    bs.word? = some w ↔ 8 ≤ bs.length ∧ bs.take 8 = word w := by
  constructor
  · intro read
    unfold word? at read
    split at read
    · rename_i long
      have digits : (bs.take 8).length = 8 := by simp [long]
      have small := ofLittleEndian_lt (bs.take 8)
      rw [digits] at small
      have value : (UInt64.ofNat (ofLittleEndian (bs.take 8))).toNat = ofLittleEndian (bs.take 8) :=
        UInt64.toNat_ofNat_of_lt' small
      have written := littleEndian_ofLittleEndian (bs.take 8)
      rw [digits] at written
      exact ⟨long, by rw [← Option.some.inj read, word, value, written]⟩
    · cases read
  · rintro ⟨-, front⟩
    rw [← List.take_append_drop 8 bs, front]
    exact word?_append_word w _

/-! ## Links that can be paired -/

namespace Table

/-- Links are added and go; those that stay keep their settings. -/
structure Settles (t u : Table Link) : Prop where
  given : t.next ≤ u.next
  same : ∀ l lk', l < t.next → u.get? l = some lk' →
    ∃ lk, t.get? l = some lk ∧ lk'.settings = lk.settings

namespace Settles

variable {t u v : Table Link} {l : LinkId} {lk lk' : Link}

theorem refl (t : Table Link) : Settles t t := ⟨le_rfl, fun _ lk _ here => ⟨lk, here, rfl⟩⟩

theorem trans (h : Settles t u) (g : Settles u v) : Settles t v where
  given := h.given.trans g.given
  same l lk'' old there := by
    rcases g.same l lk'' (old.trans_le h.given) there with ⟨lk', mid, settings'⟩
    rcases h.same l lk' old mid with ⟨lk, here, settings⟩
    exact ⟨lk, here, settings'.trans settings⟩

theorem push (t : Table Link) (lk : Link) : Settles t (t.push lk) where
  given := (Table.next_push _ _).ge.trans' (Nat.le_succ _)
  same l lk' old there := by
    rcases Table.get?_of_push there with ⟨rfl, -⟩ | here
    · exact absurd old (lt_irrefl _)
    · exact ⟨lk', here, rfl⟩

theorem set (here : t.get? l = some lk) (settings : lk'.settings = lk.settings) :
    Settles t (t.set l lk') where
  given := (Table.next_set _ _ _).ge
  same k lk'' _ there := by
    rw [Table.get?_set_of here] at there
    split at there
    · rename_i same
      cases there
      exact ⟨lk, same ▸ here, settings⟩
    · exact ⟨lk'', there, rfl⟩

theorem modify (t : Table Link) (l : LinkId) {f : Link → Link}
    (settings : ∀ lk, (f lk).settings = lk.settings) : Settles t (t.modify l f) where
  given := (Table.next_modify _ _ _).ge
  same k lk' _ there := by
    rcases Table.get?_of_modify there with ⟨lk, here, rfl | rfl⟩
    · exact ⟨_, here, rfl⟩
    · exact ⟨lk, here, settings lk⟩

theorem erase (t : Table Link) (l : LinkId) : Settles t (t.erase l) where
  given := (Table.next_erase _ _).ge
  same _ lk' _ there := ⟨lk', Table.get?_of_erase there, rfl⟩

end Settles

end Table

namespace Traffic

variable {s t : Traffic} {l : LinkId}

/-- The links that stubs are wired up with can be paired. -/
structure Pairable (s : Traffic) : Prop where
  given : ∀ x st l, s.stubs.get? x = some st → st.next = some l → l < s.links.next
  able : ∀ x st l lk, s.stubs.get? x = some st → st.next = some l → s.links.get? l = some lk →
    lk.settings.capabilities.contains .connectToLink = true

namespace Pairable

theorem initial (process : UInt32) : Pairable (Network.traffic { process }) where
  given := by simp [Network.traffic]
  able := by simp [Network.traffic]

/-- No stub comes, and none gets another link to be wired up with. -/
theorem kept (hs : Pairable s) (links : s.links.Settles t.links)
    (stubs : ∀ x st', t.stubs.get? x = some st' → st'.next = none ∨
      ∃ st, s.stubs.get? x = some st ∧ st'.next = st.next) : Pairable t where
  given x st' l there next' := by
    rcases stubs x st' there with none | ⟨st, here, next⟩
    · cases next'.symm.trans none
    · exact (hs.given x st l here (next.symm.trans next')).trans_le links.given
  able x st' l lk' there next' target := by
    rcases stubs x st' there with none | ⟨st, here, next⟩
    · cases next'.symm.trans none
    · have waits := next.symm.trans next'
      rcases links.same l lk' (hs.given x st l here waits) target with ⟨lk, source, settings⟩
      rw [settings]
      exact hs.able x st l lk here waits source

theorem of_links (hs : Pairable s) (links : s.links.Settles t.links) (stubs : t.stubs = s.stubs) :
    Pairable t :=
  hs.kept links fun _ st here => .inr ⟨st, stubs ▸ here, rfl⟩

theorem of_eq (hs : Pairable s) (links : t.links = s.links) (stubs : t.stubs = s.stubs) :
    Pairable t :=
  hs.of_links (links ▸ .refl _) stubs

/-- A stub changes, but not in the link that it is wired up with. -/
theorem modifyStub (hs : Pairable s) {x : StubId} {f : Stub → Stub}
    (next : ∀ st, (f st).next = st.next) (links : s.links.Settles t.links)
    (stubs : t.stubs = s.stubs.modify x f) : Pairable t := by
  refine hs.kept links fun y st' there => ?_
  rw [stubs] at there
  rcases Table.get?_of_modify there with ⟨st, here, rfl | rfl⟩
  · exact .inr ⟨_, here, rfl⟩
  · exact .inr ⟨st, here, next st⟩

theorem rig (hs : Pairable s) (h : Rig s t) : Pairable t := by
  cases h with
  | note | number | openEndpoint | clear | closeInterface | closeEndpoint =>
    exact hs.of_eq rfl rfl
  | pair x st l dest here next =>
    exact hs.modifyStub (x := x) (f := fun st => { st with localConnected := true })
      (fun _ => rfl) (.modify _ _ fun _ => rfl) rfl
  | mark x =>
    exact hs.modifyStub (x := x) (f := fun st => { st with remoteConnected := true })
      (fun _ => rfl) (.refl _) rfl
  | openLink lk new => exact hs.of_links (.push _ _) rfl
  | linkLane id e lane lk here new => exact hs.of_links (.push _ _) rfl
  | stubLane id e lane st lk auxiliary here new new' next aside unmarked unparked unswitched
      able =>
    have links : s.links.Settles (auxiliary.toList.foldl Table.push (s.links.push lk)) := by
      cases auxiliary with
      | none => exact .push _ _
      | some lk' => exact (Table.Settles.push _ lk).trans (.push _ lk')
    have first : (auxiliary.toList.foldl Table.push (s.links.push lk)).get? s.links.next =
        some lk := by
      cases auxiliary <;> simp [Table.get?_push, Table.next_push]
    have room : s.links.next < (auxiliary.toList.foldl Table.push (s.links.push lk)).next :=
      Table.lt_next_of_get? first
    refine ⟨fun x st' l there next' => ?_, fun x st' l lk' there next' target => ?_⟩
    · rcases Table.get?_of_push there with ⟨-, rfl⟩ | here
      · cases next.symm.trans next'
        exact room
      · exact (hs.given x st' l here next').trans room
    · rcases Table.get?_of_push there with ⟨-, rfl⟩ | here
      · cases next.symm.trans next'
        cases first.symm.trans target
        exact able
      · rcases links.same l lk' (hs.given x st' l here next') target with ⟨lk'', source, settings⟩
        rw [settings]
        exact hs.able x st' l lk'' here next' source
  | cancelFront l lk r queue here front => exact hs.of_links (.set here rfl) rfl
  | closeLink l lk here empty => exact hs.of_links (.erase _ _) rfl
  | closeStub x =>
    exact hs.kept (.refl _) fun y st there => .inr ⟨st, Table.get?_of_erase there, rfl⟩

theorem rigs (hs : Pairable s) (h : Rigs s t) : Pairable t := by
  induction h with
  | refl => exact hs
  | tail _ g ih => exact ih.rig g

theorem transmits {messageId : UInt8} {payload : Bytes} {source : Option HandleId}
    (hs : Pairable s) (h : Transmits s l messageId payload source t) : Pairable t := by
  cases h with
  | intro lk credits dest f here => exact hs.of_links (.set here rfl) rfl

theorem offers {c : Carrier} {r : Request} {back : Option Request} (hs : Pairable s)
    (h : Offers s c r t back) : Pairable t := by
  cases h with
  | queue r l lk here => exact hs.of_links (.set here rfl) rfl
  | cover r x st l lk stub signal link here => exact hs.of_links (.set here rfl) rfl
  | promoted r x st l lk stub data switched link here => exact hs.of_links (.set here rfl) rfl
  | back => exact hs
  | park r x st here =>
    refine hs.kept (.refl _) fun y st' there => ?_
    rcases Table.get?_of_set there with ⟨rfl, rfl⟩ | there
    · exact .inr ⟨st, here, rfl⟩
    · exact .inr ⟨st', there, rfl⟩

theorem deed (hs : Pairable s) (h : Deed s t) : Pairable t := by
  have below {agenda : List Job} : Pairable { s with agenda } := hs.of_eq rfl rfl
  cases h with
  | work j rest jobs u top light free rigged bare =>
    exact (below.rigs rigged).of_eq rfl rfl
  | ask w message m rest jobs u top rigged bare signal handle =>
    exact (below.rigs rigged).of_eq rfl rfl
  | giveBack l rest top => exact hs.of_links (.modify _ _ fun _ => rfl) rfl
  | relay log c decode m l rest x t top carries sent still =>
    have seen : Pairable { s with
        trace := s.trace.push (.recorded log m.id (Network.content decode m.payload))
        agenda := rest } := hs.of_eq rfl rfl
    exact (seen.transmits sent).of_eq rfl rfl
  | accept r w rest c messageId payload source l t top sends carries sent =>
    exact below.transmits sent
  | requeue r l lk rest top here => exact hs.of_links (.set here rfl) rfl
  | add r c rest t top taken => exact below.offers taken
  | handBack r r' c rest t top back => exact (below.offers back).of_eq rfl rfl
  | dequeue r l lk queue rest top here front => exact hs.of_links (.set here rfl) rfl
  | switch x st next w rest u top rigged here unswitched connected =>
    refine (below.rigs rigged).kept (.refl _) fun y st' there => ?_
    rcases Table.get?_of_set there with ⟨rfl, rfl⟩ | there
    · exact .inl rfl
    · exact .inr ⟨st', there, rfl⟩
  | _ => exact hs.of_eq rfl rfl

theorem takes {μ : Means} {r : Request} (hs : Pairable s) (h : Takes μ s r t) : Pairable t := by
  cases h with
  | fresh => exact hs
  | held => exact hs.of_eq rfl rfl

theorem act {μ : Means} (hs : Pairable s) (h : Act μ s t) : Pairable t := by
  cases h with
  | rig t rigged => exact hs.rig rigged
  | lead l lk dest here => exact hs.of_links (.set here rfl) rfl
  | send c l messageId payload t name carries sent => exact hs.transmits sent
  | add c r u name taken => exact (hs.takes taken).of_eq rfl rfl
  | offer c r u t name taken offered => exact (hs.takes taken).offers offered
  | offerBack c r r' u t name taken offered =>
    exact ((hs.takes taken).offers offered).of_eq rfl rfl
  | offerDrop c r r' u t name taken offered =>
    exact ((hs.takes taken).offers offered).of_eq rfl rfl
  | purge l lk here => exact hs.of_links (.set here rfl) rfl
  | _ => exact hs.of_eq rfl rfl

end Pairable

end Traffic

/-- Wherever a run comes by, the links that stubs are wired up with can be paired. -/
theorem Visited.pairable {fits : Network → Call → Prop} {s : Network} (h : Visited fits s) :
    s.traffic.Pairable :=
  h.traffic_keeps .initial (fun _ _ _ hs _ act => hs.act act) (fun _ _ hs act => hs.act act)
    fun _ _ hs deed => hs.deed deed

/-! ## Numbers of interfaces -/

/-- Each open interface is on a fabric, which has given it a number of its own. -/
structure Fixtures.Numbered (f : Fixtures) : Prop where
  room : ∀ k fb, f.fabrics.get? k = some fb → fb.opened < UInt64.size
  given : ∀ i face, f.places i = some face →
    ∃ fb, f.fabrics.get? face.fabric = some fb ∧ face.number.toNat ≤ fb.opened
  apart : ∀ i j face face', f.places i = some face → f.places j = some face' →
    face'.fabric = face.fabric → face'.number = face.number → i = j

namespace Fixtures.Numbered

variable {f g : Fixtures}

theorem kept (h : f.Numbered) (fabrics : g.fabrics = f.fabrics)
    (places : ∀ i face, g.places i = some face → f.places i = some face) : g.Numbered where
  room k fb here := h.room k fb (fabrics ▸ here)
  given i face there := fabrics.symm ▸ h.given i face (places i face there)
  apart i j face face' hi hj :=
    h.apart i j face face' (places i face hi) (places j face' hj)

theorem stands (h : f.Numbered) (stands : f.Stands g) : g.Numbered :=
  h.kept stands.fabrics stands.places

/-- Registries and callbacks have no numbers. -/
theorem of_eq (h : f.Numbered) (registries : Table Registry) (callbacks : Table Callback)
    (labels : List (String × CallbackId)) (same : g = { f with registries, callbacks, labels }) :
    g.Numbered := by
  subst same
  exact h.kept rfl fun _ _ there => there

theorem openFabric (h : f.Numbered) (number : UInt64) :
    Numbered { f with fabrics := f.fabrics.push { number } } where
  room k fb here := by
    rcases Table.get?_of_push here with ⟨-, rfl⟩ | here
    · exact Nat.two_pow_pos 64
    · exact h.room k fb here
  given i face there := by
    rcases h.given i face there with ⟨fb, here, le⟩
    have old := Table.lt_next_of_get? here
    exact ⟨fb, by rw [Table.get?_push, if_neg old.ne, here], le⟩
  apart := h.apart

/-- The number of a new interface is greater than all that its fabric has given. -/
theorem openInterface (h : f.Numbered) {fabric : FabricId} {fb : Fabric} {settings : InterfaceSettings}
    (here : f.fabrics.get? fabric = some fb) (left : fb.opened + 1 < UInt64.size) (i : InterfaceId) :
    Numbered { f with
      fabrics := f.fabrics.modify fabric fun fb' => { fb' with opened := fb.opened + 1 }
      places := Function.update f.places i
        (some ⟨fabric, UInt64.ofNat (fb.opened + 1), settings⟩) } := by
  have value : (UInt64.ofNat (fb.opened + 1)).toNat = fb.opened + 1 :=
    UInt64.toNat_ofNat_of_lt' left
  have counted (k : FabricId) :
      (f.fabrics.modify fabric fun fb' => { fb' with opened := fb.opened + 1 }).get? k =
        if fabric = k then some { fb with opened := fb.opened + 1 } else f.fabrics.get? k := by
    rw [Table.get?_modify]
    split
    · rename_i same
      rw [← same, here, Option.map_some]
    · rfl
  have unused {j : InterfaceId} {face : Face} (there : f.places j = some face)
      (same : face.fabric = fabric) : face.number ≠ UInt64.ofNat (fb.opened + 1) := by
    intro equal
    rcases h.given j face there with ⟨fb', here', le⟩
    rw [same] at here'
    cases here.symm.trans here'
    rw [equal, value] at le
    exact absurd le (Nat.not_succ_le_self _)
  refine ⟨fun k fb' there => ?_, fun j face there => ?_, fun j k face face' hj hk fabric' number => ?_⟩
  · simp only [counted] at there
    split at there
    · cases there
      exact left
    · exact h.room k fb' there
  · simp only [Function.update_apply] at there
    split at there
    · cases there
      simp only [counted, if_true]
      exact ⟨_, rfl, value.le⟩
    · rcases h.given j face there with ⟨fb', here', le⟩
      simp only [counted]
      split
      · rename_i same
        rw [← same] at here'
        cases here.symm.trans here'
        exact ⟨_, rfl, le.trans (Nat.le_succ _)⟩
      · exact ⟨fb', here', le⟩
  · simp only [Function.update_apply] at hj hk
    split at hj <;> split at hk
    · rename_i new new'
      exact new.trans new'.symm
    · cases hj
      exact absurd number (unused hk fabric')
    · cases hk
      exact absurd number.symm (unused hj fabric'.symm)
    · exact h.apart j k face face' hj hk fabric' number

end Fixtures.Numbered

namespace Network

variable {s : Network} {lk : Link} {device address : Bytes} {dest : InterfaceId}

/-- What an operation opens at once is numbered like everything else. -/
theorem start_numbered (h : s.fixtures.Numbered) {c : Call} (named : c.Named s) :
    (c.start s).fixtures.Numbered := by
  cases fits : c.isFitting with
  | false => exact (start_fixtures s fits).symm ▸ h
  | true =>
    cases c with
    | openFabric => exact h.openFabric _
    | openInterface fabric settings =>
      rcases (Option.any_eq_true _ _).1 (named fabric rfl) with ⟨fb, here, left⟩
      have opened := openInterface_fixtures s fabric settings
      simp only [here, Option.map_some, Option.getD_some] at opened
      exact opened ▸ h.openInterface here (of_decide_eq_true left) s.interfaces.next
    | openWorker settings plan resources =>
      exact h.of_eq _ _ _ (openWorker_fixtures s settings plan resources)
    | openCallback label registry script =>
      exact h.of_eq _ _ _ (openCallback_fixtures s label registry script)
    | offerOnce c source kept => exact h.stands (offerOnce_stands s c source kept)
    | openRegistry => exact h.of_eq (s.registries.push []) s.callbacks s.labels rfl
    | register r c =>
      exact h.of_eq (s.register r (.callback c)).1.registries s.callbacks s.labels rfl
    | unregister r c =>
      exact h.of_eq (s.unregister r (.callback c)).1.registries s.callbacks s.labels rfl
    | _ => cases fits

/-! ## Connecting -/

/-- The addresses name the fabric of a link and an interface that is open on it. -/
def Addresses (s : Network) (lk : Link) (device address : Bytes) (dest : InterfaceId) : Prop :=
  ∃ i fb f, s.interfaces.get? lk.owner = some i ∧ s.fabrics.get? i.fabric = some fb ∧
    8 ≤ device.length ∧ device.take 8 = Bytes.word fb.number ∧
    s.interfaces.get? dest = some f ∧ f.fabric = i.fabric ∧
    address.length = 16 ∧ address.take 8 = Bytes.word f.number

/-- The network once a stub has paired its next link and is locally connected. -/
def pairedTo (s : Network) (x : StubId) (st : Stub) (next : LinkId) (lk : Link)
    (dest : InterfaceId) : Network :=
  { s with
    links := s.links.set next { lk with dest := some dest }
    stubs := s.stubs.set x { st with localConnected := true }
    trace := s.trace.push (.connected x) }

theorem places_of_get? {i : InterfaceId} {f : Interface} (here : s.interfaces.get? i = some f) :
    s.fixtures.places i = some f.face := congrArg (Option.map Interface.face) here

/-- Among the interfaces of a fabric, one is found by its number. -/
theorem findInterface?_eq_some (numbered : s.fixtures.Numbered) {fabric : FabricId}
    {number : UInt64} : s.findInterface? fabric number = some dest ↔
      ∃ f, s.interfaces.get? dest = some f ∧ f.fabric = fabric ∧ f.number = number := by
  have mem {k : InterfaceId} : k ∈ (s.interfaces.keysWhere fun i =>
      i.fabric == fabric && i.number == number) ↔
      ∃ f, s.interfaces.get? k = some f ∧ f.fabric = fabric ∧ f.number = number := by
    simp [Table.mem_keysWhere_iff]
  unfold findInterface?
  constructor
  · exact fun found => mem.1 (List.mem_of_mem_head? found)
  · intro there
    rcases found : (s.interfaces.keysWhere fun i =>
      i.fabric == fabric && i.number == number).head? with _ | first
    · rw [List.head?_eq_none_iff] at found
      have none := mem.2 there
      rw [found] at none
      cases none
    · rcases mem.1 (List.mem_of_mem_head? found) with ⟨f', here', fabric', number'⟩
      rcases there with ⟨f, here, rfl, rfl⟩
      exact congrArg some
        (numbered.apart _ _ _ _ (places_of_get? here') (places_of_get? here) fabric'.symm number'.symm)

/-- The checks that a link makes before it is paired, in their order. -/
theorem destination_eq_ok {l : LinkId} (here : s.links.get? l = some lk)
    (able : lk.settings.capabilities.contains .connectToLink = true) :
    s.destination l device address = .ok dest ↔ ∃ i, s.interfaces.get? lk.owner = some i ∧
      s.reaches i device = true ∧ address.length = 16 ∧
      ∃ number, address.word? = some number ∧ s.findInterface? i.fabric number = some dest := by
  unfold destination require
  simp only [here, able, if_true]
  cases open' : s.interfaces.get? lk.owner with
  | none => simp [bind, Except.bind]
  | some i =>
    by_cases near : s.reaches i device = true
    · by_cases wide : address.length = 16
      · cases word : address.word? with
        | none => simp [near, wide, bind, Except.bind]
        | some number =>
          cases found : s.findInterface? i.fabric number <;>
            simp [near, wide, found, bind, Except.bind, pure, Except.pure]
      · simp [near, wide, bind, Except.bind]
    · simp [near, bind, Except.bind]

/-- A link that can be paired is led to an interface exactly by addresses that name it. -/
theorem destination_eq_ok_iff_addresses (numbered : s.fixtures.Numbered) {l : LinkId}
    (here : s.links.get? l = some lk)
    (able : lk.settings.capabilities.contains .connectToLink = true) :
    s.destination l device address = .ok dest ↔ s.Addresses lk device address dest := by
  have fabric {k : InterfaceId} {f : Interface} (there : s.interfaces.get? k = some f) :
      ∃ fb, s.fabrics.get? f.fabric = some fb ∧ s.fabricNumber f = fb.number := by
    rcases numbered.given k f.face (places_of_get? there) with ⟨fb, found, -⟩
    have found : s.fabrics.get? f.fabric = some fb := found
    exact ⟨fb, found, by simp [fabricNumber, found]⟩
  simp only [destination_eq_ok here able, reaches, beq_iff_eq, Bytes.word?_eq_some_iff,
    findInterface?_eq_some numbered]
  constructor
  · rintro ⟨i, own, ⟨long, device'⟩, wide, number, ⟨-, address'⟩, f, there, same, rfl⟩
    rcases fabric own with ⟨fb, found, name⟩
    exact ⟨i, fb, f, own, found, long, name ▸ device', there, same, wide, address'⟩
  · rintro ⟨i, fb, f, own, found, long, device', there, same, wide, address'⟩
    rcases fabric own with ⟨fb', found', name⟩
    cases found.symm.trans found'
    exact ⟨i, own, ⟨long, name ▸ device'⟩, wide, f.number, ⟨by omega, address'⟩, f, there, same, rfl⟩

/-- A link is known by the number of its interface and its own. -/
theorem linkAddress_eq_ok {l : LinkId} {i : Interface} (here : s.links.get? l = some lk)
    (able : lk.settings.capabilities.contains .connectToLink = true)
    (own : s.interfaces.get? lk.owner = some i) :
    s.linkAddress l = .ok (Bytes.word i.number ++ Bytes.word lk.number) := by
  unfold linkAddress require
  simp [here, able, own, bind, Except.bind, pure, Except.pure]

/-- The addresses of a link on the same fabric name the interface that opened it. -/
theorem addresses_of_link (numbered : s.fixtures.Numbered) {other : Link} {i f : Interface}
    (own : s.interfaces.get? lk.owner = some i) (own' : s.interfaces.get? other.owner = some f)
    (same : f.fabric = i.fabric) : s.Addresses lk (s.deviceAddress f)
      (Bytes.word f.number ++ Bytes.word other.number) other.owner := by
  rcases numbered.given _ i.face (places_of_get? own) with ⟨fb, found, -⟩
  have found : s.fabrics.get? i.fabric = some fb := found
  have device : s.deviceAddress f = Bytes.word fb.number := by
    simp [deviceAddress, fabricNumber, same, found]
  have long := Bytes.word_length fb.number
  have front : (Bytes.word f.number ++ Bytes.word other.number).take 8 = Bytes.word f.number := by
    rw [← Bytes.word_length f.number, List.take_left]
  refine ⟨i, fb, f, own, found, ?_, ?_, own', same, ?_, front⟩
  · rw [device, long]
  · rw [device, List.take_of_length_le long.le]
  · rw [List.length_append, Bytes.word_length, Bytes.word_length]

end Network

/-- Wherever a run comes by, the interfaces are numbered. -/
theorem Visited.numbered {s : Network} (h : Visited (fun s c => c.Named s) s) :
    s.fixtures.Numbered :=
  h.fixtures_keeps (fun process => ⟨by simp [Network.fixtures], by simp [Network.fixtures],
      by simp [Network.fixtures]⟩)
    (fun _ _ hs named => Network.start_numbered hs named) fun _ _ hf stands => hf.stands stands

namespace Network

/-- A stub that waits is paired exactly by addresses that name the fabric of its next link and an
interface that is open there; then its link leads to that interface and the stub is locally
connected. All other addresses are refused, and nothing changes. Among those that are accepted are
the addresses of every link of the fabric that can be paired; they lead to its own interface. -/
theorem connect_stub_exact {s : Network} {x : StubId} {st : Stub} {next : LinkId}
    (visited : Visited (fun s c => c.Named s) s) (here : s.stubs.get? x = some st)
    (waits : st.next = some next) : ∃ lk, s.links.get? next = some lk ∧
      (∀ device address dest, s.Addresses lk device address dest →
        s.connect (.stub x) device address = (s.pairedTo x st next lk dest, .ok ())) ∧
      (∀ device address, (∀ dest, ¬s.Addresses lk device address dest) →
        ∃ why, s.connect (.stub x) device address = (s, .error why)) ∧
      ∀ l other i f, s.links.get? l = some other →
        other.settings.capabilities.contains .connectToLink = true →
        s.interfaces.get? lk.owner = some i → s.interfaces.get? other.owner = some f →
        f.fabric = i.fabric → ∃ address, s.linkAddress l = .ok address ∧
          s.Addresses lk (s.deviceAddress f) address other.owner := by
  have numbered := visited.numbered
  rcases visited.moves with ⟨_, -, fit⟩
  have owned : s.isOwned (.link next) = true :=
    isOwned_iff.2 (.inr (.inr ⟨x, st, next, here, .inl waits, rfl⟩))
  rcases Table.contains_iff.1 (fit.sound.live _ (isHeld_of_owned owned)) with ⟨lk, link⟩
  have able := visited.pairable.able x st next lk here waits link
  refine ⟨lk, link, fun device address dest named => ?_, fun device address nameless => ?_,
    fun l other i f there able' own own' same => ?_⟩
  · have ok := (destination_eq_ok_iff_addresses numbered link able).2 named
    simp only [connect, here, Option.bind_some, waits, connectLink, ok, Table.modify_eq_set link,
      Table.modify_eq_set here, note, pairedTo]
  · cases ends : s.destination next device address with
    | ok dest =>
      exact absurd ((destination_eq_ok_iff_addresses numbered link able).1 ends) (nameless dest)
    | error why =>
      exact ⟨why, by simp only [connect, here, Option.bind_some, waits, connectLink, ends]⟩
  · exact ⟨_, linkAddress_eq_ok there able' own', addresses_of_link numbered own own' same⟩

/-- The pair with one more link of the second worker, number 2, to which the stub of the first could
be connected. -/
def pairWithLink : Option Network :=
  Call.runFitting (fun s c => c.Named s) { process := 1 } (Call.pair 4 ++ [.createLink 3])

theorem connect_stub_exact_pair : ∃ s st lk, pairWithLink = some s ∧ s.stubs.get? 0 = some st ∧
    s.links.get? 1 = some lk ∧
    s.connect (.stub 0) (Bytes.word 1) (Bytes.word 4 ++ Bytes.word 1) =
      (s.pairedTo 0 st 1 lk 3, .ok ()) ∧
    ∃ why, s.connect (.stub 0) (Bytes.word 1) (Bytes.word 4) = (s, .error why) := by
  have known : (pairWithLink.bind fun s => do
      let st ← s.stubs.get? 0
      let lk ← s.links.get? 1
      let other ← s.links.get? 2
      let i ← s.interfaces.get? lk.owner
      let f ← s.interfaces.get? other.owner
      some (decide (st.next = some 1 ∧ other.owner = 3 ∧ f.fabric = i.fabric ∧
        other.settings.capabilities.contains .connectToLink = true ∧ f.number = 4 ∧
        other.number = 1 ∧ s.deviceAddress f = Bytes.word 1))) = some true := by decide +kernel
  simp only [bind, Option.bind_eq_some_iff, Option.some.injEq, decide_eq_true_eq] at known
  rcases known with ⟨s, ran, st, here, lk, link, other, there, i, own, f, own', next, owner, same,
    able, number, number', device⟩
  have journey : Journey (fun s c => decide (c.Named s) = true) s :=
    Journey.of_runFitting (.start 1) ran
  have visited : Visited (fun s c => c.Named s) s :=
    .between (journey.mono fun _ _ named => of_decide_eq_true named)
  rcases connect_stub_exact visited here next with ⟨lk', link', accepted, refused, meet⟩
  cases link.symm.trans link'
  rcases meet 2 other i f there able own own' same with ⟨address, known, named⟩
  cases (linkAddress_eq_ok there able own').symm.trans known
  rw [number, number', device, owner] at named
  refine ⟨s, st, lk, ran, here, link, accepted _ _ _ named, refused _ _ fun dest named => ?_⟩
  rcases named with ⟨-, -, -, -, -, -, -, -, -, wide, -⟩
  rw [Bytes.word_length] at wide
  cases wide

end Network

end Wiring
