import Mathlib
import Wiring.Proofs.Deeds
import Wiring.Proofs.Visits

/-!
# What an operation does at once

Before any work is done, an operation does at most one thing with the carriers that it names. All
else that it does at once names none.
-/
namespace Wiring

namespace Network.Source

/-- The carriers that the script of a request names. -/
def carriers : Source → List Carrier
  | .fresh c => (c.sending.map ScriptedSend.carrier).toList
  | .held _ => []

def scripts : Source → List Script
  | .fresh c => [c]
  | .held _ => []

def requests : Source → List HeldId
  | .fresh _ => []
  | .held h => [h]

end Network.Source

namespace Call

/-- The carriers that an operation names. -/
def carriers : Call → List Carrier
  | .keep (.link l) => [.link l]
  | .record _ _ _ forward _ => forward.toList
  | .connect c _ _ | .operate c _ | .purgeQueue c _ => [c]
  | .offerOnce c source _ | .addPending c source => c :: source.carriers
  | .hold source => source.carriers
  | _ => []

/-- The scripts that an operation brings. -/
def scripts : Call → List Script
  | .offerOnce _ source _ | .addPending _ source | .hold source => source.scripts
  | _ => []

/-- The kept requests that an operation takes up: it attempts them, gives them up or puts them into
the hands of others. -/
def requests : Call → List HeldId
  | .offerOnce _ source _ | .addPending _ source => source.requests
  | .attemptHeld h | .cancelHeld h => [h]
  | _ => []

end Call

/-- What the application names, brings and takes up. -/
structure Traffic.Means where
  carriers : List Carrier := []
  scripts : List Script := []
  requests : List HeldId := []

/-- What an operation names, brings and takes up. -/
def Call.means (c : Call) : Traffic.Means := ⟨c.carriers, c.scripts, c.requests⟩

namespace Traffic

/-- A request is made from a script, or is one that the application has kept. -/
inductive Takes (μ : Means) (s : Traffic) (r : Request) : Traffic → Prop
  | fresh (c : Script) (script : r = .scripted c) (brought : c ∈ μ.scripts)
      (names : ∀ send, c.sending = some send → send.carrier ∈ μ.carriers) : Takes μ s r s
  | held (h : HeldId) (here : s.held.get? h = some r) (used : h ∈ μ.requests) :
      Takes μ s r { s with held := s.held.erase h }

/-- One thing that an operation does at once. -/
inductive Act (μ : Means) (s : Traffic) : Traffic → Prop
  | rig (t : Traffic) (rigged : Rig s t) : Act μ s t
  | work (jobs : List Job) (bare : ∀ k ∈ jobs, k.isBare = true) :
      Act μ s { s with agenda := jobs ++ s.agenda }
  | ask (m : Send) (handle : m.handle = s.handles.next) :
      Act μ s { s with
        handles := s.handles.push none
        agenda := .attempt (.send m) (.endpoint m.endpoint) :: s.agenda }
  | openInterface (f : Interface) (empty : f.inbox = []) (deaf : f.handlers = []) :
      Act μ s { s with interfaces := s.interfaces.push f }
  | install (i : InterfaceId) (messageId : UInt8) (h : Handler)
      (names : ∀ log c decode, h = .record log (some c) decode → c ∈ μ.carriers) :
      Act μ s { s with interfaces := s.interfaces.modify i fun f =>
        { f with handlers :=
            (messageId, h) :: f.handlers.filter fun entry => entry.1 != messageId } }
  | lead (l : LinkId) (lk : Link) (dest : InterfaceId) (here : s.links.get? l = some lk) :
      Act μ s { s with links := s.links.set l { lk with dest := some dest } }
  | send (c : Carrier) (l : LinkId) (messageId : UInt8) (payload : Bytes) (t : Traffic)
      (name : c ∈ μ.carriers) (carries : Carries s l messageId c)
      (sent : Transmits s l messageId payload none t) : Act μ s t
  /-- A new request is kept. -/
  | bring (c : Script) (brought : c ∈ μ.scripts)
      (names : ∀ send, c.sending = some send → send.carrier ∈ μ.carriers) :
      Act μ s { s with held := s.held.push (.scripted c) }
  /-- A request that is kept gets another place. -/
  | rehold (h : HeldId) (r : Request) (here : s.held.get? h = some r) :
      Act μ s { s with held := (s.held.erase h).push r }
  | cancelHeld (h : HeldId) (r : Request) (here : s.held.get? h = some r)
      (used : h ∈ μ.requests) : Act μ s (cancel { s with held := s.held.erase h } r)
  | discardHeld (h : HeldId) (r : Request) (here : s.held.get? h = some r) :
      Act μ s { s with held := s.held.erase h, trace := s.trace ++ r.dropNotes.toArray }
  | attempt (h : HeldId) (r : Request) (here : s.held.get? h = some r) (used : h ∈ μ.requests) :
      Act μ s { s with
        held := s.held.erase h, agenda := .attempt r (.application h) :: s.agenda }
  | add (c : Carrier) (r : Request) (u : Traffic) (name : c ∈ μ.carriers) (taken : Takes μ s r u) :
      Act μ s { u with agenda := .add c r :: u.agenda }
  | offer (c : Carrier) (r : Request) (u t : Traffic) (name : c ∈ μ.carriers)
      (taken : Takes μ s r u) (offered : Offers u c r t none) : Act μ s t
  /-- What a carrier hands back is kept. -/
  | offerBack (c : Carrier) (r r' : Request) (u t : Traffic) (name : c ∈ μ.carriers)
      (taken : Takes μ s r u) (offered : Offers u c r t (some r')) :
      Act μ s { t with held := t.held.push r' }
  /-- What a carrier hands back is let go. -/
  | offerDrop (c : Carrier) (r r' : Request) (u t : Traffic) (name : c ∈ μ.carriers)
      (taken : Takes μ s r u) (offered : Offers u c r t (some r')) :
      Act μ s { t with trace := t.trace ++ r'.dropNotes.toArray }
  /-- What waits in a queue is kept. -/
  | purge (l : LinkId) (lk : Link) (here : s.links.get? l = some lk) :
      Act μ s { s with
        links := s.links.set l { lk with queue := [] }
        held := lk.queue.foldl Table.push s.held }

/-- What is done without naming, bringing or taking up anything. -/
abbrev Acts : Traffic → Traffic → Prop := Relation.ReflTransGen (Act {})

/-- At most one thing is done with what the application names, brings and takes up, and others
without. -/
inductive Starts (μ : Means) (s : Traffic) : Traffic → Prop
  | plain {t : Traffic} (acts : Acts s t) : Starts μ s t
  | apt {t u : Traffic} (act : Act μ s t) (acts : Acts t u) : Starts μ s u

variable {s t u : Traffic} {μ : Means}

theorem Rigs.acts (h : Rigs s t) : Acts s t := by
  induction h with
  | refl => exact .refl
  | tail _ g ih => exact ih.tail (.rig _ g)

theorem Starts.act (h : Act μ s t) : Starts μ s t := .apt h .refl

theorem Starts.refl (s : Traffic) : Starts μ s s := .plain .refl

theorem Starts.trans (h : Starts μ s t) (g : Acts t u) : Starts μ s u := by
  cases h with
  | plain acts => exact .plain (Relation.ReflTransGen.trans acts g)
  | apt act acts => exact .apt act (Relation.ReflTransGen.trans acts g)

/-- What the apt act keeps, and every act that takes no more, the start keeps. -/
theorem Starts.keeps {I : Traffic → Prop} (h : Starts μ s t) (hs : I s)
    (act : ∀ t, Act μ s t → I t) (acts : ∀ t u, I t → Act {} t u → I u) : I t := by
  have later {t u : Traffic} (h : Acts t u) (ht : I t) : I u := by
    induction h with
    | refl => exact ht
    | tail _ g ih => exact acts _ _ ih g
  cases h with
  | plain h => exact later h hs
  | apt first h => exact later h (act _ first)

end Traffic

namespace Network

open Traffic

variable {s t u : Network} {μ : Means}

theorem Tends.acts (h : Tends s t) : Acts s.traffic t.traffic := by
  rcases h with ⟨jobs, v, rigged, bare, ht⟩
  rw [ht]
  exact rigged.acts.tail (.work jobs bare)

theorem Tends.starts (h : Tends s t) : Starts μ s.traffic t.traffic := .plain h.acts

theorem begin_acts {jobs : List Job} (bare : ∀ j ∈ jobs, j.isBare = true) :
    Acts s.traffic (s.begin jobs).traffic := .single (.work jobs bare)

theorem begin_starts {jobs : List Job} (bare : ∀ j ∈ jobs, j.isBare = true) :
    Starts μ s.traffic (s.begin jobs).traffic := .plain (begin_acts bare)

theorem begin_one {j : Job} (bare : j.isBare = true) :
    Starts μ s.traffic (s.begin [j]).traffic :=
  begin_starts fun _ hk => List.mem_singleton.1 hk ▸ bare

theorem keep_traffic (s : Network) (ref : Ref) : (s.keep ref).traffic = s.traffic := by
  unfold keep
  split <;> rfl

/-! ## Interfaces and links -/

theorem setHandler_act (s : Network) (i : InterfaceId) (messageId : UInt8) {h : Handler}
    (names : ∀ log c decode, h = .record log (some c) decode → c ∈ μ.carriers) :
    Act μ s.traffic (s.setHandler i messageId h).traffic := .install i messageId h names

theorem setWorkerHandler_acts (same : t.traffic = s.traffic) (w : WorkerId) (messageId : UInt8)
    (v : WorkerId) : Acts s.traffic (t.setWorkerHandler w messageId (.signals v)).traffic := by
  have folded (rs : List Resource) (u : Network) : Acts u.traffic (traffic
      (rs.foldl (fun s r => s.setHandler r.interface messageId (.signals v)) u)) := by
    induction rs generalizing u with
    | nil => exact .refl
    | cons r rs ih =>
      exact .head (setHandler_act u r.interface messageId (h := .signals v) (by simp)) (ih _)
  unfold setWorkerHandler
  split
  · rw [same]
  · exact same ▸ folded _ t

theorem createLink_starts (s : Network) (i : InterfaceId) :
    Starts μ s.traffic (s.createLink i).1.traffic := by
  unfold createLink keepLink
  rcases openLink_new s i with ⟨why, h⟩ | ⟨f, here, h⟩
  · simp only [h]
    exact .refl _
  · simp only [h, keep_traffic]
    exact (newLink_tends here none).starts

theorem createConnectedLink_starts (s : Network) (i : InterfaceId) (device address : Bytes) :
    Starts μ s.traffic (s.createConnectedLink i device address).1.traffic := by
  unfold createConnectedLink keepLink
  rcases openConnectedLink_new s i device address with ⟨why, h⟩ | ⟨f, dest, here, h⟩
  · simp only [h]
    exact .refl _
  · simp only [h, keep_traffic]
    exact (newLink_tends here (some dest)).starts

theorem createAuxiliary_starts (s : Network) (w : WorkerId) (peer : String)
    (entries : List AddressEntry) (scorer : Scorer) :
    Starts μ s.traffic (s.createAuxiliary w peer entries scorer).1.traffic := by
  unfold createAuxiliary
  split
  · exact .refl _
  · rename_i wk _
    rcases openAuxiliary_new s wk peer entries scorer with
      ⟨why, h⟩ | ⟨owner, f, dest, index, here, h⟩
    · simp only [h]
      exact .refl _
    · simp only [h, keep_traffic]
      exact (newLink_tends here (some dest)).starts

theorem connect_starts (s : Network) (c : Carrier) (device address : Bytes) :
    Starts μ s.traffic (s.connect c device address).1.traffic := by
  cases c with
  | stub x => exact (connect_tends s x device address).starts
  | link l =>
    unfold connect connectLink
    simp only
    split
    · exact .refl _
    · cases here : s.links.get? l with
      | none =>
        rw [Table.modify_of_none here]
        exact .refl _
      | some lk =>
        rw [Table.modify_eq_set here]
        exact .act (.lead l lk _ here)

/-! ## Sends -/

theorem sendShort_starts (s : Network) {l : LinkId} (name : .link l ∈ μ.carriers) (messageId : UInt8)
    (header : UInt64) (payload : Bytes) :
    Starts μ s.traffic (s.sendShort l messageId header payload).1.traffic := by
  rcases s.sendShort_transmitted l messageId header payload with ⟨why, h⟩ | ⟨u, sent, h⟩
  · rw [h]
    exact .refl _
  · rw [h]
    exact .act (.send _ l messageId _ _ name .link sent.traffic)

theorem sendOver_starts (s : Network) {c : Carrier} (name : c ∈ μ.carriers) (messageId : UInt8)
    (payload : Bytes) : Starts μ s.traffic (s.sendOver c messageId payload none).1.traffic := by
  rcases sendOver_transmits s c messageId payload none with
    ⟨-, -, h⟩ | ⟨why, h⟩ | ⟨l, u, carries, sent, h⟩
  · rw [h]
    exact .refl _
  · rw [h]
    exact .refl _
  · rw [h]
    exact .act (.send c l messageId payload _ name carries sent)

/-- A stub that is given a signal sends it, and sets nothing off. -/
theorem operate_signal (s : Network) (x : StubId) {messageId : UInt8}
    (signal : messageId = Signal.messageId) (payload : Bytes) :
    (s.operate (.stub x) (.bulk messageId payload)).1 =
      (s.sendOver (.stub x) messageId payload none).1 := by
  have ends : ∃ o, (s.sendOver (.stub x) messageId payload none).2 = some o := by
    simp only [sendOver, if_neg (not_not.2 signal)]
    split <;> exact ⟨_, rfl⟩
  rcases ends with ⟨o, ends⟩
  simp only [operate]
  generalize s.sendOver (.stub x) messageId payload none = sent at ends
  rcases sent with ⟨v, o'⟩
  cases ends
  rfl

theorem operate_starts (s : Network) {c : Carrier} (name : c ∈ μ.carriers) (op : Operation) :
    Starts μ s.traffic (Call.start s (.operate c op)).traffic := by
  have sent (messageId : UInt8) (payload : Bytes) := sendOver_starts s name messageId payload
  cases c with
  | link l =>
    cases op with
    | short messageId header payload => exact sendShort_starts s name messageId header payload
    | bulk messageId payload => exact sent messageId payload
    | other name => exact .refl _
  | stub x =>
    cases op with
    | short messageId header payload => exact begin_one rfl
    | other name => exact begin_one rfl
    | bulk messageId payload =>
      simp only [Call.start]
      split
      · exact begin_one rfl
      · rename_i signal
        rw [operate_signal s x (not_not.1 signal) payload]
        exact sent messageId payload

/-! ## Requests -/

theorem takeRequest_takes (s : Network) (source : Source) (scripts : source.scripts ⊆ μ.scripts)
    (requests : source.requests ⊆ μ.requests) (carriers : source.carriers ⊆ μ.carriers) :
    ((s.takeRequest source).2 = none ∧ (s.takeRequest source).1.traffic = s.traffic) ∨
    ∃ r, (s.takeRequest source).2 = some r ∧
      Takes μ s.traffic r (s.takeRequest source).1.traffic := by
  cases source with
  | fresh c =>
    refine .inr ⟨.scripted c, rfl, .fresh c rfl (scripts List.mem_cons_self) fun send sending => ?_⟩
    exact carriers (by simp [Source.carriers, sending])
  | held h =>
    cases here : s.held.get? h with
    | none =>
      refine .inl ⟨here, ?_⟩
      simp only [takeRequest, Table.erase_of_none here]
    | some r => exact .inr ⟨r, here, .held h here (requests List.mem_cons_self)⟩

theorem hold_starts (s : Network) (source : Source) :
    Starts (Call.hold source).means s.traffic (s.hold source).1.traffic := by
  cases source with
  | fresh c =>
    refine .act (.bring c List.mem_cons_self fun send sending => ?_)
    simp [Call.means, Call.carriers, Source.carriers, sending]
  | held h =>
    cases here : s.held.get? h with
    | none =>
      simp only [hold, takeRequest, here, Table.erase_of_none here]
      exact .refl _
    | some r =>
      simp only [hold, takeRequest, here]
      exact .act (.rehold h r here)

theorem offerOnce_starts (s : Network) (c : Carrier) (source : Source) (kept : Bool) :
    Starts (Call.offerOnce c source kept).means s.traffic (s.offerOnce c source kept).1.traffic := by
  have taken := takeRequest_takes (μ := (Call.offerOnce c source kept).means) s source
    (List.Subset.refl _) (List.Subset.refl _) (List.subset_cons_self _ _)
  unfold offerOnce
  generalize s.takeRequest source = out at taken
  rcases out with ⟨t, r⟩
  rcases taken with ⟨none, same⟩ | ⟨r', some, taken⟩
  · cases none
    exact same ▸ .refl _
  · cases some
    have offered := offer_offers t c r'
    simp only
    generalize t.offer c r' = done at offered
    rcases done with ⟨u, back⟩
    cases back with
    | none => exact .act (.offer c r' t.traffic _ List.mem_cons_self taken offered)
    | some back =>
      simp only
      split
      · exact .act (.offerBack c r' back t.traffic u.traffic List.mem_cons_self taken offered)
      · rw [discard_traffic]
        exact .act (.offerDrop c r' back t.traffic u.traffic List.mem_cons_self taken offered)

theorem keepRequests_held (s : Network) (rs : List Request) :
    (s.keepRequests rs).1 = { s with held := rs.foldl Table.push s.held } := by
  induction rs generalizing s with
  | nil => rfl
  | cons r rs ih => exact ih (s.keepRequest r).1

theorem purgeQueue_starts (s : Network) (l : LinkId) (kept : Bool) :
    Starts μ s.traffic (s.purgeQueue (.link l) kept).1.traffic := by
  unfold purgeQueue
  cases here : s.links.get? l with
  | none =>
    have empty : s.drain l = (s, []) := by simp only [drain, here]
    simp only [empty, keepRequests, List.foldl_nil]
    split <;> exact .refl _
  | some lk =>
    have taken : s.drain l =
        ({ s with links := s.links.set l { lk with queue := [] } }, lk.queue) := by
      simp only [drain, here]
    simp only [taken]
    split
    · simp only [keepRequests_held]
      exact .plain (.single (.purge l lk here))
    · rw [foldl_cancel_traffic]
      exact .plain (Rigs.drain here).acts

/-! ## Endpoints -/

/-- A new send is attempted at once, before other work. -/
theorem newSend_acts (s : Network) (e : EndpointId) (messageId : UInt8) (payload : Bytes)
    {jobs : List Job} (bare : ∀ j ∈ jobs, j.isBare = true) : Acts s.traffic
      ((s.newSend e messageId payload).1.begin
        ((s.newSend e messageId payload).2.2 :: jobs)).traffic := by
  have noted : Tends s (s.note (.sent s.handles.next e messageId payload)) := .note rfl
  exact (noted.acts.tail (.work jobs bare)).tail (.ask ⟨e, messageId, payload, s.handles.next⟩ rfl)

theorem sendMessage_starts (s : Network) (e : EndpointId) (messageId : UInt8) (payload : Bytes) :
    Starts μ s.traffic (Call.start s (.sendMessage e messageId payload)).traffic :=
  .plain (newSend_acts s e messageId payload (List.forall_mem_nil _))

theorem createEndpoint_starts (s : Network) (w : WorkerId) (address : WorkerAddress) :
    Starts μ s.traffic (Call.start s (.createEndpoint w address)).traffic := by
  have opened := openEndpoint_tends s w address.uuid address.name
  simp only [Call.start]
  split
  · rw [keep_traffic]
    exact .refl _
  · generalize s.openEndpoint w address.uuid address.name = new at opened
    rcases new with ⟨t, e⟩
    have furnished := openLanes_tends t e address.entries
      (((t.workers.get? w).map fun w => w.plan.lanes).getD [])
    simp only at opened ⊢
    split
    · rename_i u why h
      rw [h] at furnished
      exact (opened.trans furnished).starts.trans (begin_acts (by simp [Job.isBare]))
    · rename_i u h
      rw [h] at furnished
      have opened := opened.trans furnished
      rcases u.newSignal_cases e .request with ⟨why, h⟩ | ⟨payload, -, h⟩
      · simp only [h]
        exact opened.starts.trans (begin_acts (by simp [Job.isBare]))
      · simp only [h]
        have bare : ∀ j ∈ [Job.confirm e u.handles.next, .release (.endpoint e)],
            j.isBare = true := by simp [Job.isBare]
        exact .plain (opened.acts.trans (newSend_acts u e Signal.messageId payload bare))

/-! ## Every operation -/

theorem openInterface_starts (s : Network) (fabric : FabricId) (settings : InterfaceSettings) :
    Starts μ s.traffic (s.openInterface fabric settings).1.traffic := by
  unfold openInterface
  rw [keep_traffic]
  exact .act (.openInterface _ rfl rfl)

theorem openWorker_starts (s : Network) (settings : WorkerSettings) (plan : Plan)
    (resources : List Resource) :
    Starts μ s.traffic (s.openWorker settings plan resources).1.traffic := by
  simp only [openWorker, keep_traffic]
  refine .plain (setWorkerHandler_acts ?_ _ _ _)
  rfl

/-- What an operation does at once. -/
theorem start_starts (s : Network) (c : Call) :
    Starts c.means s.traffic (c.start s).traffic := by
  cases c with
  | keep ref =>
    simp only [Call.start, Call.run, keep_traffic]
    exact .refl _
  | drop ref => exact (letGo_tends s ref).starts
  | openInterface fabric settings => exact openInterface_starts s fabric settings
  | record i messageId log forward decode =>
    refine .act (setHandler_act s i messageId fun log' c decode' same => ?_)
    cases same
    exact List.mem_singleton_self c
  | createLink i => exact createLink_starts s i
  | createConnectedLink i device address => exact createConnectedLink_starts s i device address
  | connect c device address => exact connect_starts s c device address
  | operate c op => exact operate_starts s List.mem_cons_self op
  | offerOnce c source kept => exact offerOnce_starts s c source kept
  | hold source => exact hold_starts s source
  | purgeQueue c kept =>
    cases c with
    | link l => exact purgeQueue_starts s l kept
    | stub x => exact begin_one rfl
  | attemptHeld h =>
    simp only [Call.start]
    split
    · exact .refl _
    · rename_i r here
      exact .act (.attempt h r here List.mem_cons_self)
  | cancelHeld h =>
    simp only [Call.start, Call.run, cancelHeld]
    split
    · exact .refl _
    · rename_i r here
      rw [cancel_traffic]
      exact .act (.cancelHeld h r here List.mem_cons_self)
  | discardHeld h =>
    simp only [Call.start, Call.run, discardHeld]
    split
    · exact .refl _
    · rename_i r here
      rw [discard_traffic]
      exact .act (.discardHeld h r here)
  | openCallback label registry script =>
    simp only [Call.start, Call.run, Call.plain, openCallback, keep_traffic]
    exact .refl _
  | openWorker settings plan resources => exact openWorker_starts s settings plan resources
  | applyPosted w => exact (applyPosted_tends s w).starts
  | createEndpoint w address => exact createEndpoint_starts s w address
  | lookUp w peer =>
    simp only [Call.start, Call.run, Call.plain, lookUp]
    split
    · rw [keep_traffic]
      exact .refl _
    · exact .refl _
  | close w =>
    refine begin_starts fun j hj => ?_
    rcases List.mem_flatMap.1 hj with ⟨e, -, hj⟩
    simp only [List.mem_cons, List.not_mem_nil, or_false] at hj
    rcases hj with rfl | rfl <;> rfl
  | createAuxiliary w peer entries scorer => exact createAuxiliary_starts s w peer entries scorer
  | sendMessage e messageId payload => exact sendMessage_starts s e messageId payload
  | addPending c source =>
    have taken := takeRequest_takes (μ := (Call.addPending c source).means) s source
      (List.Subset.refl _) (List.Subset.refl _) (List.subset_cons_self _ _)
    simp only [Call.start]
    generalize s.takeRequest source = out at taken
    rcases out with ⟨t, r⟩
    rcases taken with ⟨none, same⟩ | ⟨r', some, taken⟩
    · cases none
      exact same ▸ .refl _
    · cases some
      exact .act (.add c r' t.traffic List.mem_cons_self taken)
  | remoteConnected slot =>
    cases slot with
    | none => exact .refl _
    | some c =>
      cases c with
      | link l => exact .refl _
      | stub x => exact (markRemoteConnected_tends s x).starts
  | progressEndpoint e =>
    simp only [Call.start]
    split
    · exact .refl _
    · refine begin_starts fun j hj => ?_
      rcases List.mem_append.1 hj with hj | hj
      · rcases List.mem_flatMap.1 hj with ⟨x, -, hj⟩
        exact List.mem_singleton.1 hj ▸ rfl
      · rcases List.mem_map.1 hj with ⟨x, -, rfl⟩
        rfl
  | progress i => exact begin_one rfl
  | dispatchRegistry r => exact begin_one rfl
  | progressOf w => exact begin_one rfl
  | destroyEndpoint e => exact begin_one rfl
  | progressStub x => exact begin_one rfl
  | openFabric | openRegistry | register | unregister | post => exact .refl _

end Network

/-- What every act and every deed keeps holds wherever a run comes by. -/
theorem Visited.traffic_keeps {fits : Network → Call → Prop} {I : Traffic → Prop}
    (h : Visited fits s) (initial : ∀ process, I (Network.traffic { process }))
    (act : ∀ s c t, I (Network.traffic s) → fits s c → Traffic.Act c.means s.traffic t → I t)
    (acts : ∀ τ τ', I τ → Traffic.Act {} τ τ' → I τ')
    (deed : ∀ τ τ', I τ → Traffic.Deed τ τ' → I τ') : I s.traffic :=
  h.keeps (I := fun s => I s.traffic) initial
    (fun s c _ hs fit _ => (Network.start_starts s c).keeps hs (fun t => act s c t hs fit) acts)
    (fun _ _ hs calm => Network.work_keeps deed hs calm)
    fun s ref hs => (Network.keep_traffic s ref).symm ▸ hs

end Wiring
