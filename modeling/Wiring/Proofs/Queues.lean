import Mathlib
import Wiring.Proofs.Alone
import Wiring.Proofs.Reception

/-!
# What leaves queues alone

The queue of a link changes when a request is given to the link or put back, when the link gets its
turn, and when it is purged or goes down. Sending, connecting, opening, delivering and all other work
leave it as it is.
-/
namespace Wiring

/-- Gives a request to a queue at once, or takes all requests from one. -/
def Call.handlesQueue : Call → Bool
  | .offerOnce _ _ _ | .purgeQueue (.link _) _ => true
  | _ => false

namespace Network

variable {s t u : Network} {l : LinkId}

theorem queue_of_links (h : t.links = s.links) (l : LinkId) : t.queue l = s.queue l := by
  rw [queue, queue, h]

theorem queue_of_get? {lk : Link} (here : s.links.get? l = some lk) : s.queue l = lk.queue := by
  simp [queue, here]

theorem Aside.queue (h : Aside s t) (l : LinkId) : t.queue l = s.queue l :=
  congrArg (Option.getD · []) (h.queues l)

theorem links_foldl {α : Type} {f : Network → α → Network} (h : ∀ s a, (f s a).links = s.links)
    (as : List α) (s : Network) : (as.foldl f s).links = s.links := by
  induction as generalizing s with
  | nil => rfl
  | cons a as ih => exact (ih _).trans (h s a)

/-! ## Requests -/

theorem links_cancel (s : Network) (r : Request) : (s.cancel r).links = s.links := by
  rcases s.cancel_eq r with ⟨marks, -, h⟩
  rw [h]
  rfl

theorem links_discard (s : Network) (r : Request) : (s.discard r).links = s.links := by
  rcases s.discard_eq r with ⟨marks, -, h⟩
  rw [h]
  rfl

theorem links_recordAttempt (s : Network) (r : Request) (o : Outcome) :
    (s.recordAttempt r o).links = s.links := by
  by_cases ho : o.isNoResource = true
  · rcases s.recordAttempt_noResource r ho with ⟨marks, -, h⟩
    rw [h]
    rfl
  · rcases s.recordAttempt_eq r (Bool.eq_false_iff.2 ho) with ⟨marks, -, h⟩
    rw [h]
    rfl

/-! ## Sending -/

theorem sendOver_queue (s : Network) (c : Carrier) (messageId : UInt8) (payload : Bytes)
    (source : Option HandleId) (l : LinkId) :
    (s.sendOver c messageId payload source).1.queue l = s.queue l := by
  rcases s.sendOver_cases c messageId payload source with
    ⟨-, -, h⟩ | ⟨why, h⟩ | ⟨k, dest, u, aside, -, h⟩
  · rw [h]
  · rw [h]
  · rw [h]
    exact aside.queue l

theorem attemptOver_queue (s : Network) (r : Request) (w : Waiter) (c : Carrier)
    (messageId : UInt8) (payload : Bytes) (source : Option HandleId) (holding : List Ref)
    (l : LinkId) :
    (s.attemptOver r w c messageId payload source holding).queue l = s.queue l := by
  unfold attemptOver
  have h := sendOver_queue s c messageId payload source l
  split
  · rename_i u o hu
    rw [hu] at h
    exact h
  · rename_i u hu
    rw [hu] at h
    exact h

theorem attempt_queue (s : Network) (r : Request) (w : Waiter) (l : LinkId) :
    (s.attempt r w).queue l = s.queue l := by
  unfold attempt
  rcases r.inner?_cases with ⟨c, h⟩ | ⟨m, h⟩ | h
  · simp only [h]
    split
    · rfl
    · rfl
    · split
      · exact attemptOver_queue ..
      · rfl
  · simp only [h]
    split
    · rfl
    · split
      · rfl
      · exact attemptOver_queue ..
  · simp only [h]
    rfl

/-- The end of an attempt puts a request into a queue only if it was taken from there. -/
theorem links_conclude (s : Network) (r : Request) (o : Outcome) (w : Waiter)
    (other : ∀ l, w ≠ .queue l) : (s.conclude r o w).links = s.links := by
  have noted := links_recordAttempt s r o
  unfold conclude
  simp only
  generalize s.recordAttempt r o = t at noted ⊢
  cases w with
  | queue l => exact absurd rfl (other l)
  | retry c =>
    split
    · exact noted
    · exact (links_discard t _).trans noted
  | application h => split <;> exact noted
  | endpoint e =>
    split
    · unfold giveUp
      simp only
      split
      · exact noted
      · exact (links_cancel t _).trans noted
    · exact (links_discard t _).trans noted

theorem links_park (s : Network) (x : StubId) (st : Stub) (w : WorkerId) (r : Request) :
    (s.park x st w r).links = s.links := by
  unfold park
  simp only
  split <;> rfl

/-! ## Carriers and endpoints -/

theorem links_applyPosted (s : Network) (w : WorkerId) : (s.applyPosted w).1.links = s.links := by
  rw [(applyPosted_marked s w).frame]

theorem links_switchover (s : Network) (x : StubId) : (s.switchover x).links = s.links := by
  have caught : (s.caughtUp x).links = s.links := by rw [(caughtUp_marked s x).frame]
  rw [switchover_eq]
  split
  · exact caught
  · split
    · exact caught
    · split
      · split
        · unfold switch
          simp only [foldl_unregister]
          exact caught
        · exact caught
      · exact caught

theorem connect_queue (s : Network) (c : Carrier) (device address : Bytes) (l : LinkId) :
    (s.connect c device address).1.queue l = s.queue l := by
  have link (k : LinkId) : (s.connectLink k device address).1.queue l = s.queue l := by
    rcases s.connectLink_cases k device address with ⟨why, h⟩ | ⟨u, aside, h⟩
    · rw [h]
    · rw [h]
      exact aside.queue l
  unfold connect
  split
  · exact link _
  · split
    · rfl
    · rename_i next _
      have h := link next
      split
      · rename_i u hu
        rw [hu] at h
        exact h
      · rename_i u why hu
        rw [hu] at h
        exact h

theorem LinkOpened.queue {k : LinkId} (h : LinkOpened s u k) (l : LinkId) :
    u.queue l = s.queue l := by
  rcases h with ⟨mid, lk, aside, links, -, empty, -, rfl⟩
  refine Eq.trans ?_ (aside.queue l)
  simp only [Network.queue, Table.get?_push]
  split
  · rename_i same
    rw [same, Table.get?_next]
    exact empty
  · rfl

theorem links_newSignal (s : Network) (e : EndpointId) (kind : Signal.Kind) :
    (s.newSignal e kind).1.links = s.links := by
  rcases s.newSignal_cases e kind with ⟨why, h⟩ | ⟨payload, -, h⟩
  · rw [h]
  · rw [h]
    rfl

theorem links_answer (s : Network) (e : EndpointId) (kind : Signal.Kind) :
    (s.answer e kind).links = s.links := by
  unfold answer
  have h := links_newSignal s e kind
  split
  · rename_i u why hu
    rw [hu] at h
    exact h
  · rename_i u handle job hu
    rw [hu] at h
    exact h

theorem replyTo_queue (s : Network) (e : EndpointId) (lanes : List LaneAddress) (l : LinkId) :
    (s.replyTo e lanes).queue l = s.queue l := by
  unfold replyTo
  have h := (connectLanes_within s e lanes).2.queues l
  split
  · rename_i u why hu
    rw [hu] at h
    exact h
  · rename_i u hu
    rw [hu] at h
    exact (queue_of_links (links_answer u e .reply) l).trans h

theorem receive_queue (recorded : Recorded True s) {w : WorkerId} {wk : Worker}
    (books : s.workers.get? w = some wk) (m : Signal) (l : LinkId) :
    (s.receive w m).queue l = s.queue l := by
  unfold receive
  cases known : s.findEndpoint? w m.source with
  | none =>
    simp only
    split
    · rename_i address kind given
      have furnished := (furnish_founded recorded books known address).1.silent.queues l
      rw [welcome_eq]
      generalize s.furnish w m.source address = out at furnished ⊢
      rcases out with ⟨v, why | _⟩
      · exact furnished
      · exact (replyTo_queue v _ m.lanes l).trans furnished
    · rfl
  | some e =>
    simp only
    split
    · exact replyTo_queue (s.push _) e m.lanes l
    · have h := (connectLanes_within
        (s.push [.release (.endpoint e), .release (.worker w)]) e m.lanes).2.queues l
      split
      · rename_i u why hu
        rw [hu] at h
        exact h
      · rename_i u hu
        rw [hu] at h
        exact (queue_of_links (links_answer _ e .ack) l).trans
          (((markLanes_within u e).2.queues l).trans h)
    · exact (markLanes_within (s.push _) e).2.queues l

theorem handle_queue (recorded : Recorded True s) (h : Handler) (m : Message) (l : LinkId) :
    (s.handle m h).queue l = s.queue l := by
  cases h with
  | record log carrier decode =>
    unfold handle
    simp only
    split
    · rename_i c
      unfold forward
      split
      · have h := sendOver_queue (s.note (.recorded log m.id (content decode m.payload))) c m.id
          m.payload none l
        split
        · rename_i u o hu
          rw [hu] at h
          exact h
        · rename_i u hu
          rw [hu] at h
          split <;> exact h
      · rfl
    · rfl
  | signals w =>
    cases books : s.workers.get? w with
    | none => simp only [handle, handleSignal, books]
    | some wk =>
      rcases handleSignal_cases books m.payload with same | ⟨g, -, -, receives⟩
      · rw [handle, same]
      · rw [handle, receives s wk books rfl]
        exact receive_queue recorded books g l

/-! ## Retiring -/

/-- A link that goes down has no queue any more. -/
theorem retireLink_queue (s : Network) (k l : LinkId) :
    (s.retireLink k).queue l = if k = l then [] else s.queue l := by
  unfold retireLink
  split
  · rename_i gone
    split
    · rename_i same
      rw [queue, ← same, gone]
      rfl
    · rfl
  · rename_i lk here
    rw [queue_of_links (links_foldl links_cancel lk.queue _)]
    simp only [queue, Table.get?_erase]
    split <;> rfl

theorem links_retire (s : Network) (ref : Ref) (other : ∀ l, ref ≠ .link l) :
    (s.retire ref).links = s.links := by
  cases ref with
  | link l => exact absurd rfl (other l)
  | callback c => rfl
  | interface i =>
    have lost (u : Network) (m : Message) : (u.note (.lost i m)).links = u.links := rfl
    simp only [retire, retireInterface]
    split
    · rfl
    · exact links_foldl lost _ _
  | stub x =>
    simp only [retire, retireStub]
    split
    · rfl
    · split
      · rfl
      · simp only [violate]
        split <;> rfl
  | endpoint e =>
    simp only [retire, retireEndpoint]
    split <;> rfl
  | worker w =>
    simp only [retire, retireWorker]
    split <;> rfl

/-! ## Registries, progress and destruction -/

theorem links_letGo (s : Network) (ref : Ref) : (s.letGo ref).links = s.links := by
  unfold letGo
  simp only
  split <;> rfl

theorem links_act (s : Network) (r : RegistryId) (a : Action) : (s.act r a).links = s.links := by
  unfold act
  split
  · split <;> rfl
  · split <;> rfl
  · split
    · exact links_letGo s _
    · rfl

theorem links_run (s : Network) (x : Runner) : (s.run x).links = s.links := by
  cases x with
  | stub x => rfl
  | callback c =>
    simp only [run, runCallback]
    split
    · rfl
    · exact links_foldl (fun s a => links_act s _ a) _ _

theorem links_progressWorker (s : Network) (w : WorkerId) :
    (s.progressWorker w).links = s.links := by
  unfold progressWorker
  split
  · rfl
  · exact links_applyPosted s w

theorem links_destroy (s : Network) (e : EndpointId) : (s.destroy e).links = s.links := by
  unfold destroy
  split
  · rfl
  · simp only
    split <;> rfl

theorem links_purge (s : Network) (x : StubId) : (s.purge (.stub x)).links = s.links := by
  simp only [purge]
  split
  · split
    · rfl
    · unfold violate
      split <;> rfl
  · rfl

theorem drain_queue (s : Network) (k l : LinkId) :
    (s.drain k).1.queue l = if k = l then [] else s.queue l := by
  unfold drain
  split
  · rename_i gone
    split
    · rename_i same
      rw [queue, ← same, gone]
      rfl
    · rfl
  · rename_i lk here
    simp only [queue, Table.get?_set_of here, eq_comm (a := k)]
    split <;> rfl

theorem purge_queue (s : Network) (k l : LinkId) :
    (s.purge (.link k)).queue l = if k = l then [] else s.queue l := by
  rw [← drain_queue s k l]
  exact queue_of_links (links_foldl links_cancel _ _) l

/-! ## Operations -/

theorem links_keep (s : Network) (ref : Ref) : (s.keep ref).links = s.links := by
  unfold keep
  split <;> rfl

theorem takeRequest_links (s : Network) (source : Source) :
    (s.takeRequest source).1.links = s.links := by
  cases source <;> rfl

theorem links_hold (s : Network) (source : Source) : (s.hold source).1.links = s.links := by
  have taken := takeRequest_links s source
  unfold hold
  generalize s.takeRequest source = out at taken ⊢
  rcases out with ⟨t, r | r⟩ <;> exact taken

theorem keepLink_queue {opened : Network × Except Refusal LinkId}
    (h : opened.1.queue l = s.queue l) : (keepLink opened).1.queue l = s.queue l := by
  rcases opened with ⟨u, k | k⟩
  · exact h
  · exact (queue_of_links (links_keep u _) l).trans h

theorem createLink_queue (s : Network) (i : InterfaceId) (l : LinkId) :
    (s.createLink i).1.queue l = s.queue l := by
  refine keepLink_queue ?_
  rcases s.openLink_cases i with ⟨why, h⟩ | ⟨u, k, opened, h⟩
  · rw [h]
  · rw [h]
    exact opened.queue l

theorem createConnectedLink_queue (s : Network) (i : InterfaceId) (device address : Bytes)
    (l : LinkId) : (s.createConnectedLink i device address).1.queue l = s.queue l := by
  refine keepLink_queue ?_
  rcases s.openConnectedLink_cases i device address with ⟨why, h⟩ | ⟨u, k, opened, h⟩
  · rw [h]
  · rw [h]
    exact opened.queue l

theorem createAuxiliary_queue (s : Network) (w : WorkerId) (peer : String)
    (entries : List AddressEntry) (scorer : Scorer) (l : LinkId) :
    (s.createAuxiliary w peer entries scorer).1.queue l = s.queue l := by
  unfold createAuxiliary
  split
  · rfl
  · rename_i wk _
    rcases s.openAuxiliary_cases wk peer entries scorer with ⟨why, h⟩ | ⟨u, r, k, opened, h⟩
    · rw [h]
    · rw [h]
      exact (queue_of_links (links_keep u _) l).trans (opened.queue l)

theorem links_setWorkerHandler (s : Network) (w : WorkerId) (messageId : UInt8) (h : Handler) :
    (s.setWorkerHandler w messageId h).links = s.links := by
  have one (u : Network) (r : Resource) :
      (u.setHandler r.interface messageId h).links = u.links := rfl
  unfold setWorkerHandler
  split
  · rfl
  · exact links_foldl one _ s

theorem openLanes_queue (s : Network) (e : EndpointId) (entries : List AddressEntry)
    (lanes : List Category) (l : LinkId) : (s.openLanes e entries lanes).1.queue l = s.queue l := by
  induction lanes generalizing s with
  | nil => rfl
  | cons lane lanes ih =>
    unfold openLanes
    split
    · rfl
    · rename_i ep _
      split
      · rfl
      · rename_i w _
        rcases s.openLane_adds e ep w lane entries with
          ⟨u, why, added, h⟩ | ⟨u, c, ⟨-, _, added, -⟩, h⟩
        · simp only [h]
          exact added.toBeside.queue l
        · simp only [h]
          exact (ih _).trans (added.toBeside.queue l)

theorem openEndpoint_links (s : Network) (w : WorkerId) (dest : UInt64) (peer : String) :
    (s.openEndpoint w dest peer).1.links = s.links := by
  unfold openEndpoint
  split <;> rfl

theorem createEndpoint_queue (s : Network) (w : WorkerId) (address : WorkerAddress) (l : LinkId) :
    (Call.start s (.createEndpoint w address)).queue l = s.queue l := by
  simp only [Call.start]
  split
  · exact queue_of_links (links_keep s _) l
  · have opened := queue_of_links (openEndpoint_links s w address.uuid address.name) l
    generalize s.openEndpoint w address.uuid address.name = made at opened ⊢
    rcases made with ⟨t, e⟩
    have laid := (openLanes_queue t e address.entries
      (((t.workers.get? w).map fun w => w.plan.lanes).getD []) l).trans opened
    simp only
    split
    · rename_i u why hu
      rw [hu] at laid
      exact laid
    · rename_i u hu
      rw [hu] at laid
      have asked := (queue_of_links (links_newSignal u e .request) l).trans laid
      split
      · rename_i v why hv
        rw [hv] at asked
        exact asked
      · rename_i v handle job hv
        rw [hv] at asked
        exact asked

theorem operate_queue (s : Network) (c : Carrier) (op : Operation) (l : LinkId) :
    (Call.start s (.operate c op)).queue l = s.queue l := by
  have sent (messageId : UInt8) (payload : Bytes) := sendOver_queue s c messageId payload none l
  cases c with
  | link k =>
    cases op with
    | short messageId header payload => exact (Aside.sendShort s k messageId header payload).queue l
    | bulk messageId payload => exact sent messageId payload
    | other name => rfl
  | stub x =>
    cases op with
    | short messageId header payload => rfl
    | other name => rfl
    | bulk messageId payload =>
      simp only [Call.start]
      split
      · rfl
      · rename_i signal
        rw [operate_signal s x (not_not.1 signal) payload]
        exact sent messageId payload

/-- Operations on queues apart, an operation leaves the queues to the work that it sets off. -/
theorem start_queue (s : Network) {c : Call} (other : c.handlesQueue = false) (l : LinkId) :
    (c.start s).queue l = s.queue l := by
  cases c with
  | keep ref => exact queue_of_links (links_keep s ref) l
  | drop ref => exact queue_of_links (links_letGo s ref) l
  | openInterface fabric settings => exact queue_of_links (links_keep _ _) l
  | createLink i => exact createLink_queue s i l
  | createConnectedLink i device address => exact createConnectedLink_queue s i device address l
  | connect c device address => exact connect_queue s c device address l
  | operate c op => exact operate_queue s c op l
  | hold source => exact queue_of_links (links_hold s source) l
  | purgeQueue c kept =>
    cases c with
    | link k => cases other
    | stub x => rfl
  | offerOnce => cases other
  | attemptHeld h =>
    simp only [Call.start]
    split <;> rfl
  | cancelHeld h =>
    simp only [Call.start, Call.run, cancelHeld]
    split
    · rfl
    · exact queue_of_links (links_cancel { s with held := s.held.erase h } _) l
  | discardHeld h =>
    simp only [Call.start, Call.run, discardHeld]
    split
    · rfl
    · exact queue_of_links (links_discard { s with held := s.held.erase h } _) l
  | openCallback label registry script => exact queue_of_links (links_keep _ _) l
  | openWorker settings plan resources =>
    exact queue_of_links ((links_keep _ _).trans (links_setWorkerHandler _ _ _ _)) l
  | applyPosted w => exact queue_of_links (links_applyPosted s w) l
  | createEndpoint w address => exact createEndpoint_queue s w address l
  | lookUp w peer =>
    simp only [Call.start, Call.run, Call.plain, lookUp]
    split
    · exact queue_of_links (links_keep s _) l
    · rfl
  | createAuxiliary w peer entries scorer => exact createAuxiliary_queue s w peer entries scorer l
  | addPending c source =>
    have taken := takeRequest_links s source
    simp only [Call.start]
    generalize s.takeRequest source = out at taken ⊢
    rcases out with ⟨t, r | r⟩ <;> exact queue_of_links taken l
  | remoteConnected slot =>
    cases slot with
    | none => rfl
    | some c => cases c <;> rfl
  | progressEndpoint e =>
    simp only [Call.start]
    split <;> rfl
  | progress | dispatchRegistry | progressOf | destroyEndpoint | progressStub | close
  | sendMessage | openFabric | openRegistry | record | register | unregister | post => rfl

end Network

end Wiring
