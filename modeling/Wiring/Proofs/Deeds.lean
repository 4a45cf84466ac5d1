import Mathlib
import Wiring.Proofs.Traffic

/-!
# Every step does one deed

Each job is done by one deed. Most work only tends the traffic: it rigs what carries requests and
messages, and puts bare work on the agenda.
-/
namespace Wiring

theorem Happening.isMute_of_isStill {x : Happening} (h : x.isStill = true) : x.isMute = true := by
  cases x with
  | attempted name o | cancelled name | dropped name => rfl
  | _ => exact h

/-! ## What is noted of requests moves no message -/

namespace Request

theorem mute_answerNotes (r : Request) (o : Outcome) : ∀ x ∈ r.answerNotes o, x.isMute = true := by
  intro x h
  unfold answerNotes at h
  split at h
  · exact List.mem_singleton.1 h ▸ rfl
  · cases h

theorem mute_cancelNotes (r : Request) : ∀ x ∈ r.cancelNotes, x.isMute = true := by
  intro x h
  unfold cancelNotes at h
  split at h
  · exact List.mem_singleton.1 h ▸ rfl
  · cases h

theorem mute_dropNotes (r : Request) : ∀ x ∈ r.dropNotes, x.isMute = true := by
  intro x h
  unfold dropNotes at h
  split at h
  · split at h
    · cases h
    · exact List.mem_singleton.1 h ▸ rfl
  · cases h

theorem Ends.mute {handles handles' : Table (Option Outcome)} {r : Request} {j : Job}
    {marks : List Happening} (h : r.Ends handles j marks handles') :
    ∀ x ∈ marks, x.isMute = true := by
  intro x hx
  cases h with
  | finish o w done => exact r.mute_answerNotes o x hx
  | cancel w => exact (List.mem_append.1 hx).elim (r.mute_answerNotes _ x) (r.mute_cancelNotes x)
  | lose w => exact r.mute_answerNotes _ x hx
  | drop => exact r.mute_dropNotes x hx

end Request

namespace Traffic

variable {s t u : Traffic}

theorem Rig.agenda (h : Rig s t) : t.agenda = s.agenda := by cases h <;> rfl

/-- What is changed does not depend on what is left to do. -/
theorem Rig.withAgenda (h : Rig s t) (agenda : List Job) :
    Rig { s with agenda } { t with agenda } := by
  cases h with
  | note x still => exact .note x still
  | pair x st l dest here next => exact .pair x st l dest here next
  | mark x => exact .mark x
  | number i f n here => exact .number i f n here
  | openLink lk new => exact .openLink lk new
  | openEndpoint e empty => exact .openEndpoint e empty
  | linkLane id e lane lk here new => exact .linkLane id e lane lk here new
  | stubLane id e lane st lk auxiliary here new new' next aside unmarked unparked unswitched
      able =>
    exact .stubLane id e lane st lk auxiliary here new new' next aside unmarked unparked
      unswitched able
  | clear id => exact .clear id
  | cancelFront l lk r queue here front => exact .cancelFront l lk r queue here front
  | closeInterface i f here => exact .closeInterface i f here
  | closeLink l lk here empty => exact .closeLink l lk here empty
  | closeStub x => exact .closeStub x
  | closeEndpoint id => exact .closeEndpoint id

theorem Rigs.agenda (h : Rigs s t) : t.agenda = s.agenda := by
  induction h with
  | refl => rfl
  | tail _ g ih => exact g.agenda.trans ih

theorem Rigs.withAgenda (h : Rigs s t) (agenda : List Job) :
    Rigs { s with agenda } { t with agenda } := by
  induction h with
  | refl => exact .refl
  | tail _ g ih => exact ih.tail (g.withAgenda agenda)

/-- All requests in the queue of a link are given up. -/
theorem Rigs.drain {l : LinkId} {lk : Link} (here : s.links.get? l = some lk) :
    Rigs s (lk.queue.foldl cancel { s with links := s.links.set l { lk with queue := [] } }) := by
  rcases lk with ⟨owner, number, settings, credits, dest, queue⟩
  induction queue generalizing s with
  | nil =>
    rw [Table.set_get? here]
    exact .refl
  | cons r queue ih =>
    have first := Rig.cancelFront l _ r queue here rfl
    refine .head first ?_
    let lk' : Link := ⟨owner, number, settings, credits, dest, queue⟩
    have there : (s.links.set l lk').get? l = some lk' := (Table.get?_set_of here _ l).trans (if_pos rfl)
    have others := @ih (cancel { s with links := s.links.set l lk' } r) there
    have same : ((s.links.set l lk').set l { lk' with queue := [] }) =
        s.links.set l { lk' with queue := [] } := Table.set_set ..
    simp only [cancel] at others
    rw [same] at others
    exact others

theorem foldl_cancel_links (rs : List Request) (s : Traffic) (links : Table Link) :
    rs.foldl cancel { s with links } = { rs.foldl cancel s with links } := by
  induction rs generalizing s with
  | nil => rfl
  | cons r rs ih => exact ih (s.cancel r)

/-- A link goes down once its requests are given up. -/
theorem Rigs.closeLink {l : LinkId} {lk : Link} (here : s.links.get? l = some lk) :
    Rigs s (lk.queue.foldl cancel { s with links := s.links.erase l }) := by
  refine (Rigs.drain here).tail ?_
  rw [foldl_cancel_links _ s (s.links.set l _), foldl_cancel_links _ s (s.links.erase l)]
  have there : (s.links.set l { lk with queue := [] }).get? l = some { lk with queue := [] } :=
    (Table.get?_set_of here _ l).trans (if_pos rfl)
  let drained : Traffic :=
    { lk.queue.foldl cancel s with links := s.links.set l { lk with queue := [] } }
  have closed : Rig drained _ := .closeLink l _ there rfl
  simp only [drained, Table.erase_set] at closed
  exact closed

theorem Rigs.notes {marks : List Happening} (still : ∀ x ∈ marks, x.isStill = true)
    (s : Traffic) : Rigs s { s with trace := s.trace ++ marks.toArray } := by
  induction marks generalizing s with
  | nil =>
    have same : s.trace ++ ([] : List Happening).toArray = s.trace := by simp
    rw [same]
  | cons x marks ih =>
    have same : s.trace ++ (x :: marks).toArray = s.trace.push x ++ marks.toArray := by simp
    have others := ih (fun y hy => still y (List.mem_cons_of_mem _ hy))
      { s with trace := s.trace.push x }
    rw [same]
    exact .head (.note x (still x List.mem_cons_self)) others

end Traffic

namespace Network

open Traffic

variable {s t u : Network} {rest : List Job}

/-- Nothing but happenings that move no message. -/
def Marks (s t : Network) : Prop :=
  ∃ marks : List Happening, (∀ x ∈ marks, x.isStill = true) ∧
    t.traffic = { s.traffic with trace := s.trace ++ marks.toArray }

namespace Marks

theorem same (h : t.traffic = s.traffic) : Marks s t := by
  refine ⟨[], by simp, ?_⟩
  rw [h]
  simp [traffic]

theorem refl (s : Network) : Marks s s := same rfl

theorem note {x : Happening} (still : x.isStill = true) : Marks s (s.note x) :=
  ⟨[x], by simpa using still, by simp [Network.note, traffic]⟩

theorem trans (h : Marks s t) (g : Marks t u) : Marks s u := by
  rcases h with ⟨marks, still, ht⟩
  rcases g with ⟨marks', still', hu⟩
  refine ⟨marks ++ marks', fun x hx => ?_, ?_⟩
  · rcases List.mem_append.1 hx with hx | hx
    · exact still x hx
    · exact still' x hx
  · have grown : t.trace = s.trace ++ marks.toArray := congrArg Traffic.trace ht
    rw [hu, ht, grown]
    simp

theorem foldl {α : Type} {f : Network → α → Network} (h : ∀ s a, Marks s (f s a)) (as : List α)
    (s : Network) : Marks s (as.foldl f s) := by
  induction as generalizing s with
  | nil => exact refl s
  | cons a as ih => exact (h s a).trans (ih _)

theorem rigs (h : Marks s t) : Rigs s.traffic t.traffic := by
  rcases h with ⟨marks, still, ht⟩
  rw [ht]
  exact .notes still s.traffic

end Marks

/-- What carries requests and messages is rigged, and bare work is put on the agenda. -/
def Tends (s t : Network) : Prop :=
  ∃ jobs u, Rigs s.traffic u ∧ (∀ k ∈ jobs, k.isBare = true) ∧
    t.traffic = { u with agenda := jobs ++ u.agenda }

namespace Tends

theorem rigs (h : Rigs s.traffic t.traffic) : Tends s t := ⟨[], t.traffic, h, by simp, rfl⟩

theorem rig (h : Rig s.traffic t.traffic) : Tends s t := rigs (.single h)

theorem same (h : t.traffic = s.traffic) : Tends s t := rigs (h ▸ .refl)

theorem refl (s : Network) : Tends s s := same rfl

theorem marks (h : Marks s t) : Tends s t := rigs h.rigs

theorem note {x : Happening} (still : x.isStill = true) : Tends s (s.note x) :=
  marks (.note still)

theorem push {jobs : List Job} (bare : ∀ k ∈ jobs, k.isBare = true) : Tends s (s.push jobs) :=
  ⟨jobs, s.traffic, .refl, bare, rfl⟩

theorem trans (h : Tends s t) (g : Tends t u) : Tends s u := by
  rcases h with ⟨jobs, v, rigs, bare, ht⟩
  rcases g with ⟨jobs', v', rigs', bare', hu⟩
  rw [ht] at rigs'
  have moved := rigs'.withAgenda v.agenda
  have agenda : v'.agenda = jobs ++ v.agenda := rigs'.agenda
  refine ⟨jobs' ++ jobs, { v' with agenda := v.agenda }, rigs.trans moved, fun k hk => ?_, ?_⟩
  · rcases List.mem_append.1 hk with hk | hk
    · exact bare' k hk
    · exact bare k hk
  · rw [hu, agenda, List.append_assoc]

theorem foldl {α : Type} {f : Network → α → Network} (h : ∀ s a, Tends s (f s a)) (as : List α)
    (s : Network) : Tends s (as.foldl f s) := by
  induction as generalizing s with
  | nil => exact refl s
  | cons a as ih => exact (h s a).trans (ih _)

/-- A job that only tends is one deed. -/
theorem deed {j : Job} (h : Tends { s with agenda := rest } t) (top : s.agenda = j :: rest)
    (light : ∀ l, j ≠ .giveBack l) (free : j.request? = none) : Deed s.traffic t.traffic := by
  rcases h with ⟨jobs, u, rigged, bare, ht⟩
  rw [ht]
  exact .work j rest jobs u top light free rigged bare

end Tends

/-! ## Ends of requests -/

theorem cancelNotes_unfinished (r : Request) : r.unfinished.cancelNotes = r.cancelNotes := by
  induction r with
  | counted g r ih => exact ih
  | _ => rfl

theorem endHandle_unfinished (handles : Table (Option Outcome)) (r : Request) (o : Outcome) :
    endHandle handles r.unfinished o = endHandle handles r o := by
  simp only [endHandle, Request.send?_unfinished]

theorem cancel_traffic (s : Network) (r : Request) : (s.cancel r).traffic = s.traffic.cancel r := by
  induction r generalizing s with
  | scripted c => simp [cancel, note, traffic, Traffic.cancel, Request.cancelNotes, Request.inner?,
      endHandle, Request.send?]
  | send m => simp [cancel, complete, traffic, Traffic.cancel, Request.cancelNotes, Request.inner?,
      endHandle, Request.send?]
  | counted g inner ih => exact ih (s.leaveGate g)
  | spent g => simp [cancel, traffic, Traffic.cancel, Request.cancelNotes, Request.inner?, endHandle,
      Request.send?]

theorem foldl_cancel_traffic (s : Network) (rs : List Request) :
    (rs.foldl cancel s).traffic = rs.foldl Traffic.cancel s.traffic := by
  induction rs generalizing s with
  | nil => rfl
  | cons r rs ih => rw [List.foldl_cons, ih, cancel_traffic, List.foldl_cons]

theorem discard_traffic (s : Network) (r : Request) :
    (s.discard r).traffic = { s.traffic with trace := s.trace ++ r.dropNotes.toArray } := by
  induction r generalizing s with
  | scripted c =>
    unfold discard
    split
    · rename_i ended
      simp [Request.dropNotes, Request.inner?, ended, traffic]
    · rename_i alive
      simp [Request.dropNotes, Request.inner?, alive, traffic, note]
  | send m => simp [discard, traffic, Request.dropNotes, Request.inner?]
  | counted g inner ih => exact ih (s.leaveGate g)
  | spent g => simp [discard, traffic, Request.dropNotes, Request.inner?]

theorem recordAttempt_traffic (s : Network) (r : Request) {o : Outcome}
    (done : o.isNoResource = false) : (s.recordAttempt r o).traffic = { s.traffic with
      handles := endHandle s.handles r o, trace := s.trace ++ (r.answerNotes o).toArray } := by
  rcases r.inner?_cases with ⟨c, h⟩ | ⟨m, h⟩ | h <;>
    simp [recordAttempt, h, done, foldl_leaveGate, traffic, note, complete, Request.answerNotes,
      endHandle, Request.send?]

theorem recordAttempt_out (s : Network) (r : Request) :
    (s.recordAttempt r (.error .noResource)).traffic = { s.traffic with
      trace := s.trace ++ (r.answerNotes (.error .noResource)).toArray } := by
  have out : Outcome.isNoResource (.error .noResource) = true := rfl
  rcases r.inner?_cases with ⟨c, h⟩ | ⟨m, h⟩ | h <;>
    simp [recordAttempt, h, out, traffic, note, Request.answerNotes]

theorem noResource_of_isNoResource {o : Outcome} (h : o.isNoResource = true) :
    o = .error .noResource := by
  cases o with
  | ok a => cases h
  | error why =>
    cases why with
    | noResource => rfl
    | _ => cases h

/-! ## Sending -/

theorem Transmitted.traffic {l : LinkId} {messageId : UInt8} {payload : Bytes}
    {source : Option HandleId} (h : Transmitted s l messageId payload source t) :
    s.traffic.Transmits l messageId payload source t.traffic := by
  cases h with
  | intro lk credits dest f here credit leads there =>
    exact .intro lk credits dest f here credit leads there

theorem transmit_transmits (s : Network) (l : LinkId) (messageId : UInt8) (payload : Bytes)
    (source : Option HandleId) :
    (∃ why, s.transmit l messageId payload source = (s, .error why)) ∨
    ∃ t : Network, s.traffic.Transmits l messageId payload source t.traffic ∧
      s.transmit l messageId payload source = (t, .ok ()) :=
  (s.transmit_transmitted l messageId payload source).imp_right fun ⟨t, sent, h⟩ =>
    ⟨t, sent.traffic, h⟩

theorem sendBulk_transmits (s : Network) (l : LinkId) (messageId : UInt8) (payload : Bytes)
    (source : Option HandleId) :
    (∃ why, s.sendBulk l messageId payload source = (s, .error why)) ∨
    ∃ t : Network, s.traffic.Transmits l messageId payload source t.traffic ∧
      s.sendBulk l messageId payload source = (t, .ok ()) :=
  (s.sendBulk_transmitted l messageId payload source).imp_right fun ⟨t, sent, h⟩ =>
    ⟨t, sent.traffic, h⟩

/-- A stub holds off what is no signal; any other message is refused, or put into an inbox by the
link that the carrier takes it to. -/
theorem sendOver_transmits (s : Network) (c : Carrier) (messageId : UInt8) (payload : Bytes)
    (source : Option HandleId) :
    (messageId ≠ Signal.messageId ∧ (∃ x, c = .stub x) ∧
      s.sendOver c messageId payload source = (s, none)) ∨
    (∃ why, s.sendOver c messageId payload source = (s, some (.error why))) ∨
    ∃ l, ∃ t : Network, s.traffic.Carries l messageId c ∧
      s.traffic.Transmits l messageId payload source t.traffic ∧
      s.sendOver c messageId payload source = (t, some (.ok ())) := by
  cases c with
  | link l =>
    rcases sendBulk_transmits s l messageId payload source with ⟨why, h⟩ | ⟨t, sent, h⟩
    · exact .inr (.inl ⟨why, by simp [sendOver, h]⟩)
    · exact .inr (.inr ⟨l, t, .link, sent, by simp [sendOver, h]⟩)
  | stub x =>
    by_cases signal : messageId = Signal.messageId
    · subst signal
      cases hl : (s.stubs.get? x).bind Stub.signalLink with
      | none => exact .inr (.inl ⟨.notConnected, by simp [sendOver, hl]⟩)
      | some l =>
        rcases Option.bind_eq_some_iff.1 hl with ⟨st, here, link⟩
        rcases sendBulk_transmits s l Signal.messageId payload source with
          ⟨why, h⟩ | ⟨t, sent, h⟩
        · exact .inr (.inl ⟨why, by simp [sendOver, hl, h]⟩)
        · exact .inr (.inr ⟨l, t, .stub x st here link rfl, sent, by simp [sendOver, hl, h]⟩)
    · exact .inl ⟨signal, ⟨x, rfl⟩, by simp [sendOver, signal]⟩

/-! ## Attempts -/

theorem attemptOver_deed {r : Request} {w : Waiter} (top : s.agenda = .attempt r w :: rest)
    {c : Carrier} {messageId : UInt8} {payload : Bytes} {source : Option HandleId}
    (holding : List Ref) (sends : s.traffic.Sends r c messageId payload source) :
    Deed s.traffic (attemptOver { s with agenda := rest } r.taken w c messageId payload source
      holding).traffic := by
  unfold attemptOver
  rcases sendOver_transmits { s with agenda := rest } c messageId payload source with
    ⟨data, ⟨x, rfl⟩, h⟩ | ⟨why, h⟩ | ⟨l, t, carries, sent, h⟩
  · simp only [h]
    have bare : ∀ k ∈ [Job.switchover x, .recount s.tally] ++ holding.map Job.release,
        k.isBare = true := by
      intro k hk
      simp only [List.mem_append, List.mem_cons, List.not_mem_nil, or_false, List.mem_map] at hk
      rcases hk with (rfl | rfl) | ⟨ref, -, rfl⟩ <;> rfl
    have held : Deed s.traffic _ := .holdOff r w rest x messageId payload source _ top sends data bare
    simp only [push, traffic, List.append_assoc] at held ⊢
    exact held
  · simp only [h]
    exact .answer r (.error why) w rest top
  · simp only [h]
    have carries' : s.traffic.Carries l messageId c := by
      cases carries with
      | link => exact .link
      | stub x st here link signal => exact .stub x st here link signal
    have sent' : Traffic.Transmits { s.traffic with agenda := .conclude r.taken (.ok ()) w :: rest }
        l messageId payload source (t.push [.conclude r.taken (.ok ()) w]).traffic := by
      generalize ht : t.traffic = τ at sent
      cases sent with
      | intro lk credits dest f here credit leads there =>
        have pushed : (t.push [.conclude r.taken (.ok ()) w]).traffic =
            { t.traffic with agenda := .conclude r.taken (.ok ()) w :: t.traffic.agenda } := rfl
        rw [pushed, ht]
        exact .intro lk credits dest f here credit leads there
    exact .accept r w rest c messageId payload source l _ top sends carries' sent'

theorem attempt_deed {r : Request} {w : Waiter} (top : s.agenda = .attempt r w :: rest) :
    Deed s.traffic (attempt { s with agenda := rest } r w).traffic := by
  have answered (o : Outcome) :
      Deed s.traffic (push { s with agenda := rest } [.conclude r.taken o w]).traffic :=
    .answer r o w rest top
  unfold attempt
  rcases r.inner?_cases with ⟨c, h⟩ | ⟨m, h⟩ | h
  · have taken : r.taken = .withInner (.scripted c.take.2) r := by simp only [Request.taken, h]
    rw [taken] at answered
    simp only [h]
    split
    · exact answered _
    · exact answered _
    · rename_i send _ sending
      rw [take_sending] at sending
      split
      · rw [← taken]
        exact attemptOver_deed top _ (.script c send h sending)
      · exact answered _
  · have taken : r.taken = r := by simp only [Request.taken, h]
    rw [taken] at answered
    simp only [h]
    split
    · exact answered _
    · rename_i ep here
      split
      · exact answered _
      · rename_i c slot
        have sent := attemptOver_deed top [c.ref, .endpoint m.endpoint] (.send m ep c h here slot)
        rw [taken] at sent
        exact sent
  · have taken : r.taken = r := by simp only [Request.taken, h]
    rw [taken] at answered
    simp only [h]
    exact answered _

theorem slot_eq {e : EndpointId} {category : Category} {c : Carrier} :
    s.slot e category = some c ↔
      ∃ ep, s.endpoints.get? e = some ep ∧ ep.slots.get category = some c :=
  Option.bind_eq_some_iff

theorem giveUp_deed {r : Request} {w : Waiter}
    (top : s.agenda = .conclude r (.error .noResource) w :: rest)
    (marked : u.traffic = { s.traffic with
      trace := s.trace ++ (r.answerNotes (.error .noResource)).toArray, agenda := rest }) :
    Deed s.traffic (u.giveUp r.unfinished w).traffic := by
  have links : u.links = s.links := congrArg Traffic.links marked
  have endpoints : u.endpoints = s.endpoints := congrArg Traffic.endpoints marked
  unfold giveUp
  split
  · rename_i l
    unfold requeue
    rw [links]
    cases here : s.links.get? l with
    | none =>
      rw [Table.modify_of_none here, ← links]
      have lost : Deed s.traffic _ := .close _ r rest [] _ _ top (.lose (.queue l)) (by simp)
      exact marked ▸ lost
    | some lk =>
      have same : traffic { u with links := s.links.modify l fun k =>
          { k with queue := r.unfinished :: k.queue } } = { u.traffic with
            links := s.links.set l { lk with queue := r.unfinished :: lk.queue } } := by
        rw [Table.modify_eq_set here]
        rfl
      rw [same, marked]
      exact .requeue r l lk rest top here
  · rename_i c
    have same : (u.push [.add c r.unfinished]).traffic =
        { u.traffic with agenda := .add c r.unfinished :: u.traffic.agenda } := rfl
    rw [same, marked]
    exact .again r c rest top
  · rename_i e
    split
    · rename_i c slot
      rw [slot_eq, endpoints] at slot
      rcases slot with ⟨ep, here, slot⟩
      have same : (u.push [.add c r.unfinished, .release c.ref]).traffic = { u.traffic with
          agenda := .add c r.unfinished :: .release c.ref :: u.traffic.agenda } := rfl
      rw [same, marked]
      exact .first r e ep c rest top here slot
    · have cancelled : Deed s.traffic _ :=
        .close _ r rest [] _ _ top (.cancel (.endpoint e)) (by simp)
      rw [cancel_traffic, marked]
      simp only [Traffic.cancel, cancelNotes_unfinished, endHandle_unfinished, Array.append_assoc,
        List.append_toArray]
      exact cancelled
  · rename_i h
    have same : traffic { u with held := u.held.set h r.unfinished, verdict := .error .noResource } =
        { u.traffic with held := u.traffic.held.set h r.unfinished } := rfl
    rw [same, marked]
    exact .returned r h rest top

theorem finish_deed {r : Request} {o : Outcome} {w : Waiter}
    (top : s.agenda = .conclude r o w :: rest) (done : o.isNoResource = false)
    (marked : u.traffic = { s.traffic with
      handles := endHandle s.handles r o, trace := s.trace ++ (r.answerNotes o).toArray
      agenda := rest }) :
    Deed s.traffic (u.finish r.finished o w).traffic := by
  have closed (jobs : List Job) (bare : ∀ k ∈ jobs, k.isBare = true) :
      Deed s.traffic { u.traffic with agenda := jobs ++ rest } := by
    rw [marked]
    exact .close _ r rest jobs _ _ top (.finish o w done) bare
  have agenda : u.agenda = rest := congrArg Traffic.agenda marked
  rw [← agenda] at closed
  unfold finish
  split
  · rename_i l
    simp only [discard_finished]
    exact closed [.dispatch l] (by simp [Job.isBare])
  · rw [discard_finished]
    exact closed [] (by simp)
  · rw [discard_finished]
    exact closed [] (by simp)
  · rename_i h
    have same : traffic { u with held := u.held.set h r.finished, verdict := o } =
        { u.traffic with held := u.traffic.held.set h r.finished } := rfl
    rw [same, marked]
    exact .completed r o h rest top done

theorem conclude_deed {r : Request} {o : Outcome} {w : Waiter}
    (top : s.agenda = .conclude r o w :: rest) :
    Deed s.traffic (conclude { s with agenda := rest } r o w).traffic := by
  unfold conclude
  simp only
  split
  · rename_i out
    cases noResource_of_isNoResource out
    exact giveUp_deed top (recordAttempt_out _ r)
  · rename_i done
    have done := Bool.eq_false_iff.2 done
    exact finish_deed top done (recordAttempt_traffic _ r done)

/-! ## Queues -/

theorem park_traffic (s : Network) (x : StubId) (st : Stub) (w : WorkerId) (r : Request) :
    (s.park x st w r).traffic = { s.traffic with
      stubs := s.stubs.set x { st with parked := st.parked ++ [r] }
      trace := s.trace.push (.parked x r) } := by
  unfold park
  simp only
  split <;> rfl

theorem enqueue_cases (s : Network) (l : LinkId) (r : Request) :
    (∃ lk, s.links.get? l = some lk ∧ s.enqueue l r =
      ({ s with links := s.links.set l { lk with queue := lk.queue ++ [r] } }, none)) ∨
    ((∀ lk, s.links.get? l = some lk → lk.queue = []) ∧ s.enqueue l r = (s, some r)) := by
  unfold enqueue
  cases here : s.links.get? l with
  | none => exact .inr ⟨by simp, rfl⟩
  | some lk =>
    simp only
    split
    · rename_i free
      rw [Bool.and_eq_true, List.isEmpty_iff] at free
      exact .inr ⟨fun k hk => Option.some.inj hk ▸ free.1, rfl⟩
    · exact .inl ⟨lk, rfl, rfl⟩

theorem offer_offers (s : Network) (c : Carrier) (r : Request) :
    s.traffic.Offers c r (s.offer c r).1.traffic (s.offer c r).2 := by
  have back (x : StubId) : s.traffic.Offers (.stub x) r s.traffic (some r) :=
    .back (.stub x) r r (.inl rfl) (by simp)
  unfold offer
  cases c with
  | link l =>
    simp only
    rcases enqueue_cases s l r with ⟨lk, here, h⟩ | ⟨free, h⟩
    · rw [h]
      exact .queue r l lk here
    · rw [h]
      refine .back (.link l) r r (.inl rfl) fun k lk hk here => ?_
      cases hk
      exact free lk here
  | stub x =>
    cases stub : s.stubs.get? x with
    | none =>
      simp only [stub]
      exact back x
    | some st =>
      simp only [stub]
      split
      · rename_i signal
        cases link : st.signalLink with
        | none =>
          exact back x
        | some l =>
          simp only
          rcases enqueue_cases (s.enterGate st.gate) l (.counted st.gate r) with
            ⟨lk, here, h⟩ | ⟨-, h⟩
          · rw [h]
            exact .cover r x st l lk stub signal link here
          · rw [h]
            exact .back (.stub x) r _ (.inr ⟨signal, st.gate, rfl⟩) (by simp)
      · rename_i data
        have data : r.isSignal = false := Bool.eq_false_iff.2 data
        split
        · exact back x
        · rename_i w next _ _ unswitched
          rw [park_traffic]
          exact .park r x st stub data (by simp [unswitched])
        · rename_i w l _ switched link
          rcases enqueue_cases s l r with ⟨lk, here, h⟩ | ⟨-, h⟩
          · rw [h]
            exact .promoted r x st l lk stub data switched link here
          · rw [h]
            exact back x
        · exact back x

theorem offer_deed {c : Carrier} {r : Request} (top : s.agenda = .add c r :: rest) :
    Deed s.traffic (offerOrAttempt { s with agenda := rest } c r).traffic := by
  have offered := offer_offers { s with agenda := rest } c r
  unfold offerOrAttempt
  split
  · rename_i t h
    rw [h] at offered
    exact .add r c rest t.traffic top offered
  · rename_i t back h
    rw [h] at offered
    exact .handBack r back c rest t.traffic top offered

theorem dispatch_deed {l : LinkId} (top : s.agenda = .dispatch l :: rest) :
    Deed s.traffic (dispatch { s with agenda := rest } l).traffic := by
  have idle : Deed s.traffic (traffic { s with agenda := rest }) :=
    (Tends.refl _).deed top (by simp) rfl
  unfold dispatch dequeue
  cases here : s.links.get? l with
  | none => exact idle
  | some lk =>
    cases credit : lk.credits with
    | zero =>
      simp only [credit]
      exact idle
    | succ credits =>
      cases front : lk.queue with
      | nil =>
        simp only [credit, front]
        exact idle
      | cons r queue =>
        simp only [credit, front]
        have taken : Deed s.traffic { s.traffic with
            links := s.links.set l { lk with queue }, agenda := .attempt r (.queue l) :: rest } :=
          .dequeue r l lk queue rest top here front
        rw [← credit]
        exact taken

/-! ## Delivery and progress -/

theorem deliver_deed {i : InterfaceId} {left : Nat} (top : s.agenda = .deliver i left :: rest) :
    Deed s.traffic (deliver { s with agenda := rest } i left).traffic := by
  have idle : Deed s.traffic (traffic { s with agenda := rest }) :=
    (Tends.refl _).deed top (by simp) rfl
  unfold deliver
  cases left with
  | zero => exact idle
  | succ left =>
    cases here : s.interfaces.get? i with
    | none => exact idle
    | some f =>
      cases front : f.inbox with
      | nil =>
        simp only [front]
        exact idle
      | cons m inbox =>
        simp only [front]
        exact .deliver i f m inbox left rest top here front

theorem forward_deed {log : String} {c : Carrier} {decode : Bool} {m : Message}
    (top : s.agenda = .handle (.record log (some c) decode) m :: rest) :
    Deed s.traffic (forward (note { s with agenda := rest }
      (.recorded log m.id (content decode m.payload))) log c m).traffic := by
  have recorded (jobs : List Job) (marks : List Happening) (bare : ∀ k ∈ jobs, k.isBare = true)
      (still : ∀ x ∈ marks, x.isStill = true) : Deed s.traffic { s.traffic with
        trace := s.trace.push (.recorded log m.id (content decode m.payload)) ++ marks.toArray
        agenda := jobs ++ rest } :=
    .record log (some c) decode m rest jobs marks top bare still
  let seen := note { s with agenda := rest } (.recorded log m.id (content decode m.payload))
  unfold forward
  split
  · rcases sendOver_transmits seen c m.id m.payload none with
      ⟨-, ⟨x, rfl⟩, h⟩ | ⟨why, h⟩ | ⟨l, t, carries, sent, h⟩
    · simp only [seen] at h
      simp only [h]
      have held := recorded [.switchover x, .recount s.tally, .noteForward log (.error .noResource),
        .release (.stub x)] [] (by simp [Job.isBare]) (by simp)
      simp only [Array.append_empty, List.cons_append, List.nil_append] at held
      exact held
    · simp only [seen] at h
      simp only [h]
      have refused := recorded [] [.forwarded log (.error why)] (by simp)
        (by simp [Happening.isStill, Happening.isMute])
      simp only [List.nil_append, Array.append_singleton] at refused
      exact refused
    · simp only [seen] at h
      simp only [h]
      have carries' : s.traffic.Carries l m.id c := by
        cases carries with
        | link => exact .link
        | stub x st here link signal => exact .stub x st here link signal
      exact .relay log c decode m l rest (.forwarded log (.ok ())) t.traffic top carries' sent rfl
  · have gone := recorded [] [] (by simp) (by simp)
    simp only [Array.append_empty, List.nil_append] at gone
    exact gone

theorem dispatchLinks_tends (s : Network) (i : InterfaceId) : Tends s (s.dispatchLinks i) := by
  refine .push fun k hk => ?_
  simp only [List.mem_flatMap, List.mem_cons, List.not_mem_nil, or_false] at hk
  rcases hk with ⟨l, -, rfl | rfl⟩ <;> rfl

theorem progressInterface_tends (s : Network) (i : InterfaceId) :
    Tends s (s.progressInterface i) := by
  unfold progressInterface
  split
  · exact .refl s
  · exact .push (by simp [Job.isBare])

theorem runRegistry_tends (s : Network) (id : RegistryId) : Tends s (s.runRegistry id) := by
  unfold runRegistry
  have pruned : Tends s { s.prune id with
      tally := s.tally + (((s.prune id).registry id).map Prod.fst).length } := .same rfl
  refine pruned.trans (.push fun k hk => ?_)
  simp only [List.mem_append, List.mem_map] at hk
  rcases hk with ⟨x, -, rfl⟩ | ⟨x, -, rfl⟩ <;> rfl

theorem letGo_tends (s : Network) (ref : Ref) : Tends s (s.letGo ref) := by
  unfold letGo
  split
  · have dropped : Tends s { s with holds := s.holds.erase ref } := .same rfl
    exact dropped.trans (.push (by simp [Job.isBare]))
  · exact .refl s

theorem act_tends (s : Network) (id : RegistryId) (a : Action) : Tends s (s.act id a) := by
  unfold act
  split
  · split
    · exact .same rfl
    · exact .refl s
  · split
    · exact .same rfl
    · exact .refl s
  · split
    · exact letGo_tends s _
    · exact .refl s

theorem run_tends (s : Network) (x : Runner) : Tends s (s.run x) := by
  unfold run
  split
  · exact .push (by simp [Job.isBare])
  · rename_i c
    unfold runCallback
    split
    · exact .refl s
    · rename_i cb here
      have called : Tends s (note { s with
          callbacks := s.callbacks.set c { cb with script := cb.script.tail } }
          (.called cb.name)) := (Tends.same rfl).trans (.note rfl)
      exact called.trans (.foldl (f := fun s a => s.act cb.registry a)
        (fun s a => act_tends s cb.registry a) _ _)

/-! ## Marks -/

theorem markRemoteConnected_tends (s : Network) (x : StubId) :
    Tends s (s.markRemoteConnected x) := by
  have marked : Tends s { s with
      stubs := s.stubs.modify x fun t => { t with remoteConnected := true } } := .rig (.mark x)
  exact marked.trans (.note rfl)

theorem markSlot_tends (s : Network) (slot : Slot) : Tends s (s.markSlot slot) := by
  unfold markSlot
  split
  · exact markRemoteConnected_tends s _
  · exact .refl s

theorem markLanes_tends (s : Network) (e : EndpointId) : Tends s (s.markLanes e) := by
  unfold markLanes
  split
  · exact .refl s
  · rename_i ep _
    exact .foldl (f := fun s lane => s.markSlot (ep.slots.get lane))
      (fun s lane => markSlot_tends s _) _ s

theorem applyPosted_tends (s : Network) (w : WorkerId) : Tends s (s.applyPosted w).1 := by
  unfold applyPosted
  split
  · exact .refl s
  · rename_i wk _
    have taken : Tends s { s with workers := s.workers.set w { wk with posted := [] } } := .same rfl
    refine taken.trans (.foldl (f := applyEvent wk.directory) (fun s event => ?_) _ _)
    unfold applyEvent
    split
    · exact markSlot_tends s _
    · exact .refl s

theorem progressWorker_tends (s : Network) (w : WorkerId) : Tends s (s.progressWorker w) := by
  unfold progressWorker
  split
  · exact .refl s
  · rename_i wk _
    have applied := applyPosted_tends s w
    have counted : Tends (s.applyPosted w).1 { (s.applyPosted w).1 with
        tally := (s.applyPosted w).1.tally + (s.applyPosted w).2 } := .same rfl
    refine (applied.trans counted).trans (.push fun k hk => ?_)
    simp only [List.mem_append, List.mem_map, List.mem_singleton] at hk
    rcases hk with ⟨r, -, rfl⟩ | rfl <;> rfl

/-! ## Opening and connecting -/

/-- A link is refused, or is new. -/
theorem openLink_new (s : Network) (owner : InterfaceId) :
    (∃ why, s.openLink owner = (s, .error why)) ∨
    ∃ f, s.interfaces.get? owner = some f ∧
      s.openLink owner = ((s.newLink owner f none).1, .ok s.links.next) := by
  unfold openLink
  split
  · exact .inl ⟨_, rfl⟩
  · rename_i f here
    split
    · exact .inl ⟨_, rfl⟩
    · exact .inr ⟨f, here, rfl⟩

/-- A link is opened without a destination only where links can be paired. -/
theorem openLink_able {owner : InterfaceId} {f : Interface} {l : LinkId}
    (here : s.interfaces.get? owner = some f) (opened : s.openLink owner = (t, .ok l)) :
    f.settings.capabilities.contains .connectToLink = true := by
  unfold openLink require at opened
  simp only [here] at opened
  split at opened
  · cases opened
  · rename_i able
    by_contra unable
    rw [if_neg unable] at able
    cases able

theorem openConnectedLink_new (s : Network) (owner : InterfaceId) (device address : Bytes) :
    (∃ why, s.openConnectedLink owner device address = (s, .error why)) ∨
    ∃ f dest, s.interfaces.get? owner = some f ∧ s.openConnectedLink owner device address =
      ((s.newLink owner f (some dest)).1, .ok s.links.next) := by
  unfold openConnectedLink
  split
  · exact .inl ⟨_, rfl⟩
  · rename_i f here
    split
    · exact .inl ⟨_, rfl⟩
    · rename_i dest _
      exact .inr ⟨f, dest, here, rfl⟩

theorem openAuxiliary_new (s : Network) (w : Worker) (peer : String) (entries : List AddressEntry)
    (scorer : Scorer) :
    (∃ why, s.openAuxiliary w peer entries scorer = (s, .error why)) ∨
    ∃ owner f dest index, s.interfaces.get? owner = some f ∧
      s.openAuxiliary w peer entries scorer =
        ((s.newLink owner f (some dest)).1, .ok (index, s.links.next)) := by
  unfold openAuxiliary
  split
  · exact .inl ⟨_, rfl⟩
  · rename_i best _
    split
    · rename_i r entry _ _
      rcases openConnectedLink_new s r.interface entry.deviceAddress entry.interfaceAddress with
        ⟨why, h⟩ | ⟨f, dest, here, h⟩
      · exact .inl ⟨.refused why, by rw [h]⟩
      · exact .inr ⟨r.interface, f, dest, best.resource, here, by rw [h]⟩
    · exact .inl ⟨_, rfl⟩

theorem newLink_tends {owner : InterfaceId} {f : Interface}
    (here : s.interfaces.get? owner = some f) (dest : Option InterfaceId) :
    Tends s (s.newLink owner f dest).1 := by
  have numbered : Tends s { s with
      interfaces := s.interfaces.set owner { f with linksOpened := f.linksOpened + 1 } } :=
    .rig (.number owner f _ here)
  exact numbered.trans (.rig (.openLink _ ⟨rfl, rfl⟩))

theorem connect_tends (s : Network) (x : StubId) (device address : Bytes) :
    Tends s (s.connect (.stub x) device address).1 := by
  unfold connect
  simp only
  split
  · exact .refl s
  · rename_i next hn
    rcases Option.bind_eq_some_iff.1 hn with ⟨st, here, next⟩
    unfold connectLink
    split
    · rename_i h
      split at h
      · cases h
      · rename_i dest _
        cases h
        have paired : Tends s { s with
            links := s.links.modify _ fun lk => { lk with dest := some dest }
            stubs := s.stubs.modify x fun t => { t with localConnected := true } } :=
          .rig (.pair x st _ dest here next)
        exact paired.trans (.note rfl)
    · rename_i h
      split at h
      · cases h
        exact .refl s
      · cases h

theorem connectLanes_tends (s : Network) (e : EndpointId) (lanes : List LaneAddress) :
    Tends s (s.connectLanes e lanes).1 := by
  induction lanes generalizing s with
  | nil => exact .refl s
  | cons lane lanes ih =>
    unfold connectLanes
    split
    · rename_i x _
      have connected := connect_tends s x lane.deviceAddress lane.linkAddress
      split
      · rename_i u h
        rw [h] at connected
        exact connected.trans (ih u)
      · rename_i u why h
        rw [h] at connected
        exact connected
    · exact ih s

theorem openEndpoint_tends (s : Network) (w : WorkerId) (dest : UInt64) (peer : String) :
    Tends s (s.openEndpoint w dest peer).1 := by
  unfold openEndpoint
  split
  · exact .refl s
  · rename_i wk _
    let ep : Endpoint :=
      { worker := w, dest, peer, plan := wk.plan, flushAttempts := wk.settings.flushAttempts }
    let directory := (wk.directory.filter fun entry => entry.1 != dest) ++ [(dest, s.endpoints.next)]
    have opened : Tends s { s with endpoints := s.endpoints.push ep } := .rig (.openEndpoint ep rfl)
    have entered : Tends { s with endpoints := s.endpoints.push ep }
        { s with
          endpoints := s.endpoints.push ep
          workers := s.workers.set w { wk with directory } } := .same rfl
    exact (opened.trans entered).trans (.note rfl)

/-- A stub for a lane of an endpoint is refused, or has links of its own. -/
theorem openStub_tends {e : EndpointId} {ep : Endpoint} (here : s.endpoints.get? e = some ep)
    (w : Worker) (lane : Category) (interface : InterfaceId) (entries : List AddressEntry) :
    (∃ u why, s.openStub e ep w lane interface entries = (u, .error why) ∧ Tends s u) ∨
    ∃ u x, s.openStub e ep w lane interface entries = (u, .ok x) ∧
      Tends s (u.setSlots e (installLane ep lane (.stub x))) := by
  unfold openStub
  rcases openLink_new s interface with ⟨why, h⟩ | ⟨f, hf, h⟩
  · simp only [h]
    exact .inl ⟨_, _, rfl, .refl s⟩
  · have able := openLink_able hf h
    simp only [h]
    let linked := (s.newLink interface f none).1
    have numbered : Rig s.traffic { s.traffic with
        interfaces := s.interfaces.set interface { f with linksOpened := f.linksOpened + 1 } } :=
      .number interface f _ hf
    by_cases messages : lane = .messages
    · simp only [if_pos messages]
      rcases openAuxiliary_new linked w ep.peer entries .auxiliary with
        ⟨why, h⟩ | ⟨owner, f', dest, index, hf', h⟩
      · simp only [linked] at h
        simp only [h]
        refine .inl ⟨_, _, rfl, (newLink_tends hf none).trans ?_⟩
        unfold retireLink
        split
        · exact .refl _
        · rename_i lk here
          refine .rigs ?_
          rw [foldl_cancel_traffic]
          exact .closeLink here
      · simp only [linked] at h
        simp only [h]
        refine .inr ⟨_, _, rfl, .rigs (.head numbered (.head (.number owner f' (f'.linksOpened + 1) hf') ?_))⟩
        exact .single (.stubLane e ep lane _ _ (some _) here ⟨rfl, rfl⟩
          (by rintro lk' ⟨⟩; exact ⟨rfl, rfl⟩) rfl
          (by simp [newLink, Table.next_push, traffic]) ⟨rfl, rfl⟩ rfl rfl able)
    · simp only [if_neg messages]
      refine .inr ⟨_, _, rfl, .rigs (.head numbered (.single ?_))⟩
      exact .stubLane e ep lane _ _ none here ⟨rfl, rfl⟩ (by simp) rfl rfl ⟨rfl, rfl⟩ rfl rfl able

/-- A lane of an endpoint is refused, or gets a carrier of its own. -/
theorem openLane_tends {e : EndpointId} {ep : Endpoint} (here : s.endpoints.get? e = some ep)
    (w : Worker) (lane : Category) (entries : List AddressEntry) :
    (∃ u why, s.openLane e ep w lane entries = (u, .error why) ∧ Tends s u) ∨
    ∃ u c, s.openLane e ep w lane entries = (u, .ok c) ∧
      Tends s (u.setSlots e (installLane ep lane c)) := by
  unfold openLane
  split
  · exact .inl ⟨_, _, rfl, .refl s⟩
  · rename_i r _
    split
    · exact .inl ⟨_, _, rfl, .refl s⟩
    · split
      · rcases openStub_tends here w lane r.interface entries with
          ⟨u, why, h, tends⟩ | ⟨u, x, h, tends⟩
        · simp only [h]
          exact .inl ⟨_, _, rfl, tends⟩
        · simp only [h]
          exact .inr ⟨_, _, rfl, tends⟩
      · dsimp only
        generalize List.find? _ entries = found
        cases found with
        | none => exact .inl ⟨_, _, rfl, .refl s⟩
        | some entry =>
          simp only
          rcases openConnectedLink_new s r.interface entry.deviceAddress entry.interfaceAddress
            with ⟨why, h⟩ | ⟨f, dest, hf, h⟩
          · simp only [h]
            exact .inl ⟨_, _, rfl, .refl s⟩
          · simp only [h]
            refine .inr ⟨_, _, rfl, .rigs (.head (.number r.interface f (f.linksOpened + 1) hf) (.single ?_))⟩
            exact .linkLane e ep lane _ here ⟨rfl, rfl⟩

theorem openLanes_tends (s : Network) (e : EndpointId) (entries : List AddressEntry)
    (lanes : List Category) : Tends s (s.openLanes e entries lanes).1 := by
  induction lanes generalizing s with
  | nil => exact .refl s
  | cons lane lanes ih =>
    unfold openLanes
    split
    · exact .refl s
    · rename_i ep here
      split
      · exact .refl s
      · rename_i w _
        rcases openLane_tends here w lane entries with ⟨u, why, h, tends⟩ | ⟨u, c, h, tends⟩
        · simp only [h]
          exact tends
        · simp only [h]
          exact tends.trans (ih _)

/-! ## Signals -/

/-- What the handling of a signal does: it tends the traffic, and may then answer with a signal. -/
inductive Answers (s : Network) : Network → Prop
  | silent {t : Network} (tends : Tends s t) : Answers s t
  | signal {u t : Network} (m : Send) (tends : Tends s u) (signal : m.messageId = Signal.messageId)
      (handle : m.handle = u.handles.next)
      (asked : t.traffic = { u.traffic with
        handles := u.handles.push none
        agenda := .attempt (.send m) (.endpoint m.endpoint) :: u.traffic.agenda }) : Answers s t

theorem Tends.answers (h : Tends s t) (g : Answers t u) : Answers s u := by
  cases g with
  | silent tends => exact .silent (h.trans tends)
  | signal m tends signal handle asked => exact .signal m (h.trans tends) signal handle asked

theorem answer_answers (s : Network) (e : EndpointId) (kind : Signal.Kind) :
    Answers s (s.answer e kind) := by
  unfold answer
  rcases s.newSignal_cases e kind with ⟨why, h⟩ | ⟨payload, -, h⟩
  · simp only [h]
    exact .silent (.refl s)
  · simp only [h]
    let m : Send := ⟨e, Signal.messageId, payload, s.handles.next⟩
    have noted : Tends s (s.note (.sent m.handle e Signal.messageId payload)) := .note rfl
    exact .signal m noted rfl rfl rfl

theorem replyTo_answers (s : Network) (e : EndpointId) (lanes : List LaneAddress) :
    Answers s (s.replyTo e lanes) := by
  have connected := connectLanes_tends s e lanes
  unfold replyTo
  split
  · rename_i u why h
    rw [h] at connected
    exact .silent connected
  · rename_i u h
    rw [h] at connected
    exact connected.answers (answer_answers u e .reply)

theorem welcome_answers (s : Network) (w : WorkerId) (m : Signal) (address : WorkerAddress) :
    Answers s (s.welcome w m address) := by
  have opened := openEndpoint_tends s w m.source address.name
  unfold welcome
  generalize s.openEndpoint w m.source address.name = new at opened
  rcases new with ⟨t, e⟩
  simp only
  let held := t.push [.release (.endpoint e), .release (.worker w)]
  have pushed : Tends t held := .push (by simp [Job.isBare])
  let lanes := ((held.workers.get? w).map fun w => w.plan.lanes).getD []
  have furnished := (opened.trans pushed).trans (openLanes_tends held e address.entries lanes)
  split
  · rename_i u why h
    simp only [held, lanes] at furnished
    rw [h] at furnished
    exact .silent (furnished.trans (.push (by simp [Job.isBare])))
  · rename_i u h
    simp only [held, lanes] at furnished
    rw [h] at furnished
    exact furnished.answers (replyTo_answers u e m.lanes)

theorem receive_answers (s : Network) (w : WorkerId) (m : Signal) : Answers s (s.receive w m) := by
  unfold receive
  split
  · split
    · exact welcome_answers s w m _
    · exact .silent (.refl s)
  · rename_i e _
    let held := s.push [.release (.endpoint e), .release (.worker w)]
    have pushed : Tends s held := .push (by simp [Job.isBare])
    simp only
    split
    · exact pushed.answers (replyTo_answers held e m.lanes)
    · have connected := pushed.trans (connectLanes_tends held e m.lanes)
      split
      · rename_i u why h
        simp only [held] at connected
        rw [h] at connected
        exact .silent connected
      · rename_i u h
        simp only [held] at connected
        rw [h] at connected
        exact (connected.trans (markLanes_tends u e)).answers (answer_answers _ e .ack)
    · exact .silent (pushed.trans (markLanes_tends held e))

theorem handleSignal_answers (s : Network) (w : WorkerId) (payload : Bytes) :
    Answers s (s.handleSignal w payload) := by
  unfold handleSignal
  split
  · split
    · exact receive_answers s w _
    · exact .silent (.refl s)
  · exact .silent (.refl s)

theorem handle_deed {h : Handler} {m : Message} (top : s.agenda = .handle h m :: rest) :
    Deed s.traffic (handle { s with agenda := rest } m h).traffic := by
  unfold handle
  cases h with
  | record log carrier decode =>
    cases carrier with
    | some c => exact forward_deed top
    | none =>
      have recorded : Deed s.traffic _ := .record log none decode m rest [] [] top (by simp) (by simp)
      simp only [Array.append_empty, List.nil_append] at recorded
      exact recorded
  | signals w =>
    have answers := handleSignal_answers { s with agenda := rest } w m.payload
    simp only
    generalize handleSignal { s with agenda := rest } w m.payload = t at answers
    cases answers with
    | silent tends => exact tends.deed top (by simp) rfl
    | @signal v _ send tends signal handle asked =>
      rcases tends with ⟨jobs, u, rigged, bare, hu⟩
      have handles : v.handles = u.handles := congrArg Traffic.handles hu
      have deed : Deed s.traffic _ :=
        .ask w m send rest jobs u top rigged bare signal (handles ▸ handle)
      rw [asked, hu, handles]
      exact deed

/-! ## Release and destruction -/

theorem releaseLink?_bare (l : Option LinkId) : ∀ k ∈ releaseLink? l, k.isBare = true := by
  intro k hk
  rcases mem_releaseLink?.1 hk with ⟨l, -, rfl⟩
  rfl

theorem releaseSlots_bare (slots : PerCategory Slot) : ∀ k ∈ releaseSlots slots, k.isBare = true := by
  intro k hk
  rcases mem_releaseSlots.1 hk with ⟨c, -, rfl⟩
  rfl

/-- A stub that goes down without a violation has nothing parked. -/
theorem retireStub_tends (s : Network) (x : StubId) (calm : (s.retireStub x).violation = none) :
    Tends s (s.retireStub x) := by
  unfold retireStub at calm ⊢
  split
  · exact .refl s
  · rename_i st here
    simp only [here] at calm ⊢
    have closed : Tends s { s with stubs := s.stubs.erase x } := .rig (.closeStub x)
    split
    · rename_i unparked
      rw [List.isEmpty_iff] at unparked
      refine closed.trans (.push fun k hk => ?_)
      simp only [unparked, List.map_nil, List.append_nil, List.mem_append] at hk
      rcases hk with (hk | hk) | hk <;> exact releaseLink?_bare _ k hk
    · rename_i parked
      rw [if_neg parked] at calm
      exact absurd calm (violate_violation _ _)

theorem retire_tends (s : Network) (ref : Ref) (calm : (s.retire ref).violation = none) :
    Tends s (s.retire ref) := by
  unfold retire at calm ⊢
  cases ref with
  | interface i =>
    simp only [retireInterface]
    split
    · exact .refl s
    · rename_i f here
      have lost (ms : List Message) (u : Network) : (ms.foldl (fun s m => s.note (.lost i m)) u).traffic =
          { u.traffic with trace := u.trace ++ (ms.map (Happening.lost i)).toArray } := by
        induction ms generalizing u with
        | nil => simp [traffic]
        | cons m ms ih =>
          rw [List.foldl_cons, ih]
          simp [note, traffic]
      refine .rig ?_
      rw [lost]
      exact .closeInterface i f here
  | link l =>
    simp only [retireLink]
    split
    · exact .refl s
    · rename_i lk here
      refine .rigs ?_
      rw [foldl_cancel_traffic]
      exact .closeLink here
  | stub x => exact retireStub_tends s x calm
  | endpoint e =>
    simp only [retireEndpoint]
    split
    · exact .refl s
    · have closed : Tends s { s with endpoints := s.endpoints.erase e } := .rig (.closeEndpoint e)
      exact closed.trans (.push (releaseSlots_bare _))
  | worker w =>
    simp only [retireWorker]
    split
    · exact .refl s
    · have closed : Tends s { s with workers := s.workers.erase w } := .same rfl
      refine closed.trans (.push fun k hk => ?_)
      simp only [List.mem_append, List.mem_map] at hk
      rcases hk with ⟨r, -, rfl⟩ | ⟨entry, -, rfl⟩ <;> rfl
  | callback c => exact .same rfl

theorem release_tends (s : Network) (ref : Ref) (calm : (s.release ref).violation = none) :
    Tends s (s.release ref) := by
  unfold release at calm ⊢
  split
  · exact .refl s
  · rename_i free
    rw [if_neg free] at calm
    exact retire_tends s ref calm

theorem destroy_tends (s : Network) (e : EndpointId) : Tends s (s.destroy e) := by
  unfold destroy
  split
  · exact .refl s
  · rename_i ep _
    have cleared : Tends s (s.setSlots e (.const none)) := .rig (.clear e)
    refine (cleared.trans (.same ?_)).trans (.push fun k hk => ?_)
    · split <;> rfl
    · simp only [List.append_assoc, List.mem_append, List.mem_map, List.mem_flatMap] at hk
      rcases hk with ⟨r, -, rfl⟩ | ⟨c, -, hk⟩ | ⟨w, -, rfl⟩ | hk
      · rfl
      · cases c with
        | link l =>
          simp only [List.mem_cons, List.not_mem_nil, or_false] at hk
          rcases hk with rfl | rfl <;> rfl
        | stub x =>
          rw [List.mem_singleton.1 hk]
          rfl
      · rfl
      · exact releaseSlots_bare _ k hk

theorem purge_tends (s : Network) (c : Carrier) : Tends s (s.purge c) := by
  unfold purge
  cases c with
  | link l =>
    simp only [drain]
    cases here : s.links.get? l with
    | none => exact .refl s
    | some lk =>
      refine .rigs ?_
      simp only
      rw [foldl_cancel_traffic]
      exact .drain here
  | stub x =>
    simp only
    split
    · split
      · exact .refl s
      · refine .same ?_
        unfold violate
        split <;> rfl
    · exact .refl s

theorem flush_tends (s : Network) (l : LinkId) (w : Option WorkerId) (rounds : Nat) :
    Tends s (s.flush l w rounds) := by
  unfold flush
  split
  · exact .refl s
  · split
    · exact .push (by simp [Job.isBare])
    · exact .refl s

/-! ## Switchovers -/

theorem switch_traffic (s : Network) (x : StubId) (st : Stub) (w : WorkerId) (next : LinkId) :
    (s.switch x st w next).traffic = { s.traffic with
      stubs := s.stubs.set x
        { st with next := none, auxiliary := none, parked := [], promoted := some next }
      endpoints := s.endpoints.modify st.endpoint fun e => promoteSlots e x st.category next
      trace := s.trace.push (.switched x next)
      agenda := replay st w next ++ s.agenda } := by
  simp only [switch, note, foldl_unregister, push, replay, traffic]

theorem switchover_deed {x : StubId} (top : s.agenda = .switchover x :: rest) :
    Deed s.traffic (switchover { s with agenda := rest } x).traffic := by
  unfold switchover
  split
  · exact (Tends.refl _).deed top (by simp) rfl
  · rename_i w _
    have applied := applyPosted_tends { s with agenda := rest } w
    have kept := (applyPosted_quiet { s with agenda := rest } w).agenda
    simp only
    generalize (applyPosted { s with agenda := rest } w).1 = u at applied kept
    have idle := applied.deed top (by simp) rfl
    split
    · exact idle
    · rename_i st here
      split
      · rename_i next unswitched
        split
        · rename_i ready
          rcases applied with ⟨jobs, v, rigged, -, hv⟩
          have quiet : jobs = [] := by
            have agenda := congrArg Traffic.agenda hv
            simp only [traffic, kept, rigged.agenda] at agenda
            exact List.append_left_eq_self.1 agenda.symm
          have same : v = u.traffic := by
            rw [hv, quiet]
            rfl
          have connected : st.isConnected = true := (Bool.and_eq_true_iff.1 ready).1
          have switched : (u.switch x st w next).traffic = { u.traffic with
              stubs := u.stubs.set x
                { st with next := none, auxiliary := none, parked := [], promoted := some next }
              endpoints := u.endpoints.modify st.endpoint fun e => promoteSlots e x st.category next
              trace := u.trace.push (.switched x next)
              agenda := replay st w next ++ u.agenda } := switch_traffic u x st w next
          rw [switched, ← same]
          have stub : v.stubs.get? x = some st := same ▸ here
          have deed : Deed s.traffic _ :=
            .switch x st next w rest v top rigged stub unswitched connected
          rw [same] at deed ⊢
          exact deed
        · exact idle
      · exact idle

/-! ## Steps -/

theorem perform_deed {j : Job} (top : s.agenda = j :: rest)
    (calm : (perform { s with agenda := rest } j).violation = none) :
    Deed s.traffic (perform { s with agenda := rest } j).traffic := by
  have tends {t : Network} (h : Tends { s with agenda := rest } t)
      (light : ∀ l, j ≠ .giveBack l) (free : j.request? = none) : Deed s.traffic t.traffic :=
    h.deed top light free
  cases j with
  | release ref => exact tends (release_tends _ ref calm) (by simp) rfl
  | discard r =>
    have dropped : Deed s.traffic _ := .close _ r rest [] _ _ top .drop (by simp)
    exact (discard_traffic { s with agenda := rest } r) ▸ dropped
  | attempt r w => exact attempt_deed top
  | conclude r o w => exact conclude_deed top
  | add c r => exact offer_deed top
  | replayed w => exact tends (.same rfl) (by simp) rfl
  | switchover x => exact switchover_deed top
  | run x => exact tends (run_tends _ x) (by simp) rfl
  | runRegistry id => exact tends (runRegistry_tends _ id) (by simp) rfl
  | deliver i left => exact deliver_deed top
  | giveBack l => exact .giveBack l rest top
  | dispatchLinks i => exact tends (dispatchLinks_tends _ i) (by simp) rfl
  | dispatch l => exact dispatch_deed top
  | progressInterface i => exact tends (progressInterface_tends _ i) (by simp) rfl
  | progressWorker w => exact tends (progressWorker_tends _ w) (by simp) rfl
  | handle h m => exact handle_deed top
  | noteForward log o => exact tends (.note rfl) (by simp) rfl
  | recount n => exact tends (.same rfl) (by simp) rfl
  | destroy e => exact tends (destroy_tends _ e) (by simp) rfl
  | purge c => exact tends (purge_tends _ c) (by simp) rfl
  | flush l w rounds => exact tends (flush_tends _ l w rounds) (by simp) rfl
  | confirm e h =>
    refine tends ?_ (by simp) rfl
    unfold perform confirm
    simp only
    split
    · exact .push (by simp [Job.isBare])
    · exact .refl _

/-- A step of work that meets no violation does one deed to the traffic. -/
theorem step_deed (calm : s.step.violation = none) :
    s.step = s ∨ Deed s.traffic s.step.traffic := by
  have before := step_violation calm
  cases top : s.agenda with
  | nil => exact .inl (step_nil top)
  | cons j rest =>
    rw [step_eq top before] at calm ⊢
    exact .inr (perform_deed top calm)

/-- What every deed keeps is kept by all work that meets no violation. -/
theorem work_keeps {I : Traffic → Prop} (keeps : ∀ τ τ', I τ → Deed τ τ' → I τ') {fuel : Nat}
    (hs : I s.traffic) (calm : (work fuel s).violation = none) : I (work fuel s).traffic := by
  refine work_invariant (I := fun s => I s.traffic) (fun s hs calm => ?_) hs calm
  rcases step_deed calm with same | deed
  · exact same.symm ▸ hs
  · exact keeps _ _ hs deed

end Network

end Wiring
