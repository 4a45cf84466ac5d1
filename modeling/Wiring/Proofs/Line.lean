import Mathlib
import Wiring.Proofs.Replay

/-!
# A line of requests

Requests stand in a line. A new one joins at the end, and whatever else is done is done with the
first one: it is attempted, put back, finished, purged or cancelled. So the requests come to their
ends in the order in which they joined, and each comes to one.
-/
namespace Wiring

/-- Where a request stands in a line: it waits, or it is being attempted. Attempting it may already
have changed what is left of its script. -/
inductive Place where
  | waiting (r : Request)
  | served (r : Request)
  deriving DecidableEq, Repr

/-- What is done with a request in a line. -/
inductive Deal where
  | joined (r : Request)
  | taken (r : Request)
  /-- Its attempt has run out of resources, and it goes back to where it was. -/
  | starved (r : Request)
  /-- Its attempt has ended in any other way. -/
  | finished (r : Request) (o : Outcome)
  | purged (r : Request)
  | cancelled (r : Request)
  deriving DecidableEq, Repr

namespace Deal

def isJoin : Deal → Bool
  | .joined _ => true
  | _ => false

def isEnd : Deal → Bool
  | .finished _ _ | .purged _ | .cancelled _ => true
  | _ => false

end Deal

/-- One thing is done in a line. -/
inductive Turn : List Place → Deal → List Place → Prop
  | join (r : Request) (places : List Place) : Turn places (.joined r) (places ++ [.waiting r])
  | take (r : Request) (places : List Place) :
      Turn (.waiting r :: places) (.taken r) (.served r.taken :: places)
  | starve (r : Request) (places : List Place) :
      Turn (.served r :: places) (.starved r) (.waiting r.unfinished :: places)
  | finish (r : Request) (o : Outcome) (places : List Place) (done : o.isNoResource = false) :
      Turn (.served r :: places) (.finished r o) places
  | purge (r : Request) (places : List Place) : Turn (.waiting r :: places) (.purged r) places
  | cancel (r : Request) (places : List Place) : Turn (.waiting r :: places) (.cancelled r) places

/-- One thing after another is done in a line. -/
inductive Turns (a : List Place) : List Deal → List Place → Prop
  | refl : Turns a [] a
  | tail {b c : List Place} {ds : List Deal} {d : Deal} (h : Turns a ds b) (g : Turn b d c) :
      Turns a (ds ++ [d]) c

/-- The life of a request in a line, and the place where it has led to: none once it is over. It is
attempted until an attempt does not run out of resources, unless it is purged or cancelled before. -/
inductive Life : List Deal → Option Place → Prop
  | joined (r : Request) : Life [.joined r] (some (.waiting r))
  | taken {ds : List Deal} {r : Request} (h : Life ds (some (.waiting r))) :
      Life (ds ++ [.taken r]) (some (.served r.taken))
  | starved {ds : List Deal} {r : Request} (h : Life ds (some (.served r))) :
      Life (ds ++ [.starved r]) (some (.waiting r.unfinished))
  | finished {ds : List Deal} {r : Request} (o : Outcome) (done : o.isNoResource = false)
      (h : Life ds (some (.served r))) : Life (ds ++ [.finished r o]) none
  | purged {ds : List Deal} {r : Request} (h : Life ds (some (.waiting r))) :
      Life (ds ++ [.purged r]) none
  | cancelled {ds : List Deal} {r : Request} (h : Life ds (some (.waiting r))) :
      Life (ds ++ [.cancelled r]) none

/-- What is done in a line, with the numbers of the requests that it is done with. -/
abbrev Logbook := List (Nat × Deal)

namespace Logbook

/-- What was done with one request. -/
def story (log : Logbook) (n : Nat) : List Deal := (log.filter fun x => x.1 == n).map Prod.snd

/-- The requests that joined are numbered in that order. The first of them have come to their ends, one
after another, and the others stand in the line. Each has lived up to there, and nothing was done with
it before those ahead of it had come to their ends. -/
structure InOrder (log : Logbook) (ended joined : Nat) (places : List Place) : Prop where
  joins : (log.filter fun x => x.2.isJoin).map Prod.fst = List.range joined
  ends : (log.filter fun x => x.2.isEnd).map Prod.fst = List.range ended
  counted : joined = ended + places.length
  known : ∀ x ∈ log, x.1 < joined
  lives : ∀ n < joined, Life (log.story n) (if n < ended then none else places[n - ended]?)
  ahead : ∀ (before after : Logbook) (n : Nat) (d : Deal), log = before ++ (n, d) :: after →
    d.isJoin = false → ∀ m < n, ∃ d', (m, d') ∈ before ∧ d'.isEnd = true

variable {log : Logbook} {ended joined n m : Nat} {places : List Place} {p p' : Place} {d : Deal}

theorem story_own (log : Logbook) (n : Nat) (d : Deal) :
    story (log ++ [(n, d)]) n = log.story n ++ [d] := by
  simp [story]

theorem story_other (log : Logbook) (h : m ≠ n) (d : Deal) :
    story (log ++ [(m, d)]) n = log.story n := by
  simp [story, h]

namespace InOrder

theorem nil : InOrder [] 0 0 [] where
  joins := rfl
  ends := rfl
  counted := rfl
  known _ h := by cases h
  lives _ h := by cases h
  ahead before after n d h := by simp at h

/-- Nothing is done with a request before those ahead of it have come to their ends, if this is so of
what is done last. -/
theorem ahead_snoc (h : InOrder log ended joined places) (last : d.isJoin = false → n ≤ ended)
    (before after : Logbook) (m : Nat) (d' : Deal)
    (split : log ++ [(n, d)] = before ++ (m, d') :: after) (old : d'.isJoin = false) : ∀ k < m, ∃ d'', (k, d'') ∈ before ∧ d''.isEnd = true := by
  rcases List.eq_nil_or_concat after with rfl | ⟨after, x, rfl⟩
  · rcases List.append_inj' split rfl with ⟨rfl, same⟩
    cases same
    intro k hk
    have ended : k ∈ (log.filter fun x => x.2.isEnd).map Prod.fst := by
      rw [h.ends]
      exact List.mem_range.2 (hk.trans_le (last old))
    rcases List.mem_map.1 ended with ⟨⟨_, d''⟩, heard, rfl⟩
    rcases List.mem_filter.1 heard with ⟨mem, closes⟩
    exact ⟨d'', mem, closes⟩
  · rw [List.concat_eq_append, ← List.cons_append, ← List.append_assoc] at split
    exact h.ahead before after m d' (List.append_inj' split rfl).1 old

theorem join (h : InOrder log ended joined places) (r : Request) :
    InOrder (log ++ [(joined, .joined r)]) ended (joined + 1) (places ++ [.waiting r]) where
  joins := by
    rw [List.filter_append, List.map_append, h.joins, List.range_succ]
    rfl
  ends := by simpa [Deal.isEnd] using h.ends
  counted := by
    have counted := h.counted
    simp only [List.length_append, List.length_singleton]
    omega
  known x hx := by
    rcases List.mem_append.1 hx with hx | hx
    · exact Nat.lt_succ_of_lt (h.known x hx)
    · rw [List.mem_singleton.1 hx]
      exact Nat.lt_succ_self _
  lives n hn := by
    have counted := h.counted
    rcases Nat.lt_succ_iff_lt_or_eq.1 hn with old | rfl
    · rw [story_other log old.ne']
      have life := h.lives n old
      by_cases past : n < ended
      · simpa only [if_pos past] using life
      · rw [if_neg past] at life ⊢
        rwa [List.getElem?_append_left (by omega)]
    · have unheard : log.story n = [] := by
        simp only [story, List.map_eq_nil_iff, List.filter_eq_nil_iff, beq_iff_eq]
        exact fun x hx => (h.known x hx).ne
      have last : n - ended = places.length := by omega
      rw [story_own, unheard, if_neg (by omega), last, List.getElem?_concat_length]
      exact .joined r
  ahead := h.ahead_snoc fun old => by cases old

/-- Something is done with the first request. -/
theorem front (h : InOrder log ended joined (p :: places)) (old : d.isJoin = false) :
    (((log ++ [(ended, d)]).filter fun x => x.2.isJoin).map Prod.fst = List.range joined) ∧
      (∀ x ∈ log ++ [(ended, d)], x.1 < joined) ∧ Life (log.story ended) (some p) := by
  have counted := h.counted
  rw [List.length_cons] at counted
  refine ⟨by simpa [old] using h.joins, fun x hx => ?_, ?_⟩
  · rcases List.mem_append.1 hx with hx | hx
    · exact h.known x hx
    · rw [List.mem_singleton.1 hx]
      exact (by omega : ended < joined)
  · have life := h.lives ended (by omega)
    rwa [if_neg (lt_irrefl ended), Nat.sub_self, List.getElem?_cons_zero] at life

/-- The first request gets to another place. -/
theorem stay (h : InOrder log ended joined (p :: places)) (old : d.isJoin = false)
    (stays : d.isEnd = false) (goes : ∀ ds, Life ds (some p) → Life (ds ++ [d]) (some p')) :
    InOrder (log ++ [(ended, d)]) ended joined (p' :: places) := by
  rcases h.front old with ⟨joins, known, life⟩
  refine ⟨joins, by simpa [stays] using h.ends, h.counted, known, fun n hn => ?_,
    h.ahead_snoc fun _ => le_rfl⟩
  by_cases first : ended = n
  · subst first
    rw [story_own, if_neg (lt_irrefl ended), Nat.sub_self, List.getElem?_cons_zero]
    exact goes _ life
  · rw [story_other log first]
    have other := h.lives n hn
    by_cases past : n < ended
    · simpa only [if_pos past] using other
    · rw [if_neg past] at other ⊢
      rw [show n - ended = n - ended - 1 + 1 by omega] at other ⊢
      exact other

/-- The first request comes to its end. -/
theorem leave (h : InOrder log ended joined (p :: places)) (old : d.isJoin = false)
    (closes : d.isEnd = true) (goes : ∀ ds, Life ds (some p) → Life (ds ++ [d]) none) :
    InOrder (log ++ [(ended, d)]) (ended + 1) joined places := by
  have counted := h.counted
  rw [List.length_cons] at counted
  rcases h.front old with ⟨joins, known, life⟩
  refine ⟨joins, ?_, by omega, known, fun n hn => ?_, h.ahead_snoc fun _ => le_rfl⟩
  · simp [closes, h.ends, List.range_succ]
  · by_cases first : ended = n
    · subst first
      rw [story_own, if_pos (Nat.lt_succ_self _)]
      exact goes _ life
    · rw [story_other log first]
      have other := h.lives n hn
      by_cases before : n < ended
      · rw [if_pos before] at other
        rwa [if_pos (Nat.lt_succ_of_lt before)]
      · rw [if_neg before, show n - ended = n - (ended + 1) + 1 by omega,
          List.getElem?_cons_succ] at other
        rwa [if_neg (by omega)]

theorem turn {places' : List Place} (h : InOrder log ended joined places)
    (g : Turn places d places') : ∃ n ended' joined', InOrder (log ++ [(n, d)]) ended' joined' places' := by
  cases g with
  | join r => exact ⟨_, _, _, h.join r⟩
  | take r => exact ⟨_, _, _, h.stay rfl rfl fun _ life => .taken life⟩
  | starve r => exact ⟨_, _, _, h.stay rfl rfl fun _ life => .starved life⟩
  | finish r o _ done => exact ⟨_, _, _, h.leave rfl rfl fun _ life => .finished o done life⟩
  | purge r => exact ⟨_, _, _, h.leave rfl rfl fun _ life => .purged life⟩
  | cancel r => exact ⟨_, _, _, h.leave rfl rfl fun _ life => .cancelled life⟩

end InOrder

end Logbook

namespace Turns

variable {a b c : List Place} {ds es : List Deal}

theorem trans (h : Turns a ds b) (g : Turns b es c) : Turns a (ds ++ es) c := by
  induction g with
  | refl => rwa [List.append_nil]
  | tail _ turn ih =>
    rw [← List.append_assoc]
    exact ih.tail turn

/-- In a line that nobody stood in, everything goes in order. -/
theorem inOrder (h : Turns [] ds a) : ∃ (log : Logbook) (ended joined : Nat),
    log.map Prod.snd = ds ∧ log.InOrder ended joined a := by
  induction h with
  | refl => exact ⟨[], 0, 0, rfl, .nil⟩
  | tail _ turn ih =>
    rcases ih with ⟨log, ended, joined, rfl, ordered⟩
    rcases ordered.turn turn with ⟨n, ended', joined', ordered⟩
    exact ⟨_, ended', joined', by simp, ordered⟩

end Turns

end Wiring
