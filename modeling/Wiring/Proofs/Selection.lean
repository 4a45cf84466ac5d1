import Mathlib
import Wiring.Proofs.Roster

/-!
# The best candidate

The selection of a transport looks at every pair of a resource and an entry, in order, and keeps
the best one so far. It answers with the first candidate whose positive score no other exceeds, or
with one reason for each candidate. Scores are compared as doubles are: what is not a number is
neither above nor below anything.
-/
namespace Wiring

/-! ## Positive doubles -/

section Doubles

open Float.Model (UnpackedFloat)

/-- How large a positive double is: infinity is the largest, then the exponent decides, then the
mantissa. Other doubles have no rank. -/
def rankOf : UnpackedFloat → Option (WithTop (ℤ ×ₗ ℕ))
  | .infinity .positive => some ⊤
  | .finite .positive mantissa exponent _ => some (WithTop.some (toLex (exponent, mantissa)))
  | _ => none

/-- A double is above a positive one exactly if it is positive too and ranks higher. -/
theorem compare_eq_lt_iff {u v : UnpackedFloat} {a : WithTop (ℤ ×ₗ ℕ)} (h : rankOf u = some a) :
    u.compare v = some .lt ↔ ∃ b, rankOf v = some b ∧ a < b := by
  cases u with
  | notANumber => cases h
  | zero => cases h
  | infinity sign =>
    cases sign with
    | negative => cases h
    | positive =>
      cases h
      cases v with
      | infinity sign => cases sign <;> simp [UnpackedFloat.compare, rankOf]
      | _ => simp [UnpackedFloat.compare, rankOf]
  | finite sign mantissa exponent positive =>
    cases sign with
    | negative => cases h
    | positive =>
      cases h
      cases v with
      | infinity sign => cases sign <;> simp [UnpackedFloat.compare, rankOf]
      | finite sign mantissa' exponent' positive' =>
        cases sign <;> simp [UnpackedFloat.compare, rankOf, Prod.Lex.toLex_lt_toLex,
          Ordering.then_eq_lt, compare_lt_iff_lt]
      | _ => simp [UnpackedFloat.compare, rankOf]

variable {x y z : Float}

theorem float_lt_iff : x < y ↔ x.toModel.unpack.compare y.toModel.unpack = some .lt := by
  show decide (x.toModel < y.toModel) = true ↔ _
  rw [decide_eq_true_iff]
  show (x.toModel.unpack.compare y.toModel.unpack == some .lt) = true ↔ _
  exact beq_iff_eq

theorem pos_iff_rank : 0 < x ↔ ∃ a, rankOf x.toModel.unpack = some a := by
  have zero : (0 : Float).toModel.unpack = .zero .positive := rfl
  rw [float_lt_iff, zero]
  cases x.toModel.unpack with
  | notANumber => simp [UnpackedFloat.compare, rankOf]
  | zero => simp [UnpackedFloat.compare, rankOf]
  | infinity sign => cases sign <;> simp [UnpackedFloat.compare, rankOf]
  | finite sign => cases sign <;> simp [UnpackedFloat.compare, rankOf]

/-- What is above a positive double is positive. -/
theorem pos_of_lt (hx : 0 < x) (h : x < y) : 0 < y := by
  rcases pos_iff_rank.1 hx with ⟨a, ha⟩
  rcases (compare_eq_lt_iff ha).1 (float_lt_iff.1 h) with ⟨b, hb, -⟩
  exact pos_iff_rank.2 ⟨b, hb⟩

theorem float_lt_trans (hx : 0 < x) (h : x < y) (g : y < z) : x < z := by
  rcases pos_iff_rank.1 hx with ⟨a, ha⟩
  rcases (compare_eq_lt_iff ha).1 (float_lt_iff.1 h) with ⟨b, hb, hab⟩
  rcases (compare_eq_lt_iff hb).1 (float_lt_iff.1 g) with ⟨c, hc, hbc⟩
  exact float_lt_iff.2 ((compare_eq_lt_iff ha).2 ⟨c, hc, hab.trans hbc⟩)

theorem float_lt_irrefl (x : Float) (hx : 0 < x) : ¬x < x := by
  rcases pos_iff_rank.1 hx with ⟨a, ha⟩
  intro h
  rcases (compare_eq_lt_iff ha).1 (float_lt_iff.1 h) with ⟨b, hb, hab⟩
  rw [ha] at hb
  cases hb
  exact hab.false

/-- A positive double that is not above another one is below everything that the other is
below. -/
theorem lt_of_not_lt_of_lt (hx : 0 < x) (hy : 0 < y) (h : ¬x < y) (g : x < z) : y < z := by
  rcases pos_iff_rank.1 hx with ⟨a, ha⟩
  rcases pos_iff_rank.1 hy with ⟨b, hb⟩
  rcases (compare_eq_lt_iff ha).1 (float_lt_iff.1 g) with ⟨c, hc, hac⟩
  have hba : b ≤ a := not_lt.1 fun hab =>
    h (float_lt_iff.2 ((compare_eq_lt_iff ha).2 ⟨b, hb, hab⟩))
  exact float_lt_iff.2 ((compare_eq_lt_iff hb).2 ⟨c, hc, hba.trans_lt hac⟩)

end Doubles

/-! ## The fold over the candidates -/

namespace Scorer

variable {scorer : Scorer} {c d : Candidate} {x y : Float}

theorem judge_ok : scorer.judge c = .ok x ↔ scorer.score c.attributes = .ok x ∧ 0 < x := by
  unfold judge
  split
  · simp [*]
  · rename_i y hy
    split
    · rename_i positive
      simp only [hy, Except.ok.injEq]
      exact ⟨fun h => ⟨h, h ▸ positive⟩, fun h => h.1⟩
    · rename_i nonpositive
      simp only [hy, Except.ok.injEq, reduceCtorEq, false_iff, not_and]
      exact fun h positive => nonpositive (h ▸ positive)

/-- A candidate between those before and those after it comes out on top with a score: all others
score less, or come later and do not score more. -/
structure Tops (scorer : Scorer) (before : List Candidate) (c : Candidate) (x : Float)
    (after : List Candidate) : Prop where
  judged : scorer.judge c = .ok x
  above : ∀ d ∈ before, ∀ y, scorer.judge d = .ok y → y < x
  unbeaten : ∀ d ∈ after, ∀ y, scorer.judge d = .ok y → ¬x < y

/-- What is known of the best selection among the candidates looked at. -/
def Foremost (scorer : Scorer) (cs : List Candidate) : Option Selection → Prop
  | none => ∀ c ∈ cs, ∀ x, scorer.judge c ≠ .ok x
  | some best => ∃ before c after, cs = before ++ c :: after ∧
      scorer.Tops before c best.score after ∧ best = ⟨c.resource, c.entry, best.score⟩

theorem Tops.pos {before after : List Candidate} (h : scorer.Tops before c x after) : 0 < x :=
  (judge_ok.1 h.judged).2

/-- A candidate that scores more than the one on top scores more than all. -/
theorem Tops.overtaken {before after : List Candidate} (h : scorer.Tops before c x after)
    (better : x < y) : ∀ d ∈ before ++ c :: after, ∀ z, scorer.judge d = .ok z → z < y := by
  intro d hd z hz
  have positive := (judge_ok.1 hz).2
  rcases List.mem_append.1 hd with hd | hd
  · exact float_lt_trans positive (h.above d hd z hz) better
  · rcases List.mem_cons.1 hd with rfl | hd
    · cases h.judged.symm.trans hz
      exact better
    · exact lt_of_not_lt_of_lt h.pos positive (h.unbeaten d hd z hz) better

/-- Nobody scores more than the candidate on top. -/
theorem Tops.unexceeded {before after : List Candidate} (h : scorer.Tops before c x after) :
    ∀ d ∈ before ++ c :: after, ∀ y, scorer.score d.attributes = .ok y → ¬x < y := by
  intro d hd y hy more
  have judged : scorer.judge d = .ok y := judge_ok.2 ⟨hy, pos_of_lt h.pos more⟩
  rcases List.mem_append.1 hd with hd | hd
  · exact float_lt_irrefl x h.pos (float_lt_trans h.pos more (h.above d hd y judged))
  · rcases List.mem_cons.1 hd with rfl | hd
    · cases h.judged.symm.trans judged
      exact float_lt_irrefl x h.pos more
    · exact h.unbeaten d hd y judged more

/-- A candidate that does not score more than the one on top is added to those after it. -/
theorem Tops.extend {before after : List Candidate} (h : scorer.Tops before c x after)
    (d : Candidate) (worse : ∀ y, scorer.judge d = .ok y → ¬x < y) :
    scorer.Tops before c x (after ++ [d]) := by
  refine { h with unbeaten := fun e he y hy => ?_ }
  rcases List.mem_append.1 he with he | he
  · exact h.unbeaten e he y hy
  · cases List.mem_singleton.1 he
    exact worse y hy

/-- The next candidate comes out on top only if it is better than the best so far. -/
theorem Foremost.improve {cs : List Candidate} {best : Option Selection}
    (h : scorer.Foremost cs best) (c : Candidate) :
    scorer.Foremost (cs ++ [c]) (scorer.improve best c) := by
  unfold Scorer.improve
  cases judged : scorer.judge c with
  | error why =>
    have worthless (x : Float) : scorer.judge c ≠ .ok x := fun hx => by cases judged.symm.trans hx
    cases best with
    | none =>
      intro d hd
      rcases List.mem_append.1 hd with hd | hd
      · exact h d hd
      · cases List.mem_singleton.1 hd
        exact worthless
    | some best =>
      rcases h with ⟨before, top, after, rfl, tops, same⟩
      exact ⟨before, top, after ++ [c], by simp,
        tops.extend c fun x hx => absurd hx (worthless x), same⟩
  | ok y =>
    cases best with
    | none =>
      exact ⟨cs, c, [], rfl, ⟨judged, fun d hd x hx => absurd hx (h d hd x), by simp⟩, rfl⟩
    | some best =>
      rcases h with ⟨before, top, after, rfl, tops, same⟩
      simp only
      split
      · rename_i better
        exact ⟨_, c, [], rfl, ⟨judged, tops.overtaken better, by simp⟩, rfl⟩
      · rename_i worse
        refine ⟨before, top, after ++ [c], by simp, tops.extend c fun x hx => ?_, same⟩
        cases judged.symm.trans hx
        exact worse

theorem foremost_foldl (cs : List Candidate) : scorer.Foremost cs (cs.foldl scorer.improve none) := by
  induction cs using List.reverseRecOn with
  | nil => exact fun c hc => by cases hc
  | append_singleton cs c ih =>
    rw [List.foldl_append]
    exact ih.improve c

end Scorer

/-! ## Ratings -/

/-- A resource of a worker and an entry of an address, by their places in their lists, and what a
scorer says of the interface. -/
structure Rating where
  resource : Nat
  entry : Nat
  name : ResourceName
  score : Except String Float

/-- What is said against a resource that has no positive score. -/
def objection (name : ResourceName) : Except String Float → String
  | .error lacks => name.text ++ " - no " ++ lacks
  | .ok _ => name.text ++ " - zero score"

namespace Rating

/-- The reason against the pair. -/
def reason (r : Rating) : String := objection r.name r.score

/-- The pair has a positive score that no other exceeds. -/
structure IsBest (rs : List Rating) (r : Rating) (x : Float) : Prop where
  scored : r.score = .ok x
  positive : x > 0
  unexceeded : ∀ d ∈ rs, ∀ y, d.score = .ok y → ¬y > x

end Rating

namespace Network

/-- The rating of a pair whose transport names are equal and whose device is reachable. -/
def rating? (s : Network) (wk : Worker) (entries : List AddressEntry) (scorer : Scorer)
    (place : Nat × Nat) : Option Rating := do
  let r ← wk.resources[place.1]?
  let entry ← entries[place.2]?
  let i ← s.interfaces.get? r.interface
  if entry.transport = r.name.transport ∧ s.reaches i entry.deviceAddress = true then
    some ⟨place.1, place.2, r.name, scorer.score i.settings.attributes⟩
  else none

/-- The ratings of all pairs, in lexicographic order of their places. -/
def ratings (s : Network) (wk : Worker) (entries : List AddressEntry) (scorer : Scorer) :
    List Rating :=
  (List.range wk.resources.length ×ˢ List.range entries.length).filterMap
    (s.rating? wk entries scorer)

/-- A rating is found at the places of its pair. -/
theorem ratings_place {s : Network} {wk : Worker} {entries : List AddressEntry} {scorer : Scorer}
    {r : Rating} (h : r ∈ s.ratings wk entries scorer) : r.resource < wk.resources.length := by
  rcases List.mem_filterMap.1 h with ⟨place, mem, rated⟩
  have bound := List.mem_range.1 (List.pair_mem_product.1 mem).1
  simp only [rating?, Option.bind_eq_bind, Option.bind_eq_some_iff] at rated
  rcases rated with ⟨_, -, _, -, _, -, rated⟩
  split at rated
  · cases rated
    exact bound
  · cases rated

theorem zipIdx_eq_filterMap {α : Type} (l : List α) :
    l.zipIdx = (List.range l.length).filterMap fun n => (l[n]?).map fun a => (a, n) := by
  induction l using List.reverseRecOn with
  | nil => rfl
  | append_singleton l a ih =>
    have same : ∀ n ∈ List.range l.length,
        ((l ++ [a])[n]?).map (fun a => (a, n)) = (l[n]?).map fun a => (a, n) := fun n hn => by
      rw [List.getElem?_append_left (List.mem_range.1 hn)]
    rw [List.length_append, List.length_singleton, List.range_succ, List.filterMap_append,
      List.filterMap_congr same, ← ih, List.zipIdx_append]
    simp

/-- What a candidate and its rating agree on. -/
def Agree (scorer : Scorer) (cs : List Candidate) (rs : List Rating) : Prop :=
  cs.map (fun c => (c.resource, c.entry, c.name, scorer.score c.attributes)) =
    rs.map fun r => (UInt8.ofNat r.resource, r.entry, r.name, r.score)

namespace Agree

variable {scorer : Scorer} {cs before after : List Candidate} {c : Candidate} {rs : List Rating}

theorem score (h : Agree scorer cs rs) {r : Rating} (hr : r ∈ rs) :
    ∃ c ∈ cs, scorer.score c.attributes = r.score := by
  have mem := List.mem_map_of_mem (f := fun r : Rating =>
    (UInt8.ofNat r.resource, r.entry, r.name, r.score)) hr
  rw [← h] at mem
  rcases List.mem_map.1 mem with ⟨c, hc, same⟩
  simp only [Prod.mk.injEq] at same
  exact ⟨c, hc, same.2.2.2⟩

/-- If nobody has a positive score, each candidate is reported with its reason. -/
theorem reasons (h : Agree scorer cs rs) (none : ∀ c ∈ cs, ∀ x, scorer.judge c ≠ .ok x) :
    cs.filterMap scorer.reason? = rs.map Rating.reason := by
  have each : ∀ c ∈ cs, scorer.reason? c =
      some (objection c.name (scorer.score c.attributes)) := fun c hc => by
    have worthless (x : Float) (scored : scorer.score c.attributes = .ok x) : ¬0 < x := fun h =>
      none c hc x (Scorer.judge_ok.2 ⟨scored, h⟩)
    unfold Scorer.reason? Scorer.judge
    cases scored : scorer.score c.attributes with
    | error lacks => rfl
    | ok x =>
      simp only
      rw [if_neg (worthless x scored)]
      rfl
  have texts := congrArg (List.map fun key : UInt8 × Nat × ResourceName × Except String Float =>
    objection key.2.2.1 key.2.2.2) h
  simp only [List.map_map, Function.comp_def] at texts
  rw [List.filterMap_congr each, List.filterMap_eq_map']
  exact texts

theorem split (h : Agree scorer (before ++ c :: after) rs) :
    ∃ before' r after', rs = before' ++ r :: after' ∧ Agree scorer before before' ∧
      c.resource = UInt8.ofNat r.resource ∧ c.entry = r.entry ∧
      scorer.score c.attributes = r.score := by
  unfold Agree at h
  rw [List.map_append, List.map_cons] at h
  rcases List.map_eq_append_iff.1 h.symm with ⟨before', rest, hr, hb, hrest⟩
  rcases List.map_eq_cons_iff.1 hrest with ⟨r, after', rfl, hkey, ha⟩
  simp only [Prod.mk.injEq] at hkey
  exact ⟨before', r, after', hr, hb.symm, hkey.1.symm, hkey.2.1.symm, hkey.2.2.2.symm⟩

end Agree

/-- The candidates are the rated pairs. -/
theorem candidates_ratings (s : Network) (wk : Worker) (entries : List AddressEntry)
    (scorer : Scorer) :
    Agree scorer (s.candidates wk entries) (s.ratings wk entries scorer) := by
  have places : List.range wk.resources.length ×ˢ List.range entries.length =
      (List.range wk.resources.length).flatMap fun n =>
        (List.range entries.length).map (Prod.mk n) := rfl
  unfold Agree candidates ratings
  rw [zipIdx_eq_filterMap wk.resources, places, List.filterMap_eq_flatMap_toList, List.flatMap_assoc,
    List.filterMap_flatMap, List.map_flatMap, List.map_flatMap]
  refine List.flatMap_congr fun n _ => ?_
  cases hr : wk.resources[n]? with
  | none => simp [rating?, hr]
  | some r =>
    cases hi : s.interfaces.get? r.interface with
    | none => simp [rating?, hr, hi]
    | some i =>
      simp only [Option.map_some, Option.toList_some, List.flatMap_singleton, hi,
        zipIdx_eq_filterMap entries, List.filterMap_filterMap, List.map_filterMap,
        List.filterMap_map]
      refine List.filterMap_congr fun k _ => ?_
      cases he : entries[k]? with
      | none => simp [rating?, hr, he]
      | some entry =>
        simp [rating?, hr, hi, he]

end Network

/-! ## The specification -/

/-- Every worker has at most as many resources as it can address. -/
def Roster.Manned (r : Roster) : Prop :=
  ∀ w wk, r.offices w = some wk → wk.resources.length ≤ Network.maxResources

theorem Roster.Manned.add {r : Roster} (h : r.Manned) (ep : Endpoint) : (r.add ep).Manned := by
  intro w wk here
  rcases Roster.offices_add here with ⟨wk', before, -, resources⟩
  exact resources ▸ h w wk' before

theorem Visited.manned {fits : Network → Call → Prop} {s : Network} (h : Visited fits s) :
    s.roster.Manned := by
  refine h.roster_keeps (I := Roster.Manned) (fun process w wk here => by cases here)
    (fun s c r hs _ enrols => ?_) fun s j r hs shift => ?_
  · cases enrols with
    | stay => exact hs
    | createEndpoint => exact hs.add _
    | openWorker settings plan resources new own kept =>
      intro w wk here
      rcases eq_or_ne w s.roster.hired with rfl | other
      · cases (Function.update_self _ _ _).symm.trans here
        exact (congrArg List.length kept).trans_le (List.length_take_le _ _)
      · exact hs w wk ((Function.update_of_ne other _ _).symm.trans here)
  · cases shift with
    | closeWorker v =>
      intro w wk here
      rcases eq_or_ne w v with rfl | other
      · cases (Function.update_self _ _ _).symm.trans here
      · exact hs w wk ((Function.update_of_ne other _ _).symm.trans here)
    | clear e ep =>
      intro w wk here
      rcases of_update_map here with ⟨wk', before, rfl | rfl⟩
      · exact hs w wk before
      · exact hs w wk' before
    | welcome => exact hs.add _
    | _ => exact hs

namespace Network

variable {s : Network} {w : WorkerId} {wk : Worker}

/-- The selection among candidates, told of their ratings. -/
theorem select_ratings (s : Network) (wk : Worker) (peer : String) (entries : List AddressEntry)
    (scorer : Scorer) :
    (∀ r ∈ s.ratings wk entries scorer, ∀ x, r.score = .ok x → ¬x > 0) ∧
      s.select wk peer entries scorer = .error (.noSuitableResource scorer.purpose peer
        (if s.ratings wk entries scorer = [] then "no reachable resources"
          else ", ".intercalate ((s.ratings wk entries scorer).map Rating.reason))) ∨
    ∃ before r x after, s.ratings wk entries scorer = before ++ r :: after ∧
      r.IsBest (s.ratings wk entries scorer) x ∧
      (∀ d ∈ before, ∀ y, ¬d.IsBest (s.ratings wk entries scorer) y) ∧
      s.select wk peer entries scorer = .ok ⟨UInt8.ofNat r.resource, r.entry, x⟩ := by
  have agree := s.candidates_ratings wk entries scorer
  have foremost := scorer.foremost_foldl (s.candidates wk entries)
  unfold select Scorer.select
  generalize s.candidates wk entries = cs at agree foremost ⊢
  generalize s.ratings wk entries scorer = rs at agree ⊢
  cases folded : cs.foldl scorer.improve none with
  | none =>
    rw [folded] at foremost
    refine .inl ⟨fun r hr x hx positive => ?_, ?_⟩
    · rcases agree.score hr with ⟨c, hc, same⟩
      exact foremost c hc x (Scorer.judge_ok.2 ⟨same.trans hx, positive⟩)
    · simp only [agree.reasons foremost, List.isEmpty_iff, List.map_eq_nil_iff]
  | some best =>
    rw [folded] at foremost
    rcases foremost with ⟨before, c, after, rfl, tops, same⟩
    have unexceeded := tops.unexceeded
    rcases agree.split with ⟨before', r, after', rfl, hb, hr⟩
    refine .inr ⟨before', r, best.score, after', rfl, ⟨?_, tops.pos, fun d hd y hy => ?_⟩,
      fun d hd y best => ?_, ?_⟩
    · exact hr.2.2.symm.trans (Scorer.judge_ok.1 tops.judged).1
    · rcases agree.score hd with ⟨c', hc', same⟩
      exact unexceeded c' hc' y (same.trans hy)
    · rcases hb.score hd with ⟨c', hc', same⟩
      refine best.unexceeded r (by simp) _ (hr.2.2.symm.trans (Scorer.judge_ok.1 tops.judged).1) ?_
      exact tops.above c' hc' y (Scorer.judge_ok.2 ⟨same.trans best.scored, best.positive⟩)
    · rw [same, hr.1, hr.2.1]

/-- The selection of a worker takes every resource that the worker keeps into account, under a number
that tells it apart. If some pair of a resource and a reachable entry of its transport has a
positive score, it answers with the first pair whose score no other exceeds. Otherwise it says that
nothing is reachable, or lists one reason for each pair, in order. -/
theorem selectFor_best (h : Visited (fun _ _ => True) s) (here : s.workers.get? w = some wk)
    (peer : String) (entries : List AddressEntry) (scorer : Scorer) :
    (wk.resources.length ≤ maxResources ∧
      ∀ r ∈ wk.resources, s.interfaces.contains r.interface = true) ∧
    ((∃ r ∈ s.ratings wk entries scorer, ∃ x, r.score = .ok x ∧ x > 0) →
      ∃ before r x after, s.ratings wk entries scorer = before ++ r :: after ∧
        r.IsBest (s.ratings wk entries scorer) x ∧
        (∀ d ∈ before, ∀ y, ¬d.IsBest (s.ratings wk entries scorer) y) ∧
        ∃ best, s.selectFor w peer entries scorer = .ok best ∧
          best.resource.toNat = r.resource ∧ best.entry = r.entry ∧ best.score = x) ∧
    ((∀ r ∈ s.ratings wk entries scorer, ∀ x, r.score = .ok x → ¬x > 0) →
      s.selectFor w peer entries scorer = .error (.noSuitableResource scorer.purpose peer
        (if s.ratings wk entries scorer = [] then "no reachable resources"
          else ", ".intercalate ((s.ratings wk entries scorer).map Rating.reason)))) := by
  have few : wk.resources.length ≤ maxResources :=
    h.manned w wk.office (congrArg (Option.map Worker.office) here)
  rcases h.moves with ⟨process, -, fit⟩
  have live : ∀ r ∈ wk.resources, s.interfaces.contains r.interface = true := fun r hr =>
    fit.sound.live _ (isHeld_of_owned (isOwned_iff.2 (.inl ⟨w, wk, here, .inl ⟨r, hr, rfl⟩⟩)))
  have selects : s.selectFor w peer entries scorer = s.select wk peer entries scorer := by
    unfold selectFor
    rw [here]
  rw [selects]
  refine ⟨⟨few, live⟩, ?_⟩
  rcases s.select_ratings wk peer entries scorer with
    ⟨none, failed⟩ | ⟨before, r, x, after, split, best, first, chosen⟩
  · exact ⟨fun ⟨r, hr, x, scored, positive⟩ => absurd positive (none r hr x scored), fun _ => failed⟩
  · refine ⟨fun _ => ⟨before, r, x, after, split, best, first, _, chosen, ?_, rfl, rfl⟩,
      fun none => absurd best.positive ?_⟩
    · have mem : r ∈ s.ratings wk entries scorer :=
        split ▸ List.mem_append_right _ List.mem_cons_self
      exact UInt8.toNat_ofNat_of_lt' ((ratings_place mem).trans_le few)
    · exact none r (split ▸ List.mem_append_right _ List.mem_cons_self) x best.scored

/-- The network of a pair. -/
def madePair : Option Network := Call.runAll { process := 1 } (Call.pair 4)

/-- Interfaces that can be connected to at once, the larger their messages the better. -/
def largest : Scorer where
  purpose := "bulk"
  score a :=
    if a.capabilities.contains .connectToInterface then .ok (countAsFloat a.messages.bulk)
    else .error "connecting to iface"

/-- A link that is paired later, and twice the same that is connected at once. -/
def offered : List AddressEntry :=
  [⟨"paired", "0", Bytes.word 1, Bytes.word 4⟩, ⟨"direct", "0", Bytes.word 1, Bytes.word 3⟩,
    ⟨"direct", "0", Bytes.word 1, Bytes.word 3⟩]

/-- Of two pairs with equal scores the first is chosen. -/
theorem selectFor_best_madePair : ∃ s wk, madePair = some s ∧ s.workers.get? 0 = some wk ∧
    (s.ratings wk offered largest).map (fun r => (r.resource, r.entry)) =
      [(0, 1), (0, 2), (1, 0)] ∧
    ∃ before r x after, s.ratings wk offered largest = before ++ r :: after ∧
      r.IsBest (s.ratings wk offered largest) x ∧
      (∀ d ∈ before, ∀ y, ¬d.IsBest (s.ratings wk offered largest) y) ∧
      ∃ best, s.selectFor 0 "worker" offered largest = .ok best ∧
        best.resource.toNat = r.resource ∧ best.entry = r.entry ∧ best.score = x := by
  have rated : (madePair.bind fun s => (s.workers.get? 0).map fun wk =>
      (s.ratings wk offered largest).map fun r => (r.resource, r.entry,
        match r.score with
        | .ok x => decide (x > 0)
        | .error _ => false)) =
      some [(0, 1, true), (0, 2, true), (1, 0, false)] := by decide +kernel
  rcases Option.bind_eq_some_iff.1 rated with ⟨s, hs, rated⟩
  rcases Option.map_eq_some_iff.1 rated with ⟨wk, here, rated⟩
  have places := congrArg (List.map fun r : Nat × Nat × Bool => (r.1, r.2.1)) rated
  simp only [List.map_map, Function.comp_def] at places
  have journey : Journey (fun _ _ => True) s := .of_runAll (.start 1) hs
  refine ⟨s, wk, hs, here, places,
    (selectFor_best (.between journey) here "worker" offered largest).2.1 ?_⟩
  have mem : (0, 1, true) ∈ [(0, 1, true), (0, 2, true), (1, 0, false)] := List.mem_cons_self
  rw [← rated] at mem
  rcases List.mem_map.1 mem with ⟨r, hr, same⟩
  simp only [Prod.mk.injEq] at same
  refine ⟨r, hr, ?_⟩
  rcases same with ⟨-, -, positive⟩
  split at positive
  · rename_i x scored
    exact ⟨x, scored, of_decide_eq_true positive⟩
  · cases positive

end Network

end Wiring
