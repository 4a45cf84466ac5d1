import Mathlib
import Wiring.Proofs.Codec

/-!
# Canonical written forms

What a decoder takes from the front of bytes is what would be written of its answer. So a value has
one written form only, bytes after it are left alone, and nothing shorter is taken for a value.
-/
namespace Wiring

namespace Bytes

/-- Bytes are the digits of the number that they are read as. -/
theorem littleEndian_ofLittleEndian (bs : Bytes) :
    littleEndian bs.length (ofLittleEndian bs) = bs := by
  induction bs with
  | nil => rfl
  | cons b bs ih =>
    have digit : (b.toNat + 256 * ofLittleEndian bs) % 256 = b.toNat := by
      have := b.toNat_lt
      omega
    have others : (b.toNat + 256 * ofLittleEndian bs) / 256 = ofLittleEndian bs := by
      have := b.toNat_lt
      omega
    rw [List.length_cons, ofLittleEndian, littleEndian, digit, others, ih, UInt8.ofNat_toNat]

theorem ofLittleEndian_lt (bs : Bytes) : ofLittleEndian bs < 256 ^ bs.length := by
  induction bs with
  | nil => exact Nat.one_pos
  | cons b bs ih =>
    have := b.toNat_lt
    rw [List.length_cons, pow_succ', ofLittleEndian]
    omega

end Bytes

/-- Bytes that are a text are the bytes of that text. -/
theorem Text.utf8_of_ofUtf8 {bs : Bytes} {text : String} (h : ofUtf8 bs = .ok text) :
    utf8 text = bs := by
  unfold ofUtf8 String.fromUTF8? at h
  split at h
  · rename_i read found
    split at found
    · cases h
      cases found
      rfl
    · cases found
  · cases h

namespace Codec

variable {α β : Type}

/-- Whatever the decoder takes is what would be written of its answer, and the answer fits. -/
def Takes (d : Decoder α) (put : α → Bytes) (fits : α → Prop) : Prop :=
  ∀ bs a rest, d bs = .ok (a, rest) → bs = put a ++ rest ∧ fits a

section

variable {d : Decoder α} {f : α → Decoder β} {bs rest : Bytes} {a : α} {b : β}

theorem bind_ok (h : (d >>= f) bs = .ok (b, rest)) :
    ∃ a mid, d bs = .ok (a, mid) ∧ f a mid = .ok (b, rest) := by
  change (d bs).bind (fun r => f r.1 r.2) = _ at h
  cases first : d bs with
  | error fault =>
    rw [first] at h
    cases h
  | ok r =>
    rw [first] at h
    exact ⟨r.1, r.2, rfl, h⟩

theorem pure_ok {a' : α} (h : (pure a : Decoder α) bs = .ok (a', rest)) : a = a' ∧ bs = rest := by
  cases h
  exact ⟨rfl, rfl⟩

end

theorem take_takes (count : Nat) (missing : MalformedBytes) :
    Takes (take count missing) id fun content => content.length = count := by
  intro bs content rest h
  unfold take at h
  split at h
  · rename_i taken split
    cases h
    exact split?_eq_some split
  · cases h

theorem getNat_takes (width : Nat) : Takes (getNat width) (putNat width) (· < 256 ^ width) := by
  intro bs n rest h
  obtain ⟨content, mid, taken, h⟩ := bind_ok h
  obtain ⟨rfl, rfl⟩ := pure_ok h
  obtain ⟨rfl, rfl⟩ := take_takes _ _ _ _ _ taken
  refine ⟨?_, Bytes.ofLittleEndian_lt content⟩
  rw [putNat, Bytes.littleEndian_ofLittleEndian]
  rfl

/-- A length that was read is one that a word can count. -/
theorem getLength_takes : Takes (getNat 8) (putNat 8) (· < UInt64.size) := getNat_takes 8

theorem getWord_takes : Takes getWord putWord fun _ => True := by
  intro bs w rest h
  obtain ⟨n, mid, number, h⟩ := bind_ok h
  obtain ⟨rfl, rfl⟩ := pure_ok h
  obtain ⟨rfl, small⟩ := getNat_takes 8 _ _ _ number
  refine ⟨?_, trivial⟩
  rw [putWord, Bytes.word, UInt64.toNat_ofNat_of_lt' small]
  rfl

theorem getByte_takes : Takes getByte putByte fun _ => True := by
  intro bs b rest h
  obtain ⟨n, mid, number, h⟩ := bind_ok h
  obtain ⟨rfl, rfl⟩ := pure_ok h
  obtain ⟨rfl, small⟩ := getNat_takes 1 _ _ _ number
  refine ⟨?_, trivial⟩
  rw [putNat, Bytes.littleEndian, Nat.mod_eq_of_lt (show n < 256 from small)]
  rfl

theorem getText_takes :
    Takes getText putText fun text => (Text.utf8 text).length < UInt64.size := by
  intro bs text rest h
  obtain ⟨count, mid, number, h⟩ := bind_ok h
  obtain ⟨content, mid', taken, h⟩ := bind_ok h
  cases isText : Text.ofUtf8 content with
  | error fault =>
    rw [isText] at h
    cases h
  | ok read =>
    rw [isText] at h
    obtain ⟨rfl, rfl⟩ := pure_ok h
    obtain ⟨rfl, small⟩ := getLength_takes _ _ _ number
    obtain ⟨rfl, rfl⟩ := take_takes _ _ _ _ _ taken
    rw [← Text.utf8_of_ofUtf8 isText] at small ⊢
    exact ⟨(List.append_assoc _ _ _).symm, small⟩

section

variable {get : Decoder α} {put : α → Bytes} {fits : α → Prop}

theorem getMany_takes (takes : Takes get put fits) (count : Nat) :
    Takes (getMany get count) (fun items => items.flatMap put)
      fun items => items.length = count ∧ ∀ a ∈ items, fits a := by
  induction count with
  | zero =>
    intro bs items rest h
    obtain ⟨rfl, rfl⟩ := pure_ok h
    simp
  | succ count ih =>
    intro bs items rest h
    obtain ⟨first, mid, one, h⟩ := bind_ok h
    obtain ⟨others, mid', more, h⟩ := bind_ok h
    obtain ⟨rfl, rfl⟩ := pure_ok h
    obtain ⟨rfl, fit⟩ := takes _ _ _ one
    obtain ⟨rfl, length, fits⟩ := ih _ _ _ more
    exact ⟨by simp, by simp [length], by simpa using ⟨fit, fits⟩⟩

theorem getList_takes (takes : Takes get put fits) :
    Takes (getList get) (putList put)
      fun items => items.length < UInt64.size ∧ ∀ a ∈ items, fits a := by
  intro bs items rest h
  obtain ⟨count, mid, number, many⟩ := bind_ok h
  obtain ⟨rfl, small⟩ := getLength_takes _ _ _ number
  obtain ⟨rfl, rfl, fit⟩ := getMany_takes takes count _ _ _ many
  exact ⟨(List.append_assoc _ _ _).symm, small, fit⟩

theorem getBytes_takes : Takes getBytes putBytes fun content => content.length < UInt64.size := by
  intro bs content rest h
  obtain ⟨written, small, -⟩ := getList_takes getByte_takes _ _ _ h
  exact ⟨written, small⟩

theorem getOption_takes (takes : Takes get put fits) :
    Takes (getOption get) (putOption put) fun o => ∀ a, o = some a → fits a := by
  intro bs o rest h
  obtain ⟨tag, mid, number, h⟩ := bind_ok h
  have tagged := (getNat_takes 1 _ _ _ number).1
  split at h
  · obtain ⟨rfl, rfl⟩ := pure_ok h
    exact ⟨tagged, fun a ha => by cases ha⟩
  · obtain ⟨a, mid', one, h⟩ := bind_ok h
    obtain ⟨rfl, rfl⟩ := pure_ok h
    obtain ⟨rfl, fit⟩ := takes _ _ _ one
    refine ⟨tagged, fun b hb => ?_⟩
    cases hb
    exact fit
  · cases h

/-- A choice is taken from its own number, if no other number means it. -/
theorem getVariant_takes {choices : List α} {number : α → Nat}
    (own : ∀ n a, choices[n]? = some a → number a = n) :
    Takes (getVariant choices) (fun a => putVariant (number a)) fun _ => True := by
  intro bs a rest h
  obtain ⟨n, mid, read, h⟩ := bind_ok h
  cases found : choices[n]? with
  | none =>
    rw [found] at h
    cases h
  | some choice =>
    rw [found] at h
    obtain ⟨rfl, rfl⟩ := pure_ok h
    have written := (getNat_takes 4 _ _ _ read).1
    rw [← own n choice found] at written
    exact ⟨written, trivial⟩

end

end Codec

open Codec

/-! ## Addresses and signals -/

theorem AddressEntry.decoder_takes : Takes decoder encode Countable := by
  intro bs e rest h
  obtain ⟨transport, _, first, h⟩ := bind_ok h
  obtain ⟨device, _, second, h⟩ := bind_ok h
  obtain ⟨deviceAddress, _, third, h⟩ := bind_ok h
  obtain ⟨interfaceAddress, _, fourth, h⟩ := bind_ok h
  obtain ⟨rfl, rfl⟩ := pure_ok h
  obtain ⟨rfl, small⟩ := getText_takes _ _ _ first
  obtain ⟨rfl, small'⟩ := getText_takes _ _ _ second
  obtain ⟨rfl, short⟩ := getBytes_takes _ _ _ third
  obtain ⟨rfl, short'⟩ := getBytes_takes _ _ _ fourth
  exact ⟨by simp only [encode, List.append_assoc], small, small', short, short'⟩

theorem WorkerAddress.decoder_takes : Takes decoder encode Countable := by
  intro bs a rest h
  obtain ⟨uuid, _, first, h⟩ := bind_ok h
  obtain ⟨name, _, second, h⟩ := bind_ok h
  obtain ⟨entries, _, third, h⟩ := bind_ok h
  obtain ⟨rfl, rfl⟩ := pure_ok h
  obtain ⟨rfl, -⟩ := getWord_takes _ _ _ first
  obtain ⟨rfl, small⟩ := getText_takes _ _ _ second
  obtain ⟨rfl, count, countable⟩ := getList_takes AddressEntry.decoder_takes _ _ _ third
  exact ⟨by simp only [encode, List.append_assoc], small, count, countable⟩

theorem Category.decoder_takes : Takes decoder encode fun _ => True := by
  refine getVariant_takes fun n c h => ?_
  match n, h with
  | 0, h | 1, h | 2, h => cases h; rfl
  | n + 3, h => cases h

theorem LaneAddress.decoder_takes : Takes decoder encode Countable := by
  intro bs l rest h
  obtain ⟨lane, _, first, h⟩ := bind_ok h
  obtain ⟨deviceAddress, _, second, h⟩ := bind_ok h
  obtain ⟨linkAddress, _, third, h⟩ := bind_ok h
  obtain ⟨rfl, rfl⟩ := pure_ok h
  obtain ⟨rfl, -⟩ := Category.decoder_takes _ _ _ first
  obtain ⟨rfl, short⟩ := getBytes_takes _ _ _ second
  obtain ⟨rfl, short'⟩ := getBytes_takes _ _ _ third
  exact ⟨by simp only [encode, List.append_assoc], short, short'⟩

theorem Signal.Kind.decoder_takes :
    Takes (getVariant Kind.all) (fun k => putVariant k.number) fun _ => True := by
  refine getVariant_takes fun n k h => ?_
  match n, h with
  | 0, h | 1, h | 2, h => cases h; rfl
  | n + 3, h => cases h

theorem Signal.decoder_takes : Takes decoder encode Countable := by
  intro bs m rest h
  obtain ⟨kind, _, first, h⟩ := bind_ok h
  obtain ⟨source, _, second, h⟩ := bind_ok h
  obtain ⟨dest, _, third, h⟩ := bind_ok h
  obtain ⟨address, _, fourth, h⟩ := bind_ok h
  obtain ⟨lanes, _, fifth, h⟩ := bind_ok h
  obtain ⟨rfl, rfl⟩ := pure_ok h
  obtain ⟨rfl, -⟩ := Kind.decoder_takes _ _ _ first
  obtain ⟨rfl, -⟩ := getWord_takes _ _ _ second
  obtain ⟨rfl, -⟩ := getWord_takes _ _ _ third
  obtain ⟨rfl, countable⟩ := getOption_takes WorkerAddress.decoder_takes _ _ _ fourth
  obtain ⟨rfl, count, lanesCountable⟩ := getList_takes LaneAddress.decoder_takes _ _ _ fifth
  exact ⟨by simp only [encode, List.append_assoc], countable, count, lanesCountable⟩

/-! ## The laws of a canonical form -/

/-- A written form that is read back whatever follows it, that is all a value is ever read from,
and of which no part at the front means anything. -/
structure Canonical {α : Type} (fits : α → Prop) (encode : α → Bytes)
    (decode : Bytes → Except MalformedBytes α) : Prop where
  reads : ∀ a, fits a → ∀ rest, decode (encode a ++ rest) = .ok a
  written : ∀ bs a, decode bs = .ok a → encode a <+: bs
  whole : ∀ a, fits a → ∀ bs, bs <+: encode a → bs ≠ encode a → ∃ fault, decode bs = .error fault

/-- A decoder that takes exactly what is written, and reads it back, makes a form canonical. -/
theorem Codec.Takes.canonical {α : Type} {d : Decoder α} {put : α → Bytes} {fits : α → Prop}
    (takes : Takes d put fits) (reads : ∀ a, fits a → Reads d (put a) a) :
    Canonical fits put fun bs => (d bs).map Prod.fst where
  reads a fit rest := by rw [reads a fit rest]; rfl
  written bs a h := by
    cases taken : d bs with
    | error fault =>
      rw [taken] at h
      cases h
    | ok r =>
      rw [taken] at h
      cases h
      exact ⟨r.2, (takes _ _ _ taken).1.symm⟩
  whole a fit bs front short := by
    cases taken : d bs with
    | error fault => exact ⟨fault, rfl⟩
    | ok r =>
      exfalso
      obtain ⟨b, rest⟩ := r
      obtain ⟨more, hmore⟩ := front
      obtain ⟨rfl, fit'⟩ := takes _ _ _ taken
      -- the whole form is read as both values, and then nothing is left
      have whole := reads a fit []
      rw [← hmore, List.append_nil, List.append_assoc, reads b fit'] at whole
      simp only [Except.ok.injEq, Prod.mk.injEq, List.append_eq_nil_iff] at whole
      obtain ⟨rfl, rfl, rfl⟩ := whole
      exact short (List.append_nil _)

/-- Signals and addresses have canonical written forms. -/
theorem written_forms_canonical :
    Canonical Signal.Countable Signal.encode Signal.decode ∧
      Canonical WorkerAddress.Countable WorkerAddress.encode WorkerAddress.decode :=
  ⟨Signal.decoder_takes.canonical fun _ h => Signal.decoder_reads h,
    WorkerAddress.decoder_takes.canonical fun _ h => WorkerAddress.decoder_reads h⟩

end Wiring
