import Mathlib
import Wiring.Codec.Signal

/-!
# Reading what was written

A decoder reads a value back from its written form, and leaves what follows alone. Numbers and
lengths have a fixed width, so this holds of values whose texts and lists a word can count.
-/
namespace Wiring

namespace Bytes

/-- Writing keeps the number as far as the width goes. -/
theorem ofLittleEndian_littleEndian (width n : Nat) :
    ofLittleEndian (littleEndian width n) = n % 256 ^ width := by
  induction width generalizing n with
  | zero => simp [littleEndian, ofLittleEndian, Nat.mod_one]
  | succ width ih =>
    have digit : (UInt8.ofNat (n % 256)).toNat = n % 256 := by simp
    rw [littleEndian, ofLittleEndian, ih, digit, pow_succ', Nat.mod_mul]

theorem word?_append_word (w : UInt64) (rest : Bytes) : word? (word w ++ rest) = some w := by
  have long : 8 ≤ (word w ++ rest).length := by
    rw [List.length_append, word_length]
    omega
  have front : (word w ++ rest).take 8 = word w := by
    rw [← word_length w, List.take_left]
  have small : w.toNat < 256 ^ 8 := w.toNat_lt
  unfold word?
  rw [if_pos long, front, word, ofLittleEndian_littleEndian, Nat.mod_eq_of_lt small]
  simp

end Bytes

namespace Codec

variable {α β : Type}

/-- The decoder takes the value from bytes that begin with the given ones. -/
def Reads (d : Decoder α) (written : Bytes) (a : α) : Prop :=
  ∀ rest, d (written ++ rest) = .ok (a, rest)

namespace Reads

variable {d : Decoder α} {f : α → Decoder β} {written more : Bytes} {a : α} {b : β}

theorem pure (a : α) : Reads (pure a : Decoder α) [] a := fun _ => rfl

theorem bind (h : Reads d written a) (g : Reads (f a) more b) :
    Reads (d >>= f) (written ++ more) b := by
  intro rest
  have first : d (written ++ more ++ rest) = .ok (a, more ++ rest) := by
    rw [List.append_assoc]
    exact h _
  change (d (written ++ more ++ rest)).bind (fun r => f r.1 r.2) = _
  rw [first]
  exact g rest

/-- What follows takes nothing more. -/
theorem bind_nil (h : Reads d written a) (g : Reads (f a) [] b) : Reads (d >>= f) written b := by
  have read := h.bind g
  rwa [List.append_nil] at read

/-- The last value read is put into the result. -/
theorem last (h : Reads d written a) (g : α → β) :
    Reads (d >>= fun a => Pure.pure (g a)) written (g a) := h.bind_nil (pure (g a))

end Reads

theorem take_reads (content : Bytes) (missing : MalformedBytes) :
    Reads (take content.length missing) content content := by
  intro rest
  unfold take
  rw [split?_append]

theorem getNat_reads {width n : Nat} (small : n < 256 ^ width) :
    Reads (getNat width) (putNat width n) n := by
  have bytes := take_reads (putNat width n) .endOfInput
  have read := bytes.last Bytes.ofLittleEndian
  rw [show (putNat width n).length = width from Bytes.littleEndian_length width n] at read
  rwa [putNat, Bytes.ofLittleEndian_littleEndian, Nat.mod_eq_of_lt small] at read

/-- A length that a word can count is read back. -/
theorem getLength_reads {n : Nat} (small : n < UInt64.size) : Reads (getNat 8) (putNat 8 n) n :=
  getNat_reads small

theorem getWord_reads (w : UInt64) : Reads getWord (putWord w) w := by
  have small : w.toNat < 256 ^ 8 := w.toNat_lt
  have read := (getNat_reads small).last UInt64.ofNat
  rwa [UInt64.ofNat_toNat] at read

theorem getByte_reads (b : UInt8) : Reads getByte (putByte b) b := by
  have small : b.toNat < 256 ^ 1 := by
    have := b.toNat_lt
    omega
  have read := (getNat_reads small).last UInt8.ofNat
  have written : putNat 1 b.toNat = putByte b := by
    simp [putNat, putByte, Bytes.littleEndian]
  rwa [UInt8.ofNat_toNat, written] at read

theorem getText_reads (text : String) (small : (Text.utf8 text).length < UInt64.size) :
    Reads getText (putText text) text := by
  unfold getText
  apply (getLength_reads small).bind
  apply (take_reads _ _).bind_nil
  simp only [Text.ofUtf8_utf8]
  exact .pure text

theorem getMany_reads {get : Decoder α} {put : α → Bytes} {items : List α}
    (reads : ∀ a ∈ items, Reads get (put a) a) :
    Reads (getMany get items.length) (items.flatMap put) items := by
  induction items with
  | nil => exact .pure []
  | cons a items ih =>
    have others := ih fun b hb => reads b (List.mem_cons_of_mem a hb)
    exact (reads a List.mem_cons_self).bind (others.last fun items => a :: items)

theorem getList_reads {get : Decoder α} {put : α → Bytes} {items : List α}
    (reads : ∀ a ∈ items, Reads get (put a) a) (small : items.length < UInt64.size) :
    Reads (getList get) (putList put items) items :=
  (getLength_reads small).bind (getMany_reads reads)

theorem getBytes_reads (content : Bytes) (small : content.length < UInt64.size) :
    Reads getBytes (putBytes content) content :=
  getList_reads (fun b _ => getByte_reads b) small

theorem getOption_reads {get : Decoder α} {put : α → Bytes} {a : Option α}
    (reads : ∀ b, a = some b → Reads get (put b) b) :
    Reads (getOption get) (putOption put a) a := by
  have tag (n : Nat) (h : n < 256 ^ 1) : Reads (getNat 1) [UInt8.ofNat n] n := by
    have read := getNat_reads h
    rwa [show putNat 1 n = [UInt8.ofNat n] by
      simp [putNat, Bytes.littleEndian, Nat.mod_eq_of_lt (show n < 256 from h)]] at read
  cases a with
  | none => exact (tag 0 (by decide)).bind (.pure none)
  | some b => exact (tag 1 (by decide)).bind ((reads b rfl).last some)

theorem getVariant_reads {choices : List α} {n : Nat} {a : α} (small : n < 256 ^ 4)
    (h : choices[n]? = some a) : Reads (getVariant choices) (putVariant n) a := by
  unfold getVariant
  apply (getNat_reads small).bind_nil
  simp only [h]
  exact .pure a

/-! ## Lengths -/

theorem length_le_putText (text : String) : (Text.utf8 text).length ≤ (putText text).length := by
  simp [putText]

/-- A list is no longer than what is written of it, if each of its items leaves something. -/
theorem count_le_putList {put : α → Bytes} {items : List α}
    (shows : ∀ a ∈ items, 0 < (put a).length) : items.length ≤ (putList put items).length := by
  have count : items.length ≤ (items.flatMap put).length := by
    induction items with
    | nil => simp
    | cons a items ih =>
      have first := shows a List.mem_cons_self
      have others := ih fun b hb => shows b (List.mem_cons_of_mem a hb)
      simp only [List.length_cons, List.flatMap_cons, List.length_append]
      omega
  simp only [putList, List.length_append]
  omega

/-- What is written of one item is no longer than what is written of them all. -/
theorem length_le_putList (put : α → Bytes) {items : List α} {a : α} (h : a ∈ items) :
    (put a).length ≤ (putList put items).length := by
  have part : (put a).length ≤ (items.flatMap put).length := by
    rw [List.length_flatMap]
    exact List.single_le_sum (by simp) _ (List.mem_map_of_mem h)
  simp only [putList, List.length_append]
  omega

theorem length_le_putBytes (content : Bytes) : content.length ≤ (putBytes content).length :=
  count_le_putList fun _ _ => Nat.one_pos

end Codec

open Codec

/-! ## Values that words can count -/

/-- A word can count the bytes of each text and of each address. -/
structure AddressEntry.Countable (e : AddressEntry) : Prop where
  transport : (Text.utf8 e.transport).length < UInt64.size
  device : (Text.utf8 e.device).length < UInt64.size
  deviceAddress : e.deviceAddress.length < UInt64.size
  interfaceAddress : e.interfaceAddress.length < UInt64.size

structure WorkerAddress.Countable (a : WorkerAddress) : Prop where
  name : (Text.utf8 a.name).length < UInt64.size
  count : a.entries.length < UInt64.size
  entries : ∀ e ∈ a.entries, e.Countable

structure LaneAddress.Countable (l : LaneAddress) : Prop where
  deviceAddress : l.deviceAddress.length < UInt64.size
  linkAddress : l.linkAddress.length < UInt64.size

structure Signal.Countable (m : Signal) : Prop where
  address : ∀ a, m.address = some a → a.Countable
  count : m.lanes.length < UInt64.size
  lanes : ∀ l ∈ m.lanes, l.Countable

theorem AddressEntry.countable_of_encode {e : AddressEntry} (small : e.encode.length < UInt64.size) :
    e.Countable := by
  simp only [encode, List.length_append] at small
  have transport := length_le_putText e.transport
  have device := length_le_putText e.device
  have deviceAddress := length_le_putBytes e.deviceAddress
  have interfaceAddress := length_le_putBytes e.interfaceAddress
  constructor <;> omega

theorem WorkerAddress.countable_of_encode {a : WorkerAddress}
    (small : a.encode.length < UInt64.size) : a.Countable := by
  simp only [encode, List.length_append] at small
  have name := length_le_putText a.name
  have count : a.entries.length ≤ (putList AddressEntry.encode a.entries).length :=
    count_le_putList fun e _ => by
      simp [AddressEntry.encode, putText, putNat, Bytes.littleEndian_length]
  refine ⟨by omega, by omega, fun e he => AddressEntry.countable_of_encode ?_⟩
  have part := length_le_putList AddressEntry.encode he
  omega

theorem LaneAddress.countable_of_encode {l : LaneAddress} (small : l.encode.length < UInt64.size) :
    l.Countable := by
  simp only [encode, List.length_append] at small
  have deviceAddress := length_le_putBytes l.deviceAddress
  have linkAddress := length_le_putBytes l.linkAddress
  constructor <;> omega

theorem Signal.countable_of_encode {m : Signal} (small : m.encode.length < UInt64.size) :
    m.Countable := by
  simp only [encode, List.length_append] at small
  have count : m.lanes.length ≤ (putList LaneAddress.encode m.lanes).length :=
    count_le_putList fun l _ => by
      simp [LaneAddress.encode, Category.encode, putVariant, putNat, Bytes.littleEndian_length]
  refine ⟨fun a ha => WorkerAddress.countable_of_encode ?_, by omega,
    fun l hl => LaneAddress.countable_of_encode ?_⟩
  · simp only [ha, putOption, List.length_cons] at small
    omega
  · have part := length_le_putList LaneAddress.encode hl
    omega

/-! ## Addresses and signals -/

theorem AddressEntry.decoder_reads {e : AddressEntry} (h : e.Countable) :
    Reads AddressEntry.decoder e.encode e := by
  have transport := getText_reads e.transport h.transport
  have device := getText_reads e.device h.device
  have deviceAddress := getBytes_reads e.deviceAddress h.deviceAddress
  have interfaceAddress := getBytes_reads e.interfaceAddress h.interfaceAddress
  unfold encode decoder
  simp only [List.append_assoc]
  exact transport.bind (device.bind (deviceAddress.bind (interfaceAddress.last _)))

theorem WorkerAddress.decoder_reads {a : WorkerAddress} (h : a.Countable) :
    Reads WorkerAddress.decoder a.encode a := by
  have name := getText_reads a.name h.name
  have entries := getList_reads (fun e he => AddressEntry.decoder_reads (h.entries e he)) h.count
  unfold encode decoder
  simp only [List.append_assoc]
  exact (getWord_reads a.uuid).bind (name.bind (entries.last _))

theorem Category.decoder_reads (c : Category) : Reads Category.decoder c.encode c :=
  getVariant_reads (by cases c <;> decide) (by cases c <;> rfl)

theorem LaneAddress.decoder_reads {l : LaneAddress} (h : l.Countable) :
    Reads LaneAddress.decoder l.encode l := by
  have deviceAddress := getBytes_reads l.deviceAddress h.deviceAddress
  have linkAddress := getBytes_reads l.linkAddress h.linkAddress
  unfold encode decoder
  simp only [List.append_assoc]
  exact l.lane.decoder_reads.bind (deviceAddress.bind (linkAddress.last _))

theorem Signal.Kind.decoder_reads (k : Signal.Kind) :
    Reads (getVariant Signal.Kind.all) (putVariant k.number) k :=
  getVariant_reads (by cases k <;> decide) (by cases k <;> rfl)

theorem Signal.decoder_reads {m : Signal} (h : m.Countable) :
    Reads Signal.decoder m.encode m := by
  have address := getOption_reads fun a ha => WorkerAddress.decoder_reads (h.address a ha)
  have lanes := getList_reads (fun l hl => LaneAddress.decoder_reads (h.lanes l hl)) h.count
  unfold encode decoder
  simp only [List.append_assoc]
  exact m.kind.decoder_reads.bind ((getWord_reads m.source).bind
    ((getWord_reads m.dest).bind (address.bind (lanes.last _))))

/-- A signal is what its written form says, if a word can count that form's length. -/
theorem Signal.decode_encode (m : Signal) (small : m.encode.length < UInt64.size) :
    Signal.decode m.encode = .ok m := by
  have read := Signal.decoder_reads (Signal.countable_of_encode small) []
  rw [List.append_nil] at read
  rw [decode, read]
  rfl

end Wiring
