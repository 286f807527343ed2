import Mathlib.Data.Finset.Card
import Mathlib.Order.Interval.Finset.Nat
import Dtls13.Handshake.Reassembly

/-! # What has arrived of a message

Of a message that is not complete, the abstract account knows the bytes that have
arrived, by position. An entry of the reassembler refines it: its bitmap is the set
of these positions, its byte count their number, and its buffer holds the bytes.
-/

namespace Dtls13

open ByteCodec WordBitmap List

/-! ## The bytes that have arrived -/

/-- What is known of a message. `epoch` is that of its records, `none` for
plaintext; `numbers` are the record numbers noted. -/
structure Assembly where
  typ : UInt8
  length : Nat
  epoch : Option Nat
  numbers : List RecordNumber
  bytes : Nat → Option UInt8

namespace Assembly

/-- Nothing has arrived of the message the fragment belongs to. -/
def fresh (f : HandshakeFragment) (epoch : Option Nat) : Assembly :=
  ⟨f.typ, f.length, epoch, [], fun _ => none⟩

/-- The positions that have arrived. -/
def covered (a : Assembly) : Finset Nat :=
  (Finset.range a.length).filter fun i => (a.bytes i).isSome

def Whole (a : Assembly) : Prop := ∀ i < a.length, (a.bytes i).isSome

instance (a : Assembly) : Decidable a.Whole := inferInstanceAs (Decidable (∀ i < a.length, _))

def Conforms (a : Assembly) (f : HandshakeFragment) (epoch : Option Nat) : Prop :=
  a.typ = f.typ ∧ a.length = f.length ∧ a.epoch = epoch

instance (a : Assembly) (f : HandshakeFragment) (epoch : Option Nat) :
    Decidable (a.Conforms f epoch) := inferInstanceAs (Decidable (_ ∧ _ ∧ _))

/-- Bytes arrive from position `start` on. -/
def file (a : Assembly) (start : Nat) (body : Bytes) : Assembly :=
  { a with bytes := fun i =>
      if start ≤ i ∧ i < start + body.length then body[i - start]? else a.bytes i }

/-- How many bytes precede the first one that differs from what has arrived. -/
def agreed (a : Assembly) : Nat → Bytes → Nat
  | _, [] => 0
  | i, v :: rest => if (a.bytes i).any (· != v) then 0 else a.agreed (i + 1) rest + 1

def note (a : Assembly) (number : Option RecordNumber) : Assembly :=
  { a with numbers := a.numbers ++ number.toList }

/-- The fragment agrees with everything that has arrived of its message. -/
def Accepts (a : Assembly) (f : HandshakeFragment) (epoch : Option Nat) : Prop :=
  a.Conforms f epoch ∧ a.agreed f.offset f.body = f.body.length

instance (a : Assembly) (f : HandshakeFragment) (epoch : Option Nat) :
    Decidable (a.Accepts f epoch) := inferInstanceAs (Decidable (_ ∧ _))

/-- What is known after a fragment, as far as it agrees with what had arrived. -/
def filed (a : Assembly) (f : HandshakeFragment) (number : Option RecordNumber) : Assembly :=
  (a.note number).file f.offset (f.body.take (a.agreed f.offset f.body))

/-- What is kept then: nothing of a message that is complete, as it is handed out. -/
def settle (a : Assembly) (f : HandshakeFragment) (epoch : Option Nat)
    (number : Option RecordNumber) : Option Assembly :=
  if a.Accepts f epoch ∧ (a.filed f number).Whole then none else some (a.filed f number)

theorem file_nil (a : Assembly) (start : Nat) : a.file start [] = a := by
  unfold file
  congr 1
  ext1 i
  rw [if_neg (by simp)]

theorem file_file (a : Assembly) (start : Nat) (v : UInt8) (rest : Bytes) :
    (a.file start [v]).file (start + 1) rest = a.file start (v :: rest) := by
  unfold file
  congr 1
  ext1 i
  simp only [length_cons, length_nil, Nat.zero_add]
  rcases lt_trichotomy i start with hlt | rfl | hgt
  · rw [if_neg (by omega), if_neg (by omega), if_neg (by omega)]
  · rw [if_neg (by omega), if_pos (by omega), if_pos (by omega)]
    simp
  · by_cases hin : i < start + 1 + rest.length
    · rw [if_pos (by omega), if_pos (by omega), show i - start = i - (start + 1) + 1 by omega,
        List.getElem?_cons_succ]
    · rw [if_neg (by omega), if_neg (by omega), if_neg (by omega)]

theorem isSome_file (a : Assembly) (start : Nat) (body : Bytes) (i : Nat) :
    ((a.file start body).bytes i).isSome =
      ((a.bytes i).isSome || decide (start ≤ i ∧ i < start + body.length)) := by
  unfold file
  dsimp only
  by_cases hin : start ≤ i ∧ i < start + body.length
  · rw [if_pos hin, List.getElem?_eq_getElem (by omega)]
    simp [hin]
  · rw [if_neg hin]
    simp [hin]

theorem covered_file {a : Assembly} {start : Nat} {body : Bytes}
    (hwithin : start + body.length ≤ a.length) :
    (a.file start body).covered = a.covered ∪ Finset.Ico start (start + body.length) := by
  ext i
  simp only [covered, Finset.mem_filter, Finset.mem_union, Finset.mem_Ico, isSome_file,
    Bool.or_eq_true, decide_eq_true_eq, Finset.mem_range]
  have hlength : (a.file start body).length = a.length := rfl
  rw [hlength, and_or_left]
  exact or_congr Iff.rfl ⟨fun h => h.2, fun h => ⟨by omega, h⟩⟩

theorem agreed_congr {a b : Assembly} {i : Nat} (hbytes : ∀ j, i ≤ j → a.bytes j = b.bytes j)
    (body : Bytes) : a.agreed i body = b.agreed i body := by
  induction body generalizing i with
  | nil => rfl
  | cons v rest ih =>
    rw [agreed, agreed, hbytes i le_rfl, ih fun j hj => hbytes j (by omega)]

theorem differs_iff {a : Assembly} {i : Nat} {v : UInt8} :
    (a.bytes i).any (· != v) = true ↔ ∃ w, a.bytes i = some w ∧ w ≠ v := by
  cases a.bytes i <;> simp

/-- Everything agrees exactly when no byte differs from one that has arrived. -/
theorem agreed_eq_length_iff {a : Assembly} {i : Nat} {body : Bytes} :
    a.agreed i body = body.length ↔
      ∀ j v, body[j]? = some v → ∀ w, a.bytes (i + j) = some w → w = v := by
  induction body generalizing i with
  | nil => simp [agreed]
  | cons v rest ih =>
    rw [agreed, length_cons]
    by_cases hdiffers : (a.bytes i).any (· != v) = true
    · rw [if_pos hdiffers]
      refine ⟨fun hzero => absurd hzero (by omega), fun hall => ?_⟩
      obtain ⟨w, hw, hne⟩ := differs_iff.mp hdiffers
      exact absurd (hall 0 v rfl w hw) hne
    · rw [if_neg hdiffers, Nat.succ_inj, ih]
      constructor
      · intro hall j u hj w hw
        cases j with
        | zero =>
          obtain rfl : v = u := by simpa using hj
          by_contra hne
          exact hdiffers (differs_iff.mpr ⟨w, hw, hne⟩)
        | succ j => exact hall j u hj w (by rwa [show i + 1 + j = i + (j + 1) by omega])
      · intro hall j u hj w hw
        exact hall (j + 1) u hj w (by rwa [show i + (j + 1) = i + 1 + j by omega])

/-- The first fragment of a message contradicts nothing. -/
theorem accepts_fresh (f : HandshakeFragment) (epoch : Option Nat) :
    (fresh f epoch).Accepts f epoch :=
  ⟨⟨rfl, rfl, rfl⟩, agreed_eq_length_iff.mpr fun _ _ _ _ hw => by cases hw⟩

theorem filed_fresh (f : HandshakeFragment) (epoch : Option Nat) (number : Option RecordNumber) :
    (fresh f epoch).filed f number = ((fresh f epoch).note number).file f.offset f.body := by
  rw [filed, (accepts_fresh f epoch).2, take_length]

end Assembly

/-! ## An entry and what has arrived -/

/-- The smallest of some record numbers. -/
def Smallest (numbers : List RecordNumber) (number : RecordNumber) : Prop :=
  number ∈ numbers ∧ ∀ other ∈ numbers, recordNumberLess other number = false

/-- The largest of some record numbers. -/
def Largest (numbers : List RecordNumber) (number : RecordNumber) : Prop :=
  number ∈ numbers ∧ ∀ other ∈ numbers, recordNumberLess number other = false

theorem recordNumberLess_iff {a b : RecordNumber} : recordNumberLess a b = true ↔
      a.epoch < b.epoch ∨ a.epoch = b.epoch ∧ a.sequence < b.sequence := by
  simp [recordNumberLess]

theorem recordNumberLess_eq_false_iff {a b : RecordNumber} : recordNumberLess a b = false ↔
      b.epoch < a.epoch ∨ a.epoch = b.epoch ∧ b.sequence ≤ a.sequence := by
  rw [← Bool.not_eq_true, recordNumberLess_iff]
  omega

/-- One more number than those of which `number` is the first in the order `less`. -/
theorem extreme_snoc (less : RecordNumber → RecordNumber → Bool) {numbers : List RecordNumber}
    {first : RecordNumber} (hirrefl : ∀ a, less a a = false)
    (htrans : ∀ a b c, less a b = true → less c b = false → less c a = false)
    (hfirst : first ∈ numbers ∧ ∀ other ∈ numbers, less other first = false)
    (number : RecordNumber) : (if less number first then number else first) ∈ numbers ++ [number] ∧
      ∀ other ∈ numbers ++ [number], less other (if less number first then number else first) =
        false := by
  split_ifs with hless
  · refine ⟨by simp, fun other hother => ?_⟩
    rcases mem_append.mp hother with hold | hnew
    · exact htrans _ _ _ hless (hfirst.2 other hold)
    · rw [mem_singleton.mp hnew]
      exact hirrefl number
  · refine ⟨mem_append_left _ hfirst.1, fun other hother => ?_⟩
    rcases mem_append.mp hother with hold | hnew
    · exact hfirst.2 other hold
    · rw [mem_singleton.mp hnew]
      exact Bool.not_eq_true _ ▸ hless

theorem Smallest.snoc {numbers : List RecordNumber} {first : RecordNumber}
    (hfirst : Smallest numbers first) (number : RecordNumber) : Smallest (numbers ++ [number])
      (if recordNumberLess number first then number else first) := by
  refine extreme_snoc recordNumberLess (by simp [recordNumberLess]) (fun a b c => ?_) hfirst number
  rw [recordNumberLess_iff, recordNumberLess_eq_false_iff, recordNumberLess_eq_false_iff]
  omega

theorem Largest.snoc {numbers : List RecordNumber} {last : RecordNumber}
    (hlast : Largest numbers last) (number : RecordNumber) :
    Largest (numbers ++ [number]) (if recordNumberLess last number then number else last) := by
  refine extreme_snoc (fun a b => recordNumberLess b a) (by simp [recordNumberLess])
    (fun a b c => ?_) hlast number
  rw [recordNumberLess_iff, recordNumberLess_eq_false_iff, recordNumberLess_eq_false_iff]
  omega

/-- The epoch records came from, if they were protected. -/
def originEpoch (epoch : Nat) (isProtected : Bool) : Option Nat :=
  if isProtected then some epoch else none

namespace PartialMessage

/-- An entry holds what has arrived of its message. -/
structure Represents (p : PartialMessage) (a : Assembly) : Prop where
  typ : p.typ = a.typ
  length : p.data.length = a.length
  epoch : originEpoch p.epoch p.hasEpoch = a.epoch
  words : p.received.length = (a.length + 63) / 64
  marked : ∀ i, WordBitmap.bit p.received i = (a.bytes i).isSome
  filled : ∀ i v, a.bytes i = some v → p.data[i]? = some v
  count : p.count = a.covered.card
  noted : p.hasRecord = !a.numbers.isEmpty
  first : a.numbers ≠ [] → Smallest a.numbers p.firstRecord
  last : a.numbers ≠ [] → Largest a.numbers p.lastRecord

theorem represents_newPartialMessage (f : HandshakeFragment) (epoch : Nat) (isProtected : Bool) :
    (newPartialMessage f epoch isProtected).Represents
      (Assembly.fresh f (originEpoch epoch isProtected)) where
  typ := rfl
  length := length_replicate
  epoch := rfl
  words := length_replicate
  marked i := bit_replicate _ i
  filled := nofun
  count := by simp [newPartialMessage, Assembly.covered, Assembly.fresh]
  noted := rfl
  first hne := absurd rfl hne
  last hne := absurd rfl hne

variable {p : PartialMessage} {a : Assembly}

section

variable (hrep : p.Represents a)

include hrep

theorem Represents.noteRecord (number : RecordNumber) :
    (p.noteRecord number).Represents (a.note (some number)) := by
  have hnoted := hrep.noted
  unfold PartialMessage.noteRecord Assembly.note
  by_cases hhas : p.hasRecord = true
  · have hne : a.numbers ≠ [] := by
      intro hnil
      simp [hhas, hnil] at hnoted
    rw [if_pos hhas]
    exact { hrep with
      noted := by simp [hhas]
      first := fun _ => (hrep.first hne).snoc number
      last := fun _ => (hrep.last hne).snoc number }
  · have hnil : a.numbers = [] := by
      rw [Bool.eq_false_iff.mpr hhas] at hnoted
      simpa using hnoted.symm
    have hirrefl : recordNumberLess number number = false := by
      rw [recordNumberLess_eq_false_iff]
      omega
    rw [if_neg hhas]
    exact { hrep with
      noted := by simp
      first := fun _ => by simp [hnil, Smallest, hirrefl]
      last := fun _ => by simp [hnil, Largest, hirrefl] }

theorem Represents.note (number : Option RecordNumber) :
    (p.note number).Represents (a.note number) := by
  cases number with
  | some number => exact hrep.noteRecord number
  | none => simpa [PartialMessage.note, Assembly.note] using hrep

/-- Checking a fragment against an entry is checking it against what has arrived. -/
theorem Represents.checkFragment_eq_ok_iff {f : HandshakeFragment} {epoch : Nat}
    {isProtected : Bool} : p.checkFragment f epoch isProtected = .ok () ↔
      a.Conforms f (originEpoch epoch isProtected) := by
  unfold checkFragment Assembly.Conforms
  rw [← hrep.typ, ← hrep.length, ← hrep.epoch]
  unfold originEpoch
  cases isProtected <;> cases p.hasEpoch <;> by_cases htyp : p.typ = f.typ <;>
    by_cases hlength : p.data.length = f.length <;> by_cases hepoch : p.epoch = epoch <;>
    simp [htyp, hlength, hepoch]

/-- A stretch of bytes that none has arrived of, filed at once. -/
theorem Represents.overwrite {start : Nat} {body : Bytes} (hwithin : start + body.length ≤ a.length)
    (hclear : ∀ i, start ≤ i → i < start + body.length → bit p.received i = false) : { p with
      data := overwrite p.data start body
      received := setBitmapRange p.received start (start + body.length)
      count := p.count + body.length }.Represents (a.file start body) := by
  have hlength := hrep.length
  have hroom : start + body.length ≤ 64 * p.received.length := by
    rw [hrep.words]
    omega
  refine { hrep with
    length := (overwrite_length (by omega)).trans hlength
    words := (setRange_length (by decide) hroom).trans hrep.words
    marked := fun i => ?_
    filled := fun i v hv => ?_
    count := ?_ }
  · rw [Assembly.isSome_file, ← hrep.marked]
    exact bit_setRange (by decide) hroom i
  · unfold PartialMessage.overwrite
    unfold Assembly.file at hv
    dsimp only at hv ⊢
    have htake : (p.data.take start).length = start := by
      rw [length_take]
      omega
    split_ifs at hv with hin
    · rw [append_assoc, List.getElem?_append_right (by omega), htake,
        List.getElem?_append_left (by omega)]
      exact hv
    · by_cases hbefore : i < start
      · rw [append_assoc, List.getElem?_append_left (by omega), List.getElem?_take_of_lt hbefore]
        exact hrep.filled i v hv
      · rw [List.getElem?_append_right (by rw [length_append]; omega), length_append,
          htake, List.getElem?_drop,
          show start + body.length + (i - (start + body.length)) = i by omega]
        exact hrep.filled i v hv
  · rw [Assembly.covered_file hwithin, Finset.card_union_of_disjoint, Nat.card_Ico,
      Nat.add_sub_cancel_left, hrep.count]
    rw [Finset.disjoint_left]
    intro i hi hin
    rw [Finset.mem_Ico] at hin
    have hmarked := hrep.marked i
    rw [hclear i hin.1 hin.2] at hmarked
    simp [Assembly.covered, ← hmarked] at hi

/-- One byte that differs from none that has arrived. -/
theorem Represents.mergeByte {i : Nat} {v : UInt8} (hi : i < a.length)
    (hagrees : (a.bytes i).any (· != v) = false) : { p with
      data := p.data.set i v
      received := if testBit p.received i then p.received
        else setBit p.received i
      count := if testBit p.received i then p.count else p.count + 1
      }.Represents (a.file i [v]) := by
  have hroom : i < 64 * p.received.length := by
    rw [hrep.words]
    omega
  have hmarked := hrep.marked i
  have hico : Finset.Ico i (i + [v].length) = {i} := by
    ext j
    simp
  rw [testBit_eq_bit _ (by decide)]
  refine { hrep with
    length := length_set.trans hrep.length
    words := ?_
    marked := fun j => ?_
    filled := fun j w hw => ?_
    count := ?_ }
  · dsimp only
    split_ifs
    · exact hrep.words
    · exact (setBit_length _ _).trans hrep.words
  · have hposition : (i ≤ j ∧ j < i + [v].length) ↔ j = i := by
      rw [length_singleton]
      omega
    rw [Assembly.isSome_file, ← hrep.marked, decide_eq_decide.mpr hposition]
    dsimp only
    split_ifs with hseen
    · by_cases hsame : j = i
      · subst hsame
        simp [hseen]
      · simp [hsame]
    · exact bit_setBit (by decide) hroom j
  · unfold Assembly.file at hw
    dsimp only at hw ⊢
    split_ifs at hw with hin
    · obtain rfl : j = i := by
        rw [length_singleton] at hin
        omega
      rw [List.getElem?_set_self (by rw [hrep.length]; exact hi)]
      simpa using hw
    · rw [length_singleton] at hin
      rw [List.getElem?_set_ne (by omega)]
      exact hrep.filled j w hw
  · rw [Assembly.covered_file (by rw [length_singleton]; exact hi), hico, Finset.union_singleton]
    dsimp only
    split_ifs with hseen
    · rw [hmarked] at hseen
      rw [Finset.insert_eq_of_mem, hrep.count]
      simp [Assembly.covered, hi, hseen]
    · rw [hmarked] at hseen
      rw [Finset.card_insert_of_notMem, hrep.count]
      simp [Assembly.covered, hseen]

/-- Filing byte by byte gets as far as the bytes agree with what has arrived. -/
theorem Represents.mergeBytes {start : Nat} {body : Bytes}
    (hwithin : start + body.length ≤ a.length) :
    (p.mergeBytes start body).2.Represents (a.file start (body.take (a.agreed start body))) ∧
      ((p.mergeBytes start body).1 = .ok () ↔ a.agreed start body = body.length) := by
  induction body generalizing p a start with
  | nil => exact ⟨by rwa [take_nil, Assembly.file_nil], by simp [mergeBytes, Assembly.agreed]⟩
  | cons v rest ih =>
    rw [length_cons] at hwithin
    have hdiffers : (testBit p.received start && p.data.getD start 0 != v) =
        (a.bytes start).any (· != v) := by
      rw [testBit_eq_bit _ (by decide), hrep.marked]
      cases hbyte : a.bytes start with
      | none => rfl
      | some w =>
        rw [getD_eq_getElem?_getD, hrep.filled start w hbyte]
        rfl
    rw [mergeBytes, Assembly.agreed, hdiffers]
    cases hcase : (a.bytes start).any (· != v) with
    | true => exact ⟨by simpa [Assembly.file_nil] using hrep, by simp⟩
    | false =>
      have hnext := hrep.mergeByte (by omega) hcase
      have hroom : start + 1 + rest.length ≤ (a.file start [v]).length := by
        change start + 1 + rest.length ≤ a.length
        omega
      obtain ⟨hrest, hresult⟩ := ih hnext hroom
      have hagreed : (a.file start [v]).agreed (start + 1) rest = a.agreed (start + 1) rest := by
        refine Assembly.agreed_congr (fun j hj => ?_) rest
        exact if_neg (by rw [length_singleton]; omega)
      rw [hagreed, Assembly.file_file] at hrest
      rw [hagreed] at hresult
      simp only [Bool.false_eq_true, if_false, take_succ_cons]
      exact ⟨hrest, by rw [hresult, length_cons]; omega⟩

theorem Represents.fill {start : Nat} {body : Bytes} (hwithin : start + body.length ≤ a.length) :
    (p.fill start body).2.Represents (a.file start (body.take (a.agreed start body))) ∧
      ((p.fill start body).1 = .ok () ↔ a.agreed start body = body.length) := by
  unfold PartialMessage.fill
  split_ifs with hclear
  · have hbits := (rangeClear_iff (by decide)).mp hclear
    have hagreed : a.agreed start body = body.length := by
      rw [Assembly.agreed_eq_length_iff]
      intro j v hj w hw
      obtain ⟨hlt, -⟩ := List.getElem?_eq_some_iff.mp hj
      have hmarked := hrep.marked (start + j)
      rw [hbits _ (by omega) (by omega), hw] at hmarked
      simp at hmarked
    rw [hagreed, take_length]
    exact ⟨hrep.overwrite hwithin hbits, by simp⟩
  · exact hrep.mergeBytes hwithin

/-- The byte count reaches the length when every position has arrived. -/
theorem Represents.count_eq_length_iff : p.count = p.data.length ↔ a.Whole := by
  rw [hrep.count, hrep.length, Assembly.covered]
  constructor
  · intro hcard i hi
    have hall : (Finset.range a.length).filter (fun i => (a.bytes i).isSome) =
        Finset.range a.length := by
      apply Finset.eq_of_subset_of_card_le (Finset.filter_subset _ _)
      rw [Finset.card_range, hcard]
    have hmem := hall ▸ Finset.mem_range.mpr hi
    exact (Finset.mem_filter.mp hmem).2
  · intro hwhole
    rw [Finset.filter_true_of_mem fun i hi => hwhole i (Finset.mem_range.mp hi), Finset.card_range]

end

end PartialMessage

end Dtls13
