import Mathlib.Data.List.Nodup
import Dtls13.Record.Cipher

/-! # Receive epochs

The set of receive ciphers, one for each installed epoch, and the choice of the
cipher for a record from the two epoch bits in its first byte.
-/

namespace Dtls13

open ByteCodec List

/-- The map from epochs to ciphers is the list of its ciphers. -/
structure EpochSet where
  current : Nat
  ciphers : List RecordCipher
  epochs_nodup : (ciphers.map RecordCipher.epoch).Nodup
  deriving DecidableEq, Repr

namespace EpochSet

variable (P : Primitives) (s : EpochSet)

def lookup (epoch : Nat) : Option RecordCipher := s.ciphers.find? fun c => c.epoch == epoch

variable {cipher : RecordCipher}

theorem nodup_append (hfresh : s.lookup cipher.epoch = none) :
    ((s.ciphers ++ [cipher]).map RecordCipher.epoch).Nodup := by
  rw [List.map_append]
  refine List.nodup_append.mpr ⟨s.epochs_nodup, List.nodup_singleton _, ?_⟩
  intro epoch hmem last hlast heq
  obtain ⟨other, hother, rfl⟩ := List.mem_map.mp hmem
  rw [List.map_singleton, List.mem_singleton] at hlast
  have hne := List.find?_eq_none.mp hfresh other hother
  simp [heq, hlast] at hne

def install (cipher : RecordCipher) : Except Err EpochSet :=
  if hfresh : s.lookup cipher.epoch = none then
    .ok ⟨s.current, s.ciphers ++ [cipher], s.nodup_append hfresh⟩
  else .error (.plain "dtls13: epoch cipher already installed")

def setCurrent (epoch : Nat) : Except Err EpochSet :=
  if epoch < s.current then .error (.plain "dtls13: epoch cannot move backwards")
  else if s.lookup epoch = none then
    .error (.plain "dtls13: current epoch cipher is not installed")
  else .ok { s with current := epoch }

/-- The later of two candidates; the first one of equals. -/
def newer (selected : Option RecordCipher) (cipher : RecordCipher) : Option RecordCipher :=
  match selected with
  | none => some cipher
  | some best => if best.epoch < cipher.epoch then some cipher else some best

/-- The current epoch when its low bits match, else the most recent past epoch
whose bits match. -/
def selectCipher (first : UInt8) : Except Err RecordCipher :=
  let bits := (first &&& 0x03).toNat
  let past := s.ciphers.filter fun c => c.epoch < s.current && c.epoch % 4 == bits
  match if s.current % 4 = bits then s.lookup s.current else none with
  | some cipher => .ok cipher
  | none =>
    match past.foldl newer none with
    | some cipher => .ok cipher
    | none => .error (.protocolError "no receive keys for record epoch")

/-- The cipher of an epoch after it was used. -/
def putCipher (cipher : RecordCipher) : EpochSet where
  current := s.current
  ciphers := s.ciphers.map fun c => if c.epoch = cipher.epoch then cipher else c
  epochs_nodup := by
    have hsame : (s.ciphers.map fun c => if c.epoch = cipher.epoch then cipher else c).map
        RecordCipher.epoch = s.ciphers.map RecordCipher.epoch := by
      rw [List.map_map]
      refine List.map_congr_left fun c _ => ?_
      by_cases heq : c.epoch = cipher.epoch <;> simp [heq]
    rw [hsame]
    exact s.epochs_nodup

/-- Changes every cipher, but none of their epochs. -/
def mapCiphers (f : RecordCipher → RecordCipher) (hf : ∀ c, (f c).epoch = c.epoch) : EpochSet where
  current := s.current
  ciphers := s.ciphers.map f
  epochs_nodup := by
    have hsame : (s.ciphers.map f).map RecordCipher.epoch = s.ciphers.map RecordCipher.epoch := by
      rw [List.map_map]
      exact List.map_congr_left fun c _ => hf c
    rw [hsame]
    exact s.epochs_nodup

/-- Opens the first record of a datagram with the cipher its first byte selects;
returns the record and the epoch. -/
def openRecord (datagram : Bytes) : Except Err (OpenedRecord × Nat) × EpochSet :=
  match datagram with
  | [] => (.error (.protocolError "empty datagram"), s)
  | first :: _ =>
    match s.selectCipher first with
    | .error err => (.error err, s)
    | .ok cipher =>
      match cipher.openRecord P datagram with
      | (.error err, next) => (.error err, s.putCipher next)
      | (.ok opened, next) => (.ok (opened, cipher.epoch), s.putCipher next)

def shouldRequestKeyUpdateForAuthFailures (first : UInt8) : Bool :=
  match s.selectCipher first with
  | .error _ => false
  | .ok cipher => cipher.shouldRequestKeyUpdateForAuthFailures

def discardBefore (epoch retained : Nat) : EpochSet where
  current := s.current
  ciphers := s.ciphers.filter fun c => epoch ≤ c.epoch || c.epoch == retained
  epochs_nodup := s.epochs_nodup.sublist (List.filter_sublist.map _)

/-! ## Looking up and selecting -/

variable {s}

theorem lookup_eq_some_iff {epoch : Nat} :
    s.lookup epoch = some cipher ↔ cipher ∈ s.ciphers ∧ cipher.epoch = epoch := by
  constructor
  · intro hfind
    exact ⟨mem_of_find?_eq_some hfind, by simpa using List.find?_some hfind⟩
  · rintro ⟨hmem, rfl⟩
    cases hfind : s.lookup cipher.epoch with
    | none => simpa using List.find?_eq_none.mp hfind cipher hmem
    | some other =>
      have hepoch : other.epoch = cipher.epoch := by simpa using List.find?_some hfind
      rw [inj_on_of_nodup_map s.epochs_nodup (mem_of_find?_eq_some hfind) hmem hepoch]

theorem lookup_eq_none_iff {epoch : Nat} :
    s.lookup epoch = none ↔ ∀ cipher ∈ s.ciphers, cipher.epoch ≠ epoch := by
  simp [lookup, List.find?_eq_none]

/-- Folding with `newer` keeps a maximum. -/
theorem foldl_newer_eq {others : List RecordCipher} {selected : Option RecordCipher}
    (hmax : ∀ other ∈ others, other ≠ cipher → other.epoch < cipher.epoch)
    (hselected : ∀ best ∈ selected, best ≠ cipher → best.epoch < cipher.epoch)
    (hmem : cipher ∈ others ∨ selected = some cipher) :
    others.foldl newer selected = some cipher := by
  induction others generalizing selected with
  | nil => simpa using hmem
  | cons other rest ih =>
    refine ih (fun next hnext => hmax next (mem_cons_of_mem _ hnext)) ?_ ?_
    · intro best hbest hne
      unfold newer at hbest
      grind
    · have hother := hmax other mem_cons_self
      unfold newer
      grind

/-- The spec of the selection: the greatest installed epoch up to the current one
among those with the bits of the record. -/
theorem selectCipher_eq_ok {first : UInt8} (hmem : cipher ∈ s.ciphers)
    (hle : cipher.epoch ≤ s.current) (hbits : cipher.epoch % 4 = (first &&& 0x03).toNat)
    (hmax : ∀ other ∈ s.ciphers, other.epoch ≤ s.current →
      other.epoch % 4 = (first &&& 0x03).toNat → other.epoch ≤ cipher.epoch) :
    s.selectCipher first = .ok cipher := by
  unfold selectCipher
  dsimp only
  rcases hle.eq_or_lt with hcurrent | hpast
  · rw [if_pos (hcurrent ▸ hbits), lookup_eq_some_iff.mpr ⟨hmem, hcurrent⟩]
  · -- A cipher of the current epoch with these bits would exceed the maximum.
    have hnone : (if s.current % 4 = (first &&& 0x03).toNat then s.lookup s.current else none) =
        none := by
      split_ifs with hmatch
      · refine lookup_eq_none_iff.mpr fun other hother heq => ?_
        have := hmax other hother heq.le (heq ▸ hmatch)
        omega
      · rfl
    rw [hnone]
    have hfold : (s.ciphers.filter fun c => c.epoch < s.current &&
        c.epoch % 4 == (first &&& 0x03).toNat).foldl newer none = some cipher := by
      refine foldl_newer_eq ?_ (by simp) (.inl (mem_filter.mpr ⟨hmem, by simp [hpast, hbits]⟩))
      intro other hother hne
      obtain ⟨hin, hkept⟩ := mem_filter.mp hother
      simp only [Bool.and_eq_true, decide_eq_true_eq, beq_iff_eq] at hkept
      refine (hmax other hin hkept.1.le hkept.2).lt_of_ne fun heq => hne ?_
      exact inj_on_of_nodup_map s.epochs_nodup hin hmem heq
    simp only [hfold]

theorem foldl_newer_mem {others : List RecordCipher}
    {selected : Option RecordCipher} (hfold : others.foldl newer selected = some cipher) :
    cipher ∈ others ∨ selected = some cipher := by
  induction others generalizing selected with
  | nil => exact .inr hfold
  | cons other rest ih =>
    rcases ih hfold with hrest | hnewer
    · exact .inl (mem_cons_of_mem _ hrest)
    · unfold newer at hnewer
      grind

/-- What is selected is installed, not later than the current epoch, and has the
bits of the record. -/
theorem selectCipher_ok {first : UInt8} (hselect : s.selectCipher first = .ok cipher) :
    cipher ∈ s.ciphers ∧ cipher.epoch ≤ s.current ∧ cipher.epoch % 4 = (first &&& 0x03).toNat := by
  unfold selectCipher at hselect
  dsimp only at hselect
  split at hselect
  next found hfound =>
      obtain rfl := Except.ok.inj hselect
      split_ifs at hfound with hbits
      obtain ⟨hmem, hepoch⟩ := lookup_eq_some_iff.mp hfound
      exact ⟨hmem, hepoch.le, hepoch ▸ hbits⟩
  next =>
      split at hselect
      next found hfound =>
          obtain rfl := Except.ok.inj hselect
          rcases foldl_newer_mem hfound with hmem | hnone
          · obtain ⟨hin, hkept⟩ := mem_filter.mp hmem
            simp only [Bool.and_eq_true, decide_eq_true_eq, beq_iff_eq] at hkept
            exact ⟨hin, hkept.1.le, hkept.2⟩
          · simp at hnone
      next => simp at hselect

theorem selectCipher_error {first : UInt8} {err : Err}
    (hselect : s.selectCipher first = .error err) :
    err = .protocolError "no receive keys for record epoch" := by
  unfold selectCipher at hselect
  dsimp only at hselect
  split at hselect
  · cases hselect
  · split at hselect
    · cases hselect
    · exact (Except.error.inj hselect).symm

/-- When the installed epochs differ in their low bits, at most one has those of the record. -/
theorem selectCipher_eq_of_perm {other : EpochSet} (hcurrent : other.current = s.current)
    (hperm : other.ciphers.Perm s.ciphers)
    (hdistinct : ∀ c ∈ s.ciphers, ∀ d ∈ s.ciphers, c.epoch % 4 = d.epoch % 4 → c = d)
    (first : UInt8) : other.selectCipher first = s.selectCipher first := by
  cases hselect : s.selectCipher first with
  | ok cipher =>
    obtain ⟨hmem, hle, hbits⟩ := selectCipher_ok hselect
    apply selectCipher_eq_ok (hperm.mem_iff.mpr hmem) (hcurrent ▸ hle) hbits
    intro d hd _ hdbits
    rw [hdistinct d (hperm.mem_iff.mp hd) cipher hmem (hdbits.trans hbits.symm)]
  | error err =>
    cases hother : other.selectCipher first with
    | ok cipher =>
      obtain ⟨hmem, hle, hbits⟩ := selectCipher_ok hother
      have hmem' := hperm.mem_iff.mp hmem
      rw [selectCipher_eq_ok hmem' (hcurrent ▸ hle) hbits fun d hd _ hdbits =>
        (congrArg _ (hdistinct d hd cipher hmem' (hdbits.trans hbits.symm))).le] at hselect
      cases hselect
    | error err' =>
      rw [selectCipher_error hselect, selectCipher_error hother]

end EpochSet

end Dtls13
