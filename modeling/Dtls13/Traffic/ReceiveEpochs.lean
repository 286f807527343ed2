import Dtls13.Conn.State
import Dtls13.Lib.RunSystem

/-! # The receive epochs along a run of KeyUpdates

An update installs the next epoch, makes it current and discards the old ones, epoch 2
apart, which stays until its wire bits are reused. The epochs that remain differ in the two
bits a record shows.
-/

namespace Dtls13

open ByteCodec StateLogic RunSystem List

namespace ReceivingTraffic

variable {P : Primitives} {r : ReceivingTraffic} {handshakeKeys : Bool}

/-- Receiving traffic as the handshake leaves it, at epoch 3; `handshakeKeys` tells whether
the cipher of epoch 2 is installed, too. -/
structure Fresh (r : ReceivingTraffic) (handshakeKeys : Bool) : Prop where
  current : r.current = 3 ∧ r.epochs.current = 3
  installed : ∀ epoch, epoch ∈ r.epochs.ciphers.map RecordCipher.epoch ↔
    epoch = 3 ∨ epoch = 2 ∧ handshakeKeys = true
  secrets : r.secrets.map Prod.fst = [3]

/-- The epochs and secrets that remain. -/
structure Retains (handshakeKeys : Bool) (r : ReceivingTraffic) : Prop where
  current_eq : r.epochs.current = r.current
  three_le : 3 ≤ r.current
  installed : ∀ epoch, epoch ∈ r.epochs.ciphers.map RecordCipher.epoch ↔ epoch = r.current ∨
    (3 < r.current ∧ epoch + 1 = r.current) ∨ (epoch = 2 ∧ handshakeKeys = true ∧ r.current < 6)
  secrets : ∀ epoch, (r.secretForEpoch epoch).isSome ↔
    epoch = r.current ∨ (3 < r.current ∧ epoch + 1 = r.current)

theorem isSome_secretForEpoch {epoch : Nat} :
    (r.secretForEpoch epoch).isSome ↔ epoch ∈ r.secrets.map Prod.fst := by
  unfold secretForEpoch
  induction r.secrets with
  | nil => simp
  | cons entry rest ih =>
    rw [lookup_cons, map_cons, mem_cons, ← ih]
    cases hkey : epoch == entry.1 with
    | true => simp [beq_iff_eq.mp hkey]
    | false => simp [ne_of_beq_false hkey]

theorem Fresh.retains (hfresh : r.Fresh handshakeKeys) : r.Retains handshakeKeys := by
  obtain ⟨hcurrent, hepochs⟩ := hfresh.current
  refine ⟨hepochs.trans hcurrent.symm, hcurrent.ge, fun epoch => ?_, fun epoch => ?_⟩
  · rw [hfresh.installed, hcurrent]
    simp
  · rw [isSome_secretForEpoch, hfresh.secrets, hcurrent]
    simp

/-- An update that is new. -/
theorem Retains.advance (hretains : r.Retains handshakeKeys) {sequence : Nat} {epochs : EpochSet}
    {cipher : RecordCipher} (hcipher : r.nextCipher P = .ok cipher)
    (hciphers : epochs.ciphers = r.epochs.ciphers ++ [cipher])
    (hcurrent : epochs.current = r.current + 1) :
    (r.advance P sequence epochs).Retains handshakeKeys := by
  have hthree := hretains.three_le
  refine ⟨?_, Nat.le_succ_of_le hthree, fun epoch => ?_, fun epoch => ?_⟩
  · unfold ReceivingTraffic.advance
    dsimp only
    rw [if_pos (by omega)]
    exact hcurrent
  · have hmem : epoch ∈ (r.advance P sequence epochs).epochs.ciphers.map RecordCipher.epoch ↔
        (epoch ∈ r.epochs.ciphers.map RecordCipher.epoch ∨ epoch = r.current + 1) ∧
          (r.current ≤ epoch ∨ epoch = retainedEpoch (r.current + 1)) := by
      have hepoch := nextCipher_epoch hcipher
      simp only [mem_map, mem_advance_ciphers, hciphers, mem_append, mem_singleton]
      constructor
      · rintro ⟨c, ⟨hc | rfl, hkept⟩, rfl⟩
        · exact ⟨.inl ⟨c, hc, rfl⟩, hkept (by omega)⟩
        · exact ⟨.inr hepoch, hkept (by omega)⟩
      · rintro ⟨⟨c, hc, rfl⟩ | rfl, hkept⟩
        · exact ⟨c, ⟨.inl hc, fun _ => hkept⟩, rfl⟩
        · exact ⟨cipher, ⟨.inr rfl, fun _ => hepoch.symm ▸ hkept⟩, hepoch⟩
    rw [hmem, hretains.installed]
    change _ ↔ epoch = r.current + 1 ∨ (3 < r.current + 1 ∧ epoch + 1 = r.current + 1) ∨
      (epoch = 2 ∧ handshakeKeys = true ∧ r.current + 1 < 6)
    unfold retainedEpoch
    cases handshakeKeys <;>
      simp only [Bool.false_eq_true, false_and, and_false, or_false, true_and] <;>
      split_ifs <;> omega
  · have hmem : epoch ∈ (r.advance P sequence epochs).secrets.map Prod.fst ↔
        (epoch ∈ r.secrets.map Prod.fst ∨ epoch = r.current + 1) ∧ r.current ≤ epoch := by
      unfold ReceivingTraffic.advance
      dsimp only
      rw [if_pos (by omega)]
      simp only [mem_map, mem_filter, mem_append, mem_singleton, decide_eq_true_eq, bne_iff_ne]
      constructor
      · rintro ⟨entry, ⟨⟨hold, -⟩ | rfl, hrecent⟩, rfl⟩
        · exact ⟨.inl ⟨entry, hold, rfl⟩, hrecent⟩
        · exact ⟨.inr rfl, hrecent⟩
      · rintro ⟨⟨entry, hold, rfl⟩ | rfl, hrecent⟩
        · by_cases hnew : entry.1 = r.current + 1
          · exact ⟨(r.current + 1, _), ⟨.inr rfl, Nat.le_succ _⟩, hnew.symm⟩
          · exact ⟨entry, ⟨.inl ⟨hold, hnew⟩, hrecent⟩, rfl⟩
        · exact ⟨(r.current + 1, _), ⟨.inr rfl, hrecent⟩, rfl⟩
    rw [isSome_secretForEpoch, hmem, ← isSome_secretForEpoch, hretains.secrets]
    change _ ↔ epoch = r.current + 1 ∨ (3 < r.current + 1 ∧ epoch + 1 = r.current + 1)
    omega

/-- One update, whatever its sequence number and body. -/
theorem Retains.processKeyUpdate (hretains : r.Retains handshakeKeys) (sequence : Nat)
    (body : Bytes) :
    Retains handshakeKeys (exec (ReceivingTraffic.processKeyUpdate P sequence body) r) := by
  apply exec_of_wp
  apply wp_processKeyUpdate_cases hretains.current_eq
  · intro c hc
    have hepoch := (hretains.installed c.epoch).mp (mem_map_of_mem hc)
    have := hretains.three_le
    omega
  · exact fun _ _ => hretains
  · exact fun _ _ _ => hretains
  · exact fun _ _ _ _ _ hcipher hciphers hcurrent => hretains.advance hcipher hciphers hcurrent

/-- The epochs that remain differ in their low bits. -/
theorem Retains.distinct (hretains : r.Retains handshakeKeys) :
    ∀ c ∈ r.epochs.ciphers, ∀ d ∈ r.epochs.ciphers, c.epoch % 4 = d.epoch % 4 → c = d := by
  intro c hc d hd hbits
  have hcepoch := (hretains.installed c.epoch).mp (mem_map_of_mem hc)
  have hdepoch := (hretains.installed d.epoch).mp (mem_map_of_mem hd)
  have hthree := hretains.three_le
  exact inj_on_of_nodup_map r.epochs.epochs_nodup hc hd (by omega)

variable (P) in
/-- A KeyUpdate message as it arrives, by sequence number and body. -/
def receiveKeyUpdate (r : ReceivingTraffic) (update : UInt16 × Bytes) : ReceivingTraffic :=
  exec (processKeyUpdate P update.1.toNat update.2) r

/-- Whatever updates arrive, the remaining epochs are known, no two of them share their wire
bits, and a cipher is selected whatever the order of the map. -/
theorem receiveEpochs_unambiguous (P : Primitives) (start : ReceivingTraffic)
    (handshakeKeys : Bool) (hfresh : start.Fresh handshakeKeys) (updates : List (UInt16 × Bytes)) :
    let r := run (receiveKeyUpdate P) start updates
    (∀ epoch, epoch ∈ r.epochs.ciphers.map RecordCipher.epoch ↔ epoch = r.current ∨
      (3 < r.current ∧ epoch + 1 = r.current) ∨
      (epoch = 2 ∧ handshakeKeys = true ∧ r.current < 6)) ∧
    r.epochs.current = r.current ∧
    (∀ c ∈ r.epochs.ciphers, ∀ d ∈ r.epochs.ciphers, c.epoch % 4 = d.epoch % 4 → c = d) ∧
    (∀ other : EpochSet, other.current = r.epochs.current →
      other.ciphers.Perm r.epochs.ciphers → ∀ first,
        other.selectCipher first = r.epochs.selectCipher first) ∧
    ∀ epoch, (r.secretForEpoch epoch).isSome ↔
      epoch = r.current ∨ (3 < r.current ∧ epoch + 1 = r.current) := by
  have hstep : ∀ (r : ReceivingTraffic) (update : UInt16 × Bytes), r.Retains handshakeKeys →
      (receiveKeyUpdate P r update).Retains handshakeKeys :=
    fun _ update hretains => hretains.processKeyUpdate update.1.toNat update.2
  have hretains := run_invariant_all hstep hfresh.retains updates
  refine ⟨hretains.installed, hretains.current_eq, hretains.distinct, ?_, hretains.secrets⟩
  intro other hcurrent hperm first
  exact EpochSet.selectCipher_eq_of_perm hcurrent hperm hretains.distinct first

/-- Two updates: the epoch before the current one is still installed. -/
theorem receiveEpochs_unambiguous_twoUpdates :
    4 ∈ (run (receiveKeyUpdate .checksum) (newReceivingTraffic .checksum .aes128GcmSha256 [1] 3 64)
      [(0, [1]), (1, [0])]).epochs.ciphers.map RecordCipher.epoch := by
  have hfresh : Fresh (newReceivingTraffic .checksum .aes128GcmSha256 [1] 3 64) false :=
    ⟨⟨rfl, rfl⟩, by simp [newReceivingTraffic, newRecordCipher], rfl⟩
  exact ((receiveEpochs_unambiguous .checksum _ false hfresh _).1 4).mpr
    (.inr (.inl (by decide +kernel)))

end ReceivingTraffic

end Dtls13
