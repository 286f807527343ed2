import Dtls13.Lib.ByteCodec

/-! # Cipher suites and key derivation

The algorithms themselves are outside the repository. They enter as one
structure of functions together with the laws the record layer relies on, and
every result holds for every such structure. The code of this repository on top
of them, HKDF-Expand-Label and the derivation of traffic keys, is modelled in
full.
-/

namespace Dtls13

open ByteCodec

inductive HashAlgorithm where
  | sha256
  | sha384
  deriving DecidableEq, Repr

namespace HashAlgorithm

def size : HashAlgorithm → Nat
  | sha256 => 32
  | sha384 => 48

theorem size_pos (hash : HashAlgorithm) : 0 < hash.size := by
  cases hash <;> decide

end HashAlgorithm

/-- The rows of `supportedCipherSuites`. -/
inductive CipherSuite where
  | aes128GcmSha256
  | aes256GcmSha384
  | chacha20Poly1305Sha256
  | aes128CcmSha256
  deriving DecidableEq, Repr

namespace CipherSuite

def hash : CipherSuite → HashAlgorithm
  | aes128GcmSha256 => .sha256
  | aes256GcmSha384 => .sha384
  | chacha20Poly1305Sha256 => .sha256
  | aes128CcmSha256 => .sha256

def keyLen : CipherSuite → Nat
  | aes128GcmSha256 => 16
  | aes256GcmSha384 => 32
  | chacha20Poly1305Sha256 => 32
  | aes128CcmSha256 => 16

def ivLen : CipherSuite → Nat
  | _ => 12

def recordLimit : CipherSuite → Nat
  | aes128GcmSha256 => 2 ^ 24
  | aes256GcmSha384 => 2 ^ 24
  | chacha20Poly1305Sha256 => 2 ^ 48
  | aes128CcmSha256 => 2 ^ 23

def authFailureLimit : CipherSuite → Nat
  | aes128GcmSha256 => 2 ^ 36
  | aes256GcmSha384 => 2 ^ 36
  | chacha20Poly1305Sha256 => 2 ^ 36
  | aes128CcmSha256 => 2 ^ 23

/-- The tag length of every supported AEAD. -/
def overhead : CipherSuite → Nat
  | _ => 16

end CipherSuite

/-- The cryptographic algorithms the repository imports. AEAD sealing and
opening take key, nonce, text and additional data, in that order. -/
structure Primitives where
  hmac : HashAlgorithm → Bytes → Bytes → Bytes
  aeadSeal : CipherSuite → Bytes → Bytes → Bytes → Bytes → Bytes
  aeadOpen : CipherSuite → Bytes → Bytes → Bytes → Bytes → Option Bytes
  aesBlock : Bytes → Bytes → Vector UInt8 16
  /-- The first two key stream bytes for a key, a block counter and a nonce. -/
  chacha20KeyStream : Bytes → Nat → Bytes → UInt8 × UInt8
  hmac_length : ∀ hash secret message, (hmac hash secret message).length = hash.size
  aeadSeal_length : ∀ suite key nonce plain additional,
    (aeadSeal suite key nonce plain additional).length = plain.length + suite.overhead
  aeadOpen_aeadSeal : ∀ suite key nonce plain additional,
    aeadOpen suite key nonce (aeadSeal suite key nonce plain additional) additional = some plain

attribute [simp] Primitives.hmac_length Primitives.aeadSeal_length Primitives.aeadOpen_aeadSeal

/-- ASCII text as bytes. -/
def ascii (text : List Char) : Bytes := text.map fun c => UInt8.ofNat c.toNat

def dtls13LabelPrefix : Bytes := ascii ['d', 't', 'l', 's', '1', '3']
def labelKey : Bytes := ascii ['k', 'e', 'y']
def labelIV : Bytes := ascii ['i', 'v']
def labelSN : Bytes := ascii ['s', 'n']
def labelTrafficUpdate : Bytes := ascii ['t', 'r', 'a', 'f', 'f', 'i', 'c', ' ', 'u', 'p', 'd']

section Derivation

variable (P : Primitives)

/-- The loop of `expandInto`: `blocks` further HMAC outputs, each over the
previous one, the info and a one-byte counter. -/
def expandBlocks (hash : HashAlgorithm) (secret info : Bytes) : Nat → UInt8 → Bytes → Bytes
  | 0, _, _ => []
  | blocks + 1, counter, previous =>
    let block := P.hmac hash secret (previous ++ info ++ [counter])
    block ++ expandBlocks hash secret info blocks (counter + 1) block

def expandInto (hash : HashAlgorithm) (secret info : Bytes) (length : Nat) : Bytes :=
  (expandBlocks P hash secret info ((length + hash.size - 1) / hash.size) 1 []).take length

def expandLabelWithInto (hash : HashAlgorithm) (secret label context : Bytes) (length : Nat) :
    Bytes :=
  let fullLabel := dtls13LabelPrefix ++ label
  let info := beBytes 2 length ++ [UInt8.ofNat fullLabel.length] ++ fullLabel ++
    [UInt8.ofNat context.length] ++ context
  expandInto P hash secret info length

/-- The single-block form of HKDF-Expand-Label, whose output is one hash long. -/
def expandLabelHashInto (suite : CipherSuite) (secret label context : Bytes) : Bytes :=
  let full := dtls13LabelPrefix ++ label
  let header := [0, UInt8.ofNat suite.hash.size, UInt8.ofNat full.length]
  P.hmac suite.hash secret
    (header ++ full ++ [UInt8.ofNat context.length] ++ context ++ [1])

structure TrafficKeys where
  key : Bytes
  iv : Bytes
  sn : Bytes
  deriving DecidableEq, Repr

def deriveTrafficKeys (suite : CipherSuite) (trafficSecret : Bytes) : TrafficKeys where
  key := expandLabelWithInto P suite.hash trafficSecret labelKey [] suite.keyLen
  iv := expandLabelWithInto P suite.hash trafficSecret labelIV [] suite.ivLen
  sn := expandLabelWithInto P suite.hash trafficSecret labelSN [] suite.keyLen

theorem expandBlocks_length (hash : HashAlgorithm) (secret info : Bytes) (blocks : Nat)
    (counter : UInt8) (previous : Bytes) :
    (expandBlocks P hash secret info blocks counter previous).length = blocks * hash.size := by
  induction blocks generalizing counter previous with
  | zero => simp [expandBlocks]
  | succ blocks ih =>
    simp only [expandBlocks, List.length_append, P.hmac_length, ih]
    ring

@[simp] theorem expandInto_length (hash : HashAlgorithm) (secret info : Bytes) (length : Nat) :
    (expandInto P hash secret info length).length = length := by
  have hsize := hash.size_pos
  have hblocks : length ≤ (length + hash.size - 1) / hash.size * hash.size := by
    have hdiv := Nat.div_add_mod (length + hash.size - 1) hash.size
    have hmod := Nat.mod_lt (length + hash.size - 1) hsize
    rw [Nat.mul_comm] at hdiv
    omega
  simp [expandInto, expandBlocks_length, hblocks]

@[simp] theorem deriveTrafficKeys_iv_length (suite : CipherSuite) (trafficSecret : Bytes) :
    (deriveTrafficKeys P suite trafficSecret).iv.length = suite.ivLen := by
  simp [deriveTrafficKeys, expandLabelWithInto]

end Derivation

/-- The sequence-number mask for a ciphertext sample of sixteen bytes: the AES
block of the sample, or the ChaCha20 key stream at the counter and nonce it
encodes. -/
def sequenceMask (P : Primitives) (suite : CipherSuite) (sn sample : Bytes) : UInt8 × UInt8 :=
  match suite with
  | .chacha20Poly1305Sha256 =>
    P.chacha20KeyStream sn (beNat (sample.take 4).reverse) ((sample.drop 4).take 12)
  | _ =>
    let block := P.aesBlock sn (sample.take 16)
    (block[0], block[1])

namespace Primitives

/-- A stand-in for evaluating the model on concrete inputs: every digest is one
repeated byte, and the AEAD appends a tag that depends on key, nonce and data. -/
def checksum : Primitives where
  hmac hash secret message :=
    List.replicate hash.size (secret.headD 0 + UInt8.ofNat message.length)
  aeadSeal suite key nonce plain additional :=
    plain ++ List.replicate suite.overhead
      (key.headD 0 + nonce.getLastD 0 + additional.headD 0 + UInt8.ofNat plain.length)
  aeadOpen suite key nonce text additional :=
    let plain := text.take (text.length - suite.overhead)
    if text = plain ++ List.replicate suite.overhead
        (key.headD 0 + nonce.getLastD 0 + additional.headD 0 + UInt8.ofNat plain.length)
    then some plain else none
  aesBlock _ block := Vector.ofFn fun i => block.getD i 0
  chacha20KeyStream _ _ nonce := (nonce.headD 0, nonce.getLastD 0)
  hmac_length := by simp
  aeadSeal_length := by simp
  aeadOpen_aeadSeal := by simp

end Primitives

end Dtls13
