import Dtls13.Handshake.Fragment
import Dtls13.Hello.Canonical
import Dtls13.Hello.RoundTrip

/-! # Binders of pre-shared keys

A binder proves that the sender of a ClientHello knows a key. It covers the hello
up to the vector of binders, which the client finds by counting from the end of
a hello with blank binders and the server from the end of the hello it received.
-/

namespace Dtls13

open ByteCodec StateLogic ClientHello List OrderedExtension

/-! ## The model -/

def labelFinished : Bytes := ascii ['f', 'i', 'n', 'i', 's', 'h', 'e', 'd']
def labelResumptionBinder : Bytes := ascii ['r', 'e', 's', ' ', 'b', 'i', 'n', 'd', 'e', 'r']
def labelExternalBinder : Bytes := ascii ['e', 'x', 't', ' ', 'b', 'i', 'n', 'd', 'e', 'r']

/-- What `writeBinderTranscriptMessage` writes to the hash. -/
def writeBinderTranscriptMessage (typ : UInt8) (body : Bytes) (fullLength : Nat) : Bytes :=
  typ :: (beBytes 3 fullLength ++ body)

/-- The bytes a binder is computed over: the first hello and the retry request if
there was one, and the truncated hello under the length of the whole one. -/
def binderTranscript (initialClientHelloHash hrrBody truncated : Bytes) (fullLength : Nat) :
    Bytes :=
  (if hrrBody ≠ [] then
    writeBinderTranscriptMessage handshakeTypeMessageHash initialClientHelloHash
        initialClientHelloHash.length ++
      writeBinderTranscriptMessage handshakeTypeServerHello hrrBody hrrBody.length
  else []) ++ writeBinderTranscriptMessage handshakeTypeClientHello truncated fullLength

def truncateClientHelloForBinderEntries (body : Bytes) (binderEntriesLength : Nat) :
    Except Err Bytes := do
  let suffix := 2 + binderEntriesLength
  require (2 ≤ binderEntriesLength ∧ suffix ≤ body.length)
    (.protocolError "invalid ClientHello binder truncation")
  let start := body.length - suffix
  require (beNat ((body.drop start).take 2) = binderEntriesLength)
    (.protocolError "invalid ClientHello binders vector")
  pure (body.take start)

def truncateClientHelloForBinder (body : Bytes) (binderLength : Nat) : Except Err Bytes :=
  truncateClientHelloForBinderEntries body (1 + binderLength)

/-- The length of the binders in their vector. -/
def binderBytes (binders : List Bytes) : Nat := (binders.map fun binder => 1 + binder.length).sum

structure ClientPSKOffer where
  identity : Bytes
  psk : Bytes
  suite : CipherSuite
  binderLabel : Bytes
  age : UInt32
  deriving DecidableEq, Repr

def ClientPSKOffer.entry (offer : ClientPSKOffer) : PskIdentityEntry :=
  ⟨offer.identity, offer.age⟩

def ClientPSKOffer.blankBinder (offer : ClientPSKOffer) : Bytes :=
  List.replicate offer.suite.hash.size 0

/-- The hello with all offers and with binders of zeros. -/
def blankOffers (hello : ClientHello) (offers : List ClientPSKOffer) : ClientHello :=
  { hello with
    pskIdentities := offers.map ClientPSKOffer.entry
    pskBinders := offers.map ClientPSKOffer.blankBinder }

section Model

variable (P : Primitives) (digest : HashAlgorithm → Bytes → Bytes)
  (distinguishedName : Bytes → Bool)

def computeFinishedVerifyData (suite : CipherSuite) (baseSecret transcriptHash : Bytes) : Bytes :=
  P.hmac suite.hash (expandLabelHashInto P suite baseSecret labelFinished []) transcriptHash

def calculatePSKBinderWithLabel (suite : CipherSuite) (psk label transcriptHash : Bytes) : Bytes :=
  let earlySecret := P.hmac suite.hash [] psk
  let binderKey := expandLabelHashInto P suite earlySecret label (digest suite.hash [])
  computeFinishedVerifyData P suite binderKey transcriptHash

/-- The binder over a truncated hello. -/
def binderOver (suite : CipherSuite) (psk label initialClientHelloHash hrrBody truncated : Bytes)
    (fullLength : Nat) : Bytes :=
  calculatePSKBinderWithLabel P digest suite psk label
    (digest suite.hash (binderTranscript initialClientHelloHash hrrBody truncated fullLength))

/-- The hello with its single binder, and its bytes. -/
def marshalClientHelloWithPSKBinder (hello : ClientHello) (suite : CipherSuite)
    (psk initialClientHelloHash hrrBody : Bytes) : Except Err (ClientHello × Bytes) := do
  let blank := { hello with pskBinder := List.replicate suite.hash.size 0 }
  let body ← blank.marshal
  let truncated ← truncateClientHelloForBinder body suite.hash.size
  let binder := binderOver P digest suite psk labelResumptionBinder initialClientHelloHash hrrBody
    truncated body.length
  let bound := { blank with pskBinder := binder }
  let final ← bound.marshal
  pure (bound, final)

/-- The hello with the identities and binders of all offers, and its bytes. -/
def marshalClientHelloWithPSKOffers (hello : ClientHello) (offers : List ClientPSKOffer)
    (initialClientHelloHash hrrBody : Bytes) : Except Err (ClientHello × Bytes) := do
  let blank := blankOffers hello offers
  let body ← blank.marshal
  let truncated ← truncateClientHelloForBinderEntries body (binderBytes blank.pskBinders)
  let binders := offers.map fun offer => binderOver P digest offer.suite offer.psk
    offer.binderLabel initialClientHelloHash hrrBody truncated body.length
  let bound := { blank with pskBinders := binders }
  let final ← bound.marshal
  pure (bound, final)

def verifyClientHelloPSKBinderAtWithLabel (body : Bytes) (suite : CipherSuite)
    (psk label initialClientHelloHash hrrBody : Bytes) (selected : Nat) : Except Err Unit := do
  let hello ← parseClientHello distinguishedName body
  let binder ← match hello.pskBinders[selected]? with
    | some binder => .ok binder
    | none => .error (.protocolError "PSK binder length does not match cipher suite")
  require (binder.length = suite.hash.size)
    (.protocolError "PSK binder length does not match cipher suite")
  let truncated ← truncateClientHelloForBinderEntries body (binderBytes hello.pskBinders)
  let want := binderOver P digest suite psk label initialClientHelloHash hrrBody truncated
    body.length
  require (want = binder) (alertError alertDecryptError (.protocolError "invalid PSK binder"))

end Model

/-! ## The vector of binders -/

/-- The vector of binders at the end of a hello. -/
def bindersVector (binders : List Bytes) : Bytes := vectorBytes 2 (binders.flatMap (vectorBytes 1))

theorem binderBytes_eq (binders : List Bytes) :
    binderBytes binders = (binders.flatMap (vectorBytes 1)).length := by
  simp [binderBytes, length_flatMap, vectorBytes]

theorem truncateClientHelloForBinderEntries_append {covered entries : Bytes}
    (htwo : 2 ≤ entries.length) (hfits : entries.length < 256 ^ 2) :
    truncateClientHelloForBinderEntries (covered ++ vectorBytes 2 entries) entries.length =
      .ok covered := by
  have hlength : (covered ++ vectorBytes 2 entries).length =
      covered.length + (2 + entries.length) := by
    simp [vectorBytes]
  have hfirst : (vectorBytes 2 entries).take 2 = beBytes 2 entries.length :=
    take_left' (beBytes_length 2 _)
  have hvalue : beNat (((covered ++ vectorBytes 2 entries).drop covered.length).take 2) =
      entries.length := by
    rw [drop_left, hfirst, beNat_beBytes 2 hfits]
  rw [truncateClientHelloForBinderEntries, require_of ⟨htwo, by omega⟩, ok_bind]
  simp only [hlength, Nat.add_sub_cancel]
  rw [require_of hvalue, ok_bind, take_left]
  rfl

namespace ClientHello

/-! ## A hello with other binders -/

/-- The hello with its binders replaced. -/
def withBinders (h : ClientHello) (binder : Bytes) (binders : List Bytes) : ClientHello :=
  { h with pskBinder := binder, pskBinders := binders }

/-- The rows of the table before the keys. -/
def tableBeforePSK (h : ClientHello) (p : Parts) : List (Nat × Option Bytes) :=
  (h.extensionTable p).dropLast

theorem extensionTable_eq_append (h : ClientHello) (p : Parts) :
    h.extensionTable p = h.tableBeforePSK p ++ [(extPreSharedKey, p.psk)] := rfl

section WithBinders

variable {h : ClientHello} {p p' : Parts} {binder : Bytes} {binders : List Bytes}

/-- Only the encoded keys depend on the binders. -/
theorem isParts_withBinders (hp : h.IsParts p) (hp' : (h.withBinders binder binders).IsParts p') :
    p' = { p with psk := p'.psk } := by
  have hsame : (h.withBinders binder binders).IsParts { p with psk := p'.psk } :=
    ⟨hp.keyShares, hp.signatures, hp.groups, hp.certificateSignatures, hp.serverName, hp.alpn,
      hp.cookie, hp.connectionID, hp'.psk, hp.certificateCompression, hp.delegatedCredential,
      hp.handshakeMetadata⟩
  exact Except.ok.inj ((isParts_iff.mpr hp').symm.trans (isParts_iff.mpr hsame))

theorem tableBeforePSK_withBinders (hp : h.IsParts p)
    (hp' : (h.withBinders binder binders).IsParts p') (hsome : p'.psk.isSome = p.psk.isSome) :
    (h.withBinders binder binders).tableBeforePSK p' = h.tableBeforePSK p := by
  rw [isParts_withBinders hp hp']
  unfold tableBeforePSK extensionTable
  simp only [hsome]
  rfl

end WithBinders

/-- The bytes of a hello before its vector of binders, which is `n` bytes long
without its length field. -/
def beforeBinders (h : ClientHello) (p : Parts) (identities : List PskIdentityEntry) (n : Nat) :
    Bytes :=
  let rows := (present (h.tableBeforePSK p)).flatMap bytes
  let keys := vectorBytes 2 (identities.flatMap PskIdentityEntry.bytes)
  h.head ++ (beBytes 2 (rows.length + (2 + (2 + (keys.length + (2 + n))))) ++
    (rows ++ (beBytes 2 extPreSharedKey ++ (beBytes 2 (keys.length + (2 + n)) ++ keys))))

variable {h : ClientHello}

theorem Marshalled.body_eq_append {p : Parts} {body b : Bytes}
    {identities : List PskIdentityEntry} {binders : List Bytes} (hm : h.Marshalled p body)
    (hpsk : p.psk = some b) (hoffer : PskOffer identities binders b) :
    body = h.beforeBinders p identities (binderBytes binders) ++ bindersVector binders := by
  have hexts : (h.extensions p).flatMap bytes = (present (h.tableBeforePSK p)).flatMap bytes ++
        (beBytes 2 extPreSharedKey ++ vectorBytes 2 b) := by
    unfold extensions
    rw [extensionTable_eq_append, hpsk]
    simp [present, bytes]
  have hkeys : b.length = (vectorBytes 2 (identities.flatMap PskIdentityEntry.bytes)).length +
      (2 + binderBytes binders) := by
    rw [hoffer.bytes, length_append, binderBytes_eq]
    simp [vectorBytes]
  rw [hm.body, hexts]
  unfold beforeBinders bindersVector
  rw [vectorBytes, vectorBytes, length_append, length_append, length_append,
    beBytes_length, beBytes_length, hkeys]
  rw [hoffer.bytes]
  simp only [append_assoc]

theorem offeredPSKs_list (hlist : h.pskIdentities ≠ []) :
    h.offeredPSKs = (h.pskIdentities, h.pskBinders) := if_pos hlist

theorem offeredPSKs_single (hlist : h.pskIdentities = []) (hsingle : h.pskIdentity ≠ []) :
    h.offeredPSKs = ([⟨h.pskIdentity, h.obfuscatedAge⟩], [h.pskBinder]) := by
  rw [offeredPSKs, if_neg (not_not_intro hlist), if_pos hsingle]

theorem offeredPSKs_withBinders (h : ClientHello) (binder : Bytes) (binders : List Bytes) :
    (h.withBinders binder binders).offeredPSKs.1 = h.offeredPSKs.1 := by
  unfold offeredPSKs withBinders
  dsimp only
  split_ifs <;> rfl

theorem Marshalled.pskOffer {p : Parts} {body : Bytes} (hm : h.Marshalled p body)
    (hne : h.offeredPSKs.1 ≠ []) :
    ∃ b, p.psk = some b ∧ PskOffer h.offeredPSKs.1 h.offeredPSKs.2 b := by
  rcases marshalPSK_eq_ok hm.isParts.psk with ⟨hempty, _⟩ | ⟨b, hsome, hb⟩
  · rw [hempty] at hne
    exact absurd rfl hne
  · exact ⟨b, hsome, marshalClientPSKs_eq_ok hb⟩

end ClientHello

theorem PskOffer.binderBytes_bounds {identities : List PskIdentityEntry} {binders : List Bytes}
    {b : Bytes} (hoffer : PskOffer identities binders b) :
    2 ≤ binderBytes binders ∧ binderBytes binders < 256 ^ 2 := by
  constructor
  · obtain ⟨first, rest, hcons⟩ := exists_cons_of_ne_nil
      (length_pos_iff.mp (hoffer.counts ▸ length_pos_iff.mpr hoffer.nonempty))
    have hfirst := (hoffer.binder first (by simp [hcons])).1
    simp only [hcons, binderBytes, map_cons, sum_cons]
    omega
  · rw [binderBytes_eq]
    exact Nat.lt_succ_of_le hoffer.bindersFit

namespace ClientHello

/-- Binders of the same lengths leave the bytes before their vector alone. -/
theorem Marshalled.covered_withBinders {h : ClientHello} {p p' : Parts}
    {body body' binder : Bytes} {binders : List Bytes} (hm : h.Marshalled p body)
    (hm' : (h.withBinders binder binders).Marshalled p' body') (hne : h.offeredPSKs.1 ≠ [])
    (hlength : binderBytes (h.withBinders binder binders).offeredPSKs.2 =
      binderBytes h.offeredPSKs.2) :
    ∃ covered, body = covered ++ bindersVector h.offeredPSKs.2 ∧
      body' = covered ++ bindersVector (h.withBinders binder binders).offeredPSKs.2 := by
  obtain ⟨b, hpsk, hoffer⟩ := hm.pskOffer hne
  have hids := h.offeredPSKs_withBinders binder binders
  obtain ⟨b', hpsk', hoffer'⟩ := hm'.pskOffer (hids ▸ hne)
  have hcovered : (h.withBinders binder binders).beforeBinders p'
      (h.withBinders binder binders).offeredPSKs.1
        (binderBytes (h.withBinders binder binders).offeredPSKs.2) =
      h.beforeBinders p h.offeredPSKs.1 (binderBytes h.offeredPSKs.2) := by
    unfold beforeBinders
    rw [tableBeforePSK_withBinders hm.isParts hm'.isParts (by simp [hpsk, hpsk']), hids, hlength]
    rfl
  refine ⟨_, hm.body_eq_append hpsk hoffer, ?_⟩
  rw [← hcovered]
  exact hm'.body_eq_append hpsk' hoffer'

end ClientHello

/-! ## Agreement -/

section Agreement

variable {P : Primitives} {digest : HashAlgorithm → Bytes → Bytes}
  {distinguishedName : Bytes → Bool}

@[simp] theorem binderOver_length (suite : CipherSuite)
    (psk label initialClientHelloHash hrrBody truncated : Bytes) (fullLength : Nat) :
    (binderOver P digest suite psk label initialClientHelloHash hrrBody truncated
      fullLength).length = suite.hash.size := by
  simp [binderOver, calculatePSKBinderWithLabel, computeFinishedVerifyData]

/-- Verification compares: it succeeds for the binder over the truncated hello, no other. -/
theorem verify_eq_ok_iff {body covered : Bytes} {q : ClientHello} (suite : CipherSuite)
    (psk label initialClientHelloHash hrrBody : Bytes) (selected : Nat)
    (hok : parseClientHello distinguishedName body = .ok q)
    (htruncate : truncateClientHelloForBinderEntries body (binderBytes q.pskBinders) =
      .ok covered) :
    verifyClientHelloPSKBinderAtWithLabel P digest distinguishedName body suite psk label
        initialClientHelloHash hrrBody selected = .ok () ↔
      q.pskBinders[selected]? = some (binderOver P digest suite psk label initialClientHelloHash
        hrrBody covered body.length) := by
  rw [verifyClientHelloPSKBinderAtWithLabel, hok, ok_bind]
  cases q.pskBinders[selected]? with
  | none =>
    constructor
    · intro hverified
      cases hverified
    · intro hbinder
      cases hbinder
  | some binder =>
    dsimp only
    rw [ok_bind, htruncate, Option.some.injEq]
    constructor
    · intro hverified
      obtain ⟨_, _, hsame⟩ := bind_eq_ok.mp hverified
      exact (require_eq_ok.mp hsame).symm
    · rintro rfl
      rw [require_of (binderOver_length ..), ok_bind, ok_bind, require_of rfl]

/-- Binders filled in after the hello was truncated follow the bytes they were computed over. -/
theorem ClientHello.Marshalled.eq_append_withBinders {h q : ClientHello}
    {p p' : ClientHello.Parts} {body body' binder truncated : Bytes} {binders : List Bytes}
    (hm : h.Marshalled p body) (hm' : (h.withBinders binder binders).Marshalled p' body')
    (hne : h.offeredPSKs.1 ≠ [])
    (hlength : binderBytes (h.withBinders binder binders).offeredPSKs.2 =
      binderBytes h.offeredPSKs.2)
    (htruncate : truncateClientHelloForBinderEntries body (binderBytes h.offeredPSKs.2) =
      .ok truncated)
    (hok : parseClientHello distinguishedName body' = .ok q) :
    q.pskBinders = (h.withBinders binder binders).offeredPSKs.2 ∧
      body' = truncated ++ bindersVector q.pskBinders ∧ body'.length = body.length := by
  obtain ⟨_, _, hoffer⟩ := hm.pskOffer hne
  have hbounds := hoffer.binderBytes_bounds
  obtain ⟨covered, hbody, hbody'⟩ := hm.covered_withBinders hm' hne hlength
  have hread : q.pskBinders = (h.withBinders binder binders).offeredPSKs.2 :=
    congrArg Prod.snd (hm'.agrees hok).psk
  -- the client has cut off the vector of blank binders, which is as long as the final one
  have hcovered : truncated = covered := by
    rw [binderBytes_eq] at hbounds htruncate
    rw [hbody, bindersVector, truncateClientHelloForBinderEntries_append hbounds.1 hbounds.2]
      at htruncate
    exact (Except.ok.inj htruncate).symm
  refine ⟨hread, by rw [hcovered, hread, hbody'], ?_⟩
  rw [binderBytes_eq, binderBytes_eq] at hlength
  rw [hbody, hbody']
  simp [bindersVector, vectorBytes, hlength]

/-- The client's list of offers: each binder is computed over the bytes before the vector. -/
theorem marshalClientHelloWithPSKOffers_binders {hello bound q : ClientHello}
    {offers : List ClientPSKOffer} {initialClientHelloHash hrrBody body : Bytes}
    (hmarshal : marshalClientHelloWithPSKOffers P digest hello offers initialClientHelloHash
      hrrBody = .ok (bound, body))
    (hok : parseClientHello distinguishedName body = .ok q) :
    ∃ covered, body = covered ++ bindersVector q.pskBinders ∧
      q.pskBinders = offers.map fun offer => binderOver P digest offer.suite offer.psk
        offer.binderLabel initialClientHelloHash hrrBody covered body.length := by
  simp only [marshalClientHelloWithPSKOffers, bind_eq_ok] at hmarshal
  obtain ⟨blankBody, hblank, truncated, htruncate, final, hfinal, hmarshal⟩ := hmarshal
  cases hmarshal
  obtain ⟨p, hm⟩ := marshal_eq_ok_iff.mp hblank
  obtain ⟨p', hm'⟩ := marshal_eq_ok_iff.mp hfinal
  -- without an offer there is no vector to cut off
  have hsome : offers.map ClientPSKOffer.entry ≠ [] := by
    intro hnil
    rw [map_eq_nil_iff] at hnil
    subst hnil
    obtain ⟨_, hshort, _⟩ := bind_eq_ok.mp htruncate
    exact absurd (require_eq_ok.mp hshort).1 (by simp [blankOffers, binderBytes])
  have hblankOffer : (blankOffers hello offers).offeredPSKs =
      (offers.map ClientPSKOffer.entry, offers.map ClientPSKOffer.blankBinder) :=
    offeredPSKs_list hsome
  have hboundOffer (binders : List Bytes) :
      ((blankOffers hello offers).withBinders hello.pskBinder binders).offeredPSKs =
        (offers.map ClientPSKOffer.entry, binders) :=
    offeredPSKs_list hsome
  have hbound : ((blankOffers hello offers).withBinders hello.pskBinder _).Marshalled p' body := hm'
  obtain ⟨hread, hbody, hlength⟩ := hm.eq_append_withBinders hbound
    (by rw [hblankOffer]; exact hsome)
    (by
      rw [hboundOffer, hblankOffer]
      simp [binderBytes, ClientPSKOffer.blankBinder, Function.comp_def])
    (by rw [hblankOffer]; exact htruncate) hok
  refine ⟨truncated, hbody, ?_⟩
  rw [hread, hboundOffer, hlength]

/-- The single key of a hello without a list: its binder is computed so too. -/
theorem marshalClientHelloWithPSKBinder_binder {hello bound q : ClientHello} {suite : CipherSuite}
    {psk initialClientHelloHash hrrBody body : Bytes} (hsingle : hello.pskIdentities = [])
    (hmarshal : marshalClientHelloWithPSKBinder P digest hello suite psk initialClientHelloHash
      hrrBody = .ok (bound, body))
    (hok : parseClientHello distinguishedName body = .ok q) :
    ∃ covered, body = covered ++ bindersVector q.pskBinders ∧
      q.pskBinders = [binderOver P digest suite psk labelResumptionBinder initialClientHelloHash
        hrrBody covered body.length] := by
  simp only [marshalClientHelloWithPSKBinder, bind_eq_ok] at hmarshal
  obtain ⟨blankBody, hblank, truncated, htruncate, final, hfinal, hmarshal⟩ := hmarshal
  cases hmarshal
  obtain ⟨p, hm⟩ := marshal_eq_ok_iff.mp hblank
  obtain ⟨p', hm'⟩ := marshal_eq_ok_iff.mp hfinal
  -- a binder without an identity would not have been written
  have hidentity : hello.pskIdentity ≠ [] := by
    intro hnil
    have hpart := hm.isParts.psk
    have hsize := suite.hash.size_pos
    rw [marshalPSK, if_neg (not_not_intro hsingle), if_neg (not_not_intro hnil)]
      at hpart
    obtain ⟨_, hempty, _⟩ := bind_eq_ok.mp hpart
    have hreplicate := congrArg List.length (require_eq_ok.mp hempty).1
    rw [length_replicate, length_nil] at hreplicate
    omega
  have hboundOffer (binder : Bytes) :
      (hello.withBinders binder hello.pskBinders).offeredPSKs =
        ([⟨hello.pskIdentity, hello.obfuscatedAge⟩], [binder]) :=
    offeredPSKs_single hsingle hidentity
  have hblankOffer := hboundOffer (List.replicate suite.hash.size 0)
  have hbound : ((hello.withBinders (List.replicate suite.hash.size 0) hello.pskBinders).withBinders
    _ hello.pskBinders).Marshalled p' body := hm'
  have hblankMarshalled : (hello.withBinders (List.replicate suite.hash.size 0)
    hello.pskBinders).Marshalled p blankBody := hm
  obtain ⟨hread, hbody, hlength⟩ := hblankMarshalled.eq_append_withBinders hbound
    (by rw [hblankOffer]; simp)
    (by
      rw [hblankOffer]
      refine (congrArg (fun offered => binderBytes offered.2) (hboundOffer _)).trans ?_
      simp [binderBytes])
    (by
      rw [hblankOffer]
      simpa [binderBytes, truncateClientHelloForBinder] using htruncate) hok
  refine ⟨truncated, hbody, ?_⟩
  rw [hread, hlength]
  exact congrArg Prod.snd (hboundOffer _)

/-- What a binder of an accepted hello covers: all of it but the vector of binders. -/
theorem truncateClientHelloForBinderEntries_accepted {body : Bytes} {q : ClientHello}
    (hok : parseClientHello distinguishedName body = .ok q) (hbinders : q.pskBinders ≠ []) :
    ∃ covered, truncateClientHelloForBinderEntries body (binderBytes q.pskBinders) = .ok covered ∧
      body = covered ++ bindersVector q.pskBinders := by
  obtain ⟨hfits, hlong, covered, hbody⟩ := parseClientHello_binders hok hbinders
  refine ⟨covered, ?_, hbody⟩
  have htwo : 2 ≤ (q.pskBinders.flatMap (vectorBytes 1)).length := by
    obtain ⟨first, rest, hcons⟩ := exists_cons_of_ne_nil hbinders
    have hfirst := hlong first (by simp [hcons])
    rw [hcons, flatMap_cons, length_append, vectorBytes, length_append]
    omega
  rw [binderBytes_eq, hbody]
  exact truncateClientHelloForBinderEntries_append htwo hfits

/-- The server accepts a binder over the bytes before the vector. -/
theorem verify_of_getElem? {body covered : Bytes} {q : ClientHello} {suite : CipherSuite}
    {psk label initialClientHelloHash hrrBody : Bytes} {selected : Nat}
    (hok : parseClientHello distinguishedName body = .ok q)
    (hbody : body = covered ++ bindersVector q.pskBinders)
    (hbinder : q.pskBinders[selected]? = some (binderOver P digest suite psk label
      initialClientHelloHash hrrBody covered body.length)) :
    verifyClientHelloPSKBinderAtWithLabel P digest distinguishedName body suite psk label
      initialClientHelloHash hrrBody selected = .ok () := by
  obtain ⟨cut, htruncate, hcut⟩ := truncateClientHelloForBinderEntries_accepted hok
    (ne_nil_of_mem (mem_of_getElem? hbinder))
  rw [append_cancel_right (hbody.symm.trans hcut)] at hbinder
  exact (verify_eq_ok_iff _ _ _ _ _ _ hok htruncate).mpr hbinder

/-- The transcript determines the truncated hello and the length of the whole one. -/
theorem binderTranscript_inj {initialClientHelloHash hrrBody covered covered' : Bytes}
    {n n' : Nat} (hn : n < 256 ^ 3) (hn' : n' < 256 ^ 3)
    (hsame : binderTranscript initialClientHelloHash hrrBody covered n =
      binderTranscript initialClientHelloHash hrrBody covered' n') :
    covered = covered' ∧ n = n' := by
  have hmessage := append_cancel_left hsame
  rw [writeBinderTranscriptMessage, writeBinderTranscriptMessage, List.cons.injEq] at hmessage
  obtain ⟨hlength, hcovered⟩ := append_inj hmessage.2 (by simp)
  exact ⟨hcovered, beBytes_inj hn hn' hlength⟩

/-- Two accepted hellos with the same transcript differ only in their binders. -/
theorem binderTranscript_accepted
    {initialClientHelloHash hrrBody body body' covered covered' : Bytes} {q q' : ClientHello}
    (hok : parseClientHello distinguishedName body = .ok q)
    (hok' : parseClientHello distinguishedName body' = .ok q')
    (htruncate : truncateClientHelloForBinderEntries body (binderBytes q.pskBinders) = .ok covered)
    (htruncate' : truncateClientHelloForBinderEntries body' (binderBytes q'.pskBinders) =
      .ok covered')
    (hsame : binderTranscript initialClientHelloHash hrrBody covered body.length =
      binderTranscript initialClientHelloHash hrrBody covered' body'.length) :
    body = covered ++ bindersVector q.pskBinders ∧ body' = covered ++ bindersVector q'.pskBinders ∧
      (bindersVector q.pskBinders).length = (bindersVector q'.pskBinders).length := by
  have hvector : ∀ {b c : Bytes} {r : ClientHello}, parseClientHello distinguishedName b = .ok r →
      truncateClientHelloForBinderEntries b (binderBytes r.pskBinders) = .ok c →
      b = c ++ bindersVector r.pskBinders := by
    intro b c r hr hc
    have hne : r.pskBinders ≠ [] := by
      intro hnil
      obtain ⟨_, hshort, _⟩ := bind_eq_ok.mp hc
      have htwo := (require_eq_ok.mp hshort).1
      rw [hnil] at htwo
      exact absurd htwo (by decide)
    obtain ⟨found, hfound, hb⟩ := truncateClientHelloForBinderEntries_accepted hr hne
    rw [Except.ok.inj (hc.symm.trans hfound)]
    exact hb
  obtain ⟨rfl, hlength⟩ := binderTranscript_inj (parseClientHello_length_lt hok)
    (parseClientHello_length_lt hok') hsame
  have hbody := hvector hok htruncate
  have hbody' := hvector hok' htruncate'
  refine ⟨hbody, hbody', ?_⟩
  have htotal := congrArg List.length hbody
  have htotal' := congrArg List.length hbody'
  rw [length_append] at htotal htotal'
  omega

end Agreement

/-- The key a binder is computed with. -/
def binderFinishedKey (P : Primitives) (digest : HashAlgorithm → Bytes → Bytes)
    (suite : CipherSuite) (psk label : Bytes) : Bytes :=
  expandLabelHashInto P suite (expandLabelHashInto P suite (P.hmac suite.hash [] psk) label
    (digest suite.hash [])) labelFinished []

/-- The client's binders, for a list of offers and for a single key, after a retry or not,
are MACs of the transcript that ends with the hello up to the vector of binders. The server
accepts a binder exactly if it is that MAC over the hello it received, so it accepts the
client's. Nothing outside the vector can change under the same transcript. -/
theorem pskBinders_agree (P : Primitives) (digest : HashAlgorithm → Bytes → Bytes)
    (distinguishedName : Bytes → Bool) :
    (∀ hello offers initialClientHelloHash hrrBody bound body q,
      marshalClientHelloWithPSKOffers P digest hello offers initialClientHelloHash hrrBody =
        .ok (bound, body) →
      parseClientHello distinguishedName body = .ok q →
      (∃ covered, body = covered ++ bindersVector q.pskBinders ∧
        q.pskBinders = offers.map fun offer =>
          P.hmac offer.suite.hash
            (binderFinishedKey P digest offer.suite offer.psk offer.binderLabel)
            (digest offer.suite.hash
              (binderTranscript initialClientHelloHash hrrBody covered body.length))) ∧
      ∀ selected offer, offers[selected]? = some offer →
        verifyClientHelloPSKBinderAtWithLabel P digest distinguishedName body offer.suite
          offer.psk offer.binderLabel initialClientHelloHash hrrBody selected = .ok ()) ∧
    (∀ hello suite psk initialClientHelloHash hrrBody bound body q, hello.pskIdentities = [] →
      marshalClientHelloWithPSKBinder P digest hello suite psk initialClientHelloHash hrrBody =
        .ok (bound, body) →
      parseClientHello distinguishedName body = .ok q →
      (∃ covered, body = covered ++ bindersVector q.pskBinders ∧
        q.pskBinders = [P.hmac suite.hash
          (binderFinishedKey P digest suite psk labelResumptionBinder)
          (digest suite.hash
            (binderTranscript initialClientHelloHash hrrBody covered body.length))]) ∧
        verifyClientHelloPSKBinderAtWithLabel P digest distinguishedName body suite psk
          labelResumptionBinder initialClientHelloHash hrrBody 0 = .ok ()) ∧
    (∀ body q, parseClientHello distinguishedName body = .ok q → q.pskBinders ≠ [] → ∃ covered,
        truncateClientHelloForBinderEntries body (binderBytes q.pskBinders) = .ok covered ∧
        body = covered ++ bindersVector q.pskBinders ∧
        ∀ suite psk label initialClientHelloHash hrrBody selected,
          verifyClientHelloPSKBinderAtWithLabel P digest distinguishedName body suite psk label
              initialClientHelloHash hrrBody selected = .ok () ↔
            q.pskBinders[selected]? = some (P.hmac suite.hash
              (binderFinishedKey P digest suite psk label) (digest suite.hash
                (binderTranscript initialClientHelloHash hrrBody covered body.length)))) ∧
    (∀ initialClientHelloHash hrrBody body body' q q' covered covered',
      parseClientHello distinguishedName body = .ok q →
      parseClientHello distinguishedName body' = .ok q' →
      truncateClientHelloForBinderEntries body (binderBytes q.pskBinders) = .ok covered →
      truncateClientHelloForBinderEntries body' (binderBytes q'.pskBinders) = .ok covered' →
      binderTranscript initialClientHelloHash hrrBody covered body.length =
        binderTranscript initialClientHelloHash hrrBody covered' body'.length →
      body = covered ++ bindersVector q.pskBinders ∧
        body' = covered ++ bindersVector q'.pskBinders ∧
        (bindersVector q.pskBinders).length = (bindersVector q'.pskBinders).length) := by
  refine ⟨?_, ?_, ?_, ?_⟩
  · intro hello offers initialClientHelloHash hrrBody bound body q hmarshal hok
    obtain ⟨covered, hbody, hbinders⟩ := marshalClientHelloWithPSKOffers_binders hmarshal hok
    refine ⟨⟨covered, hbody, hbinders⟩, ?_⟩
    intro selected offer hoffer
    apply verify_of_getElem? hok hbody
    rw [hbinders, List.getElem?_map, hoffer]
    rfl
  · intro hello suite psk initialClientHelloHash hrrBody bound body q hsingle hmarshal hok
    obtain ⟨covered, hbody, hbinders⟩ :=
      marshalClientHelloWithPSKBinder_binder hsingle hmarshal hok
    refine ⟨⟨covered, hbody, hbinders⟩, ?_⟩
    apply verify_of_getElem? hok hbody
    rw [hbinders]
    rfl
  · intro body q hok hne
    obtain ⟨covered, htruncate, hbody⟩ := truncateClientHelloForBinderEntries_accepted hok hne
    refine ⟨covered, htruncate, hbody, ?_⟩
    intro suite psk label initialClientHelloHash hrrBody selected
    exact verify_eq_ok_iff suite psk label initialClientHelloHash hrrBody selected hok htruncate
  · intro initialClientHelloHash hrrBody body body' q q' covered covered'
    exact binderTranscript_accepted

/-- Offers of a ticket and of an external key, with different hashes. -/
def mixedOffers : List ClientPSKOffer :=
  [⟨[1], [2, 3], .aes128GcmSha256, labelResumptionBinder, 7⟩,
    ⟨[4, 4], [5], .aes256GcmSha384, labelExternalBinder, 0⟩]

theorem pskBinders_agree_mixedOffers : ∃ bound body,
    marshalClientHelloWithPSKOffers .checksum (fun hash b =>
        List.replicate hash.size (UInt8.ofNat b.length)) ClientHello.resumingHello mixedOffers
      [9, 9] [2, 2] = .ok (bound, body) ∧
    ∀ selected offer, mixedOffers[selected]? = some offer →
      verifyClientHelloPSKBinderAtWithLabel .checksum (fun hash b =>
        List.replicate hash.size (UInt8.ofNat b.length)) (fun _ => true) body offer.suite offer.psk
        offer.binderLabel [9, 9] [2, 2] selected = .ok () := by
  have hboth : (do
      let bodies ← marshalClientHelloWithPSKOffers .checksum (fun hash b =>
        List.replicate hash.size (UInt8.ofNat b.length)) ClientHello.resumingHello mixedOffers
        [9, 9] [2, 2]
      let _ ← parseClientHello (fun _ => true) bodies.2
      pure ()) = .ok () := by decide +kernel
  obtain ⟨⟨bound, body⟩, hmarshal, hrest⟩ := bind_eq_ok.mp hboth
  obtain ⟨q, hok, _⟩ := bind_eq_ok.mp hrest
  exact ⟨bound, body, hmarshal,
    ((pskBinders_agree _ _ (fun _ => true)).1 _ _ _ _ bound body q hmarshal hok).2⟩

end Dtls13
