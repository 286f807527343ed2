import Dtls13.Hello.Accepted

/-! # The ClientHello is read back as it was written

What the reader accepts agrees with the hello that was written on every field
that is sent. Writing the result again gives the same bytes.
-/

namespace Dtls13

open ByteCodec StateLogic List

namespace ClientHello

/-! ## What is offered -/

/-- The identities and binders a hello offers: the list, or the single key. -/
def offeredPSKs (h : ClientHello) : List PskIdentityEntry × List Bytes :=
  if h.pskIdentities ≠ [] then (h.pskIdentities, h.pskBinders)
  else if h.pskIdentity ≠ [] then ([⟨h.pskIdentity, h.obfuscatedAge⟩], [h.pskBinder])
  else ([], [])

variable {part : Option Bytes}

theorem marshalPSK_eq_ok {h : ClientHello} (hpart : h.marshalPSK = .ok part) :
    h.offeredPSKs = ([], []) ∧ part = none ∨
      ∃ b, part = some b ∧ marshalClientPSKs h.offeredPSKs.1 h.offeredPSKs.2 = .ok b := by
  unfold marshalPSK at hpart
  unfold offeredPSKs
  split at hpart
  next hlist =>
    obtain ⟨b, hb, hpart⟩ := bind_eq_ok.mp hpart
    rw [if_pos hlist]
    exact .inr ⟨b, (Except.ok.inj hpart).symm, hb⟩
  next hlist =>
    rw [if_neg hlist]
    split at hpart
    next hsingle =>
      obtain ⟨b, hb, hpart⟩ := bind_eq_ok.mp hpart
      rw [if_pos hsingle]
      exact .inr ⟨b, (Except.ok.inj hpart).symm, hb⟩
    next hsingle =>
      obtain ⟨_, _, hpart⟩ := bind_eq_ok.mp hpart
      rw [if_neg hsingle]
      exact .inl ⟨rfl, (Except.ok.inj hpart).symm⟩

theorem marshalIf_eq_ok {sent : Bool} {value : Except Err Bytes}
    (hpart : marshalIf sent value = .ok part) :
    sent = false ∧ part = none ∨ sent = true ∧ ∃ b, part = some b ∧ value = .ok b := by
  cases sent with
  | false => exact .inl ⟨rfl, (Except.ok.inj hpart).symm⟩
  | true =>
    obtain ⟨b, hb, hpart⟩ := bind_eq_ok.mp hpart
    exact .inr ⟨rfl, b, (Except.ok.inj hpart).symm, hb⟩

theorem marshalMetadata_eq_ok {h : ClientHello} (hpart : h.marshalMetadata = .ok part) :
    h.handshakeMetadata = none ∧ part = none ∨
      ∃ data b, h.handshakeMetadata = some data ∧ part = some b ∧
        parseHandshakeMetadata b = .ok data := by
  unfold marshalMetadata at hpart
  cases hdata : h.handshakeMetadata with
  | none =>
    rw [hdata] at hpart
    exact .inl ⟨rfl, (Except.ok.inj hpart).symm⟩
  | some data =>
    rw [hdata] at hpart
    obtain ⟨b, hb, hpart⟩ := bind_eq_ok.mp hpart
    exact .inr ⟨data, b, rfl, (Except.ok.inj hpart).symm, parseHandshakeMetadata_marshal hb⟩

/-! ## Reading one extension of a written hello -/

/-- A part that stands for `x`: absent for the default, or read back as `x`. -/
def ReadsAs {α : Type} (part : Option Bytes) (default : α) (parse : Bytes → Except Err α)
    (x : α) : Prop :=
  x = default ∧ part = none ∨ ∃ b, part = some b ∧ parse b = .ok x

theorem readsAs_of_marshalIf {α : Type} {sent : Bool} {value : Except Err Bytes}
    {default x : α} {parse : Bytes → Except Err α}
    (hpart : marshalIf sent value = .ok part) (hdefault : sent = false → x = default)
    (hparse : sent = true → ∀ b, value = .ok b → parse b = .ok x) :
    ReadsAs part default parse x := by
  rcases marshalIf_eq_ok hpart with ⟨hsent, hnone⟩ | ⟨hsent, b, hsome, hb⟩
  · exact .inl ⟨hdefault hsent, hnone⟩
  · exact .inr ⟨b, hsome, hparse hsent b hb⟩

theorem readsAs_if {α : Type} {sent : Bool} {b : Bytes} {default x : α}
    {parse : Bytes → Except Err α} (hdefault : sent = false → x = default)
    (hparse : sent = true → parse b = .ok x) :
    ReadsAs (if sent then some b else none) default parse x := by
  cases sent with
  | false => exact .inl ⟨hdefault rfl, rfl⟩
  | true => exact .inr ⟨b, rfl, hparse rfl⟩

section Rows

variable (h : ClientHello) (p : Parts)

/-- The reader finds each row of the table. -/
theorem extensions_value {typ : Nat} {value : Option Bytes}
    (hentry : (typ, value) ∈ h.extensionTable p) :
    orderedExtensionValue (h.extensions p) typ = value :=
  orderedExtensionValue_present (h.extensionTable_nodup p) hentry

variable {h p} in
theorem ReadsAs.eq {α : Type} {default x result : α} {parse : Bytes → Except Err α} {typ : Nat}
    (hread : ReadsAs part default parse x) (hentry : (typ, part) ∈ h.extensionTable p)
    (hok : parseField (h.extensions p) typ default parse = .ok result) : result = x := by
  unfold parseField at hok
  rw [h.extensions_value p hentry] at hok
  rcases hread with ⟨rfl, rfl⟩ | ⟨b, rfl, hb⟩
  · exact (Except.ok.inj hok).symm
  · exact Except.ok.inj (hok.symm.trans hb)

/-- Of all GREASE types only the chosen one is sent. -/
theorem extensions_value_grease (seed : UInt8) :
    orderedExtensionValue (h.extensions p) (greaseValue seed) =
      if h.greaseExtension = some (greaseValue seed) then some [] else none := by
  have hrow : orderedExtensionValue (h.extensions p) (h.greaseExtension.getD (greaseValue 0)) =
      flag h.greaseExtension.isSome := h.extensions_value p (by simp [extensionTable])
  split
  next hgrease =>
    rw [hgrease] at hrow
    exact hrow
  next hgrease =>
    by_cases hsame : h.greaseExtension.getD (greaseValue 0) = greaseValue seed
    · rw [hsame] at hrow
      rw [hrow]
      cases hnone : h.greaseExtension with
      | none => rfl
      | some grease =>
        rw [hnone] at hgrease hsame
        exact absurd (congrArg some hsame) hgrease
    · apply orderedExtensionValue_present_none
      rw [extensionTable_types, mem_append, mem_cons]
      have hnot := greaseValue_notMem seed
      rw [mem_append] at hnot
      rintro (hbefore | heq | hafter)
      · exact hnot (.inl hbefore)
      · exact hsame heq.symm
      · exact hnot (.inr hafter)

end Rows

/-! ## Agreement -/

/-- What a hello `q` that was read keeps of the hello `h` that was written. Only
what is sent can agree: the value of a connection ID or of a record size limit
that is not sent, and the state that only one side uses, are left out. The
GREASE flag is read from the extension, which the writer also sends for a type
kept from another hello. -/
structure Agrees (h q : ClientHello) : Prop where
  random : q.random = h.random
  sessionID : q.sessionID = h.sessionID
  cipherSuites : q.cipherSuites = h.cipherSuites
  supportedGroups : q.supportedGroups = orKeyShareGroups h.supportedGroups h.keyShares
  keyShares : q.keyShares = h.keyShares
  signatureSchemes : q.signatureSchemes = orDefaultSchemes h.signatureSchemes
  certificateSignatureSchemes : q.certificateSignatureSchemes = h.certificateSignatureSchemes
  delegatedCredentialSchemes : q.delegatedCredentialSchemes = h.delegatedCredentialSchemes
  serverName : q.serverName = h.serverName
  alpn : q.alpn = h.alpn
  cookie : q.cookie = h.cookie
  hasConnectionID : q.hasConnectionID = h.hasConnectionID
  connectionID : h.hasConnectionID = true → q.connectionID = h.connectionID
  psk : (q.pskIdentities, q.pskBinders) = h.offeredPSKs
  pskDHE : q.pskDHE = (h.pskDHE || decide (h.offeredPSKs.1 ≠ []))
  hasRecordSizeLimit : q.hasRecordSizeLimit = h.hasRecordSizeLimit
  recordSizeLimit : h.hasRecordSizeLimit = true → q.recordSizeLimit = h.recordSizeLimit
  ticketRequest : q.ticketRequest = if h.ticketRequest.enabled then h.ticketRequest else {}
  certificateCompressionOffered :
    q.certificateCompressionOffered = h.certificateCompressionOffered
  certificateCompressionAlgorithms :
    q.certificateCompressionAlgorithms = h.certificateCompressionAlgorithms
  kept : ∀ typ ∈ [extClientCertificateType, extServerCertificateType, extCertificateAuthorities,
    extCachedInfo], q.unknownExtensions.get typ = h.unknownExtensions.get typ
  encryptedClientHello : q.encryptedClientHelloExtension = h.encryptedClientHelloExtension
  handshakeMetadata : q.handshakeMetadata = h.handshakeMetadata
  earlyData : q.earlyData = h.earlyData
  returnRoutability : q.returnRoutability = h.returnRoutability
  postHandshakeAuth : q.postHandshakeAuth = h.postHandshakeAuth
  statusRequest : q.statusRequest = h.statusRequest
  greaseExtension : q.greaseExtension = h.greaseExtension
  grease : q.grease =
    decide (h.greaseExtension = some (greaseValue (getElem h.random 0 random_pos)))

theorem readsAs_flag (set : Bool) (text : String) : ReadsAs (flag set) false (parseFlag text) set :=
  readsAs_if id fun hset => by
    rw [parseFlag, require_of rfl, hset]
    rfl

theorem parseECHField_eq_ok {raw : Bytes} {value : Option Bytes}
    (hok : parseECHField raw = .ok value) : value = some raw := by
  unfold parseECHField at hok
  split at hok
  · exact (Except.ok.inj hok).symm
  · cases hok

section ReadBack

variable {h q : ClientHello} {p : Parts} {body : Bytes} {distinguishedName : Bytes → Bool}
  {fields : HelloFields} {scanned : ScannedExtensions}

/-- Reading a written hello goes through its own fields and extensions. -/
theorem Marshalled.accepted (hm : h.Marshalled p body)
    (hok : parseClientHello distinguishedName body = .ok q) :
    ∃ fields scanned, fields.sessionID = h.sessionID ∧
      fields.suites = wordBytes h.cipherSuites ∧ q.random = h.random ∧
      Scanned.FromNothing (getElem h.random 0 random_pos) (h.extensions p) scanned ∧
      Accepted distinguishedName fields (h.extensions p) scanned q := by
  obtain ⟨fields, exts, scanned, hfields, hexts, hscan, hacc⟩ := accepted_of_parseClientHello hok
  obtain rfl := Except.ok.inj (hfields.symm.trans hm.parse_fields)
  obtain rfl := Except.ok.inj (hexts.symm.trans hm.parse_extensions)
  have hrandom : q.random = h.random := by
    rw [hacc.random]
    ext i hi
    simp
  rw [hrandom] at hscan
  exact ⟨_, scanned, rfl, rfl, hrandom,
    scanned_of_foldlM (present_nodup (h.extensionTable_nodup p)) hscan, hacc⟩

/-- A list of schemes that is sent only if it is not empty. -/
theorem readsAs_schemes {schemes : List UInt16} {part : Option Bytes}
    (hpart : marshalIf (schemes ≠ []) (marshalSignatureSchemes schemes) = .ok part) :
    ReadsAs part [] parseSignatureSchemes schemes := by
  apply readsAs_of_marshalIf hpart
  · intro hsent
    simpa using hsent
  · intro hsent b hb
    rw [parseSignatureSchemes_marshal hb, orDefaultSchemes, if_neg (of_decide_eq_true hsent)]

theorem marshalCertificateCompressionAlgorithms_eq_ok {algorithms : Option Bytes} {b : Bytes}
    (hb : marshalCertificateCompressionAlgorithms algorithms = .ok b) :
    algorithms = some b ∧ parseCertificateCompressionAlgorithms b = .ok b := by
  cases algorithms with
  | none => cases hb
  | some raw =>
    obtain ⟨_, hvalid, hb⟩ := bind_eq_ok.mp hb
    cases hb
    obtain ⟨hlength, _, hfirst, heven⟩ := require_eq_ok.mp hvalid
    refine ⟨rfl, ?_⟩
    rw [parseCertificateCompressionAlgorithms, require_of ⟨hlength, hfirst, heven⟩]
    rfl

theorem greaseValue_mod (seed : UInt8) :
    ∃ k ∈ List.range 16, greaseValue (UInt8.ofNat k) = greaseValue seed := by
  have hseed : (seed &&& 0x0f).toNat < 16 := by
    rw [UInt8.toNat_and]
    exact Nat.and_lt_two_pow _ (by decide : (0x0f : UInt8).toNat < 2 ^ 4)
  refine ⟨(seed &&& 0x0f).toNat, mem_range.mpr hseed, ?_⟩
  rw [UInt8.ofNat_toNat]
  unfold greaseValue
  rw [UInt8.and_assoc, UInt8.and_self]

theorem findSome?_eq_some {α β : Type} {f : α → Option β} {xs : List α} {y : β}
    (hall : ∀ x ∈ xs, f x = none ∨ f x = some y) (hsome : ∃ x ∈ xs, f x = some y) :
    xs.findSome? f = some y := by
  cases hfound : xs.findSome? f with
  | none =>
    obtain ⟨x, hx, hy⟩ := hsome
    rw [List.findSome?_eq_none_iff.mp hfound x hx] at hy
    cases hy
  | some found =>
    obtain ⟨x, hx, hy⟩ := exists_of_findSome?_eq_some hfound
    rcases hall x hx with hnone | hother
    · rw [hnone] at hy
      cases hy
    · rw [← hy, hother]

theorem keptType_greaseValue (seed : UInt8) : KeptType (greaseValue seed) := by
  obtain ⟨hlist, hoid, hdata, hschemes, _⟩ := greaseValue_not_special seed
  exact ⟨hlist, hoid, hdata, hschemes⟩

section

variable (hscan : Scanned.FromNothing (getElem h.random 0 random_pos) (h.extensions p) scanned)

include hscan

theorem handshakeMetadata_eq (hp : h.IsParts p) :
    scanned.handshakeMetadata = h.handshakeMetadata := by
  have hrow : orderedExtensionValue (h.extensions p) extHandshakeMetadata = p.handshakeMetadata :=
    h.extensions_value p (by simp [extensionTable])
  rcases marshalMetadata_eq_ok hp.handshakeMetadata with
    ⟨hdata, hnone⟩ | ⟨data, b, hdata, hsome, hb⟩
  · rw [hscan.noMetadata (forall_ne_of_orderedExtensionValue (hrow.trans hnone)), hdata]
  · obtain ⟨found, hfound, hmetadata⟩ :=
      hscan.metadata _ (mem_of_orderedExtensionValue (hrow.trans hsome)) rfl
    rw [hmetadata, hdata, Except.ok.inj (hfound.symm.trans hb)]

theorem delegatedCredentialSchemes_eq (hp : h.IsParts p) :
    scanned.delegatedCredentialSchemes = h.delegatedCredentialSchemes := by
  have hrow : orderedExtensionValue (h.extensions p) extDelegatedCredential =
      p.delegatedCredential := h.extensions_value p (by simp [extensionTable])
  rcases readsAs_schemes hp.delegatedCredential with ⟨hempty, hnone⟩ | ⟨b, hsome, hb⟩
  · rw [hscan.noDelegated (forall_ne_of_orderedExtensionValue (hrow.trans hnone)), hempty]
  · have hfound := hscan.delegated _ (mem_of_orderedExtensionValue (hrow.trans hsome)) rfl
    exact Except.ok.inj (hfound.symm.trans hb)

/-! The GREASE extension -/

theorem grease_eq :
    scanned.grease =
      decide (h.greaseExtension = some (greaseValue (getElem h.random 0 random_pos))) := by
  rw [Bool.eq_iff_iff, hscan.grease_iff (present_nodup (h.extensionTable_nodup p)),
    h.extensions_value_grease p, decide_eq_true_iff]
  simp

/-- A GREASE type is kept unless it is the one the random chooses. -/
theorem get_greaseValue
    (hother : h.greaseExtension ≠ some (greaseValue (getElem h.random 0 random_pos)))
    (seed : UInt8) :
    scanned.unknownExtensions.get (greaseValue seed) =
      if h.greaseExtension = some (greaseValue seed) then some [] else none := by
  rw [hscan.get_keptType (keptType_greaseValue seed), h.extensions_value_grease p]
  rintro ⟨hseed, hsome⟩
  rw [hseed, h.extensions_value_grease p, if_neg hother] at hsome
  cases hsome

variable (hacc : Accepted distinguishedName fields (h.extensions p) scanned q)

include hacc

theorem greaseExtension_read (hrandom : q.random = h.random) :
    q.greaseExtension = h.greaseExtension := by
  have hgrease := hacc.grease.trans (grease_eq hscan)
  unfold greaseExtension
  by_cases hchosen : h.greaseExtension = some (greaseValue (getElem h.random 0 random_pos))
  · rw [hgrease, decide_eq_true hchosen, if_pos rfl, hrandom]
    exact hchosen.symm
  · rw [hgrease, decide_eq_false hchosen, if_neg Bool.false_ne_true]
    change _ = h.greaseExtension
    have hget : ∀ seed, q.unknownExtensions.get (greaseValue seed) =
        if h.greaseExtension = some (greaseValue seed) then some [] else none := by
      intro seed
      obtain ⟨hlist, _⟩ := greaseValue_not_special seed
      have hne : ∀ typ ∈ readByType, greaseValue seed ≠ typ := fun _ htyp heq => hlist (heq ▸ htyp)
      rw [hacc.get_eq (hne _ (by decide)) (hne _ (by decide)), get_greaseValue hscan hchosen]
    -- the search finds the type that was sent, and nothing if none was
    cases hsent : h.greaseExtension with
    | none =>
      rw [List.findSome?_eq_none_iff]
      intro k _
      simp [hget, hsent]
    | some grease =>
      obtain ⟨seed, rfl⟩ := h.greaseExtension_eq hsent
      apply findSome?_eq_some
      · intro k _
        by_cases hk : greaseValue seed = greaseValue (UInt8.ofNat k)
        · exact .inr (by simp [hget, hsent, hk])
        · exact .inl (by simp [hget, hsent, hk])
      · obtain ⟨k, hk, heq⟩ := greaseValue_mod seed
        exact ⟨k, hk, by simp [hget, hsent, heq]⟩

/-! The extensions that are kept with their bytes -/

theorem kept_eq {typ : Nat}
    (htyp : typ ∈ [extClientCertificateType, extServerCertificateType, extCachedInfo]) :
    q.unknownExtensions.get typ = h.unknownExtensions.get typ := by
  have hrow : orderedExtensionValue (h.extensions p) typ = h.unknownExtensions.get typ := by
    simp only [mem_cons, not_mem_nil, or_false] at htyp
    rcases htyp with rfl | rfl | rfl <;> exact h.extensions_value p (by simp [extensionTable])
  have hkept : ∀ typ ∈ [extClientCertificateType, extServerCertificateType, extCachedInfo],
      typ ∉ readByType ∧ typ ≠ extOIDFilters ∧ typ ≠ extHandshakeMetadata ∧
        typ ≠ extDelegatedCredential ∧ typ ≠ extCompressCertificate ∧
        typ ≠ extCertificateAuthorities := by decide
  obtain ⟨hlist, hoid, hdata, hschemes, hcompress, hauthorities⟩ := hkept typ htyp
  rw [hacc.get_eq hcompress hauthorities, hscan.get_keptType ⟨hlist, hoid, hdata, hschemes⟩, hrow]
  rintro ⟨rfl, _⟩
  obtain ⟨_, _, _, _, hcached, hclient, hserver⟩ := greaseValue_not_special h.random[0]
  simp only [mem_cons, not_mem_nil, or_false] at htyp
  rcases htyp with heq | heq | heq
  · exact hclient heq
  · exact hserver heq
  · exact hcached heq

theorem certificateAuthorities_eq : q.unknownExtensions.get extCertificateAuthorities =
      h.unknownExtensions.get extCertificateAuthorities := by
  have hrow : orderedExtensionValue (h.extensions p) extCertificateAuthorities =
      h.unknownExtensions.get extCertificateAuthorities :=
    h.extensions_value p (by simp [extensionTable])
  obtain ⟨authorities, _, hparse, _, hget⟩ := hacc.kept
  have hsame : authorities = h.unknownExtensions.get extCertificateAuthorities := by
    unfold parseField at hparse
    rw [hrow] at hparse
    cases hraw : h.unknownExtensions.get extCertificateAuthorities with
    | none =>
      rw [hraw] at hparse
      exact (Except.ok.inj hparse).symm
    | some raw =>
      rw [hraw] at hparse
      obtain ⟨_, _, hparse⟩ := bind_eq_ok.mp hparse
      exact (Except.ok.inj hparse).symm
  rw [hget, if_neg (by simp [extCompressCertificate, extCertificateAuthorities]), hsame,
    hscan.get_readByType (by decide)]
  cases h.unknownExtensions.get extCertificateAuthorities <;> simp

theorem certificateCompression_eq (hp : h.IsParts p) :
    q.certificateCompressionOffered = h.certificateCompressionOffered ∧
      q.certificateCompressionAlgorithms = h.certificateCompressionAlgorithms := by
  have hrow : orderedExtensionValue (h.extensions p) extCompressCertificate =
      p.certificateCompression := h.extensions_value p (by simp [extensionTable])
  obtain ⟨_, compression, _, hparse, hget⟩ := hacc.kept
  unfold parseField at hparse
  rw [hrow] at hparse
  unfold certificateCompressionAlgorithms
  rcases marshalIf_eq_ok hp.certificateCompression with ⟨hoffered, hnone⟩ | ⟨hoffered, b, hsome, hb⟩
  · rw [hnone] at hparse
    obtain ⟨hfalse, _⟩ := Prod.mk.inj (Except.ok.inj hparse)
    simp [hoffered, ← hfalse]
  · obtain ⟨halgorithms, hvalid⟩ := marshalCertificateCompressionAlgorithms_eq_ok hb
    rw [hsome] at hparse
    obtain ⟨_, _, hparse⟩ := bind_eq_ok.mp hparse
    have hpair := Prod.mk.inj (Except.ok.inj hparse)
    -- the usual offer is not kept, and is what a missing one stands for
    have hkept : q.unknownExtensions.get extCompressCertificate =
        if b = certificateCompressionZlibOffer then none else some b := by
      rw [hget, ← hpair.2, hscan.get_readByType (by decide)]
      split <;> simp [extCompressCertificate, extCertificateAuthorities]
    refine ⟨hpair.1.symm.trans hoffered.symm, ?_⟩
    unfold certificateCompressionAlgorithms at halgorithms
    rw [halgorithms, ← hpair.1, hkept]
    by_cases husual : b = certificateCompressionZlibOffer
    · rw [if_pos husual, husual]
      rfl
    · rw [if_neg husual]
      simp [hvalid, Except.toOption]

end

/-! The keys -/

/-- What is sent for the offered keys. -/
theorem psk_isSome (hp : h.IsParts p) : p.psk.isSome = decide (h.offeredPSKs.1 ≠ []) := by
  rcases marshalPSK_eq_ok hp.psk with ⟨hempty, hnone⟩ | ⟨b, hsome, hb⟩
  · simp [hempty, hnone]
  · simp [hsome, (marshalClientPSKs_eq_ok hb).nonempty]

section

variable (hacc : Accepted distinguishedName fields (h.extensions p) scanned q)

include hacc

theorem psk_eq (hp : h.IsParts p) : (q.pskIdentities, q.pskBinders) = h.offeredPSKs := by
  have hrow : orderedExtensionValue (h.extensions p) extPreSharedKey = p.psk :=
    h.extensions_value p (by simp [extensionTable])
  have hparse := hacc.psk
  unfold parseField at hparse
  rw [hrow] at hparse
  rcases marshalPSK_eq_ok hp.psk with ⟨hempty, hnone⟩ | ⟨b, hsome, hb⟩
  · rw [hnone] at hparse
    rw [hempty]
    exact (Except.ok.inj hparse).symm
  · rw [hsome] at hparse
    obtain ⟨_, _, hparse⟩ := bind_eq_ok.mp hparse
    obtain ⟨_, _, hparse⟩ := bind_eq_ok.mp hparse
    exact Except.ok.inj (hparse.symm.trans (marshalClientPSKs_eq_ok hb).parse)

theorem pskDHE_eq : q.pskDHE = (p.psk.isSome || h.pskDHE) := by
  have hread : ReadsAs (if p.psk.isSome || h.pskDHE then some marshalPSKKeyExchangeModes else none)
      false parsePSKKeyExchangeModes (p.psk.isSome || h.pskDHE) := by
    apply readsAs_if id
    intro hsent
    rw [hsent]
    rfl
  exact hread.eq (by simp [extensionTable]) hacc.pskDHE

/-! Values with a flag of their own -/

theorem connectionID_eq (hp : h.IsParts p) : q.hasConnectionID = h.hasConnectionID ∧
      (h.hasConnectionID = true → q.connectionID = h.connectionID) := by
  obtain ⟨connectionID, hparse, hvalue, hhas⟩ := hacc.connectionID
  have hread : ReadsAs p.connectionID none (fun raw => do
      let connectionID ← parseConnectionID raw
      pure (some connectionID)) (if h.hasConnectionID then some h.connectionID else none) := by
    apply readsAs_of_marshalIf hp.connectionID
    · intro hsent
      rw [hsent]
      rfl
    · intro hsent b hb
      rw [parseConnectionID_marshal hb, hsent]
      rfl
  have hsame := hread.eq (by simp [extensionTable]) hparse
  rw [hhas, hvalue, hsame]
  cases h.hasConnectionID <;> simp

theorem recordSizeLimit_eq (hm : h.Marshalled p body) :
    q.hasRecordSizeLimit = h.hasRecordSizeLimit ∧
      (h.hasRecordSizeLimit = true → q.recordSizeLimit = h.recordSizeLimit) := by
  obtain ⟨limit, hparse, hvalue, hhas⟩ := hacc.recordSizeLimit
  have hread : ReadsAs
      (if h.hasRecordSizeLimit then some (beBytes 2 h.recordSizeLimit.toNat) else none) none
      (fun raw => do
        let limit ← parseRecordSizeLimit raw false
        pure (some limit)) (if h.hasRecordSizeLimit then some h.recordSizeLimit else none) := by
    apply readsAs_if
    · intro hsent
      rw [hsent]
      rfl
    · intro hsent
      rw [parseRecordSizeLimit_beBytes (hm.limit hsent).1, hsent]
      rfl
  have hsame := hread.eq (by simp [extensionTable]) hparse
  rw [hhas, hvalue, hsame]
  cases h.hasRecordSizeLimit <;> simp

theorem ticketRequest_eq :
    q.ticketRequest = if h.ticketRequest.enabled then h.ticketRequest else {} := by
  have hread : ReadsAs (if h.ticketRequest.enabled then
      some [h.ticketRequest.newSessionCount, h.ticketRequest.resumptionCount] else none) {}
      parseTicketRequest (if h.ticketRequest.enabled then h.ticketRequest else {}) := by
    apply readsAs_if
    · intro hsent
      rw [hsent]
      rfl
    · intro hsent
      rw [if_pos hsent, parseTicketRequest, ← hsent]
  exact hread.eq (by simp [extensionTable]) hacc.ticketRequest

theorem statusRequest_eq : q.statusRequest = h.statusRequest := by
  obtain ⟨raw, hparse⟩ := hacc.status
  have hread : ReadsAs (if h.statusRequest then some marshalStatusRequest else none) (false, [])
      parseStatusField (h.statusRequest, if h.statusRequest then marshalStatusRequest else []) := by
    apply readsAs_if
    · intro hsent
      rw [hsent]
      rfl
    · intro hsent
      rw [hsent]
      decide
  exact congrArg Prod.fst (hread.eq (by simp [extensionTable]) hparse)

theorem encryptedClientHello_eq :
    q.encryptedClientHelloExtension = h.encryptedClientHelloExtension := by
  have hrow : orderedExtensionValue (h.extensions p) extECH = h.encryptedClientHelloExtension :=
    h.extensions_value p (by simp [extensionTable])
  have hparse := hacc.ech
  unfold parseField at hparse
  rw [hrow] at hparse
  cases hraw : h.encryptedClientHelloExtension with
  | none =>
    rw [hraw] at hparse
    exact (Except.ok.inj hparse).symm
  | some raw =>
    rw [hraw] at hparse
    exact parseECHField_eq_ok hparse

theorem keyShares_eq (hp : h.IsParts p) : q.keyShares = h.keyShares := by
  have hrow : orderedExtensionValue (h.extensions p) extKeyShare = some p.keyShares :=
    h.extensions_value p (by simp [extensionTable])
  have hparse := hacc.keyShares
  unfold parseField at hparse
  rw [hrow] at hparse
  exact eq_of_parseKeyShares hp.keyShares hparse

theorem cookie_eq (hp : h.IsParts p) : q.cookie = h.cookie := by
  have hread : ReadsAs p.cookie [] parseCookie h.cookie := by
    apply readsAs_of_marshalIf hp.cookie
    · intro hsent
      simpa using hsent
    · exact fun _ b hb => parseCookie_marshal hb
  exact hread.eq (by simp [extensionTable]) hacc.cookie

end

/-- A hello that is read back agrees with the one that was written. -/
theorem Marshalled.agrees (hm : h.Marshalled p body)
    (hok : parseClientHello distinguishedName body = .ok q) : h.Agrees q := by
  obtain ⟨fields, scanned, hsession, hsuites, hrandom, hscan, hacc⟩ := hm.accepted hok
  have hp := hm.isParts
  have hkept : ∀ typ ∈ [extClientCertificateType, extServerCertificateType,
      extCertificateAuthorities, extCachedInfo],
      q.unknownExtensions.get typ = h.unknownExtensions.get typ := by
    intro typ htyp
    by_cases hauthorities : typ = extCertificateAuthorities
    · rw [hauthorities]
      exact certificateAuthorities_eq hscan hacc
    · exact kept_eq hscan hacc (by simpa [hauthorities] using htyp)
  exact {
    random := hrandom
    sessionID := hacc.sessionID.trans hsession
    cipherSuites := by rw [hacc.cipherSuites, hsuites, wordsOf_wordBytes]
    supportedGroups := ReadsAs.eq (.inr ⟨_, rfl, parseSupportedGroups_marshal hp.groups⟩)
      (by simp [extensionTable]) hacc.supportedGroups
    keyShares := keyShares_eq hacc hp
    signatureSchemes := ReadsAs.eq (.inr ⟨_, rfl, parseSignatureSchemes_marshal hp.signatures⟩)
      (by simp [extensionTable]) hacc.signatureSchemes
    certificateSignatureSchemes := (readsAs_schemes hp.certificateSignatures).eq
      (by simp [extensionTable]) hacc.certificateSignatureSchemes
    delegatedCredentialSchemes :=
      hacc.delegatedCredentialSchemes.trans (delegatedCredentialSchemes_eq hscan hp)
    serverName := ReadsAs.eq (marshalServerName_eq_ok hp.serverName)
      (by simp [extensionTable]) hacc.serverName
    alpn := ReadsAs.eq (marshalALPN_eq_ok hp.alpn)
      (by simp [extensionTable]) hacc.alpn
    cookie := cookie_eq hacc hp
    hasConnectionID := (connectionID_eq hacc hp).1
    connectionID := (connectionID_eq hacc hp).2
    psk := psk_eq hacc hp
    pskDHE := by rw [pskDHE_eq hacc, psk_isSome hp, Bool.or_comm]
    hasRecordSizeLimit := (recordSizeLimit_eq hacc hm).1
    recordSizeLimit := (recordSizeLimit_eq hacc hm).2
    ticketRequest := ticketRequest_eq hacc
    certificateCompressionOffered := (certificateCompression_eq hscan hacc hp).1
    certificateCompressionAlgorithms := (certificateCompression_eq hscan hacc hp).2
    kept := hkept
    encryptedClientHello := encryptedClientHello_eq hacc
    handshakeMetadata := hacc.handshakeMetadata.trans (handshakeMetadata_eq hscan hp)
    earlyData := (readsAs_flag h.earlyData _).eq
      (by simp [extensionTable]) hacc.earlyData
    returnRoutability := (readsAs_flag h.returnRoutability _).eq
      (by simp [extensionTable]) hacc.returnRoutability
    postHandshakeAuth := (readsAs_flag h.postHandshakeAuth _).eq
      (by simp [extensionTable]) hacc.postHandshakeAuth
    statusRequest := statusRequest_eq hacc
    greaseExtension := greaseExtension_read hscan hacc hrandom
    grease := hacc.grease.trans (grease_eq hscan) }

/-! ## Writing the hello again -/

theorem orDefaultSchemes_idem (schemes : List UInt16) :
    orDefaultSchemes (orDefaultSchemes schemes) = orDefaultSchemes schemes :=
  if_neg (orDefaultSchemes_ne_nil schemes)

theorem orKeyShareGroups_idem (groups : List UInt16) (shares : List KeyShareEntry) :
    orKeyShareGroups (orKeyShareGroups groups shares) shares = orKeyShareGroups groups shares := by
  unfold orKeyShareGroups
  split
  next => exact ite_self _
  next => rfl

/-- What is read writes the same keys. -/
theorem Agrees.marshalPSK (hagrees : h.Agrees q) (hp : h.IsParts p)
    (hidentity : q.pskIdentity = (q.pskIdentities.head?.map PskIdentityEntry.identity).getD [])
    (hbinder : q.pskBinder = q.pskBinders.headD []) : q.marshalPSK = .ok p.psk := by
  have hpsk := Prod.mk.inj (hagrees.psk.trans (Prod.mk.eta).symm)
  unfold ClientHello.marshalPSK
  rcases marshalPSK_eq_ok hp.psk with ⟨hempty, hnone⟩ | ⟨b, hsome, hb⟩
  · rw [hempty] at hpsk
    rw [hidentity, hbinder, hpsk.1, hpsk.2, hnone]
    rfl
  · have hne := (marshalClientPSKs_eq_ok hb).nonempty
    rw [hpsk.1, hpsk.2, if_pos hne, hb, hsome]
    rfl

theorem marshalIf_congr {sent : Bool} {value value' : Except Err Bytes}
    (heq : sent = true → value = value') : marshalIf sent value = marshalIf sent value' := by
  cases sent with
  | false => rfl
  | true => rw [heq rfl]

theorem Agrees.isParts (hagrees : h.Agrees q) (hp : h.IsParts p)
    (hpsk : q.marshalPSK = .ok p.psk) : q.IsParts p where
  keyShares := hagrees.keyShares ▸ hp.keyShares
  signatures := by
    rw [marshalSignatureSchemes, hagrees.signatureSchemes, orDefaultSchemes_idem]
    exact hp.signatures
  groups := by
    rw [marshalSupportedGroups, hagrees.supportedGroups, hagrees.keyShares, orKeyShareGroups_idem]
    exact hp.groups
  certificateSignatures := hagrees.certificateSignatureSchemes ▸ hp.certificateSignatures
  serverName := hagrees.serverName ▸ hp.serverName
  alpn := hagrees.alpn ▸ hp.alpn
  cookie := hagrees.cookie ▸ hp.cookie
  connectionID := by
    rw [hagrees.hasConnectionID, ← hp.connectionID]
    exact marshalIf_congr fun hsent => by rw [hagrees.connectionID hsent]
  psk := hpsk
  certificateCompression := by
    rw [hagrees.certificateCompressionOffered, hagrees.certificateCompressionAlgorithms]
    exact hp.certificateCompression
  delegatedCredential := hagrees.delegatedCredentialSchemes ▸ hp.delegatedCredential
  handshakeMetadata := by
    unfold marshalMetadata
    rw [hagrees.handshakeMetadata]
    exact hp.handshakeMetadata

theorem Agrees.extensionTable_eq (hagrees : h.Agrees q) (hp : h.IsParts p) :
    q.extensionTable p = h.extensionTable p := by
  have hlimit : (if q.hasRecordSizeLimit then some (beBytes 2 q.recordSizeLimit.toNat) else none) =
      if h.hasRecordSizeLimit then some (beBytes 2 h.recordSizeLimit.toNat) else none := by
    rw [hagrees.hasRecordSizeLimit]
    by_cases hsent : h.hasRecordSizeLimit = true
    · rw [hagrees.recordSizeLimit hsent]
    · rw [if_neg hsent, if_neg hsent]
  have hticket : (if q.ticketRequest.enabled then
        some [q.ticketRequest.newSessionCount, q.ticketRequest.resumptionCount] else none) =
      if h.ticketRequest.enabled then
        some [h.ticketRequest.newSessionCount, h.ticketRequest.resumptionCount] else none := by
    rw [hagrees.ticketRequest]
    by_cases hsent : h.ticketRequest.enabled = true
    · rw [if_pos hsent]
    · rw [if_neg hsent, if_neg hsent]
      rfl
  have hmodes : (p.psk.isSome || q.pskDHE) = (p.psk.isSome || h.pskDHE) := by
    rw [hagrees.pskDHE, ← psk_isSome hp]
    cases p.psk.isSome <;> simp
  unfold extensionTable
  rw [hlimit, hticket, hmodes, hagrees.greaseExtension, hagrees.encryptedClientHello,
    hagrees.earlyData, hagrees.returnRoutability, hagrees.postHandshakeAuth, hagrees.statusRequest,
    hagrees.kept extCertificateAuthorities (by simp),
    hagrees.kept extClientCertificateType (by simp),
    hagrees.kept extServerCertificateType (by simp), hagrees.kept extCachedInfo (by simp)]

theorem Agrees.head_eq (hagrees : h.Agrees q) : q.head = h.head := by
  unfold head
  rw [hagrees.random, hagrees.sessionID, hagrees.cipherSuites]

/-- What is read back is written with the same parts as before. -/
theorem Marshalled.again (hm : h.Marshalled p body)
    (hok : parseClientHello distinguishedName body = .ok q) : q.Marshalled p body := by
  have hagrees := hm.agrees hok
  obtain ⟨fields, scanned, _, _, _, _, hacc⟩ := hm.accepted hok
  have hp := hagrees.isParts hm.isParts
    (hagrees.marshalPSK hm.isParts hacc.pskIdentity hacc.pskBinder)
  have htable : q.extensions p = h.extensions p :=
    congrArg present (hagrees.extensionTable_eq hm.isParts)
  refine ⟨?_, ?_, hp, ?_, ?_, ?_, ?_, ?_⟩
  · rw [hagrees.cipherSuites]
    exact hm.suites
  · intro hsent
    have hsent' := hagrees.hasRecordSizeLimit ▸ hsent
    rw [hagrees.recordSizeLimit hsent']
    exact hm.limit hsent'
  · rw [htable]
    exact hm.values
  · rw [htable]
    exact hm.total
  · rw [hagrees.sessionID]
    exact hm.sessionID
  · rw [hagrees.cipherSuites]
    exact hm.suitesCount
  · rw [hagrees.head_eq, htable]
    exact hm.body

end ReadBack

/-- A hello that was written and is accepted is read back with every field that
is sent, and writing the result gives the same bytes. -/
theorem parse_marshal {h q : ClientHello} {body : Bytes} {distinguishedName : Bytes → Bool}
    (hbody : h.marshal = .ok body) (hok : parseClientHello distinguishedName body = .ok q) :
    h.Agrees q ∧ q.marshal = .ok body := by
  obtain ⟨p, hm⟩ := marshal_eq_ok_iff.mp hbody
  exact ⟨hm.agrees hok, marshal_eq_ok_iff.mpr ⟨p, hm.again hok⟩⟩

/-- A resuming hello with most of the extensions. -/
def resumingHello : ClientHello where
  handshakeMetadata := some [7]
  sessionID := [9]
  cookie := [1, 2]
  cipherSuites := [0x1301, 0x1302]
  keyShares := [⟨0x001d, [1, 2, 3]⟩]
  serverName := [97, 46, 98]
  alpn := [[104, 50], [104, 51]]
  pskIdentity := [5]
  obfuscatedAge := 77
  pskBinder := List.replicate 32 6
  earlyData := true
  ticketRequest := ⟨true, 2, 1⟩
  connectionID := [8, 8]
  hasConnectionID := true
  grease := true
  recordSizeLimit := 512
  hasRecordSizeLimit := true
  certificateCompressionOffered := true
  statusRequest := true
  unknownExtensions := ExtensionMap.empty.set extServerCertificateType [1, 2]

theorem parse_marshal_resumingHello : ∃ body q, resumingHello.marshal = .ok body ∧
    parseClientHello (fun _ => true) body = .ok q ∧ resumingHello.Agrees q ∧
    q.marshal = .ok body := by
  have hboth : (do
      let body ← resumingHello.marshal
      let _ ← parseClientHello (fun _ => true) body
      pure ()) = .ok () := by decide +kernel
  obtain ⟨body, hbody, hrest⟩ := bind_eq_ok.mp hboth
  obtain ⟨q, hok, _⟩ := bind_eq_ok.mp hrest
  exact ⟨body, q, hbody, hok, parse_marshal hbody hok⟩

/-- A hello with a GREASE extension that another hello has sent. -/
def keptGrease : ClientHello where
  cipherSuites := [0x1301]
  keyShares := [⟨0x001d, [1]⟩]
  unknownExtensions := ExtensionMap.empty.set (greaseValue 0) []

/-- The flag is not sent itself: here it is clear in the hello that is written
and set in the hello that is read. -/
theorem parse_marshal_grease : (do
    let body ← keptGrease.marshal
    let q ← parseClientHello (fun _ => true) body
    pure (keptGrease.grease, q.grease)) = .ok (false, true) := by decide +kernel

end ClientHello

end Dtls13
