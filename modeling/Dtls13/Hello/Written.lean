import Mathlib.Data.List.Nodup
import Dtls13.Hello.ClientHello

/-! # What a written ClientHello is

The writer's table of extensions is the meeting point of writing and reading:
every type occurs in it once, so the reader finds each value under its type
whatever else is sent.
-/

namespace Dtls13

open ByteCodec StateLogic WireParser OrderedExtension ClientHello List

/-! ## Finding an extension -/

section Table

variable {table : List (Nat × Option Bytes)}

theorem mem_present {e : OrderedExtension} : e ∈ present table ↔ (e.typ, some e.value) ∈ table := by
  unfold present
  rw [mem_filterMap]
  constructor
  · rintro ⟨⟨typ, value⟩, hentry, hsome⟩
    obtain ⟨b, hb, rfl⟩ := Option.map_eq_some_iff.mp hsome
    exact (show value = some b from hb) ▸ hentry
  · intro hentry
    exact ⟨_, hentry, rfl⟩

theorem present_typ_sublist : List.Sublist ((present table).map typ) (table.map Prod.fst) := by
  induction table with
  | nil => exact List.Sublist.refl _
  | cons entry rest ih =>
    obtain ⟨typ, value⟩ := entry
    cases value with
    | none => exact ih.cons _
    | some b => exact ih.cons_cons _

theorem present_nodup (hnodup : (table.map Prod.fst).Nodup) : ((present table).map typ).Nodup :=
  hnodup.sublist present_typ_sublist

/-- A type that occurs once in a list of extensions is found with its value. -/
theorem orderedExtensionValue_of_mem {exts : List OrderedExtension}
    (hnodup : (exts.map typ).Nodup) {e : OrderedExtension} (he : e ∈ exts) :
    orderedExtensionValue exts e.typ = some e.value := by
  induction exts with
  | nil => cases he
  | cons first rest ih =>
    obtain ⟨hfirst, hrest⟩ := nodup_cons.mp hnodup
    rcases mem_cons.mp he with rfl | hmem
    · simp [orderedExtensionValue]
    · have hne : (first.typ == e.typ) = false := by
        rw [beq_eq_false_iff_ne]
        intro heq
        exact hfirst (heq ▸ mem_map_of_mem hmem)
      have hrec := ih hrest hmem
      unfold orderedExtensionValue at hrec ⊢
      rw [List.find?_cons, hne]
      exact hrec

theorem orderedExtensionValue_eq_none {exts : List OrderedExtension} {typ : Nat}
    (hnot : ∀ e ∈ exts, e.typ ≠ typ) : orderedExtensionValue exts typ = none := by
  unfold orderedExtensionValue
  rw [Option.map_eq_none_iff, List.find?_eq_none]
  intro e he
  simpa using hnot e he

/-- The value of a table under a type. -/
theorem orderedExtensionValue_present (hnodup : (table.map Prod.fst).Nodup)
    {entry : Nat × Option Bytes} (hentry : entry ∈ table) :
    orderedExtensionValue (present table) entry.1 = entry.2 := by
  obtain ⟨typ, value⟩ := entry
  cases value with
  | some b =>
    exact orderedExtensionValue_of_mem (e := ⟨typ, b⟩) (present_nodup hnodup)
      (mem_present.mpr hentry)
  | none =>
    apply orderedExtensionValue_eq_none
    rintro ⟨other, b⟩ he rfl
    have hsome := mem_present.mp he
    have heq := inj_on_of_nodup_map hnodup hentry hsome rfl
    cases heq

theorem orderedExtensionValue_present_none {typ : Nat} (hnot : typ ∉ table.map Prod.fst) :
    orderedExtensionValue (present table) typ = none := by
  apply orderedExtensionValue_eq_none
  rintro e he rfl
  exact hnot (mem_map_of_mem (mem_present.mp he))

end Table

/-! ## GREASE values -/

theorem greaseValue_bounds (seed : UInt8) :
    2570 ≤ greaseValue seed ∧ greaseValue seed % 16 = 10 ∧ greaseValue seed < 256 ^ 2 := by
  have hseed : (seed &&& 0x0f).toNat < 16 := by
    rw [UInt8.toNat_and]
    exact Nat.and_lt_two_pow _ (by decide : (0x0f : UInt8).toNat < 2 ^ 4)
  unfold greaseValue
  omega

namespace ClientHello

theorem greaseExtension_eq (h : ClientHello) {grease : Nat}
    (hgrease : h.greaseExtension = some grease) : ∃ seed, grease = greaseValue seed := by
  unfold greaseExtension at hgrease
  split at hgrease
  · exact ⟨_, (Option.some.inj hgrease).symm⟩
  · obtain ⟨seed, _, hseed⟩ := exists_of_findSome?_eq_some hgrease
    dsimp only at hseed
    split at hseed
    · exact ⟨_, (Option.some.inj hseed).symm⟩
    · cases hseed

/-- The type in the row of the table for a GREASE extension. -/
theorem exists_greaseValue (h : ClientHello) :
    ∃ seed, h.greaseExtension.getD (greaseValue 0) = greaseValue seed := by
  cases hgrease : h.greaseExtension with
  | none => exact ⟨0, rfl⟩
  | some grease => exact h.greaseExtension_eq hgrease

/-- The types of the table without the GREASE row, before and after it. -/
def typesBefore : List Nat :=
  [extServerName, extSupportedGroups, extSignatureAlgorithms, extSignatureAlgorithmsCert,
    extDelegatedCredential, extCertificateAuthorities, extClientCertificateType,
    extServerCertificateType, extCachedInfo, extALPN, extCompressCertificate, extStatusRequest,
    extRecordSizeLimit, extSupportedVersions, extCookie, extKeyShare, extPostHandshakeAuth,
    extTicketRequest, extConnectionID, extReturnRoutability, extEarlyData, extECH]

def typesAfter : List Nat := [extHandshakeMetadata, extPSKKeyExchangeModes, extPreSharedKey]

theorem extensionTable_types (h : ClientHello) (p : Parts) : (h.extensionTable p).map Prod.fst =
      typesBefore ++ h.greaseExtension.getD (greaseValue 0) :: typesAfter := rfl

/-- No known type is a GREASE value. -/
theorem greaseValue_notMem (seed : UInt8) : greaseValue seed ∉ typesBefore ++ typesAfter := by
  obtain ⟨hlow, hmod, _⟩ := greaseValue_bounds seed
  generalize greaseValue seed = grease at hlow hmod
  have hknown : ∀ typ ∈ typesBefore ++ typesAfter, typ < 2570 ∨ typ % 16 ≠ 10 := by decide
  intro hmem
  rcases hknown grease hmem with hsmall | hother <;> omega

theorem extensionTable_nodup (h : ClientHello) (p : Parts) :
    ((h.extensionTable p).map Prod.fst).Nodup := by
  obtain ⟨seed, hseed⟩ := h.exists_greaseValue
  rw [extensionTable_types, hseed, nodup_middle, nodup_cons]
  exact ⟨greaseValue_notMem seed, by decide⟩

theorem extensionTable_types_lt (h : ClientHello) (p : Parts) {typ : Nat}
    (htyp : typ ∈ (h.extensionTable p).map Prod.fst) : typ < 256 ^ 2 := by
  obtain ⟨seed, hseed⟩ := h.exists_greaseValue
  have hknown : ∀ typ ∈ typesBefore ++ typesAfter, typ < 256 ^ 2 := by decide
  rw [extensionTable_types, hseed] at htyp
  rcases mem_append.mp htyp with hbefore | hafter
  · exact hknown typ (mem_append_left _ hbefore)
  · rcases mem_cons.mp hafter with rfl | hafter
    · exact (greaseValue_bounds seed).2.2
    · exact hknown typ (mem_append_right _ hafter)

/-! ## What a written hello is -/

/-- The encoded parts, each from its field. -/
structure IsParts (h : ClientHello) (p : Parts) : Prop where
  keyShares : marshalKeyShares h.keyShares true = .ok p.keyShares
  signatures : marshalSignatureSchemes h.signatureSchemes = .ok p.signatures
  groups : marshalSupportedGroups h.supportedGroups h.keyShares = .ok p.groups
  certificateSignatures : marshalIf (h.certificateSignatureSchemes ≠ [])
    (marshalSignatureSchemes h.certificateSignatureSchemes) = .ok p.certificateSignatures
  serverName : marshalServerName h.serverName = .ok p.serverName
  alpn : marshalALPN h.alpn = .ok p.alpn
  cookie : marshalIf (h.cookie ≠ []) (marshalCookie h.cookie) = .ok p.cookie
  connectionID : marshalIf h.hasConnectionID (marshalConnectionID h.connectionID) =
    .ok p.connectionID
  psk : h.marshalPSK = .ok p.psk
  certificateCompression : marshalIf h.certificateCompressionOffered
    (marshalCertificateCompressionAlgorithms h.certificateCompressionAlgorithms) =
      .ok p.certificateCompression
  delegatedCredential : marshalIf (h.delegatedCredentialSchemes ≠ [])
    (marshalSignatureSchemes h.delegatedCredentialSchemes) = .ok p.delegatedCredential
  handshakeMetadata : h.marshalMetadata = .ok p.handshakeMetadata

theorem isParts_iff {h : ClientHello} {p : Parts} : h.parts = .ok p ↔ h.IsParts p := by
  constructor
  · intro hp
    simp only [parts, bind_eq_ok] at hp
    obtain ⟨_, hkeyShares, _, hsignatures, _, hgroups, _, hcertificates, _, hserverName, _, halpn,
      _, hcookie, _, hconnectionID, _, hpsk, _, hcompression, _, hdelegated, _, hmetadata, hp⟩ := hp
    cases hp
    exact ⟨hkeyShares, hsignatures, hgroups, hcertificates, hserverName, halpn, hcookie,
      hconnectionID, hpsk, hcompression, hdelegated, hmetadata⟩
  · intro hp
    rw [parts, hp.keyShares, ok_bind, hp.signatures, ok_bind, hp.groups, ok_bind,
      hp.certificateSignatures, ok_bind, hp.serverName, ok_bind, hp.alpn, ok_bind, hp.cookie,
      ok_bind, hp.connectionID, ok_bind, hp.psk, ok_bind, hp.certificateCompression, ok_bind,
      hp.delegatedCredential, ok_bind, hp.handshakeMetadata, ok_bind]
    rfl

/-- The extensions of a hello with these parts. -/
def extensions (h : ClientHello) (p : Parts) : List OrderedExtension :=
  present (h.extensionTable p)

/-- A hello that was written: its parts, the lengths that were checked, and the bytes. -/
structure Marshalled (h : ClientHello) (p : Parts) (body : Bytes) : Prop where
  suites : h.cipherSuites ≠ []
  limit : h.hasRecordSizeLimit = true → minRecordSizeLimit ≤ h.recordSizeLimit.toNat ∧
    h.recordSizeLimit.toNat ≤ defaultRecordSizeLimit
  isParts : h.IsParts p
  values : ∀ e ∈ h.extensions p, e.value.length ≤ 65535
  total : ((h.extensions p).flatMap OrderedExtension.bytes).length ≤ 65535
  sessionID : h.sessionID.length ≤ 255
  suitesCount : h.cipherSuites.length ≤ 65535 / 2
  body : body = h.head ++ vectorBytes 2 ((h.extensions p).flatMap OrderedExtension.bytes)

theorem marshal_eq_ok_iff {h : ClientHello} {body : Bytes} :
    h.marshal = .ok body ↔ ∃ p, h.Marshalled p body := by
  constructor
  · intro hbody
    simp only [marshal, bind_eq_ok] at hbody
    obtain ⟨_, hsuites, _, hlimit, p, hp, _, hlengths, _, hsession, _, hcount, hbody⟩ := hbody
    rw [require_eq_ok] at hsuites hlimit hlengths hsession hcount
    exact ⟨p, hsuites, hlimit, isParts_iff.mp hp, hlengths.1, hlengths.2, hsession, hcount,
      (Except.ok.inj hbody).symm⟩
  · rintro ⟨p, hm⟩
    rw [marshal, require_of hm.suites, ok_bind, require_of hm.limit, ok_bind,
      isParts_iff.mpr hm.isParts, ok_bind]
    change (require ((∀ e ∈ h.extensions p, e.value.length ≤ 65535) ∧
      ((h.extensions p).flatMap bytes).length ≤ 65535) overflow16 >>= _) = _
    rw [require_of ⟨hm.values, hm.total⟩, ok_bind, require_of hm.sessionID, ok_bind,
      require_of hm.suitesCount, hm.body]
    rfl

/-! ## Reading the fields before the extensions -/

theorem parseHelloFields_append {random sessionID legacyCookie suites compression : Bytes}
    (extensions : Bytes) (hrandom : random.length = 32) (hsession : sessionID.length < 256 ^ 1)
    (hcookie : legacyCookie.length < 256 ^ 1) (hsuites : suites.length < 256 ^ 2)
    (hcompression : compression.length < 256 ^ 1) :
    parseHelloFields (random ++ (vectorBytes 1 sessionID ++ (vectorBytes 1 legacyCookie ++
        (vectorBytes 2 suites ++ (vectorBytes 1 compression ++ extensions))))) =
      .ok ⟨random, sessionID, legacyCookie, suites, compression, extensions⟩ [] := by
  have htake := reads_take random
  rw [hrandom] at htake
  have hsession' : WireParser.Reads bytes8 _ _ := reads_vector hsession
  have hcookie' : WireParser.Reads bytes8 _ _ := reads_vector hcookie
  have hsuites' : WireParser.Reads bytes16 _ _ := reads_vector hsuites
  have hcompression' : WireParser.Reads bytes8 _ _ :=
    reads_vector hcompression
  unfold parseHelloFields
  rw [htake.bind_eq, hsession'.bind_eq, hcookie'.bind_eq, hsuites'.bind_eq, hcompression'.bind_eq]
  -- the extensions are all that is left
  have hrest := (reads_take extensions).map fun taken =>
    HelloFields.mk random sessionID legacyCookie suites compression taken
  have hend := hrest []
  rw [append_nil] at hend
  exact hend

section Marshalled

variable {h : ClientHello} {p : Parts} {body : Bytes}

theorem Marshalled.parse_fields (hm : h.Marshalled p body) :
    parse parseHelloFields (body.drop 2) = .ok ⟨h.random.toList, h.sessionID, [],
      wordBytes h.cipherSuites, [0], vectorBytes 2 ((h.extensions p).flatMap bytes)⟩ := by
  have hsession := hm.sessionID
  have hcount := hm.suitesCount
  apply parse_eq_ok
  have hdrop : body.drop 2 = h.random.toList ++ (vectorBytes 1 h.sessionID ++ (vectorBytes 1 [] ++
      (vectorBytes 2 (wordBytes h.cipherSuites) ++ (vectorBytes 1 [0] ++
        vectorBytes 2 ((h.extensions p).flatMap bytes))))) := by
    rw [hm.body, head, append_assoc, drop_left' (beBytes_length 2 _)]
    simp only [append_assoc]
  rw [hdrop]
  apply parseHelloFields_append
  · simp
  · omega
  · decide
  · rw [wordBytes_length]
    omega
  · decide

theorem Marshalled.parse_extensions (hm : h.Marshalled p body) :
    parseOrderedExtensions (vectorBytes 2 ((h.extensions p).flatMap bytes)) =
      .ok (h.extensions p) := by
  apply parseOrderedExtensions_vectorBytes _ (Nat.lt_succ_of_le hm.total)
    (present_nodup (h.extensionTable_nodup p))
  intro e he
  refine ⟨?_, Nat.lt_succ_of_le (hm.values e he)⟩
  exact h.extensionTable_types_lt p (mem_map_of_mem (mem_present.mp he))

end Marshalled

end ClientHello

end Dtls13
