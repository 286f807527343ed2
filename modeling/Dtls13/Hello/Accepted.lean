import Dtls13.Hello.Written

/-! # What an accepted ClientHello was read from

Each field of an accepted hello comes from one extension or from the first pass
over all of them, so results about reading look at one extension at a time.
-/

namespace Dtls13

open ByteCodec StateLogic

/-! ## The first pass over the extensions -/

/-- An extension that the first pass keeps among the unknown ones. -/
def keptByScan (first : UInt8) (e : OrderedExtension) : Prop :=
  e.typ ∉ readByType ∧ e.typ ≠ extOIDFilters ∧ e.typ ≠ extHandshakeMetadata ∧
    e.typ ≠ extDelegatedCredential ∧ ¬ (e.typ = greaseValue first ∧ e.value = [])

theorem greaseValue_not_special (seed : UInt8) :
    greaseValue seed ∉ readByType ∧ greaseValue seed ≠ extOIDFilters ∧
      greaseValue seed ≠ extHandshakeMetadata ∧ greaseValue seed ≠ extDelegatedCredential ∧
      greaseValue seed ≠ extCachedInfo ∧ greaseValue seed ≠ extClientCertificateType ∧
      greaseValue seed ≠ extServerCertificateType := by
  obtain ⟨hlow, hmod, _⟩ := greaseValue_bounds seed
  generalize greaseValue seed = grease at hlow hmod
  have hknown : ∀ typ ∈ readByType, typ < 2570 ∨ typ % 16 ≠ 10 := by decide
  have hne : ∀ typ, (typ < 2570 ∨ typ % 16 ≠ 10) → grease ≠ typ := by
    rintro typ hsmall rfl
    omega
  exact ⟨fun hmem => hne grease (hknown grease hmem) rfl, hne _ (by decide), hne _ (by decide),
    hne _ (by decide), hne _ (by decide), hne _ (by decide), hne _ (by decide)⟩

/-- What one extension does to the first pass. -/
structure ScanStep (first : UInt8) (e : OrderedExtension) (s next : ScannedExtensions) : Prop where
  metadata : (e.typ = extHandshakeMetadata ∧
      ∃ data, parseHandshakeMetadata e.value = .ok data ∧ next.handshakeMetadata = some data) ∨
    e.typ ≠ extHandshakeMetadata ∧ next.handshakeMetadata = s.handshakeMetadata
  delegated : (e.typ = extDelegatedCredential ∧
      parseSignatureSchemes e.value = .ok next.delegatedCredentialSchemes) ∨
    e.typ ≠ extDelegatedCredential ∧ next.delegatedCredentialSchemes = s.delegatedCredentialSchemes
  grease : next.grease = true ↔ s.grease = true ∨ e.typ = greaseValue first ∧ e.value = []
  kept : keptByScan first e → next.unknownExtensions.get e.typ = some e.value
  others : ∀ typ, (keptByScan first e → typ ≠ e.typ) →
    next.unknownExtensions.get typ = s.unknownExtensions.get typ

/-- Keeping an extension changes nothing else. -/
theorem scanStep_set {first : UInt8} {e : OrderedExtension} (s : ScannedExtensions)
    (hkept : keptByScan first e) :
    ScanStep first e s { s with unknownExtensions := s.unknownExtensions.set e.typ e.value } where
  metadata := .inr ⟨hkept.2.2.1, rfl⟩
  delegated := .inr ⟨hkept.2.2.2.1, rfl⟩
  grease := ⟨.inl, fun hor => hor.resolve_right hkept.2.2.2.2⟩
  kept _ := by rw [ExtensionMap.get_set, if_pos rfl]
  others typ hne := by rw [ExtensionMap.get_set, if_neg (hne hkept)]

theorem scanStep_of_scanExtension {first : UInt8} {e : OrderedExtension}
    {s next : ScannedExtensions} (hok : scanExtension first s e = .ok next) :
    ScanStep first e s next := by
  obtain ⟨hlist, hoid, hdata, hschemes, hcached, hclient, hserver⟩ := greaseValue_not_special first
  have hgrease : ∀ typ, e.typ = typ → greaseValue first ≠ typ →
      ¬ (e.typ = greaseValue first ∧ e.value = []) :=
    fun typ htyp hne heq => hne (heq.1.symm.trans htyp)
  unfold scanExtension at hok
  split at hok
  next hlater =>
    cases hok
    have hnone : ¬ (e.typ = greaseValue first ∧ e.value = []) :=
      fun heq => hlist (heq.1 ▸ hlater)
    exact ⟨.inr ⟨fun heq => absurd (heq ▸ hlater) (by decide), rfl⟩,
      .inr ⟨fun heq => absurd (heq ▸ hlater) (by decide), rfl⟩,
      ⟨.inl, fun hor => hor.resolve_right hnone⟩, fun hkept => absurd hlater hkept.1,
      fun _ _ => rfl⟩
  next hlater =>
  split at hok
  next => cases hok
  next hnotOid =>
  split at hok
  next htyp =>
    obtain ⟨data, hparse, hok⟩ := bind_eq_ok.mp hok
    cases hok
    exact ⟨.inl ⟨htyp, data, hparse, rfl⟩, .inr ⟨htyp ▸ by decide, rfl⟩,
      ⟨.inl, fun hor => hor.resolve_right (hgrease _ htyp hdata)⟩,
      fun hkept => absurd htyp hkept.2.2.1, fun _ _ => rfl⟩
  next hnotData =>
  split at hok
  next htyp =>
    obtain ⟨schemes, hparse, hok⟩ := bind_eq_ok.mp hok
    cases hok
    exact ⟨.inr ⟨hnotData, rfl⟩, .inl ⟨htyp, hparse⟩,
      ⟨.inl, fun hor => hor.resolve_right (hgrease _ htyp hschemes)⟩,
      fun hkept => absurd htyp hkept.2.2.2.1, fun _ _ => rfl⟩
  next hnotSchemes =>
  split at hok
  next htyp =>
    obtain ⟨_, _, hok⟩ := bind_eq_ok.mp hok
    cases hok
    exact scanStep_set s ⟨hlater, hnotOid, hnotData, hnotSchemes, hgrease _ htyp hcached⟩
  next =>
  split at hok
  next htyp =>
    obtain ⟨_, _, hok⟩ := bind_eq_ok.mp hok
    cases hok
    refine scanStep_set s ⟨hlater, hnotOid, hnotData, hnotSchemes, ?_⟩
    rcases htyp with htyp | htyp
    · exact hgrease _ htyp hclient
    · exact hgrease _ htyp hserver
  next =>
  split at hok
  next hempty =>
    cases hok
    exact ⟨.inr ⟨hnotData, rfl⟩, .inr ⟨hnotSchemes, rfl⟩, ⟨fun _ => .inr hempty, fun _ => rfl⟩,
      fun hkept => absurd hempty hkept.2.2.2.2, fun _ _ => rfl⟩
  next hnone =>
    cases hok
    exact scanStep_set s ⟨hlater, hnotOid, hnotData, hnotSchemes, hnone⟩

/-- What the first pass finds in a list of extensions of different types. -/
structure Scanned (first : UInt8) (exts : List OrderedExtension) (s final : ScannedExtensions) :
    Prop where
  metadata : ∀ e ∈ exts, e.typ = extHandshakeMetadata →
    ∃ data, parseHandshakeMetadata e.value = .ok data ∧ final.handshakeMetadata = some data
  noMetadata : (∀ e ∈ exts, e.typ ≠ extHandshakeMetadata) →
    final.handshakeMetadata = s.handshakeMetadata
  delegated : ∀ e ∈ exts, e.typ = extDelegatedCredential →
    parseSignatureSchemes e.value = .ok final.delegatedCredentialSchemes
  noDelegated : (∀ e ∈ exts, e.typ ≠ extDelegatedCredential) →
    final.delegatedCredentialSchemes = s.delegatedCredentialSchemes
  grease : final.grease = true ↔
    s.grease = true ∨ ∃ e ∈ exts, e.typ = greaseValue first ∧ e.value = []
  kept : ∀ e ∈ exts, keptByScan first e → final.unknownExtensions.get e.typ = some e.value
  others : ∀ typ, (∀ e ∈ exts, keptByScan first e → typ ≠ e.typ) →
    final.unknownExtensions.get typ = s.unknownExtensions.get typ

variable {exts : List OrderedExtension}

theorem scanned_of_foldlM {first : UInt8}
    {s final : ScannedExtensions} (hnodup : (exts.map OrderedExtension.typ).Nodup)
    (hok : exts.foldlM (scanExtension first) s = .ok final) : Scanned first exts s final := by
  induction exts generalizing s with
  | nil =>
    cases hok
    exact ⟨by simp, fun _ => rfl, by simp, fun _ => rfl, by simp, by simp, fun _ _ => rfl⟩
  | cons e rest ih =>
    rw [List.foldlM_cons] at hok
    obtain ⟨next, hnext, hok⟩ := bind_eq_ok.mp hok
    have hstep := scanStep_of_scanExtension hnext
    obtain ⟨hfresh, hrest⟩ := List.nodup_cons.mp hnodup
    have htail := ih hrest hok
    -- no later extension has the type of the first one
    have hlater : ∀ other ∈ rest, other.typ ≠ e.typ := fun other hother heq =>
      hfresh (heq ▸ List.mem_map_of_mem hother)
    refine ⟨?_, ?_, ?_, ?_, ?_, ?_, ?_⟩
    · intro other hother htyp
      rcases List.mem_cons.mp hother with rfl | hmem
      · obtain ⟨_, data, hparse, hdata⟩ := hstep.metadata.resolve_right fun hne => hne.1 htyp
        rw [htail.noMetadata fun later hl => htyp ▸ hlater later hl]
        exact ⟨data, hparse, hdata⟩
      · exact htail.metadata other hmem htyp
    · intro hnone
      obtain ⟨hfirst, hall⟩ := List.forall_mem_cons.mp hnone
      rw [htail.noMetadata hall]
      exact (hstep.metadata.resolve_left fun heq => hfirst heq.1).2
    · intro other hother htyp
      rcases List.mem_cons.mp hother with rfl | hmem
      · rw [htail.noDelegated fun later hl => htyp ▸ hlater later hl]
        exact (hstep.delegated.resolve_right fun hne => hne.1 htyp).2
      · exact htail.delegated other hmem htyp
    · intro hnone
      obtain ⟨hfirst, hall⟩ := List.forall_mem_cons.mp hnone
      rw [htail.noDelegated hall]
      exact (hstep.delegated.resolve_left fun heq => hfirst heq.1).2
    · rw [htail.grease, hstep.grease, List.exists_mem_cons_iff, or_assoc]
    · intro other hother hkept
      rcases List.mem_cons.mp hother with rfl | hmem
      · rw [htail.others other.typ fun later hl _ => (hlater later hl).symm]
        exact hstep.kept hkept
      · exact htail.kept other hmem hkept
    · intro typ hne
      obtain ⟨hfirst, hall⟩ := List.forall_mem_cons.mp hne
      rw [htail.others typ hall, hstep.others typ hfirst]

/-- An extension of a kind that the first pass keeps. -/
def KeptType (typ : Nat) : Prop :=
  typ ∉ readByType ∧ typ ≠ extOIDFilters ∧ typ ≠ extHandshakeMetadata ∧ typ ≠ extDelegatedCredential

theorem mem_of_orderedExtensionValue {typ : Nat} {value : Bytes}
    (hvalue : orderedExtensionValue exts typ = some value) : ⟨typ, value⟩ ∈ exts := by
  obtain ⟨e, hfound, hvalue⟩ := Option.map_eq_some_iff.mp hvalue
  have hfirst := List.find?_some hfound
  have htyp : e.typ = typ := beq_iff_eq.mp hfirst
  rw [← htyp, ← hvalue]
  exact List.mem_of_find?_eq_some hfound

theorem forall_ne_of_orderedExtensionValue {typ : Nat}
    (hnone : orderedExtensionValue exts typ = none) : ∀ e ∈ exts, e.typ ≠ typ := by
  intro e he
  have hfound := List.find?_eq_none.mp (Option.map_eq_none_iff.mp hnone) e he
  simpa using hfound

namespace Scanned

variable {first : UInt8} {exts : List OrderedExtension} {final : ScannedExtensions}

/-- A first pass that starts with nothing. -/
abbrev FromNothing (first : UInt8) (exts : List OrderedExtension) (final : ScannedExtensions) :
    Prop :=
  Scanned first exts ⟨none, [], false, ExtensionMap.empty⟩ final

/-- Extensions read by type are not kept. -/
theorem get_readByType (hscan : FromNothing first exts final) {typ : Nat}
    (htyp : typ ∈ readByType) : final.unknownExtensions.get typ = none := by
  apply hscan.others
  rintro e _ hkept rfl
  exact hkept.1 htyp

theorem get_keptType (hscan : FromNothing first exts final) {typ : Nat} (htyp : KeptType typ)
    (hgrease : ¬ (typ = greaseValue first ∧ orderedExtensionValue exts typ = some [])) :
    final.unknownExtensions.get typ = orderedExtensionValue exts typ := by
  obtain ⟨hlist, hoid, hdata, hschemes⟩ := htyp
  cases hvalue : orderedExtensionValue exts typ with
  | none =>
    apply hscan.others
    intro e he _
    exact (forall_ne_of_orderedExtensionValue hvalue e he).symm
  | some value =>
    refine hscan.kept _ (mem_of_orderedExtensionValue hvalue) ⟨hlist, hoid, hdata, hschemes, ?_⟩
    rintro ⟨rfl, rfl⟩
    exact hgrease ⟨rfl, hvalue⟩

theorem grease_iff (hscan : FromNothing first exts final)
    (hnodup : (exts.map OrderedExtension.typ).Nodup) :
    final.grease = true ↔ orderedExtensionValue exts (greaseValue first) = some [] := by
  rw [hscan.grease]
  constructor
  · rintro (hfalse | ⟨e, he, htyp, hvalue⟩)
    · cases hfalse
    · rw [← htyp, ← hvalue]
      exact orderedExtensionValue_of_mem hnodup he
  · intro hvalue
    exact .inr ⟨_, mem_of_orderedExtensionValue hvalue, rfl, rfl⟩

end Scanned

/-! ## The fields of an accepted hello -/

/-- The hello `q` was read from these fields and extensions. -/
structure Accepted (distinguishedName : Bytes → Bool) (fields : HelloFields)
    (exts : List OrderedExtension) (scanned : ScannedExtensions) (q : ClientHello) : Prop where
  handshakeMetadata : q.handshakeMetadata = scanned.handshakeMetadata
  random : q.random = Vector.ofFn fun i => fields.random.getD i 0
  sessionID : q.sessionID = fields.sessionID
  cipherSuites : q.cipherSuites = wordsOf fields.suites
  delegatedCredentialSchemes : q.delegatedCredentialSchemes = scanned.delegatedCredentialSchemes
  grease : q.grease = scanned.grease
  ech : parseField exts extECH none parseECHField = .ok q.encryptedClientHelloExtension
  signatureSchemes : parseField exts extSignatureAlgorithms [] parseSignatureSchemes =
    .ok q.signatureSchemes
  certificateSignatureSchemes : parseField exts extSignatureAlgorithmsCert []
    parseSignatureSchemes = .ok q.certificateSignatureSchemes
  supportedGroups : parseField exts extSupportedGroups [] parseSupportedGroups =
    .ok q.supportedGroups
  keyShares : parseField exts extKeyShare [] (fun raw => parseKeyShares raw true) = .ok q.keyShares
  serverName : parseField exts extServerName [] parseServerName = .ok q.serverName
  alpn : parseField exts extALPN [] parseALPN = .ok q.alpn
  ticketRequest : parseField exts extTicketRequest {} parseTicketRequest = .ok q.ticketRequest
  recordSizeLimit : ∃ limit, parseField exts extRecordSizeLimit none (fun raw => do
      let limit ← parseRecordSizeLimit raw false
      pure (some limit)) = .ok limit ∧
    q.recordSizeLimit = limit.getD 0 ∧ q.hasRecordSizeLimit = limit.isSome
  status : ∃ raw, parseField exts extStatusRequest (false, []) parseStatusField =
    .ok (q.statusRequest, raw)
  cookie : parseField exts extCookie [] parseCookie = .ok q.cookie
  connectionID : ∃ connectionID, parseField exts extConnectionID none (fun raw => do
      let connectionID ← parseConnectionID raw
      pure (some connectionID)) = .ok connectionID ∧
    q.connectionID = connectionID.getD [] ∧ q.hasConnectionID = connectionID.isSome
  returnRoutability : parseField exts extReturnRoutability false
    (parseFlag "invalid rrc extension length") = .ok q.returnRoutability
  postHandshakeAuth : parseField exts extPostHandshakeAuth false
    (parseFlag "invalid post_handshake_auth extension length") = .ok q.postHandshakeAuth
  earlyData : parseField exts extEarlyData false
    (parseFlag "invalid early_data extension length") = .ok q.earlyData
  pskDHE : parseField exts extPSKKeyExchangeModes false parsePSKKeyExchangeModes = .ok q.pskDHE
  psk : parseField exts extPreSharedKey ([], []) (parsePSKField exts) =
    .ok (q.pskIdentities, q.pskBinders)
  pskIdentity : q.pskIdentity = (q.pskIdentities.head?.map PskIdentityEntry.identity).getD []
  pskBinder : q.pskBinder = q.pskBinders.headD []
  kept : ∃ authorities compression, parseField exts extCertificateAuthorities none (fun raw => do
      let _ ← forEachCertificateAuthority distinguishedName raw
      pure (some raw)) = .ok authorities ∧
    parseField exts extCompressCertificate (false, none) parseCompressionField =
      .ok (q.certificateCompressionOffered, compression) ∧
    (∀ typ, q.unknownExtensions.get typ =
      if typ = extCompressCertificate ∧ compression.isSome then compression
      else if typ = extCertificateAuthorities ∧ authorities.isSome then authorities
      else scanned.unknownExtensions.get typ)

theorem Accepted.get_eq {distinguishedName : Bytes → Bool} {fields : HelloFields}
    {scanned : ScannedExtensions} {q : ClientHello}
    (hacc : Accepted distinguishedName fields exts scanned q) {typ : Nat}
    (hcompression : typ ≠ extCompressCertificate) (hauthorities : typ ≠ extCertificateAuthorities) :
    q.unknownExtensions.get typ = scanned.unknownExtensions.get typ := by
  obtain ⟨_, _, _, _, hget⟩ := hacc.kept
  rw [hget, if_neg fun heq => hcompression heq.1, if_neg fun heq => hauthorities heq.1]

/-- A random has a first byte. -/
theorem random_pos : 0 < 32 := by decide

theorem accepted_of_parseClientHello {distinguishedName : Bytes → Bool} {b : Bytes}
    {q : ClientHello} (hok : parseClientHello distinguishedName b = .ok q) : ∃ fields exts scanned,
      WireParser.parse parseHelloFields (b.drop 2) = .ok fields ∧
      parseOrderedExtensions fields.extensions = .ok exts ∧
      exts.foldlM (scanExtension (getElem q.random 0 random_pos))
        ⟨none, [], false, ExtensionMap.empty⟩ = .ok scanned ∧
      Accepted distinguishedName fields exts scanned q := by
  simp only [parseClientHello, bind_eq_ok] at hok
  obtain ⟨_, -, fields, hfields, _, -, _, -, exts, hexts, scanned, hscanned, _, -, ech, hech, _, -,
    schemes, hschemes, certificateSchemes, hcertificateSchemes, authorities, hauthorities, _, -,
    groups, hgroups, keyShares, hkeyShares, _, -, serverName, hserverName, alpn, halpn,
    ticketRequest, hticketRequest, ⟨_, compression⟩, hcompression, hok⟩ := hok
  dsimp only at hok
  obtain ⟨limit, hlimit, status, hstatus, cookie, hcookie, connectionID, hconnectionID, _,
    hroutability, _, hauth, _, hearly, _, -, _, hmodes, psk, hpsk, _, -, _, -, _, -, hok⟩ := hok
  cases hok
  refine ⟨fields, exts, scanned, hfields, hexts, hscanned, rfl, rfl, rfl, rfl, rfl, rfl, hech,
    hschemes, hcertificateSchemes, hgroups, hkeyShares, hserverName, halpn, hticketRequest,
    ⟨limit, hlimit, rfl, rfl⟩, ⟨status.2, hstatus⟩, hcookie,
    ⟨connectionID, hconnectionID, rfl, rfl⟩, hroutability, hauth, hearly, hmodes, hpsk, rfl, rfl,
    ⟨authorities, compression, hauthorities, hcompression, ?_⟩⟩
  intro typ
  cases compression <;> cases authorities <;> simp [ExtensionMap.get_set]

end Dtls13
