import Dtls13.Hello.ClientHello
import Dtls13.Session.Keys

/-! # Negotiation and HelloRetryRequest

A server selects the cipher suite, the key share and the application protocol
from a ClientHello, and does so again for the hello that answers a
HelloRetryRequest. The suite depends on the offered identities, some of which the
second hello may leave out.
-/

namespace Dtls13

open ByteCodec StateLogic WallClock List

/-! ## Configuration -/

/-- The settings a server negotiates with. -/
structure NegotiationConfig where
  cipherSuites : List UInt16
  curvePreferences : List UInt16
  nextProtos : List Bytes
  externalPSKs : List ExternalPSK
  sessionTicketsDisabled : Bool
  clientAuth : Bool

/-- Entries that are valid and whose names differ from the ones before; each is
checked for both before the next one is looked at. -/
def checkDistinct {α β : Type} [DecidableEq β] (valid : α → Bool) (name : α → β)
    (invalid duplicate : Err) : List β → List α → Except Err (List β)
  | seen, [] => .ok seen
  | seen, entry :: entries => do
    require (valid entry = true) invalid
    require (name entry ∉ seen) duplicate
    checkDistinct valid name invalid duplicate (name entry :: seen) entries

def externalPSKMinimumLength : Nat := 16

def ExternalPSKKey.valid (key : ExternalPSKKey) : Bool :=
  key.wireIdentity ≠ [] ∧ key.wireIdentity.length ≤ 65535 ∧
    externalPSKMinimumLength ≤ key.key.length ∧ key.binderLabel ≠ none

/-- The external keys of a configuration, each with a wire identity of its own. A
nil entry is refused like one without identity. -/
def checkExternalPSKs : List Bytes → List ExternalPSK → Except Err (List Bytes)
  | seen, [] => .ok seen
  | seen, psk :: rest => do
    require (psk.identity ≠ [] ∧ psk.keys ≠ [])
      (.configError "ExternalPSKs contains an invalid entry")
    let seen ← checkDistinct ExternalPSKKey.valid ExternalPSKKey.wireIdentity
      (.configError "ExternalPSKs contains an invalid entry")
      (.configError "ExternalPSKs contains a duplicate wire identity") seen psk.keys
    checkExternalPSKs seen rest

def NegotiationConfig.normalized (c : NegotiationConfig) : Except Err NegotiationConfig := do
  let cipherSuites := if c.cipherSuites = [] then defaultCipherSuites else c.cipherSuites
  let _ ← checkDistinct (fun id => (cipherSuiteForID id).isOk) id
    (.configError "CipherSuites contains an unsupported cipher suite")
    (.configError "CipherSuites contains a duplicate cipher suite") [] cipherSuites
  let curvePreferences :=
    if c.curvePreferences = [] then [groupX25519, groupP256] else c.curvePreferences
  let _ ← checkDistinct supportedKeyExchangeGroup id
    (.configError "CurvePreferences contains an unsupported group")
    (.configError "CurvePreferences contains a duplicate group") [] curvePreferences
  let _ ← checkExternalPSKs [] c.externalPSKs
  require (c.externalPSKs ≠ [] → c.clientAuth = false)
    (.configError "ExternalPSKs cannot be combined with ClientAuth")
  pure { c with cipherSuites, curvePreferences }

/-! ## Selection -/

def alertHandshakeFailure : UInt8 := 40
def alertNoApplicationProtocol : UInt8 := 120

def selectCipherSuite (preferences offered : List UInt16) : Except Err CipherSuite :=
  match preferences.find? fun preferred => offered.contains preferred with
  | some id => cipherSuiteForID id
  | none => .error (alertError alertHandshakeFailure
      (.plain "dtls13: no mutually supported cipher suite"))

/-- The suite for a preferred number, if it is offered with an identity of one of
the external keys for its hash. -/
def externalSuite (config : NegotiationConfig) (hello : ClientHello) (preferred : UInt16) :
    Option CipherSuite :=
  if hello.cipherSuites.contains preferred then
    match cipherSuiteForID preferred with
    | .ok suite =>
      if hello.pskIdentities.any fun entry =>
          (findExternalPSK config.externalPSKs entry.identity suite.hash).isSome
      then some suite else none
    | .error _ => none
  else none

def preferExternalPSKCipherSuite (config : NegotiationConfig) (hello : ClientHello)
    (fallback : CipherSuite) : CipherSuite :=
  if config.externalPSKs = [] ∨ hello.pskIdentities = [] then fallback
  else (config.cipherSuites.findSome? (externalSuite config hello)).getD fallback

def selectServerCipherSuite (config : NegotiationConfig) (hello : ClientHello) :
    Except Err CipherSuite := do
  let suite ← selectCipherSuite config.cipherSuites hello.cipherSuites
  pure (if config.externalPSKs ≠ [] then preferExternalPSKCipherSuite config hello suite
    else suite)

def selectKeyShare (preferences : List UInt16) (shares : List KeyShareEntry) :
    Except Err KeyShareEntry :=
  match preferences.findSome? fun preferred => shares.find? fun share =>
      share.group = preferred ∧ supportedKeyExchangeGroup share.group = true with
  | some share => .ok share
  | none => .error (alertError alertHandshakeFailure
      (.plain "dtls13: no mutually supported key share"))

def negotiateALPN (server client : List Bytes) : Except Err Bytes :=
  if server = [] ∨ client = [] then .ok []
  else
    match server.find? fun protocol => client.contains protocol with
    | some protocol => .ok protocol
    | none => .error (alertError alertNoApplicationProtocol
        (.plain "dtls13: no mutually supported ALPN protocol"))

/-! ## HelloRetryRequest -/

/-- The group to ask for, zero for none. -/
def helloRetryGroup (config : NegotiationConfig) (hello : ClientHello) : Except Err UInt16 :=
  match selectKeyShare config.curvePreferences hello.keyShares with
  | .ok _ => .ok 0
  | .error shareErr =>
    let requested :=
      (config.curvePreferences.find? fun group => hello.supportedGroups.contains group).getD 0
    if requested = 0 then .error shareErr else .ok requested

/-- What a HelloRetryRequest for a first hello says: the suite, and the group or zero. -/
def helloRetryRequest (config : NegotiationConfig) (first : ClientHello) :
    Except Err (CipherSuite × UInt16) := do
  let suite ← selectServerCipherSuite config first
  let requestedGroup ← helloRetryGroup config first
  pure (suite, requestedGroup)

/-- The first hello as it is kept for the comparison. -/
def initialClientHello (first : ClientHello) : ClientHello :=
  { first with cookie := [], pskBinder := [], pskBinders := [] }

/-- The identities of the second hello that are not found, in order, in the first. -/
def unmatchedIdentities : List Bytes → List Bytes → List Bytes
  | [], second => second
  | _ :: _, [] => []
  | candidate :: initial, identity :: second =>
    if candidate = identity then unmatchedIdentities initial second
    else unmatchedIdentities initial (identity :: second)

def equalStatusRequest (initial second : ClientHello) : Bool :=
  if initial.statusRequest ≠ second.statusRequest then false
  else if initial.statusRequestRaw = [] ∧ second.statusRequestRaw = [] then true
  else if initial.statusRequestRaw = [] then
    initial.statusRequest ∧ second.statusRequestRaw = marshalStatusRequest
  else if second.statusRequestRaw = [] then
    second.statusRequest ∧ initial.statusRequestRaw = marshalStatusRequest
  else initial.statusRequestRaw = second.statusRequestRaw

def equalExtensionMaps (left right : ExtensionMap) : Bool :=
  left.entries.length = right.entries.length ∧
    ∀ entry ∈ left.entries, right.get entry.1 = some entry.2

def ClientHello.identities (h : ClientHello) : List Bytes :=
  h.pskIdentities.map PskIdentityEntry.identity

/-- The key shares after a request for a group, zero for none. -/
def equalKeyShares (initial second : ClientHello) (requestedGroup : UInt16) : Bool :=
  if requestedGroup ≠ 0 then second.keyShares.map KeyShareEntry.group = [requestedGroup]
  else initial.keyShares = second.keyShares

def equalClientHelloAfterHRR (initial second : ClientHello) (requestedGroup : UInt16) : Bool :=
  second.earlyData = false ∧ unmatchedIdentities initial.identities second.identities = [] ∧
  equalKeyShares initial second requestedGroup ∧ initial.random = second.random ∧
  initial.handshakeMetadata = second.handshakeMetadata ∧ initial.sessionID = second.sessionID ∧
  initial.cipherSuites = second.cipherSuites ∧ initial.signatureSchemes = second.signatureSchemes ∧
  initial.certificateSignatureSchemes = second.certificateSignatureSchemes ∧
  initial.delegatedCredentialSchemes = second.delegatedCredentialSchemes ∧
  initial.supportedGroups = second.supportedGroups ∧ initial.serverName = second.serverName ∧
  initial.alpn = second.alpn ∧ initial.pskDHE = second.pskDHE ∧
  initial.connectionID = second.connectionID ∧ initial.hasConnectionID = second.hasConnectionID ∧
  initial.returnRoutability = second.returnRoutability ∧
  initial.postHandshakeAuth = second.postHandshakeAuth ∧
  initial.ticketRequest = second.ticketRequest ∧
  initial.certificateCompressionOffered = second.certificateCompressionOffered ∧
  equalStatusRequest initial second ∧ initial.recordSizeLimit = second.recordSizeLimit ∧
  initial.hasRecordSizeLimit = second.hasRecordSizeLimit ∧ initial.grease = second.grease ∧
  equalExtensionMaps initial.unknownExtensions second.unknownExtensions

/-- Which identities of the first hello the second one has kept. -/
def retainedFlags : List Bytes → List Bytes → List Bool
  | [], _ => []
  | _ :: initial, [] => false :: retainedFlags initial []
  | candidate :: initial, identity :: second =>
    if candidate = identity then true :: retainedFlags initial second
    else false :: retainedFlags initial (identity :: second)

/-- A removed identity must be of no use with the selected suite: neither an
external key for its hash nor a ticket that opens to a suite of that hash. -/
def removable (config : NegotiationConfig) (decode : Bytes → Except Err SessionTicketState)
    (suite : CipherSuite) (now : Instant) (identity : Bytes) : Bool :=
  (findExternalPSK config.externalPSKs identity suite.hash).isNone &&
    (config.sessionTicketsDisabled || match openSessionTicket decode now identity with
      | .error _ => true
      | .ok state =>
        match cipherSuiteForID state.suite with
        | .error _ => true
        | .ok ticketSuite => ticketSuite.hash != suite.hash)

/-- `clock` gives the reading for each identity. -/
def removedPSKsAreIncompatible (config : NegotiationConfig)
    (decode : Bytes → Except Err SessionTicketState) (clock : Nat → Instant)
    (initial second : ClientHello) (suite : CipherSuite) : Bool :=
  ((initial.identities.zip (retainedFlags initial.identities second.identities)).zipIdx).all
    fun entry => entry.1.2 || removable config decode suite (clock entry.2) entry.1.1

/-! ## Normalized configurations -/

theorem valid_of_checkDistinct {α β : Type} [DecidableEq β] {valid : α → Bool} {name : α → β}
    {invalid duplicate : Err} {entries : List α} {seen seen' : List β}
    (hok : checkDistinct valid name invalid duplicate seen entries = .ok seen') :
    ∀ entry ∈ entries, valid entry = true := by
  induction entries generalizing seen with
  | nil => simp
  | cons head rest ih =>
    intro entry hmem
    obtain ⟨_, hvalid, hok⟩ := bind_eq_ok.mp hok
    obtain ⟨_, _, hok⟩ := bind_eq_ok.mp hok
    rcases mem_cons.mp hmem with rfl | hmem
    · exact require_eq_ok.mp hvalid
    · exact ih hok entry hmem

theorem supportedKeyExchangeGroup_of_normalized {c config : NegotiationConfig}
    (hnormal : c.normalized = .ok config) :
    ∀ group ∈ config.curvePreferences, supportedKeyExchangeGroup group = true := by
  simp only [NegotiationConfig.normalized, bind_eq_ok] at hnormal
  obtain ⟨_, -, _, hgroups, _, -, _, -, hnormal⟩ := hnormal
  cases hnormal
  exact valid_of_checkDistinct hgroups

/-! ## Removed identities -/

theorem mem_of_unmatchedIdentities {initial second : List Bytes}
    (hmatched : unmatchedIdentities initial second = []) :
    ∀ identity ∈ second, identity ∈ initial := by
  induction initial generalizing second with
  | nil => simp_all [unmatchedIdentities]
  | cons candidate rest ih =>
    cases second with
    | nil => simp
    | cons head tail =>
      intro identity hmem
      simp only [unmatchedIdentities] at hmatched
      split at hmatched
      next heq =>
        rcases mem_cons.mp hmem with rfl | hmem
        · simp [heq]
        · exact mem_cons_of_mem _ (ih hmatched identity hmem)
      next => exact mem_cons_of_mem _ (ih hmatched identity hmem)

/-- An identity of the first hello is kept in the second one or marked as removed. -/
theorem mem_or_mem_zip_retainedFlags {initial second : List Bytes} : ∀ identity ∈ initial,
      identity ∈ second ∨ (identity, false) ∈ initial.zip (retainedFlags initial second) := by
  fun_induction retainedFlags initial second with
  | case1 => simp
  | case2 candidate rest ih =>
    intro identity hmem
    rcases mem_cons.mp hmem with rfl | hmem
    · simp
    · simpa using Or.inr (ih identity hmem)
  | case3 rest head tail ih =>
    intro identity hmem
    rcases mem_cons.mp hmem with rfl | hmem
    · exact .inl mem_cons_self
    · exact (ih identity hmem).imp (mem_cons_of_mem _) (mem_cons_of_mem _)
  | case4 candidate rest head tail hne ih =>
    intro identity hmem
    rcases mem_cons.mp hmem with rfl | hmem
    · exact .inr mem_cons_self
    · exact (ih identity hmem).imp_right (mem_cons_of_mem _)

variable {config : NegotiationConfig}

/-- Accepting the second hello: no identity of the first with an external key for
the selected hash is missing. -/
theorem mem_identities_of_removedPSKs
    {decode : Bytes → Except Err SessionTicketState} {clock : Nat → Instant}
    {initial second : ClientHello} {suite : CipherSuite}
    (hremoved : removedPSKsAreIncompatible config decode clock initial second suite = true)
    {identity : Bytes} (hmem : identity ∈ initial.identities)
    (hfound : (findExternalPSK config.externalPSKs identity suite.hash).isSome = true) :
    identity ∈ second.identities := by
  rcases mem_or_mem_zip_retainedFlags identity hmem with hkept | hgone
  · exact hkept
  · exfalso
    obtain ⟨i, hi, hget⟩ := getElem_of_mem hgone
    have hentry := all_eq_true.mp hremoved ((identity, false), i)
      (mem_zipIdx_iff_getElem?.mpr (by simp [List.getElem?_eq_getElem hi, hget]))
    simp only [removable, Bool.false_or, Bool.and_eq_true, Option.isNone_iff_eq_none] at hentry
    simp [hentry.1] at hfound

/-! ## The preference search -/

/-- A search gives the same answer when fewer entries have one, as long as the
entries with the answer of the search keep it. -/
theorem findSome?_eq_of_keeps {α β : Type} {f g : α → Option β} {entries : List α}
    (hsub : ∀ entry, g entry = none ∨ g entry = f entry)
    (hkeep : ∀ answer, entries.findSome? f = some answer →
      ∀ entry, f entry = some answer → g entry = some answer) :
    entries.findSome? g = entries.findSome? f := by
  induction entries with
  | nil => rfl
  | cons head rest ih =>
    cases hhead : f head with
    | none =>
      have hnone : g head = none := by
        rcases hsub head with hg | hg
        · exact hg
        · rw [hg, hhead]
      simp only [List.findSome?_cons, hhead, hnone] at hkeep ⊢
      exact ih hkeep
    | some answer =>
      have hanswer := hkeep answer (by simp [hhead]) head hhead
      simp [hhead, hanswer]

theorem any_findExternalPSK {h : ClientHello} {hash : HashAlgorithm} :
    (h.pskIdentities.any fun entry =>
      (findExternalPSK config.externalPSKs entry.identity hash).isSome) = true ↔
      ∃ identity ∈ h.identities,
        (findExternalPSK config.externalPSKs identity hash).isSome = true := by
  simp [ClientHello.identities]

theorem externalSuite_eq_some {h : ClientHello} {preferred : UInt16} {suite : CipherSuite} :
    externalSuite config h preferred = some suite ↔
      preferred ∈ h.cipherSuites ∧ cipherSuiteForID preferred = .ok suite ∧
        ∃ identity ∈ h.identities,
          (findExternalPSK config.externalPSKs identity suite.hash).isSome = true := by
  unfold externalSuite
  cases hsuite : cipherSuiteForID preferred with
  | error e => simp
  | ok found =>
    simp only [Option.ite_none_right_eq_some, List.contains_iff_mem, any_findExternalPSK,
      Option.some.injEq, Except.ok.injEq]
    constructor
    · rintro ⟨hmem, hany, rfl⟩
      exact ⟨hmem, rfl, hany⟩
    · rintro ⟨hmem, rfl, hany⟩
      exact ⟨hmem, hany, rfl⟩

/-- The guards of the source on empty lists only skip a search that finds nothing. -/
theorem preferExternalPSKCipherSuite_eq (config : NegotiationConfig) (h : ClientHello)
    (fallback : CipherSuite) : preferExternalPSKCipherSuite config h fallback =
      (config.cipherSuites.findSome? (externalSuite config h)).getD fallback := by
  unfold preferExternalPSKCipherSuite
  split
  next hempty =>
    have hnone : config.cipherSuites.findSome? (externalSuite config h) = none := by
      apply List.findSome?_eq_none_iff.mpr
      intro preferred _
      apply Option.eq_none_iff_forall_ne_some.mpr
      intro suite hsome
      obtain ⟨_, _, identity, hmem, hfound⟩ := externalSuite_eq_some.mp hsome
      rcases hempty with hkeys | hids
      · simp [findExternalPSK, hkeys] at hfound
      · simp [ClientHello.identities, hids] at hmem
    rw [hnone]
    rfl
  next => rfl

theorem selectServerCipherSuite_eq (config : NegotiationConfig) (h : ClientHello) :
    selectServerCipherSuite config h =
      (selectCipherSuite config.cipherSuites h.cipherSuites).map fun fallback =>
        (config.cipherSuites.findSome? (externalSuite config h)).getD fallback := by
  unfold selectServerCipherSuite
  cases selectCipherSuite config.cipherSuites h.cipherSuites with
  | error e => rfl
  | ok fallback =>
    by_cases hkeys : config.externalPSKs = []
    · have hguard := preferExternalPSKCipherSuite_eq config h fallback
      simp only [preferExternalPSKCipherSuite, hkeys, true_or, if_true] at hguard
      simp [hkeys, Except.map, ← hguard, bind, Except.bind, pure, Except.pure]
    · simp [hkeys, preferExternalPSKCipherSuite_eq, Except.map, bind, Except.bind, pure,
        Except.pure]

/-- The suite is selected again from the second hello: its identities are among the
first one's, and those that decided the search are still there. -/
theorem selectServerCipherSuite_second {first second : ClientHello}
    {suite : CipherSuite} (hsuites : first.cipherSuites = second.cipherSuites)
    (hfewer : ∀ identity ∈ second.identities, identity ∈ first.identities)
    (hkept : ∀ identity ∈ first.identities,
      (findExternalPSK config.externalPSKs identity suite.hash).isSome = true →
        identity ∈ second.identities) (hfirst : selectServerCipherSuite config first = .ok suite) :
    selectServerCipherSuite config second = .ok suite := by
  rw [selectServerCipherSuite_eq] at hfirst ⊢
  rw [← hsuites]
  cases hbase : selectCipherSuite config.cipherSuites first.cipherSuites with
  | error e =>
    rw [hbase] at hfirst
    cases hfirst
  | ok fallback =>
    rw [hbase] at hfirst
    have hsearch : config.cipherSuites.findSome? (externalSuite config second) =
        config.cipherSuites.findSome? (externalSuite config first) := by
      apply findSome?_eq_of_keeps
      · intro preferred
        cases hsecond : externalSuite config second preferred with
        | none => exact .inl rfl
        | some found =>
          obtain ⟨hmem, hid, identity, hin, hfound⟩ := externalSuite_eq_some.mp hsecond
          have hagain := externalSuite_eq_some.mpr
            ⟨hsuites ▸ hmem, hid, identity, hfewer identity hin, hfound⟩
          exact .inr hagain.symm
      · intro answer hanswer preferred hpreferred
        -- the answer of the search is the suite of the HelloRetryRequest
        have hsame : answer = suite := by
          simpa [Except.map, hanswer] using hfirst
        obtain ⟨hmem, hid, identity, hin, hfound⟩ := externalSuite_eq_some.mp hpreferred
        subst hsame
        exact externalSuite_eq_some.mpr
          ⟨hsuites ▸ hmem, hid, identity, hkept identity hin hfound, hfound⟩
    rw [hsearch]
    exact hfirst

/-! ## Key shares -/

theorem selectKeyShare_single {preferences : List UInt16} {share : KeyShareEntry}
    (hmem : share.group ∈ preferences) (hsupported : supportedKeyExchangeGroup share.group = true) :
    selectKeyShare preferences [share] = .ok share := by
  have hfound : (preferences.findSome? fun preferred => [share].find? fun share =>
      share.group = preferred ∧ supportedKeyExchangeGroup share.group = true) = some share := by
    induction preferences with
    | nil => simp at hmem
    | cons head rest ih =>
      by_cases hhead : share.group = head
      · simp [← hhead, hsupported]
      · have hrest := ih ((mem_cons.mp hmem).resolve_left hhead)
        simpa [List.findSome?_cons, hhead] using hrest
  unfold selectKeyShare
  rw [hfound]

/-- A request names a preferred group, and none is made for an acceptable share. -/
theorem helloRetryGroup_eq_ok {h : ClientHello} {group : UInt16}
    (hok : helloRetryGroup config h = .ok group) :
    (group = 0 ∧ ∃ share, selectKeyShare config.curvePreferences h.keyShares = .ok share) ∨
      (group ≠ 0 ∧ group ∈ config.curvePreferences) := by
  unfold helloRetryGroup at hok
  cases hshare : selectKeyShare config.curvePreferences h.keyShares with
  | ok share =>
    rw [hshare] at hok
    cases hok
    exact .inl ⟨rfl, share, rfl⟩
  | error e =>
    rw [hshare] at hok
    dsimp only at hok
    split at hok
    next => cases hok
    next hne =>
      cases hok
      refine .inr ⟨hne, ?_⟩
      cases hfind : config.curvePreferences.find? fun group =>
          h.supportedGroups.contains group with
      | none =>
        rw [hfind] at hne
        exact absurd rfl hne
      | some found =>
        simpa using mem_of_find?_eq_some hfind

theorem selectKeyShare_second {c config : NegotiationConfig} {first second : ClientHello}
    {requestedGroup : UInt16} (hnormal : c.normalized = .ok config)
    (hgroup : helloRetryGroup config first = .ok requestedGroup)
    (hshares : equalKeyShares first second requestedGroup = true) :
    ∃ share, selectKeyShare config.curvePreferences second.keyShares = .ok share ∧
      (requestedGroup ≠ 0 → share.group = requestedGroup) := by
  unfold equalKeyShares at hshares
  rcases helloRetryGroup_eq_ok hgroup with hnone | hrequested
  · obtain ⟨rfl, share, hshare⟩ := hnone
    simp only [ne_eq, not_true, if_false, decide_eq_true_eq] at hshares
    exact ⟨share, hshares ▸ hshare, fun hne => absurd rfl hne⟩
  · obtain ⟨hne, hmem⟩ := hrequested
    simp only [ne_eq, hne, not_false_eq_true, if_true, decide_eq_true_eq] at hshares
    obtain ⟨share, hsingle, hshare⟩ := map_eq_singleton_iff.mp hshares
    refine ⟨share, ?_, fun _ => hshare⟩
    rw [hsingle]
    apply selectKeyShare_single
    · rw [hshare]
      exact hmem
    · rw [hshare]
      exact supportedKeyExchangeGroup_of_normalized hnormal _ hmem

/-! ## Agreement -/

/-- The server names a suite, and maybe a group, in a HelloRetryRequest. If it
accepts the second hello, it selects that suite, a key share of that group and the
application protocol that the first hello would give. -/
theorem helloRetryRequest_agrees (c config : NegotiationConfig)
    (decode : Bytes → Except Err SessionTicketState) (clock : Nat → Instant)
    (first second : ClientHello) (suite : CipherSuite) (requestedGroup : UInt16)
    (hnormal : c.normalized = .ok config)
    (hrequest : helloRetryRequest config first = .ok (suite, requestedGroup))
    (hequal : equalClientHelloAfterHRR (initialClientHello first) second requestedGroup = true)
    (hremoved : removedPSKsAreIncompatible config decode clock (initialClientHello first) second
      suite = true) :
    selectServerCipherSuite config second = .ok suite ∧
      negotiateALPN config.nextProtos second.alpn = negotiateALPN config.nextProtos first.alpn ∧
      ∃ share, selectKeyShare config.curvePreferences second.keyShares = .ok share ∧
        (requestedGroup ≠ 0 → share.group = requestedGroup) := by
  obtain ⟨selected, hsuite, hrequest⟩ := bind_eq_ok.mp hrequest
  obtain ⟨group, hgroup, hrequest⟩ := bind_eq_ok.mp hrequest
  cases hrequest
  simp only [equalClientHelloAfterHRR, decide_eq_true_eq] at hequal
  obtain ⟨_, hmatched, hshares, _, _, _, hsuites, _, _, _, _, _, halpn, _⟩ := hequal
  refine ⟨?_, ?_, ?_⟩
  · exact selectServerCipherSuite_second hsuites (mem_of_unmatchedIdentities hmatched)
      (fun identity hmem hfound => mem_identities_of_removedPSKs hremoved hmem hfound) hsuite
  · rw [← halpn]
    rfl
  · exact selectKeyShare_second hnormal hgroup hshares

/-- An external key for SHA-384 that decides the suite. -/
def sampleConfig : NegotiationConfig where
  cipherSuites := [0x1301, 0x1302]
  curvePreferences := []
  nextProtos := [[104, 51]]
  externalPSKs := [⟨[9], [⟨[9], List.replicate 16 1, .sha384, some [], []⟩]⟩]
  sessionTicketsDisabled := false
  clientAuth := false

def sampleFirstHello : ClientHello where
  cipherSuites := [0x1301, 0x1302]
  supportedGroups := [groupP384, groupX25519]
  keyShares := [⟨groupP384, [1]⟩]
  alpn := [[104, 51]]
  pskIdentities := [⟨[7], 0⟩, ⟨[9], 0⟩]

/-- The hello with a share of the requested group and without the unknown identity. -/
def sampleSecondHello : ClientHello :=
  { sampleFirstHello with
    keyShares := [⟨groupX25519, [2]⟩]
    pskIdentities := [⟨[9], 0⟩] }

theorem helloRetryRequest_agrees_sample : ∃ config, sampleConfig.normalized = .ok config ∧
      selectServerCipherSuite config sampleSecondHello = .ok .aes256GcmSha384 ∧
      negotiateALPN config.nextProtos sampleSecondHello.alpn =
        negotiateALPN config.nextProtos sampleFirstHello.alpn ∧
      ∃ share, selectKeyShare config.curvePreferences sampleSecondHello.keyShares = .ok share ∧
        (groupX25519 ≠ 0 → share.group = groupX25519) :=
  ⟨_, rfl, helloRetryRequest_agrees sampleConfig _
    (fun _ => .error (.plain "dtls13: invalid session ticket")) (fun _ => Instant.ofUnix 0)
    sampleFirstHello sampleSecondHello .aes256GcmSha384 groupX25519 rfl
    (by rfl) (by decide +kernel) (by decide +kernel)⟩

end Dtls13
