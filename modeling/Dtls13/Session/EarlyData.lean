import Dtls13.Hello.Binders
import Dtls13.Session.Negotiation
import Dtls13.Session.ReplayCache

/-! # Accepting a pre-shared key

A server goes through the identities of a hello and takes the first usable one. For
a ticket that comes first it may accept early data, if the replay cache admits the
ticket. The age of the ticket is checked at one reading of the clock and the cache
drops expired entries at a later one.
-/

namespace Dtls13

open ByteCodec StateLogic WallClock EarlyDataReplayCache List

/-! ## The model -/

def hashForTLSKDF (kdf : UInt16) : Option HashAlgorithm :=
  if kdf = 1 then some .sha256 else if kdf = 2 then some .sha384 else none

def matchExternalPSK (externalPSKs : List ExternalPSK) (wireIdentity : Bytes)
    (hash : HashAlgorithm) (digest : Bytes) : Option ExternalPSKSelection :=
  (findExternalPSK externalPSKs wireIdentity hash).filter fun selection =>
    selection.key.digest = digest

structure EarlyDataConfig extends NegotiationConfig where
  maxEarlyData : UInt32
  recordSizeLimit : UInt16
  allowEarlyDataWithoutCookie : Bool

structure SelectedPSK where
  psk : Bytes
  identity : UInt16
  session : Option SessionTicketState
  external : Option ExternalPSKSelection
  deriving DecidableEq, Repr

/-- A selection, and the ticket and state for which early data is to be admitted. -/
structure PSKChoice where
  selected : SelectedPSK
  early : Option (Bytes × SessionTicketState)

/-- One call of `acceptPSK`: its arguments, the outcome of making a ticket key, the
policy on authenticated clients, and the readings of the clock. Each identity is
opened at one reading and its age is taken at another. -/
structure AcceptCall where
  hello : ClientHello
  body : Bytes
  initialClientHelloHash : Bytes
  hrrBody : Option Bytes
  suite : CipherSuite
  protocol : Bytes
  ticketKey : Except Err Unit
  validClientAuthenticationTicket : SessionTicketState → Bool
  opened : Nat → Instant
  aged : Nat → Instant
  stored : Instant

namespace SessionTicketState

/-- The age of a ticket lies within its lifetime, both ends included. -/
def ageValid (state : SessionTicketState) (now : Instant) : Bool :=
  0 ≤ now.sub state.created ∧ now.sub state.created ≤ state.lifetimeNs

/-- The age the client claims is within ten minutes of the real one, where that fits
the client's 32 bits. -/
def ageWithinTolerance (state : SessionTicketState) (now : Instant) (obfuscatedAge : UInt32) :
    Bool :=
  let clientAge : Int := (obfuscatedAge - state.ageAdd).toNat
  let actualAgeMillis := now.sub state.created / 1000000
  actualAgeMillis < 2 ^ 32 → (clientAge - actualAgeMillis).natAbs ≤ 600000

def expires (state : SessionTicketState) : Instant := state.created.add state.lifetimeNs

end SessionTicketState

/-- The identities a hello presents. -/
def ClientHello.presented (h : ClientHello) : List PskIdentityEntry :=
  if h.pskIdentities = [] then [⟨h.pskIdentity, h.obfuscatedAge⟩] else h.pskIdentities

def AcceptCall.firstIdentity (call : AcceptCall) : Bytes :=
  match call.hello.presented with
  | [] => []
  | entry :: _ => entry.identity

section

variable (P : Primitives) (digest : HashAlgorithm → Bytes → Bytes)
  (distinguishedName : Bytes → Bool) (decode : Bytes → Except Err SessionTicketState)
  (config : EarlyDataConfig)

/-- The external key a ticket was issued under, if any; nothing if it is not
configured any more. -/
def ticketExternal (candidate : SessionTicketState) (candidateSuite : CipherSuite) :
    Option (Option ExternalPSKSelection) :=
  match candidate.externalPSK with
  | none => some none
  | some external =>
    match hashForTLSKDF external.kdf with
    | none => none
    | some targetHash =>
      if targetHash = candidateSuite.hash then
        (matchExternalPSK config.externalPSKs external.wire targetHash external.digest).map some
      else none

/-- The state of a ticket that fits the handshake, with its external key. -/
def usableTicket (call : AcceptCall) (i : Nat) (identity : Bytes) :
    Option (SessionTicketState × Option ExternalPSKSelection) :=
  if config.sessionTicketsDisabled then none
  else
    match openSessionTicket decode (call.opened i) identity with
    | .error _ => none
    | .ok candidate =>
      match cipherSuiteForID candidate.suite with
      | .error _ => none
      | .ok candidateSuite =>
        if candidateSuite.hash = call.suite.hash ∧ candidate.serverName = call.hello.serverName ∧
            candidate.protocol = call.protocol ∧ candidate.psk.length = call.suite.hash.size ∧
            call.validClientAuthenticationTicket candidate = true then
          (ticketExternal config candidate candidateSuite).map fun external =>
            (candidate, external)
        else none

def earlyDataAllowed (call : AcceptCall) (i : Nat) (entry : PskIdentityEntry)
    (candidate : SessionTicketState) : Bool :=
  i = 0 ∧ candidate.suite = call.suite.id ∧
    candidate.ageWithinTolerance (call.aged i) entry.obfuscatedAge ∧
    call.hello.earlyData ∧ 0 < candidate.maxEarlyData ∧
    candidate.maxEarlyData ≤ config.maxEarlyData ∧
    effectiveRecordSizeLimit candidate.recordSizeLimit.toNat ≤ config.recordSizeLimit.toNat ∧
    call.hrrBody = none ∧ config.allowEarlyDataWithoutCookie

def verifyBinder (call : AcceptCall) (psk label : Bytes) (i : Nat) : Except Err Unit :=
  verifyClientHelloPSKBinderAtWithLabel P digest distinguishedName call.body call.suite psk label
    call.initialClientHelloHash (call.hrrBody.getD []) i

/-- One identity; nothing to go on with the next. A ticket whose age is not valid is
not tried as an external key. -/
def acceptIdentity (call : AcceptCall) (i : Nat) (entry : PskIdentityEntry) :
    Except Err (Option PSKChoice) :=
  match usableTicket decode config call i entry.identity with
  | some (candidate, external) => do
    verifyBinder P digest distinguishedName call candidate.psk labelResumptionBinder i
    pure (if candidate.ageValid (call.aged i) then
      some ⟨⟨candidate.psk, UInt16.ofNat i, some candidate, external⟩,
        if earlyDataAllowed config call i entry candidate then some (entry.identity, candidate)
        else none⟩
    else none)
  | none =>
    match findExternalPSK config.externalPSKs entry.identity call.suite.hash with
    | some external => do
      verifyBinder P digest distinguishedName call external.key.key
        (external.key.binderLabel.getD []) i
      pure (some ⟨⟨external.key.key, UInt16.ofNat i, none, some external⟩, none⟩)
    | none => .ok none

def acceptIdentities (call : AcceptCall) : Nat → List PskIdentityEntry →
    Except Err (Option PSKChoice)
  | _, [] => .ok none
  | i, entry :: rest =>
    if 65535 < i then .ok none
    else
      match acceptIdentity P digest distinguishedName decode config call i entry with
      | .error e => .error e
      | .ok (some choice) => .ok (some choice)
      | .ok none => acceptIdentities call (i + 1) rest

def ensureTicketKey (call : AcceptCall) : Except Err Unit :=
  if config.sessionTicketsDisabled then .ok () else call.ticketKey

def choosePSK (call : AcceptCall) : Except Err (Option PSKChoice) :=
  if call.hello.pskIdentity = [] ∨ call.hello.pskDHE = false then .ok none
  else do
    ensureTicketKey config call
    acceptIdentities P digest distinguishedName decode config call 0 call.hello.presented

/-- What a call returns, with the early data limit of the connection if early data
is accepted, and the cache afterwards. -/
structure AcceptResult where
  selected : Except Err (Option SelectedPSK)
  earlyDataLimit : Option UInt32
  cache : EarlyDataReplayCache

def acceptPSK (cache : EarlyDataReplayCache) (call : AcceptCall) : AcceptResult :=
  match choosePSK P digest distinguishedName decode config call with
  | .error e => ⟨.error e, none, cache⟩
  | .ok none => ⟨.ok none, none, cache⟩
  | .ok (some choice) =>
    match choice.early with
    | none => ⟨.ok (some choice.selected), none, cache⟩
    | some (identity, candidate) =>
      let checked := cache.checkAndStore call.stored identity candidate.expires
      ⟨.ok (some choice.selected), if checked.1 then some candidate.maxEarlyData else none,
        checked.2⟩

/-! ## Early data in one call -/

variable {P digest distinguishedName decode config} {call : AcceptCall}
  {state : SessionTicketState} {identity : Bytes}

theorem decode_of_usableTicket {i : Nat} {found : SessionTicketState × Option ExternalPSKSelection}
    (husable : usableTicket decode config call i identity = some found) :
    decode identity = .ok found.1 := by
  unfold usableTicket at husable
  split at husable
  next => cases husable
  next =>
    cases hopen : openSessionTicket decode (call.opened i) identity with
    | error e => simp [hopen] at husable
    | ok candidate =>
      obtain ⟨state, hdecode, hrest⟩ := bind_eq_ok.mp hopen
      obtain ⟨_, _, hrest⟩ := bind_eq_ok.mp hrest
      cases hrest
      rw [hopen] at husable
      cases hsuite : cipherSuiteForID candidate.suite with
      | error e => simp [hsuite] at husable
      | ok candidateSuite =>
        simp only [hsuite] at husable
        split at husable
        next =>
          obtain ⟨external, _, heq⟩ := Option.map_eq_some_iff.mp husable
          rw [← heq]
          exact hdecode
        next => cases husable

/-- Early data is asked for the first identity only, for a ticket of valid age. -/
theorem early_of_acceptIdentity {i : Nat} {entry : PskIdentityEntry} {choice : PSKChoice}
    (hok : acceptIdentity P digest distinguishedName decode config call i entry =
      .ok (some choice)) (hearly : choice.early = some (identity, state)) :
    i = 0 ∧ identity = entry.identity ∧ decode identity = .ok state ∧
      state.ageValid (call.aged 0) = true := by
  unfold acceptIdentity at hok
  cases husable : usableTicket decode config call i entry.identity with
  | none =>
    simp only [husable] at hok
    split at hok
    next =>
      obtain ⟨_, _, hok⟩ := bind_eq_ok.mp hok
      cases hok
      cases hearly
    next => cases hok
  | some found =>
    simp only [husable] at hok
    obtain ⟨_, _, hok⟩ := bind_eq_ok.mp hok
    by_cases hage : found.1.ageValid (call.aged i) = true
    · rw [if_pos hage] at hok
      cases hok
      dsimp only at hearly
      split at hearly
      next hallowed =>
        cases hearly
        have hi : i = 0 := by
          simp only [earlyDataAllowed, decide_eq_true_eq] at hallowed
          exact hallowed.1
        subst hi
        exact ⟨rfl, rfl, decode_of_usableTicket husable, hage⟩
      next => cases hearly
    · rw [if_neg hage] at hok
      cases hok

theorem early_of_acceptIdentities {entries : List PskIdentityEntry} {i : Nat} {choice : PSKChoice}
    (hok : acceptIdentities P digest distinguishedName decode config call i entries =
      .ok (some choice)) (hearly : choice.early = some (identity, state)) :
    i = 0 ∧ (∃ entry rest, entries = entry :: rest ∧ identity = entry.identity) ∧
      decode identity = .ok state ∧ state.ageValid (call.aged 0) = true := by
  induction entries generalizing i with
  | nil => cases hok
  | cons entry rest ih =>
    simp only [acceptIdentities] at hok
    split at hok
    next => cases hok
    next =>
      cases hentry : acceptIdentity P digest distinguishedName decode config call i entry with
      | error e => simp [hentry] at hok
      | ok found =>
        cases found with
        | none =>
          -- a later identity would have to be the first one
          simp only [hentry] at hok
          exact absurd (ih hok).1 (Nat.succ_ne_zero i)
        | some accepted =>
          simp only [hentry, Except.ok.injEq, Option.some.injEq] at hok
          subst hok
          obtain ⟨hi, hid, hdecode, hage⟩ := early_of_acceptIdentity hentry hearly
          exact ⟨hi, ⟨entry, rest, rfl, hid⟩, hdecode, hage⟩

theorem early_of_choosePSK {choice : PSKChoice}
    (hok : choosePSK P digest distinguishedName decode config call = .ok (some choice))
    (hearly : choice.early = some (identity, state)) :
    identity = call.firstIdentity ∧ decode identity = .ok state ∧
      state.ageValid (call.aged 0) = true := by
  unfold choosePSK at hok
  split at hok
  next => cases hok
  next =>
    obtain ⟨_, _, hok⟩ := bind_eq_ok.mp hok
    obtain ⟨_, ⟨entry, rest, hentries, hid⟩, hdecode, hage⟩ := early_of_acceptIdentities hok hearly
    refine ⟨?_, hdecode, hage⟩
    rw [hid, AcceptCall.firstIdentity, hentries]

/-- What a call does to the cache and when it grants early data. -/
theorem acceptPSK_spec {cache : EarlyDataReplayCache} (hc : cache.InStep) :
    let result := acceptPSK P digest distinguishedName decode config cache call
    result.cache.InStep ∧
      (∀ entry ∈ cache.expirations, call.stored.ns < entry.expires.ns →
        entry ∈ result.cache.expirations) ∧
      (result.earlyDataLimit.isSome = true →
        ∃ state, decode call.firstIdentity = .ok state ∧ state.ageValid (call.aged 0) = true ∧
          ⟨call.firstIdentity, state.expires⟩ ∈ result.cache.expirations ∧
          ∀ entry ∈ cache.expirations, entry.identity = call.firstIdentity →
            entry.expires.ns ≤ call.stored.ns) := by
  unfold acceptPSK
  cases hchoose : choosePSK P digest distinguishedName decode config call with
  | error e => exact ⟨hc, fun _ h _ => h, by simp⟩
  | ok found =>
    cases found with
    | none => exact ⟨hc, fun _ h _ => h, by simp⟩
    | some choice =>
      cases hearly : choice.early with
      | none => simp only [hearly]; exact ⟨hc, fun _ h _ => h, by simp⟩
      | some early =>
        obtain ⟨identity, state⟩ := early
        simp only [hearly]
        obtain ⟨rfl, hdecode, hage⟩ := early_of_choosePSK hchoose hearly
        obtain ⟨hstep, _, hkept, hadmitted⟩ :=
          checkAndStore_spec call.stored call.firstIdentity
            state.expires hc
        refine ⟨hstep, hkept, ?_⟩
        intro hsome
        split at hsome
        next hchecked =>
          obtain ⟨hmem, hgone⟩ := hadmitted hchecked
          exact ⟨state, hdecode, hage, hmem, hgone⟩
        next => cases hsome

/-! ## Runs of calls -/

/-- A server process: its cache, and the identities it has granted early data for. -/
structure EarlyServer where
  cache : EarlyDataReplayCache
  granted : List Bytes

variable (P digest distinguishedName decode config)

def EarlyServer.serve (s : EarlyServer) (call : AcceptCall) : EarlyServer :=
  let result := acceptPSK P digest distinguishedName decode config s.cache call
  { cache := result.cache
    granted := if result.earlyDataLimit.isSome then call.firstIdentity :: s.granted
      else s.granted }

/-- The readings of a call for its first identity, in order. -/
def AcceptCall.readings (call : AcceptCall) : List Int :=
  [(call.opened 0).ns, (call.aged 0).ns, call.stored.ns]

/-- The clock does not go back within a call or from one call to the next. -/
def InOrder (calls : List AcceptCall) : Prop :=
  (calls.flatMap AcceptCall.readings).Pairwise (· ≤ ·)

instance (calls : List AcceptCall) : Decidable (InOrder calls) :=
  inferInstanceAs (Decidable (List.Pairwise _ _))

/-- A call that finds the age of the ticket valid reads the clock for the cache
before the ticket expires. -/
def StoredBeforeExpiry (ticket : Bytes) (call : AcceptCall) : Prop :=
  call.firstIdentity = ticket → ∀ state ∈ (decode ticket).toOption,
    state.ageValid (call.aged 0) = true → call.stored.ns < state.expires.ns

instance (ticket : Bytes) (call : AcceptCall) :
    Decidable (StoredBeforeExpiry decode ticket call) :=
  inferInstanceAs (Decidable (_ → _))

variable {P digest distinguishedName decode config}

theorem stored_pairwise {calls : List AcceptCall} (horder : InOrder calls) :
    calls.Pairwise fun a b => a.stored.ns ≤ b.stored.ns := by
  obtain ⟨_, hacross⟩ := pairwise_flatMap.mp horder
  apply hacross.imp
  intro a b hab
  exact hab _ (by simp [AcceptCall.readings]) _ (by simp [AcceptCall.readings])

/-- Since `since`, a ticket that was granted is still in the cache or has expired. -/
structure GrantedOnce (decode : Bytes → Except Err SessionTicketState) (ticket : Bytes)
    (since : Int) (s : EarlyServer) : Prop where
  inStep : s.cache.InStep
  once : s.granted.count ticket ≤ 1
  held : ticket ∈ s.granted → ∀ state, decode ticket = .ok state →
    ⟨ticket, state.expires⟩ ∈ s.cache.expirations ∨ state.expires.ns ≤ since

theorem GrantedOnce.serve {ticket : Bytes} {since : Int} {s : EarlyServer} {call : AcceptCall}
    (hs : GrantedOnce decode ticket since s) (hsince : since ≤ call.stored.ns)
    (hbefore : StoredBeforeExpiry decode ticket call) : GrantedOnce decode ticket call.stored.ns
      (s.serve P digest distinguishedName decode config call) := by
  obtain ⟨hstep, hkept, hgrant⟩ :=
    @acceptPSK_spec P digest distinguishedName decode config call s.cache hs.inStep
  have hheld : ticket ∈ s.granted → ∀ state, decode ticket = .ok state → ⟨ticket, state.expires⟩ ∈
        (acceptPSK P digest distinguishedName decode config s.cache call).cache.expirations ∨
      state.expires.ns ≤ call.stored.ns := by
    intro hmem state hstate
    rcases hs.held hmem state hstate with hin | hexpired
    · by_cases hlive : call.stored.ns < state.expires.ns
      · exact .inl (hkept _ hin hlive)
      · exact .inr (Int.not_lt.mp hlive)
    · exact .inr (le_trans hexpired hsince)
  unfold EarlyServer.serve
  dsimp only
  split
  next hgranted =>
    obtain ⟨state, hdecode, hage, hin, hgone⟩ := hgrant hgranted
    by_cases hfirst : call.firstIdentity = ticket
    · -- the cache was read before the expiry, so a granted ticket would still be held
      rw [hfirst] at hdecode hin hgone
      have hlive := hbefore hfirst state (by simp [hdecode, Except.toOption]) hage
      have hnew : ticket ∉ s.granted := by
        intro hmem
        rcases hs.held hmem state hdecode with hold | hexpired
        · have := hgone _ hold rfl
          dsimp only at this
          omega
        · omega
      refine ⟨hstep, ?_, ?_⟩
      · simp [hfirst, count_eq_zero_of_not_mem hnew]
      · intro _ state' hstate'
        rw [hdecode] at hstate'
        cases hstate'
        exact .inl hin
    · refine ⟨hstep, ?_, ?_⟩
      · simpa [count_cons, hfirst] using hs.once
      · intro hmem
        exact hheld ((mem_cons.mp hmem).resolve_left fun h => hfirst h.symm)
  next => exact ⟨hstep, hs.once, hheld⟩

theorem GrantedOnce.run {ticket : Bytes} {calls : List AcceptCall} {since : Int}
    {s : EarlyServer} (hs : GrantedOnce decode ticket since s)
    (hsince : ∀ call ∈ calls, since ≤ call.stored.ns)
    (horder : calls.Pairwise fun a b => a.stored.ns ≤ b.stored.ns)
    (hbefore : ∀ call ∈ calls, StoredBeforeExpiry decode ticket call) :
    (RunSystem.run (EarlyServer.serve P digest distinguishedName decode config) s
      calls).granted.count ticket ≤ 1 := by
  induction calls generalizing s since with
  | nil => exact hs.once
  | cons call rest ih =>
    obtain ⟨hlater, horder⟩ := pairwise_cons.mp horder
    have hnext : GrantedOnce decode ticket call.stored.ns
        (s.serve P digest distinguishedName decode config call) :=
      hs.serve (hsince call mem_cons_self) (hbefore call mem_cons_self)
    exact ih hnext hlater horder fun other hmem => hbefore other (mem_cons_of_mem _ hmem)

/-- In a new process nothing has been granted. -/
theorem grantedOnce_new {capacity : Nat} {c : EarlyDataReplayCache}
    (hnew : newLRUEarlyDataReplayCache capacity = some c) (ticket : Bytes)
    (since : Int) : GrantedOnce decode ticket since ⟨c, []⟩ where
  inStep := inStep_new hnew
  once := by simp
  held := by simp

end

/-- A server grants early data for a ticket at most once if, whenever it finds the age
of the ticket valid, the cache reads the clock before the ticket expires. The cache
itself keeps its heap and its set in step and within the capacity, and drops no entry
before its expiry, whatever the calls. -/
theorem earlyData_at_most_once (P : Primitives) (digest : HashAlgorithm → Bytes → Bytes)
    (distinguishedName : Bytes → Bool) (decode : Bytes → Except Err SessionTicketState)
    (config : EarlyDataConfig) (capacity : Nat) (c : EarlyDataReplayCache)
    (hnew : EarlyDataReplayCache.newLRUEarlyDataReplayCache capacity = some c) :
    (∀ (ticket : Bytes) (calls : List AcceptCall), InOrder calls →
      (∀ call ∈ calls, StoredBeforeExpiry decode ticket call) →
      (RunSystem.run (EarlyServer.serve P digest distinguishedName decode config) ⟨c, []⟩
        calls).granted.count ticket ≤ 1) ∧
    ∀ calls : List EarlyDataReplayCache.StoreCall,
      (RunSystem.run EarlyDataReplayCache.store c calls).InStep ∧
      (RunSystem.run EarlyDataReplayCache.store c calls).entries.card ≤ capacity ∧
      ∀ call, ∀ entry ∈ (RunSystem.run EarlyDataReplayCache.store c calls).expirations,
        call.now.ns < entry.expires.ns →
          entry ∈ (RunSystem.run EarlyDataReplayCache.store c (calls ++ [call])).expirations ∧
          entry.identity ∈
            (RunSystem.run EarlyDataReplayCache.store c (calls ++ [call])).entries := by
  constructor
  · intro ticket calls horder hbefore
    cases calls with
    | nil => simp
    | cons first rest =>
      have hpairwise := stored_pairwise horder
      have hsince : ∀ call ∈ first :: rest, first.stored.ns ≤ call.stored.ns := by
        intro call hmem
        rcases List.mem_cons.mp hmem with rfl | hmem
        · exact le_refl _
        · exact (List.pairwise_cons.mp hpairwise).1 call hmem
      exact (grantedOnce_new hnew ticket first.stored.ns).run hsince hpairwise hbefore
  · intro calls
    obtain ⟨hstep, hmax⟩ := EarlyDataReplayCache.inStep_run hnew calls
    refine ⟨hstep, hmax ▸ hstep.bounded, ?_⟩
    intro call entry hmem hlive
    rw [RunSystem.run_append]
    obtain ⟨hnext, _, hkept, _⟩ := EarlyDataReplayCache.checkAndStore_spec call.now call.identity
      call.expires hstep
    have hin := hkept entry hmem hlive
    exact ⟨hin, (hnext.same _).mpr (List.mem_map_of_mem hin)⟩

/-! ## A ticket around its expiry -/

/-- A ticket issued at second 1000 for ten seconds. -/
def shortTicket : SessionTicketState where
  createdAt := 1000
  psk := List.replicate 32 1
  serverName := []
  protocol := []
  externalPSK := none
  lifetime := 10
  ageAdd := 0
  maxEarlyData := 100
  suite := 0x1301
  recordSizeLimit := 16385

def decodeShortTicket (identity : Bytes) : Except Err SessionTicketState :=
  if identity = [7, 7] then .ok shortTicket else .error (.plain "dtls13: invalid session ticket")

def shortTicketConfig : EarlyDataConfig where
  cipherSuites := defaultCipherSuites
  curvePreferences := [groupX25519, groupP256]
  nextProtos := []
  externalPSKs := []
  sessionTicketsDisabled := false
  clientAuth := false
  maxEarlyData := 100
  recordSizeLimit := 16385
  allowEarlyDataWithoutCookie := true

def lengthDigest (hash : HashAlgorithm) (b : Bytes) : Bytes :=
  List.replicate hash.size (UInt8.ofNat b.length)

/-- A hello with early data for the ticket, and its bytes. -/
def shortTicketHello : Except Err (ClientHello × Bytes) := do
  let bodies ← marshalClientHelloWithPSKOffers .checksum lengthDigest
    { cipherSuites := [0x1301], keyShares := [⟨groupX25519, [1, 2, 3]⟩], pskDHE := true,
      earlyData := true }
    [⟨[7, 7], List.replicate 32 1, .aes128GcmSha256, labelResumptionBinder, 0⟩] [] []
  let hello ← parseClientHello (fun _ => true) bodies.2
  pure (hello, bodies.2)

def shortTicketCall (hello : ClientHello × Bytes) (opened aged stored : Int) : AcceptCall where
  hello := hello.1
  body := hello.2
  initialClientHelloHash := []
  hrrBody := none
  suite := .aes128GcmSha256
  protocol := []
  ticketKey := .ok ()
  validClientAuthenticationTicket := fun _ => true
  opened := fun _ => (Instant.ofUnix 0).add opened
  aged := fun _ => (Instant.ofUnix 0).add aged
  stored := (Instant.ofUnix 0).add stored

def shortTicketRun (calls : List AcceptCall) : EarlyServer :=
  RunSystem.run (EarlyServer.serve .checksum lengthDigest (fun _ => true) decodeShortTicket
    shortTicketConfig) ⟨⟨∅, [], 4⟩, []⟩ calls

/-- One hello a second before the expiry, the next one with its age checked a
nanosecond before and the cache asked at the expiry: both are granted early data. -/
def aroundExpiry (hello : ClientHello × Bytes) : List AcceptCall :=
  [shortTicketCall hello 1009000000000 1009000000000 1009000000000,
    shortTicketCall hello 1009999999998 1009999999999 1010000000000]

theorem earlyData_granted_twice : ∃ hello, shortTicketHello = .ok hello ∧
    InOrder (aroundExpiry hello) ∧ (∀ call ∈ aroundExpiry hello, call.firstIdentity = [7, 7]) ∧
    (shortTicketRun (aroundExpiry hello)).granted.count [7, 7] = 2 := by
  have hall : (do
      let hello ← shortTicketHello
      require (InOrder (aroundExpiry hello) ∧
        (∀ call ∈ aroundExpiry hello, call.firstIdentity = [7, 7]) ∧
        (shortTicketRun (aroundExpiry hello)).granted.count [7, 7] = 2) (Err.plain "")) =
      .ok () := by decide +kernel
  obtain ⟨hello, hhello, hchecks⟩ := bind_eq_ok.mp hall
  exact ⟨hello, hhello, require_eq_ok.mp hchecks⟩

/-- Two hellos well before the expiry. -/
def beforeExpiry (hello : ClientHello × Bytes) : List AcceptCall :=
  [shortTicketCall hello 1004000000000 1004000000000 1004000000000,
    shortTicketCall hello 1005000000000 1005000000000 1005000000000]

theorem earlyData_at_most_once_beforeExpiry : ∃ hello, shortTicketHello = .ok hello ∧
    [7, 7] ∈ (shortTicketRun (beforeExpiry hello)).granted ∧
    (shortTicketRun (beforeExpiry hello)).granted.count [7, 7] ≤ 1 := by
  have hall : (do
      let hello ← shortTicketHello
      require (InOrder (beforeExpiry hello) ∧
        (∀ call ∈ beforeExpiry hello, StoredBeforeExpiry decodeShortTicket [7, 7] call) ∧
        [7, 7] ∈ (shortTicketRun (beforeExpiry hello)).granted) (Err.plain "")) =
      .ok () := by decide +kernel
  obtain ⟨hello, hhello, hchecks⟩ := bind_eq_ok.mp hall
  obtain ⟨horder, hbefore, hgranted⟩ := require_eq_ok.mp hchecks
  exact ⟨hello, hhello, hgranted, (earlyData_at_most_once .checksum lengthDigest (fun _ => true)
    decodeShortTicket shortTicketConfig 4 _ rfl).1 [7, 7] _ horder hbefore⟩

end Dtls13
