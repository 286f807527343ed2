import Dtls13.Conn.Dispatch
import Dtls13.Lib.RunSystem
import Dtls13.Session.Keys

/-! # Session tickets of a client

A client reassembles the NewSessionTicket messages of a connection and stores the
tickets in a cache that it shares with its other connections. A ticket that is
taken from the cache is used once.
-/

namespace Dtls13

open ByteCodec StateLogic RunSystem WallClock List

/-! ## The cache -/

/-- What is stored of a session, as far as it differs between the tickets of one
connection. `origin` is the message sequence number of the ticket, for the
connection looked at, and nothing for other connections. -/
structure ClientSessionState where
  message : NewSessionTicketMessage
  psk : Bytes
  suite : UInt16
  receivedAt : Instant
  ticketGroup : Bytes
  origin : Option Nat
  deriving DecidableEq, Repr

structure SessionCacheEntry where
  key : Bytes
  states : List ClientSessionState
  deriving DecidableEq, Repr

/-- The entries of the cache by server, the last used first. -/
structure LruSessionCache where
  capacity : Nat
  order : List SessionCacheEntry
  deriving DecidableEq, Repr

namespace LruSessionCache

def newLRUClientSessionCache (capacity : Nat) : LruSessionCache :=
  ⟨if capacity < 1 then 64 else capacity, []⟩

def find (c : LruSessionCache) (key : Bytes) : Option SessionCacheEntry :=
  c.order.find? fun entry => entry.key = key

def others (c : LruSessionCache) (key : Bytes) : List SessionCacheEntry :=
  c.order.filter fun entry => entry.key ≠ key

/-- Removes the entry used longest ago if there are too many. -/
def dropOldest (c : LruSessionCache) : LruSessionCache :=
  if c.capacity < c.order.length then { c with order := c.order.dropLast } else c

/-- The newest ticket for a server, which stays in the cache. -/
def get (c : LruSessionCache) (key : Bytes) : Option (ClientSessionState × LruSessionCache) :=
  match c.find key with
  | none => none
  | some entry =>
    match entry.states.getLast? with
    | none => none
    | some state => some (state, { c with order := entry :: c.others key })

/-- Removes the newest ticket for a server. -/
def take (c : LruSessionCache) (key : Bytes) : Option (ClientSessionState × LruSessionCache) :=
  match c.find key with
  | none => none
  | some entry =>
    match entry.states.getLast? with
    | none => none
    | some state =>
      if entry.states.dropLast = [] then some (state, { c with order := c.others key })
      else some (state,
        { c with order := { entry with states := entry.states.dropLast } :: c.others key })

/-- Replaces the tickets for a server by one. -/
def put (c : LruSessionCache) (key : Bytes) (state : ClientSessionState) : LruSessionCache :=
  if (c.find key).isSome then { c with order := ⟨key, [state]⟩ :: c.others key }
  else dropOldest { c with order := ⟨key, [state]⟩ :: c.order }

/-- Putting nil. -/
def clear (c : LruSessionCache) (key : Bytes) : LruSessionCache :=
  { c with order := c.others key }

/-- Adds a ticket for a server and keeps the last 255. -/
def putTicket (c : LruSessionCache) (key : Bytes) (state : ClientSessionState) :
    LruSessionCache :=
  match c.find key with
  | none => dropOldest { c with order := ⟨key, keepLast 255 [state]⟩ :: c.order }
  | some entry =>
    dropOldest
      { c with order := ⟨key, keepLast 255 (entry.states ++ [state])⟩ :: c.others key }

/-- An entry without the tickets of a group; nothing if no others are left. -/
def withoutGroup (key group : Bytes) (entry : SessionCacheEntry) : Option SessionCacheEntry :=
  if entry.key = key then
    let kept := entry.states.filter fun state => state.ticketGroup ≠ group
    if kept = [] then none else some { entry with states := kept }
  else some entry

/-- Removes the tickets of a group; the entry keeps its place. -/
def removeGroup (c : LruSessionCache) (key group : Bytes) : LruSessionCache :=
  { c with order := c.order.filterMap (withoutGroup key group) }

end LruSessionCache

/-! ## A connection that stores tickets -/

def labelResumption : Bytes := ascii ['r', 'e', 's', 'u', 'm', 'p', 't', 'i', 'o', 'n']

def deriveResumptionPSK (P : Primitives) (suite : CipherSuite)
    (resumptionMasterSecret nonce : Bytes) : Bytes :=
  expandLabelHashInto P suite resumptionMasterSecret labelResumption nonce

/-- What a connection stores its tickets with. -/
structure TicketContext where
  config : Config
  key : Bytes
  suite : CipherSuite
  resumptionMasterSecret : Bytes
  group : Bytes

/-- A connection and the cache it shares with others. `inserted` lists the message
sequence numbers of the tickets it has put into the cache, and `taken` those of its
tickets that were taken out. -/
structure TicketClient where
  inbound : Inbound
  tickets : SessionTickets
  cache : LruSessionCache
  inserted : List Nat
  taken : List Nat
  failed : Option Err

/-- A fragment of a NewSessionTicket arrives for the connection, at a reading of the
clock, or another connection uses the cache. -/
inductive TicketEvent where
  | fragment (f : HandshakeFragment) (number : RecordNumber) (now : Instant)
  | get (key : Bytes)
  | take (key : Bytes)
  | put (key : Bytes) (state : ClientSessionState)
  | putTicket (key : Bytes) (state : ClientSessionState)
  | removeGroup (key group : Bytes)
  | clear (key : Bytes)

/-- The session of another connection. -/
def ClientSessionState.foreign (state : ClientSessionState) : ClientSessionState :=
  { state with origin := none }

namespace TicketClient

variable (P : Primitives) (ctx : TicketContext)

def sessionState (sequence : Nat) (message : NewSessionTicketMessage) (now : Instant) :
    ClientSessionState where
  message := message
  psk := deriveResumptionPSK P ctx.suite ctx.resumptionMasterSecret message.nonce
  suite := ctx.suite.id
  receivedAt := now
  ticketGroup := ctx.group
  origin := some sequence

/-- Stores a ticket unless it is repeated or exceeds what was asked for. Only a
client that asked for tickets keeps several. -/
def storeTicket (s : TicketClient) (sequence : Nat) (message : NewSessionTicketMessage)
    (now : Instant) : TicketClient :=
  let tickets := Conn.takeTicket s.tickets sequence message
  let state := sessionState P ctx sequence message now
  if tickets = s.tickets then s
  else
    { s with
      tickets := tickets
      inserted := s.inserted ++ [sequence]
      cache := if s.tickets.limit.isSome then s.cache.putTicket ctx.key state
        else s.cache.put ctx.key state }

def processNewSessionTicket (s : TicketClient) (sequence : Nat) (body : Bytes) (now : Instant) :
    TicketClient :=
  match NewSessionTicketMessage.parseNewSessionTicket body with
  | .error e => { s with failed := some e }
  | .ok message =>
    if message.lifetime = 0 ∨
        NewSessionTicketMessage.maxTicketLifetime < message.lifetime.toNat then s
    else if s.tickets.storesSessions then storeTicket P ctx s sequence message now
    else s

def receiveFragment (s : TicketClient) (f : HandshakeFragment) (number : RecordNumber)
    (now : Instant) : TicketClient :=
  if s.failed.isSome then s
  else
    handle (Inbound.reassembleProtectedHandshake ctx.config f number) s.inbound
      (fun body inbound =>
        match body with
        | none => { s with inbound := inbound }
        | some body =>
          processNewSessionTicket P ctx { s with inbound := inbound } f.messageSequence body now)
      (fun e inbound => { s with inbound := inbound, failed := some e })

def takeFrom (s : TicketClient) (key : Bytes) : TicketClient :=
  match s.cache.take key with
  | none => s
  | some (state, cache) => { s with cache := cache, taken := s.taken ++ state.origin.toList }

def step (s : TicketClient) : TicketEvent → TicketClient
  | .fragment f number now => receiveFragment P ctx s f number now
  | .get key => { s with cache := (s.cache.get key).elim s.cache Prod.snd }
  | .take key => s.takeFrom key
  | .put key state => { s with cache := s.cache.put key state.foreign }
  | .putTicket key state => { s with cache := s.cache.putTicket key state.foreign }
  | .removeGroup key group => { s with cache := s.cache.removeGroup key group }
  | .clear key => { s with cache := s.cache.clear key }

/-- A connection with an empty cache entry of its own; `cache` holds tickets of other
connections only. -/
def start (storesSessions : Bool) (limit : Option Nat) (cache : LruSessionCache) :
    TicketClient where
  inbound := .empty
  tickets := ⟨storesSessions, limit, [], []⟩
  cache := { cache with order := cache.order.map fun entry =>
    { entry with states := entry.states.map ClientSessionState.foreign } }
  inserted := []
  taken := []
  failed := none

end TicketClient

/-! ## Counting the tickets of the connection -/

/-- The state is the ticket with a message sequence number. -/
def ClientSessionState.isFrom (sequence : Nat) (state : ClientSessionState) : Bool :=
  state.origin = some sequence

/-- How often the entries hold a ticket. -/
def held (sequence : Nat) (order : List SessionCacheEntry) : Nat :=
  (order.flatMap SessionCacheEntry.states).countP (ClientSessionState.isFrom sequence)

section Held

variable {sequence : Nat}

@[simp] theorem held_nil : held sequence [] = 0 := rfl

@[simp] theorem held_cons (entry : SessionCacheEntry) (order : List SessionCacheEntry) :
    held sequence (entry :: order) =
      entry.states.countP (ClientSessionState.isFrom sequence) + held sequence order := by
  simp [held]

theorem held_le_of_sublist {fewer order : List SessionCacheEntry} (hsub : fewer.Sublist order) :
    held sequence fewer ≤ held sequence order := by
  induction hsub with
  | slnil => exact le_refl _
  | cons entry _ ih =>
    rw [held_cons]
    omega
  | cons_cons entry _ ih =>
    rw [held_cons, held_cons]
    omega

namespace LruSessionCache

variable {c : LruSessionCache} {key : Bytes}

theorem held_entry_add_others (sequence : Nat) {entry : SessionCacheEntry}
    (hfind : c.find key = some entry) :
    entry.states.countP (ClientSessionState.isFrom sequence) + held sequence (c.others key) ≤
      held sequence c.order := by
  unfold find at hfind
  unfold others
  generalize c.order = order at hfind ⊢
  induction order with
  | nil => cases hfind
  | cons head rest ih =>
    by_cases hkey : head.key = key
    · have hrest : held sequence (rest.filter fun entry => entry.key ≠ key) ≤
          held sequence rest := held_le_of_sublist filter_sublist
      simp only [List.find?_cons, hkey, decide_true, Option.some.injEq] at hfind
      subst hfind
      simp only [filter_cons, hkey, ne_eq, not_true, decide_false, Bool.false_eq_true,
        if_false, held_cons] at hrest ⊢
      omega
    · simp only [List.find?_cons, hkey, decide_false] at hfind
      have hrest := ih hfind
      simp only [filter_cons, ne_eq, hkey, not_false_eq_true, decide_true, if_true,
        held_cons] at hrest ⊢
      omega

theorem held_dropOldest : held sequence c.dropOldest.order ≤ held sequence c.order := by
  unfold dropOldest
  split
  · exact held_le_of_sublist (dropLast_sublist _)
  · exact le_refl _

theorem held_get (key : Bytes) :
    held sequence ((c.get key).elim c Prod.snd).order ≤ held sequence c.order := by
  unfold get
  cases hfind : c.find key with
  | none => exact le_refl _
  | some entry =>
    dsimp only
    split
    · exact le_refl _
    · exact (held_cons _ _).trans_le (held_entry_add_others sequence hfind)

theorem held_take (sequence : Nat) {state : ClientSessionState} {next : LruSessionCache}
    (htake : c.take key = some (state, next)) :
    held sequence next.order + [state].countP (ClientSessionState.isFrom sequence) ≤
      held sequence c.order := by
  unfold take at htake
  cases hfind : c.find key with
  | none => simp [hfind] at htake
  | some entry =>
    simp only [hfind] at htake
    have hentry := held_entry_add_others sequence hfind
    cases hlast : entry.states.getLast? with
    | none => simp [hlast] at htake
    | some last =>
      obtain ⟨before, hstates⟩ := List.getLast?_eq_some_iff.mp hlast
      have hcount : entry.states.countP (ClientSessionState.isFrom sequence) =
          entry.states.dropLast.countP (ClientSessionState.isFrom sequence) +
            [last].countP (ClientSessionState.isFrom sequence) := by
        rw [hstates, dropLast_concat, countP_append]
      simp only [hlast] at htake
      split at htake
      · cases htake
        dsimp only
        omega
      · cases htake
        rw [held_cons]
        dsimp only
        omega

theorem held_put (state : ClientSessionState) : held sequence (c.put key state).order ≤
      held sequence c.order + [state].countP (ClientSessionState.isFrom sequence) := by
  have hothers : held sequence (c.others key) ≤ held sequence c.order :=
    held_le_of_sublist filter_sublist
  unfold put
  split
  · rw [held_cons]
    dsimp only
    omega
  · apply le_trans held_dropOldest
    rw [held_cons]
    dsimp only
    omega

theorem held_putTicket (state : ClientSessionState) : held sequence (c.putTicket key state).order ≤
      held sequence c.order + [state].countP (ClientSessionState.isFrom sequence) := by
  have hkeep : ∀ states : List ClientSessionState,
      (keepLast 255 states).countP (ClientSessionState.isFrom sequence) ≤
        states.countP (ClientSessionState.isFrom sequence) :=
    fun states => (drop_sublist _ states).countP_le
  unfold putTicket
  cases hfind : c.find key with
  | none =>
    apply le_trans held_dropOldest
    have hone := hkeep [state]
    rw [held_cons]
    dsimp only
    omega
  | some entry =>
    apply le_trans held_dropOldest
    have hentry := held_entry_add_others sequence hfind
    have hone := hkeep (entry.states ++ [state])
    rw [countP_append] at hone
    rw [held_cons]
    dsimp only
    omega

theorem countP_withoutGroup (sequence : Nat) {group : Bytes} {entry next : SessionCacheEntry}
    (hsome : withoutGroup key group entry = some next) :
    next.states.countP (ClientSessionState.isFrom sequence) ≤
      entry.states.countP (ClientSessionState.isFrom sequence) := by
  unfold withoutGroup at hsome
  split at hsome
  next =>
    dsimp only at hsome
    split at hsome
    next => cases hsome
    next =>
      cases hsome
      exact filter_sublist.countP_le
  next =>
    cases hsome
    exact le_refl _

theorem held_removeGroup (group : Bytes) :
    held sequence (c.removeGroup key group).order ≤ held sequence c.order := by
  unfold removeGroup
  dsimp only
  induction c.order with
  | nil => exact le_refl _
  | cons head rest ih =>
    rw [filterMap_cons, held_cons]
    split
    next => omega
    next next hsome =>
      have hkept := countP_withoutGroup sequence hsome
      rw [held_cons]
      omega

end LruSessionCache

end Held

theorem countP_foreign (sequence : Nat) (states : List ClientSessionState) :
    (states.map ClientSessionState.foreign).countP (ClientSessionState.isFrom sequence) = 0 := by
  induction states with
  | nil => rfl
  | cons state rest ih =>
    rw [map_cons, countP_cons, ih]
    simp [ClientSessionState.isFrom, ClientSessionState.foreign]

/-! ## Each ticket once -/

namespace TicketClient

/-- Every ticket of the connection in the cache or taken from it was put there, and
none was put there twice. A client that asked for tickets knows which those are. -/
structure Accounted (s : TicketClient) : Prop where
  covered : ∀ sequence,
    held sequence s.cache.order + s.taken.count sequence ≤ s.inserted.count sequence
  nodup : s.inserted.Nodup
  known : s.tickets.limit.isSome = true → ∀ sequence ∈ s.inserted, sequence ∈ s.tickets.processed

/-- The client asked for tickets, or the fragment is not of a ticket that it has
stored. -/
def NotStoredAgain (s : TicketClient) : TicketEvent → Prop
  | .fragment f _ _ => s.tickets.limit.isSome = true ∨ f.messageSequence ∉ s.inserted
  | _ => True

variable {P : Primitives} {ctx : TicketContext} {s : TicketClient}

theorem Accounted.of_cache (hs : s.Accounted) {cache : LruSessionCache}
    (hheld : ∀ sequence, held sequence cache.order ≤ held sequence s.cache.order) :
    Accounted { s with cache := cache } := by
  refine ⟨?_, hs.nodup, hs.known⟩
  intro sequence
  exact le_trans (Nat.add_le_add_right (hheld sequence) _) (hs.covered sequence)

theorem Accounted.storeTicket (hs : s.Accounted) {sequence : Nat}
    {message : NewSessionTicketMessage} {now : Instant}
    (hnew : s.tickets.limit.isSome = true ∨ sequence ∉ s.inserted) :
    (storeTicket P ctx s sequence message now).Accounted := by
  unfold TicketClient.storeTicket
  dsimp only
  split
  next => exact hs
  next hchanged =>
    have hfresh : sequence ∉ s.inserted ∧ ((Conn.takeTicket s.tickets sequence message).limit.isSome
        = true → ∀ other ∈ s.inserted ++ [sequence],
          other ∈ (Conn.takeTicket s.tickets sequence message).processed) := by
      cases hlimit : s.tickets.limit with
      | none =>
        refine ⟨hnew.resolve_left (by simp [hlimit]), ?_⟩
        simp [Conn.takeTicket, hlimit]
      | some limit =>
        have hknown := hs.known (by simp [hlimit])
        simp only [Conn.takeTicket, hlimit] at hchanged ⊢
        split at hchanged
        next => exact absurd rfl hchanged
        next hopen =>
          rw [if_neg hopen]
          refine ⟨fun hmem => hopen (.inl (hknown _ hmem)), ?_⟩
          intro _ other hmem
          rcases mem_append.mp hmem with hmem | hmem
          · exact mem_append_left _ (hknown other hmem)
          · exact mem_append_right _ hmem
    refine ⟨?_, ?_, hfresh.2⟩
    · intro other
      have hcovered := hs.covered other
      have hadded : held other (if s.tickets.limit.isSome = true then
            s.cache.putTicket ctx.key (sessionState P ctx sequence message now)
          else s.cache.put ctx.key (sessionState P ctx sequence message now)).order ≤
          held other s.cache.order +
            [sessionState P ctx sequence message now].countP (ClientSessionState.isFrom other) := by
        split
        · exact LruSessionCache.held_putTicket _
        · exact LruSessionCache.held_put _
      have hone : [sessionState P ctx sequence message now].countP
          (ClientSessionState.isFrom other) = [sequence].count other := by
        simp [ClientSessionState.isFrom, sessionState, count_cons, countP_cons]
      dsimp only
      rw [count_append]
      omega
    · exact nodup_append.mpr ⟨hs.nodup, nodup_singleton _, by
        intro other hmem one hone
        rw [mem_singleton.mp hone]
        exact fun heq => hfresh.1 (heq ▸ hmem)⟩

theorem Accounted.receiveFragment (hs : s.Accounted) {f : HandshakeFragment}
    {number : RecordNumber} {now : Instant}
    (hnew : s.tickets.limit.isSome = true ∨ f.messageSequence ∉ s.inserted) :
    (receiveFragment P ctx s f number now).Accounted := by
  unfold TicketClient.receiveFragment
  split
  next => exact hs
  next =>
    unfold handle
    split
    next body inbound _ =>
      have hinbound : Accounted { s with inbound := inbound } := ⟨hs.covered, hs.nodup, hs.known⟩
      cases body with
      | none => exact hinbound
      | some body =>
        dsimp only
        unfold processNewSessionTicket
        split
        next => exact ⟨hs.covered, hs.nodup, hs.known⟩
        next =>
          split
          · exact hinbound
          · split
            · exact hinbound.storeTicket hnew
            · exact hinbound
    next => exact ⟨hs.covered, hs.nodup, hs.known⟩

theorem Accounted.takeFrom (hs : s.Accounted) (key : Bytes) : (s.takeFrom key).Accounted := by
  unfold TicketClient.takeFrom
  cases htake : s.cache.take key with
  | none => exact hs
  | some taken =>
    refine ⟨?_, hs.nodup, hs.known⟩
    intro sequence
    have hheld := LruSessionCache.held_take sequence htake
    have hcovered := hs.covered sequence
    have hone : taken.1.origin.toList.count sequence =
        [taken.1].countP (ClientSessionState.isFrom sequence) := by
      cases horigin : taken.1.origin <;> simp [ClientSessionState.isFrom, horigin, count_cons]
    dsimp only
    rw [count_append]
    omega

theorem Accounted.step (hs : s.Accounted) (event : TicketEvent)
    (hnew : s.NotStoredAgain event) : (s.step P ctx event).Accounted := by
  cases event with
  | fragment f number now => exact hs.receiveFragment hnew
  | get key => exact hs.of_cache fun sequence => LruSessionCache.held_get key
  | take key => exact hs.takeFrom key
  | put key state =>
    apply hs.of_cache
    intro sequence
    have hforeign := countP_foreign sequence [state]
    rw [map_singleton] at hforeign
    exact le_trans (LruSessionCache.held_put _) (by omega)
  | putTicket key state =>
    apply hs.of_cache
    intro sequence
    have hforeign := countP_foreign sequence [state]
    rw [map_singleton] at hforeign
    exact le_trans (LruSessionCache.held_putTicket _) (by omega)
  | removeGroup key group =>
    exact hs.of_cache fun sequence => LruSessionCache.held_removeGroup group
  | clear key => exact hs.of_cache fun sequence => held_le_of_sublist filter_sublist

theorem accounted_start (storesSessions : Bool) (limit : Option Nat) (cache : LruSessionCache) :
    (start storesSessions limit cache).Accounted := by
  refine ⟨?_, nodup_nil, by simp [start]⟩
  intro sequence
  have hnone : held sequence (start storesSessions limit cache).cache.order = 0 := by
    unfold start
    dsimp only
    induction cache.order with
    | nil => rfl
    | cons entry rest ih =>
      rw [map_cons, held_cons, ih]
      exact countP_foreign sequence entry.states
  rw [hnone]
  simp [start]

/-- The tickets of a connection are stored once each, and one that was taken is not in
the cache any more, if the client asked for tickets or no fragment of a ticket that it
has stored arrives. -/
theorem tickets_stored_once (P : Primitives) (ctx : TicketContext) (storesSessions : Bool)
    (limit : Option Nat) (cache : LruSessionCache) (events : List TicketEvent)
    (hnew : Along (step P ctx) NotStoredAgain (start storesSessions limit cache) events) :
    (run (step P ctx) (start storesSessions limit cache) events).inserted.Nodup ∧
      ∀ sequence ∈ (run (step P ctx) (start storesSessions limit cache) events).taken, held sequence
          (run (step P ctx) (start storesSessions limit cache) events).cache.order = 0 := by
  have hstep : ∀ (s : TicketClient) (event : TicketEvent), s.Accounted →
      s.NotStoredAgain event → (s.step P ctx event).Accounted :=
    fun s event hs hcond => hs.step event hcond
  have hall := run_invariant hstep (accounted_start storesSessions limit cache) hnew
  refine ⟨hall.nodup, ?_⟩
  intro sequence hmem
  have hcovered := hall.covered sequence
  have honce := List.nodup_iff_count_le_one.mp hall.nodup sequence
  have htaken := List.count_pos_iff.mpr hmem
  omega

/-! ## A ticket that comes back -/

def ticketContext : TicketContext where
  config := .standard
  key := [115]
  suite := .aes128GcmSha256
  resumptionMasterSecret := [1]
  group := [2]

/-- A ticket in one record. -/
def wholeTicket (sequence record : Nat) : TicketEvent :=
  .fragment ⟨handshakeTypeNewSessionTicket, sequence, 14, 0,
    [0, 0, 0, 100, 0, 0, 0, 0, 0, 0, 1, 5, 0, 0]⟩ ⟨3, record⟩ (Instant.ofUnix 0)

/-- A ticket is stored, taken by another connection, and sent again. -/
def ticketSentAgain : List TicketEvent := [wholeTicket 5 2, .take [115], wholeTicket 5 3]

/-- A client that did not ask for tickets stores the ticket a second time. -/
theorem tickets_stored_twice :
    (run (step .checksum ticketContext) (start true none (.newLRUClientSessionCache 1))
        ticketSentAgain).inserted = [5, 5] ∧
      (run (step .checksum ticketContext) (start true none (.newLRUClientSessionCache 1))
        ticketSentAgain).taken = [5] ∧
      held 5 (run (step .checksum ticketContext) (start true none (.newLRUClientSessionCache 1))
        ticketSentAgain).cache.order = 1 := by
  decide +kernel

/-- A client that asked for tickets does not. -/
theorem tickets_stored_once_asked :
    (run (step .checksum ticketContext) (start true (some 2) (.newLRUClientSessionCache 1))
        ticketSentAgain).inserted = [5] ∧
      ∀ sequence ∈ (run (step .checksum ticketContext)
          (start true (some 2) (.newLRUClientSessionCache 1)) ticketSentAgain).taken,
        held sequence (run (step .checksum ticketContext)
          (start true (some 2) (.newLRUClientSessionCache 1)) ticketSentAgain).cache.order = 0 := by
  refine ⟨by decide +kernel, (tickets_stored_once _ _ _ _ _ _ ?_).2⟩
  refine ⟨.inl ?_, trivial, .inl ?_, trivial⟩
  · decide +kernel
  · decide +kernel

end TicketClient

end Dtls13
