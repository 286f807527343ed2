import Dtls13.Listener.State

/-! # No session is leaked

A session that was closed leaves the listener's maps once the methods that were at
work on it have finished, unless a method that starts or goes on after that puts it
back: a rebind, or a registration of connection IDs, of a session that the listener no
longer holds. In runs without such a step the maps hold what they should.
-/

namespace Dtls13

open ByteCodec RunSystem OwnerMap PacketSession Registry List

namespace Listener

/-- The session is in one of the three maps. -/
def Mentions (l : Listener) (session : SessionId) : Prop :=
  (∃ key, l.sessions.lookup key = some session) ∨ (∃ key, l.pending.lookup key = some session) ∨
  ∃ cid, l.registry.cidSessions.lookup cid = some session

/-- The session is the one at its own address. -/
def isActive (l : Listener) (session : SessionId) : Bool :=
  l.table[session]?.any fun p => l.sessions.lookup p.remote = some session

/-- The session is the one at its own address, or the candidate for it. -/
def isHeld (l : Listener) (session : SessionId) : Bool :=
  l.isActive session || l.table[session]?.any fun p => l.pending.lookup p.remote = some session

/-- A rebind finds its session at its address, and a registration of connection IDs one
that the listener still holds. -/
def findsSession (l : Listener) : ListenerEvent → Bool
  | .rebind session _ => l.isActive session
  | .registerSessionCIDs session _ => l.isHeld session
  | .resume task _ =>
    match l.tasks[task]? with
    | some (.register session _) => l.isHeld session
    | _ => true
  | _ => true

/-- Sessions are at their own addresses and in one map at most; a closed one in a map is
about to be removed, and one that is about to be closed for good is in no map. -/
structure Tidy (config : ListenerConfig) (l : Listener) : Prop where
  config_eq : l.config = config
  sessions_at : ∀ key session, l.sessions.lookup key = some session →
    l.table[session]?.map PacketSession.remote = some key
  pending_at : ∀ key session, l.pending.lookup key = some session →
    l.table[session]?.map PacketSession.remote = some key
  apart : ∀ key other session, l.sessions.lookup key = some session →
    l.pending.lookup other ≠ some session
  known : ∀ session, l.Mentions session → session < l.table.length
  tasks_known : ∀ task ∈ l.tasks, ∀ session, task.session = some session → session < l.table.length
  accept_known : ∀ session ∈ l.accept, session < l.table.length
  leaving : ∀ session, l.Mentions session → l.isClosed session = true → .remove session ∈ l.tasks
  silent : ∀ session, .closeWithoutCallback session ∈ l.tasks → ¬l.Mentions session
  room : l.sessions.keys.length + l.pending.keys.length ≤ config.maxPendingConnections

variable {config : ListenerConfig} {l next : Listener} {session other : SessionId}
  {key newKey : Address}

theorem tidy_newListener (config : ListenerConfig) : (newListener config).Tidy config where
  config_eq := rfl
  sessions_at := by simp [newListener]
  pending_at := by simp [newListener]
  apart := by simp [newListener]
  known := by simp [newListener, Mentions, empty]
  tasks_known := by simp [newListener]
  accept_known := by simp [newListener]
  leaving := by simp [newListener, Mentions, empty]
  silent := by simp [newListener]
  room := by simp [newListener]

/-! ## Steps that add nothing to the maps -/

theorem getElem?_modifySession (f : PacketSession → PacketSession) :
    (l.modifySession session f).table[other]? =
      (l.table[other]?).map fun p => if session = other then f p else p := by
  rw [modifySession, List.getElem?_modify]
  rfl

variable {f : PacketSession → PacketSession}

/-- An update that leaves the address alone. -/
theorem remote_modifySession (hf : ∀ p, (f p).remote = p.remote) :
    (l.modifySession session f).table[other]?.map remote = l.table[other]?.map remote := by
  rw [getElem?_modifySession, Option.map_map]
  congr 1
  funext p
  simp only [Function.comp_apply]
  split
  · exact hf p
  · rfl

theorem isClosed_modifySession (hf : ∀ p, (f p).closed = p.closed) :
    (l.modifySession session f).isClosed other = l.isClosed other := by
  rw [isClosed, isClosed, getElem?_modifySession, Option.any_map]
  congr 1
  funext p
  split
  · exact hf p
  · rfl

theorem isClosed_closeWithoutCallback
    (hclosed : (l.closeWithoutCallback session).isClosed other = true) :
    other = session ∨ l.isClosed other = true := by
  by_cases heq : other = session
  · exact .inl heq
  · rw [closeWithoutCallback, isClosed, getElem?_modifySession] at hclosed
    simp only [if_neg (Ne.symm heq), Option.map_id'] at hclosed
    exact .inr hclosed

@[simp] theorem modifySession_length (f : PacketSession → PacketSession) :
    (l.modifySession session f).table.length = l.table.length := by
  simp [modifySession]

/-- The maps lose entries at most, and the sessions stay at their addresses. -/
structure Fewer (l next : Listener) : Prop where
  length : next.table.length = l.table.length
  remote : ∀ session : SessionId, next.table[session]?.map PacketSession.remote =
    l.table[session]?.map PacketSession.remote
  sessions : ∀ key session, next.sessions.lookup key = some session →
    l.sessions.lookup key = some session
  pending : ∀ key session, next.pending.lookup key = some session →
    l.pending.lookup key = some session
  mentions : ∀ session, next.Mentions session → l.Mentions session
  size : next.sessions.keys.length + next.pending.keys.length ≤
    l.sessions.keys.length + l.pending.keys.length
  config : next.config = l.config
  accept : next.accept ⊆ l.accept

theorem Fewer.of_same (htable : next.table = l.table) (hsessions : next.sessions = l.sessions)
    (hpending : next.pending = l.pending) (hregistry : next.registry = l.registry)
    (hconfig : next.config = l.config) (haccept : next.accept ⊆ l.accept) : Fewer l next := by
  refine ⟨by rw [htable], fun _ => by rw [htable], fun _ _ => by rw [hsessions]; exact id,
    fun _ _ => by rw [hpending]; exact id, fun session => ?_, by rw [hsessions, hpending],
    hconfig, haccept⟩
  rw [Mentions, Mentions, hsessions, hpending, hregistry]
  exact id

theorem Fewer.modifySession
    (hf : ∀ p, (f p).remote = p.remote) : Fewer l (l.modifySession session f) :=
  ⟨modifySession_length f, fun _ => remote_modifySession hf, fun _ _ => id, fun _ _ => id,
    fun _ => id, Nat.le_refl _, rfl, List.Subset.refl _⟩

/-- What remains to be shown of a step that adds nothing to the maps concerns the tasks. -/
theorem Tidy.fewer (hl : l.Tidy config) (hfewer : Fewer l next)
    (htasks : ∀ task ∈ next.tasks, ∀ session, task.session = some session →
      session < l.table.length)
    (hleaving : ∀ session, next.Mentions session → next.isClosed session = true →
      .remove session ∈ next.tasks)
    (hsilent : ∀ session, .closeWithoutCallback session ∈ next.tasks → ¬next.Mentions session) :
    next.Tidy config where
  config_eq := hfewer.config.trans hl.config_eq
  sessions_at := fun key session hlookup => by
    rw [hfewer.remote]
    exact hl.sessions_at key session (hfewer.sessions key session hlookup)
  pending_at := fun key session hlookup => by
    rw [hfewer.remote]
    exact hl.pending_at key session (hfewer.pending key session hlookup)
  apart := fun key other session hlookup hpending =>
    hl.apart key other session (hfewer.sessions key session hlookup)
      (hfewer.pending other session hpending)
  known := fun session hmentions => by
    rw [hfewer.length]
    exact hl.known session (hfewer.mentions session hmentions)
  tasks_known := fun task htask session hsession => by
    rw [hfewer.length]
    exact htasks task htask session hsession
  accept_known := fun session hsession => by
    rw [hfewer.length]
    exact hl.accept_known session (hfewer.accept hsession)
  leaving := hleaving
  silent := hsilent
  room := Nat.le_trans hfewer.size hl.room

/-- The same when the step leaves tasks and closed sessions alone. -/
theorem Tidy.fewer_same (hl : l.Tidy config) (hfewer : Fewer l next) (htasks : next.tasks = l.tasks)
    (hclosed : ∀ session, next.isClosed session = l.isClosed session) : next.Tidy config := by
  refine hl.fewer hfewer (htasks ▸ hl.tasks_known) ?_ ?_
  · intro session hmentions hsession
    rw [htasks]
    rw [hclosed] at hsession
    exact hl.leaving session (hfewer.mentions session hmentions) hsession
  · intro session htask hmentions
    rw [htasks] at htask
    exact hl.silent session htask (hfewer.mentions session hmentions)

theorem Tidy.schedule (hl : l.Tidy config) {task : ListenerTask}
    (hknown : ∀ session, task.session = some session → session < l.table.length)
    (htask : ∀ session, task ≠ .closeWithoutCallback session) : (l.schedule task).Tidy config := by
  refine hl.fewer (.of_same rfl rfl rfl rfl rfl (List.Subset.refl _)) ?_ ?_ ?_
  · intro scheduled hmem session hsession
    rcases mem_append.mp hmem with hmem | hmem
    · exact hl.tasks_known scheduled hmem session hsession
    · rw [mem_singleton.mp hmem] at hsession
      exact hknown session hsession
  · intro session hmentions hclosed
    exact mem_append_left _ (hl.leaving session hmentions hclosed)
  · intro session hmem
    rcases mem_append.mp hmem with hmem | hmem
    · exact hl.silent session hmem
    · exact absurd (mem_singleton.mp hmem).symm (htask session)

theorem Tidy.modifySession (hl : l.Tidy config)
    (hremote : ∀ p, (f p).remote = p.remote) (hclosed : ∀ p, (f p).closed = p.closed) :
    (l.modifySession session f).Tidy config :=
  hl.fewer_same (.modifySession hremote) rfl fun _ => isClosed_modifySession hclosed

/-- Closing a session that is in no map. -/
theorem Tidy.closeWithoutCallback (hl : l.Tidy config) (hnot : ¬l.Mentions session) :
    (l.closeWithoutCallback session).Tidy config := by
  refine hl.fewer (.modifySession fun _ => rfl) hl.tasks_known ?_ hl.silent
  intro other hmentions hclosed
  rcases isClosed_closeWithoutCallback hclosed with rfl | hclosed
  · exact absurd hmentions hnot
  · exact hl.leaving other hmentions hclosed

theorem Tidy.closeSession (hl : l.Tidy config) (hknown : session < l.table.length) :
    (l.closeSession session).Tidy config := by
  unfold Listener.closeSession
  split
  · exact hl
  · have hfewer : Fewer l ((l.closeWithoutCallback session).schedule (.remove session)) :=
      ⟨modifySession_length _, fun _ => remote_modifySession fun _ => rfl, fun _ _ => id,
        fun _ _ => id, fun _ => id, Nat.le_refl _, rfl, List.Subset.refl _⟩
    refine hl.fewer hfewer ?_ ?_ ?_
    · intro task hmem other hother
      rcases mem_append.mp hmem with hmem | hmem
      · exact hl.tasks_known task hmem other hother
      · rw [mem_singleton.mp hmem] at hother
        exact Option.some.inj hother ▸ hknown
    · intro other hmentions hclosed
      rcases isClosed_closeWithoutCallback hclosed with rfl | hclosed
      · exact mem_append_right _ mem_cons_self
      · exact mem_append_left _ (hl.leaving other hmentions hclosed)
    · intro other hmem
      rcases mem_append.mp hmem with hmem | hmem
      · exact hl.silent other hmem
      · simp at hmem

theorem mentions_removeSession :
    (l.removeSession session).Mentions other ↔ l.Mentions other ∧ other ≠ session := by
  simp only [Mentions, removeSession, lookup_dropOwner, lookup_removeSession,
    exists_and_right, or_and_right]

theorem Fewer.removeSession : Fewer l (l.removeSession session) where
  length := rfl
  remote := fun _ => rfl
  sessions := fun _ _ hlookup => (lookup_dropOwner.mp hlookup).1
  pending := fun _ _ hlookup => (lookup_dropOwner.mp hlookup).1
  mentions := fun _ hmentions => (mentions_removeSession.mp hmentions).1
  size := Nat.add_le_add keys_dropOwner.length_le keys_dropOwner.length_le
  config := rfl
  accept := List.Subset.refl _

/-- The registry may change as long as it names no session that was in no map. -/
theorem Tidy.withRegistry (hl : l.Tidy config) {registry : Registry}
    (hregistry : ∀ cid session, registry.cidSessions.lookup cid = some session →
      l.Mentions session) : Tidy config { l with registry := registry } := by
  refine hl.fewer_same ⟨rfl, fun _ => rfl, fun _ _ => id, fun _ _ => id, ?_, Nat.le_refl _, rfl,
    List.Subset.refl _⟩ rfl fun _ => rfl
  rintro session (hsession | hsession | ⟨cid, hcid⟩)
  · exact .inl hsession
  · exact .inr (.inl hsession)
  · exact hregistry cid session hcid

theorem Tidy.shutdown (hl : l.Tidy config) : l.shutdown.Tidy config := by
  unfold Listener.shutdown
  split
  · exact hl
  · have hnone : ∀ session, ¬Mentions { l with
        closed := true, sessions := ∅, pending := ∅, registry := .empty
        tasks := l.tasks ++ (l.sessions.entries.map Sigma.snd ++
          l.pending.entries.map Sigma.snd).map ListenerTask.closeWithoutCallback } session := by
      simp [Mentions, empty]
    refine hl.fewer ⟨rfl, fun _ => rfl, by simp, by simp,
      fun session hmentions => absurd hmentions (hnone session), by simp, rfl,
      List.Subset.refl _⟩ ?_ (fun session hmentions => absurd hmentions (hnone session))
      (fun session _ => hnone session)
    intro task hmem session hsession
    rcases mem_append.mp hmem with hmem | hmem
    · exact hl.tasks_known task hmem session hsession
    · -- the sessions to be closed were in the maps
      obtain ⟨closing, hclosing, rfl⟩ := mem_map.mp hmem
      obtain rfl : closing = session := Option.some.inj hsession
      apply hl.known
      rcases mem_append.mp hclosing with hclosing | hclosing
      · obtain ⟨⟨key, owner⟩, hentry, rfl⟩ := mem_map.mp hclosing
        exact .inl ⟨key, AList.mem_lookup_iff.mpr hentry⟩
      · obtain ⟨⟨key, owner⟩, hentry, rfl⟩ := mem_map.mp hclosing
        exact .inr (.inl ⟨key, AList.mem_lookup_iff.mpr hentry⟩)

/-! ## Steps that put a session into a map -/

/-- A session in no map but the registry, which is not about to be closed for good. -/
structure Insertable (l : Listener) (session : SessionId) (key : Address) : Prop where
  remote : l.table[session]?.map PacketSession.remote = some key
  leaving : l.isClosed session = true → .remove session ∈ l.tasks
  silent : .closeWithoutCallback session ∉ l.tasks

theorem Insertable.known (hs : l.Insertable session key) : session < l.table.length := by
  obtain ⟨p, hp, _⟩ := Option.map_eq_some_iff.mp hs.remote
  exact (List.getElem?_eq_some_iff.mp hp).1

variable {sessions pending : AList fun _ : Address => SessionId}

/-- The maps may gain the session under its own address, and lose entries. -/
theorem Tidy.insert (hl : l.Tidy config) (hs : l.Insertable session key)
    (hsessions : ∀ at_ owner, sessions.lookup at_ = some owner →
      at_ = key ∧ owner = session ∨ l.sessions.lookup at_ = some owner)
    (hpending : ∀ at_ owner, pending.lookup at_ = some owner →
      at_ = key ∧ owner = session ∨ l.pending.lookup at_ = some owner)
    (hapart : ∀ at_ other, sessions.lookup at_ = some session → pending.lookup other ≠ some session)
    (hroom : sessions.keys.length + pending.keys.length ≤ config.maxPendingConnections) :
    Tidy config { l with sessions := sessions, pending := pending } := by
  have hmentions : ∀ owner, Mentions { l with sessions := sessions, pending := pending } owner →
      owner = session ∨ l.Mentions owner := by
    rintro owner (⟨at_, hat⟩ | ⟨at_, hat⟩ | hcid)
    · exact (hsessions at_ owner hat).imp And.right fun hold => .inl ⟨at_, hold⟩
    · exact (hpending at_ owner hat).imp And.right fun hold => .inr (.inl ⟨at_, hold⟩)
    · exact .inr (.inr (.inr hcid))
  refine ⟨hl.config_eq, fun at_ owner hat => ?_, fun at_ owner hat => ?_,
    fun at_ other owner hat hother => ?_,
    fun owner howner => ?_, hl.tasks_known, hl.accept_known, fun owner howner hclosed => ?_,
    fun owner htask howner => ?_, hroom⟩
  · rcases hsessions at_ owner hat with ⟨rfl, rfl⟩ | hold
    · exact hs.remote
    · exact hl.sessions_at at_ owner hold
  · rcases hpending at_ owner hat with ⟨rfl, rfl⟩ | hold
    · exact hs.remote
    · exact hl.pending_at at_ owner hold
  · rcases hsessions at_ owner hat with ⟨-, rfl⟩ | hold
    · exact hapart at_ other hat hother
    · rcases hpending other owner hother with ⟨-, rfl⟩ | hpending
      · exact hapart at_ other hat hother
      · exact hl.apart at_ other owner hold hpending
  · rcases hmentions owner howner with rfl | hold
    · exact hs.known
    · exact hl.known owner hold
  · rcases hmentions owner howner with rfl | hold
    · exact hs.leaving hclosed
    · exact hl.leaving owner hold hclosed
  · rcases hmentions owner howner with rfl | hold
    · exact hs.silent htask
    · exact hl.silent owner htask hold

theorem lookup_insert_cases {map : AList fun _ : Address => SessionId} (at_ : Address)
    (owner : SessionId) (hat : (map.insert key session).lookup at_ = some owner) :
    at_ = key ∧ owner = session ∨ map.lookup at_ = some owner :=
  (lookup_insert_iff.mp hat).imp id And.right

/-! ## Arrival -/

/-- A session that was just created is in no map and no task. -/
theorem Tidy.create (hl : l.Tidy config) (p : PacketSession) {accept : List SessionId}
    (haccept : ∀ session ∈ accept, session ≤ l.table.length) :
    Tidy config { l with table := l.table ++ [p], accept := accept } := by
  have hold : ∀ session : SessionId, session < l.table.length →
      (l.table ++ [p])[session]? = l.table[session]? :=
    fun _ hsession => List.getElem?_append_left hsession
  have hremote : ∀ (session : SessionId) key, l.table[session]?.map remote = some key →
      (l.table ++ [p])[session]?.map remote = some key := by
    intro session key hkey
    obtain ⟨q, hq, _⟩ := Option.map_eq_some_iff.mp hkey
    rw [hold session (List.getElem?_eq_some_iff.mp hq).1]
    exact hkey
  have hlength : (l.table ++ [p]).length = l.table.length + 1 := by simp
  refine ⟨hl.config_eq,
    fun key session hlookup => hremote session key (hl.sessions_at key session hlookup),
    fun key session hlookup => hremote session key (hl.pending_at key session hlookup),
    hl.apart, fun session hmentions => ?_, fun task htask session hsession => ?_,
    fun session hsession => ?_, fun session hmentions hclosed => ?_, hl.silent, hl.room⟩
  · exact hlength ▸ Nat.lt_succ_of_lt (hl.known session hmentions)
  · exact hlength ▸ Nat.lt_succ_of_lt (hl.tasks_known task htask session hsession)
  · exact hlength ▸ Nat.lt_succ_of_le (haccept session hsession)
  · apply hl.leaving session hmentions
    rw [isClosed, hold session (hl.known session hmentions)] at hclosed
    exact hclosed

theorem Tidy.create_insertable (hl : l.Tidy config) (key : Address) (accept : List SessionId) :
    Insertable { l with table := l.table ++ [newPacketSession key], accept := accept }
      l.table.length key where
  remote := by simp [newPacketSession]
  leaving := by simp [isClosed, newPacketSession]
  silent := fun htask => Nat.lt_irrefl _ (hl.tasks_known _ htask l.table.length rfl)

theorem Tidy.fresh (hl : l.Tidy config) : ¬l.Mentions l.table.length :=
  fun hmentions => Nat.lt_irrefl _ (hl.known _ hmentions)

theorem Tidy.accept_le (hl : l.Tidy config) :
    ∀ session ∈ l.accept ++ [l.table.length], session ≤ l.table.length := by
  intro session hsession
  rcases mem_append.mp hsession with hsession | hsession
  · exact Nat.le_of_lt (hl.accept_known session hsession)
  · rw [mem_singleton.mp hsession]

theorem Tidy.hasRoom (hl : l.Tidy config) (hroom : l.hasRoom = true) :
    l.sessions.keys.length + l.pending.keys.length + 1 ≤ config.maxPendingConnections := by
  unfold Listener.hasRoom at hroom
  rw [Bool.and_eq_true, decide_eq_true_eq, hl.config_eq] at hroom
  exact hroom.2

theorem Tidy.admitSession (hl : l.Tidy config) (hroom : l.hasRoom = true) (key : Address) :
    (l.admitSession key).1.Tidy config := by
  unfold Listener.admitSession
  split
  · refine (hl.create (newPacketSession key) hl.accept_le).insert (hl.create_insertable key _)
      lookup_insert_cases (fun _ _ => .inr)
      (fun _ other _ hother => hl.fresh (.inr (.inl ⟨other, hother⟩))) ?_
    have hsize : (l.sessions.insert key l.table.length).keys.length ≤ _ := keys_insert_le
    have hle := hl.hasRoom hroom
    omega
  · exact hl.create _ fun session hsession => Nat.le_of_lt (hl.accept_known session hsession)

theorem Tidy.admitCandidate (hl : l.Tidy config) (hroom : l.hasRoom = true) (key : Address) :
    (l.admitCandidate key).1.Tidy config := by
  unfold Listener.admitCandidate
  split
  · refine (hl.create (newPacketSession key) hl.accept_le).insert (hl.create_insertable key _)
      (fun _ _ => .inr) lookup_insert_cases (fun at_ _ hat _ => hl.fresh (.inl ⟨at_, hat⟩)) ?_
    have hsize : (l.pending.insert key l.table.length).keys.length ≤ _ := keys_insert_le
    have hle := hl.hasRoom hroom
    omega
  · exact hl.create _ fun session hsession => Nat.le_of_lt (hl.accept_known session hsession)

theorem Tidy.arrive (hl : l.Tidy config) (key : Address) (datagram : Bytes) :
    (l.arrive key datagram).1.Tidy config := by
  have hactive : ∀ initial, (l.activeSession key initial).1.Tidy config := by
    intro initial
    unfold activeSession
    split
    · exact hl
    · split
      next hadmit =>
        simp only [Bool.and_eq_true] at hadmit
        exact hl.admitSession hadmit.1.2 key
      · exact hl
  have hcandidate : ∀ (opened : Listener) active initial, opened.Tidy config →
      (opened.candidateSession key active initial).1.Tidy config := by
    intro opened active initial hopened
    unfold candidateSession
    split
    · exact hopened
    · split
      next hadmit =>
        simp only [Bool.and_eq_true] at hadmit
        exact hopened.admitCandidate hadmit.1.2 key
      · exact hopened
  unfold Listener.arrive
  split
  · exact hl
  split
  · exact hl
  · exact hcandidate _ _ _ (hactive _)

/-! ## Validation and rebinding -/

theorem Tidy.insertable_of_mentions (hl : l.Tidy config) (hmentions : l.Mentions session)
    (hremote : l.table[session]?.map remote = some key) : l.Insertable session key :=
  ⟨hremote, hl.leaving session hmentions, fun htask => hl.silent session htask hmentions⟩

theorem Fewer.eraseSession (key : Address) :
    Fewer l { l with sessions := l.sessions.erase key } where
  length := rfl
  remote := fun _ => rfl
  sessions := fun _ _ hlookup => (lookup_erase_iff.mp hlookup).2
  pending := fun _ _ => id
  mentions := by
    rintro session (⟨at_, hat⟩ | hpending | hcid)
    · exact .inl ⟨at_, (lookup_erase_iff.mp hat).2⟩
    · exact .inr (.inl hpending)
    · exact .inr (.inr hcid)
  size := Nat.add_le_add_right keys_erase_le _
  config := rfl
  accept := List.Subset.refl _

/-- A session is under no other address than its own. -/
theorem lookup_erase_ne {map : AList fun _ : Address => SessionId}
    (hat : ∀ key session, map.lookup key = some session → l.table[session]?.map remote = some key)
    (hsession : map.lookup key = some session) (other : Address) :
    (map.erase key).lookup other ≠ some session := by
  intro hother
  obtain ⟨hne, hother⟩ := lookup_erase_iff.mp hother
  have hkey := hat key session hsession
  rw [hat other session hother] at hkey
  exact hne (Option.some.inj hkey)

theorem Tidy.promote (hl : l.Tidy config) (session : SessionId) (key : Address) :
    (l.promote session key).Tidy config := by
  have hvalidated : (l.modifySession session fun p => { p with validated := true }).Tidy config :=
    hl.modifySession (fun _ => rfl) fun _ => rfl
  unfold Listener.promote
  dsimp only
  split
  next hpending =>
    have hmentions : (l.modifySession session fun p =>
        { p with validated := true }).Mentions session := .inr (.inl ⟨key, hpending⟩)
    have hinsertable := hvalidated.insertable_of_mentions hmentions
      (hvalidated.pending_at key session hpending)
    have hpromoted := hvalidated.insert hinsertable lookup_insert_cases
      (fun _ _ hat => .inr (lookup_erase_iff.mp hat).2)
      (fun _ other _ => lookup_erase_ne hvalidated.pending_at hpending other) (by
        have hsize : (l.sessions.insert key session).keys.length ≤ _ := keys_insert_le
        have hkeys := WeightedMap.keys_erase_old hpending
        have hroom := hl.room
        dsimp only [Listener.modifySession]
        omega)
    split
    next old hold =>
      split
      · refine hpromoted.schedule (fun owner howner => ?_) nofun
        rw [← Option.some.inj howner]
        exact hvalidated.known old (.inl ⟨key, hold⟩)
      · exact hpromoted
    · exact hpromoted
  · exact hvalidated

theorem displace_tasks : (l.displace session newKey).tasks = l.tasks := by
  unfold displace
  split
  · split <;> rfl
  · rfl

theorem Fewer.displace : Fewer l (l.displace session newKey) := by
  unfold Listener.displace
  split
  · split
    · refine ⟨modifySession_length _, fun _ => remote_modifySession fun _ => rfl,
        fun _ _ hlookup => (lookup_erase_iff.mp hlookup).2, fun _ _ => id, ?_,
        Nat.add_le_add_right keys_erase_le _, rfl, List.Subset.refl _⟩
      rintro owner (⟨at_, hat⟩ | hpending | ⟨cid, hcid⟩)
      · exact .inl ⟨at_, (lookup_erase_iff.mp hat).2⟩
      · exact .inr (.inl hpending)
      · exact .inr (.inr ⟨cid, (lookup_removeSession.mp hcid).1⟩)
    · exact .of_same rfl rfl rfl rfl rfl (List.Subset.refl _)
  · exact .of_same rfl rfl rfl rfl rfl (List.Subset.refl _)

/-- What closes the displaced session also takes it out of every map. -/
theorem Tidy.displace (hl : l.Tidy config) : (l.displace session newKey).Tidy config := by
  cases hlookup : l.sessions.lookup newKey with
  | none =>
    rw [Listener.displace, hlookup]
    exact hl
  | some displaced =>
    have hfewer : Fewer l (l.displace session newKey) := .displace
    rw [Listener.displace, hlookup] at hfewer ⊢
    dsimp only at hfewer ⊢
    split
    · rw [if_pos ‹_›] at hfewer
      refine hl.fewer hfewer hl.tasks_known ?_ fun owner htask hmentions =>
        hl.silent owner htask (hfewer.mentions owner hmentions)
      intro owner hmentions hclosed
      rcases isClosed_closeWithoutCallback hclosed with rfl | hclosed
      · exfalso
        rcases hmentions with ⟨at_, hat⟩ | ⟨at_, hat⟩ | ⟨cid, hcid⟩
        · exact lookup_erase_ne hl.sessions_at hlookup at_ hat
        · exact hl.apart newKey at_ owner hlookup hat
        · exact (lookup_removeSession.mp hcid).2 rfl
      · exact hl.leaving owner (hfewer.mentions owner hmentions) hclosed
    · exact hl

/-- Only the session that rebinds keeps its state when another one is displaced. -/
theorem isClosed_displace
    (hclosed : (l.displace session newKey).isClosed session = true) :
    l.isClosed session = true := by
  unfold displace at hclosed
  split at hclosed
  · split at hclosed
    next hne =>
      rcases isClosed_closeWithoutCallback hclosed with heq | hclosed
      · exact absurd heq.symm hne
      · exact hclosed
    · exact hclosed
  · exact hclosed

theorem isClosed_setRemote :
    (l.modifySession session fun p => { p with remote := newKey }).isClosed other =
      l.isClosed other := isClosed_modifySession fun _ => rfl

/-- A session in no map but the registry can move to another address. -/
theorem Tidy.setRemote (hl : l.Tidy config) (newKey : Address)
    (hsessions : ∀ key, l.sessions.lookup key ≠ some session)
    (hpending : ∀ key, l.pending.lookup key ≠ some session) :
    (l.modifySession session fun p => { p with remote := newKey }).Tidy config := by
  have hremote : ∀ owner key, owner ≠ session → l.table[owner]?.map remote = some key →
      (l.modifySession session fun p => { p with remote := newKey }).table[owner]?.map
        remote = some key := by
    intro owner key hne hkey
    rw [getElem?_modifySession]
    simpa only [if_neg (Ne.symm hne), Option.map_id'] using hkey
  refine ⟨hl.config_eq,
    fun key owner hlookup => hremote owner key ?_ (hl.sessions_at key owner hlookup),
    fun key owner hlookup => hremote owner key ?_ (hl.pending_at key owner hlookup),
    hl.apart, ?_, ?_, ?_, ?_, hl.silent, hl.room⟩
  · rintro rfl
    exact hsessions key hlookup
  · rintro rfl
    exact hpending key hlookup
  · rw [modifySession_length]
    exact hl.known
  · rw [modifySession_length]
    exact hl.tasks_known
  · rw [modifySession_length]
    exact hl.accept_known
  · intro owner hmentions hclosed
    exact hl.leaving owner hmentions (isClosed_setRemote.symm.trans hclosed)

theorem Tidy.rebindSession (hl : l.Tidy config) (hactive : l.isActive session = true) :
    (l.rebindSession session newKey).Tidy config := by
  obtain ⟨p, hp, hlookup⟩ := (Option.any_eq_true _ _).mp hactive
  have hlookup : l.sessions.lookup p.remote = some session := of_decide_eq_true hlookup
  have hmentions : l.Mentions session := .inl ⟨_, hlookup⟩
  rw [Listener.rebindSession, hp]
  dsimp only
  by_cases hsame : p.remote = newKey
  · rw [if_pos hsame]
    exact hl
  · rw [if_neg hsame, if_pos hlookup]
    -- the session leaves its old address, and the new one is cleared for it
    let left : Listener := { l with sessions := l.sessions.erase p.remote }
    have hleft : left.Tidy config := hl.fewer_same (.eraseSession p.remote) rfl fun _ => rfl
    have hcleared : (left.displace session newKey).Tidy config := hleft.displace
    have hfewer : Fewer left (left.displace session newKey) := .displace
    have hpending : ∀ key, (left.displace session newKey).pending.lookup key ≠ some session :=
      fun key hkey => hl.apart p.remote key session hlookup (hfewer.pending key session hkey)
    have hmoved := hcleared.setRemote newKey (fun key hkey =>
      lookup_erase_ne hl.sessions_at hlookup key (hfewer.sessions key session hkey)) hpending
    refine hmoved.insert ⟨?_, ?_, ?_⟩ lookup_insert_cases (fun _ _ => .inr)
      (fun _ other _ => hpending other) ?_
    · have hsome : (left.displace session newKey).table[session]?.map remote = some p.remote := by
        rw [hfewer.remote]
        exact hl.sessions_at _ _ hlookup
      obtain ⟨q, hq, _⟩ := Option.map_eq_some_iff.mp hsome
      rw [getElem?_modifySession]
      simp [hq]
    · intro hclosed
      show _ ∈ (left.displace session newKey).tasks
      rw [displace_tasks]
      have hclosed : (left.displace session newKey).isClosed session = true :=
        isClosed_setRemote.symm.trans hclosed
      have hbefore : left.isClosed session = true := isClosed_displace hclosed
      exact hl.leaving session hmentions hbefore
    · show _ ∉ (left.displace session newKey).tasks
      rw [displace_tasks]
      exact fun htask => hl.silent session htask hmentions
    · have hsize := hfewer.size
      have hkeys := WeightedMap.keys_erase_old hlookup
      have hinsert : ((left.displace session newKey).sessions.insert newKey
        session).keys.length ≤ _ := keys_insert_le
      have hroom := hl.room
      dsimp only [Listener.modifySession, left] at hsize hinsert ⊢
      omega

/-! ## Registration -/

theorem mentions_of_isHeld (hheld : l.isHeld session = true) : l.Mentions session := by
  rcases Bool.or_eq_true_iff.mp hheld with hactive | hcandidate
  · obtain ⟨p, _, hlookup⟩ := (Option.any_eq_true _ _).mp hactive
    exact .inl ⟨_, of_decide_eq_true hlookup⟩
  · obtain ⟨p, _, hlookup⟩ := (Option.any_eq_true _ _).mp hcandidate
    exact .inr (.inl ⟨_, of_decide_eq_true hlookup⟩)

theorem Tidy.registerSessionCID (hl : l.Tidy config) (hheld : l.isHeld session = true)
    (cid : Bytes) :
    (l.registerSessionCID session cid).Tidy config := by
  have hmentions := mentions_of_isHeld hheld
  unfold Listener.registerSessionCID
  split
  next registry hregistry =>
    apply hl.withRegistry
    intro registered owner hlookup
    rcases lookup_register hregistry hlookup with hold | rfl
    · exact .inr (.inr ⟨registered, hold⟩)
    · exact hmentions
  · refine hl.schedule (fun owner howner => ?_) nofun
    rw [← Option.some.inj howner]
    exact hl.known session hmentions

theorem Tidy.registerSessionCIDs (hl : l.Tidy config) (hheld : l.isHeld session = true)
    (cids : List Bytes) : (l.registerSessionCIDs session cids).Tidy config := by
  unfold Listener.registerSessionCIDs
  split
  next registry hregistry =>
    obtain ⟨_, rfl, _⟩ := registerSessionCIDs_eq_ok hregistry
    apply hl.withRegistry
    intro registered owner hlookup
    rw [addCIDs_cidSessions, lookup_insertAll] at hlookup
    split at hlookup
    · obtain rfl := Option.some.inj hlookup
      exact mentions_of_isHeld hheld
    · exact .inr (.inr ⟨registered, hlookup⟩)
  · exact hl

theorem Tidy.configure (hl : l.Tidy config) (hknown : session < l.table.length)
    (generated : Except Err (Option Bytes)) : (l.configure session generated).Tidy config := by
  have hclose : (l.schedule (.close session)).Tidy config :=
    hl.schedule (fun owner howner => Option.some.inj howner ▸ hknown) nofun
  unfold Listener.configure
  split
  · exact hclose
  · exact hl
  next cid _ =>
    have hnamed : (l.modifySession session fun p =>
        { p with connectionIDNegotiated := true, localCID := cid }).Tidy config :=
      hl.modifySession (fun _ => rfl) fun _ => rfl
    dsimp only
    split
    · exact hnamed
    · refine hnamed.schedule (fun owner howner => ?_) nofun
      rw [modifySession_length]
      exact Option.some.inj howner ▸ hknown

/-! ## Steps and runs -/

theorem mem_eraseIdx_of_ne {task resumed : ListenerTask} {index : Nat}
    (hresumed : l.tasks[index]? = some resumed) (htask : task ∈ l.tasks) (hne : task ≠ resumed) :
    task ∈ l.tasks.eraseIdx index := by
  obtain ⟨position, hposition⟩ := mem_iff_getElem?.mp htask
  refine mem_eraseIdx_iff_getElem?.mpr ⟨position, fun heq => hne ?_, hposition⟩
  rw [heq, hresumed] at hposition
  exact (Option.some.inj hposition).symm

/-- A method other than `Close` that goes on is no longer waited for. -/
theorem Tidy.eraseTask (hl : l.Tidy config) {index : Nat} {resumed : ListenerTask}
    (hresumed : l.tasks[index]? = some resumed) (hremove : ∀ session, resumed ≠ .remove session) :
    Tidy config { l with tasks := l.tasks.eraseIdx index } := by
  refine hl.fewer (.of_same rfl rfl rfl rfl rfl (List.Subset.refl _)) ?_ ?_ ?_
  · intro task htask
    exact hl.tasks_known task (eraseIdx_subset htask)
  · intro session hmentions hclosed
    exact mem_eraseIdx_of_ne hresumed (hl.leaving session hmentions hclosed)
      (hremove session).symm
  · intro session htask
    exact hl.silent session (eraseIdx_subset htask)

/-- The end of `Close`: what was to be removed is in no map any more. -/
theorem Tidy.removeSession (hl : l.Tidy config) {index : Nat}
    (hresumed : l.tasks[index]? = some (.remove session)) :
    (removeSession { l with tasks := l.tasks.eraseIdx index } session).Tidy config := by
  have hfewer : Fewer l
      (Listener.removeSession { l with tasks := l.tasks.eraseIdx index } session) :=
    ⟨rfl, fun _ => rfl, Fewer.removeSession.sessions, Fewer.removeSession.pending,
      fun owner hmentions => (mentions_removeSession.mp hmentions).1, Fewer.removeSession.size,
      rfl, List.Subset.refl _⟩
  refine hl.fewer hfewer ?_ ?_ ?_
  · intro task htask
    exact hl.tasks_known task (eraseIdx_subset htask)
  · intro owner hmentions hclosed
    obtain ⟨hold, hne⟩ := mentions_removeSession.mp hmentions
    refine mem_eraseIdx_of_ne hresumed (hl.leaving owner hold hclosed) fun heq => hne ?_
    exact ListenerTask.remove.inj heq
  · intro owner htask hmentions
    exact hl.silent owner (eraseIdx_subset htask) (hfewer.mentions owner hmentions)

theorem Tidy.resume (hl : l.Tidy config) (index : Nat) (generated : Except Err (Option Bytes))
    (hfinds : l.findsSession (.resume index generated) = true) :
    (l.step (.resume index generated)).Tidy config := by
  dsimp only [step]
  cases hresumed : l.tasks[index]? with
  | none => exact hl
  | some task =>
    have hknown : ∀ session, task.session = some session → session < l.table.length :=
      hl.tasks_known task (mem_of_getElem? hresumed)
    cases task with
    | waiting =>
      have herased := hl.eraseTask hresumed nofun
      dsimp only [proceed]
      split
      · exact herased.schedule nofun nofun
      next session rest haccept =>
        have hsub : rest ⊆ l.accept := fun other hother =>
          haccept ▸ mem_cons_of_mem _ hother
        have hrest : Tidy config { l with tasks := l.tasks.eraseIdx index, accept := rest } :=
          herased.fewer_same (.of_same rfl rfl rfl rfl rfl hsub) rfl fun _ => rfl
        refine hrest.schedule (fun owner howner => ?_) nofun
        rw [← Option.some.inj howner]
        exact hl.accept_known session (haccept ▸ mem_cons_self)
    | received session =>
      refine (hl.eraseTask hresumed nofun).schedule (fun owner howner => ?_) ?_
      · split at howner <;> exact hknown owner howner
      · intro owner
        split <;> exact nofun
    | configure session =>
      exact (hl.eraseTask hresumed nofun).configure (hknown session rfl) generated
    | register session cid =>
      refine (hl.eraseTask hresumed nofun).registerSessionCID ?_ cid
      rw [findsSession, hresumed] at hfinds
      exact hfinds
    | promote session key => exact (hl.eraseTask hresumed nofun).promote session key
    | close session => exact (hl.eraseTask hresumed nofun).closeSession (hknown session rfl)
    | closeWithoutCallback session =>
      exact (hl.eraseTask hresumed nofun).closeWithoutCallback
        (hl.silent session (mem_of_getElem? hresumed))
    | remove session => exact hl.removeSession hresumed

theorem Tidy.step (hl : l.Tidy config) (event : ListenerEvent)
    (hfinds : l.findsSession event = true) : (l.step event).Tidy config := by
  cases event with
  | datagram key datagram => exact hl.arrive key datagram
  | accept =>
    dsimp only [Listener.step]
    split
    · exact hl
    · exact hl.schedule nofun nofun
  | registerSessionCIDs session cids =>
    dsimp only [Listener.step]
    split
    · exact hl.registerSessionCIDs hfinds cids
    · exact hl
  | unregisterSessionCIDs session cids =>
    apply hl.withRegistry
    intro cid owner hlookup
    exact .inr (.inr ⟨cid, (lookup_unregister.mp hlookup).1⟩)
  | validated session =>
    dsimp only [Listener.step]
    split
    next p hp =>
      refine hl.schedule (fun owner howner => ?_) nofun
      rw [← Option.some.inj howner]
      exact (List.getElem?_eq_some_iff.mp hp).1
    · exact hl
  | rebind session newKey => exact hl.rebindSession hfinds
  | close session =>
    dsimp only [Listener.step]
    split
    next hknown => exact hl.closeSession hknown
    · exact hl
  | shutdown => exact hl.shutdown
  | resume index generated => exact hl.resume index generated hfinds

/-- In every run in which rebinds and registrations of connection IDs find their session
in the listener's maps: a session that was closed and on which no method is at work is
in none of the maps, an open session is in one of the two address maps at most, under its
own address, and the two maps together stay within the configured limit. -/
theorem sessions_notLeaked {config : ListenerConfig} {events : List ListenerEvent}
    (hfinds : Along step (fun l event => l.findsSession event = true) (newListener config)
      events) :
    let l := run step (newListener config) events
    (∀ session, l.isClosed session = true → (∀ task ∈ l.tasks, task.session ≠ some session) →
      ¬l.Mentions session) ∧
    (∀ session p, l.table[session]? = some p → p.closed = false →
      (∀ key, l.sessions.lookup key = some session → key = p.remote) ∧
      (∀ key, l.pending.lookup key = some session → key = p.remote) ∧
      ∀ key other, l.sessions.lookup key = some session → l.pending.lookup other ≠ some session) ∧
    l.sessions.keys.length + l.pending.keys.length ≤ config.maxPendingConnections := by
  intro l
  have hl : l.Tidy config := run_invariant (fun (l : Listener) event (hl : l.Tidy config) hcond =>
    hl.step event hcond) (tidy_newListener config) hfinds
  refine ⟨fun session hclosed htasks hmentions => ?_, fun session p hp _ => ⟨?_, ?_, ?_⟩, ?_⟩
  · exact htasks _ (hl.leaving session hmentions hclosed) rfl
  · intro key hlookup
    have hkey := hl.sessions_at key session hlookup
    rw [hp] at hkey
    exact (Option.some.inj hkey).symm
  · intro key hlookup
    have hkey := hl.pending_at key session hlookup
    rw [hp] at hkey
    exact (Option.some.inj hkey).symm
  · exact fun key other => hl.apart key other session
  · exact hl.room

/-- The session at `"b"` waits to be accepted when another one rebinds to its address, so it
is closed. `Accept` then registers an ID for it, which no later step takes out. -/
theorem sessions_notLeaked_displaced :
    let l := run step (newListener sampleConfig) ([.datagram "a" sampleClientHello,
      .datagram "b" sampleClientHello] ++ acceptSession [7] ++ [.validated 0, .resume 0 (.ok none),
      .rebind 0 "b"] ++ acceptSession [8] ++ [.close 1])
    l.isClosed 1 = true ∧ l.tasks = [] ∧ l.registry.cidSessions.lookup [8] = some 1 := by
  decide +kernel

theorem sessions_notLeaked_rebound :
    let l := run step (newListener sampleConfig) ([.datagram "a" sampleClientHello] ++
      acceptSession [7] ++ [.validated 0, .resume 0 (.ok none), .rebind 0 "b",
      .registerSessionCIDs 0 [[8]], .close 0, .resume 0 (.ok none)])
    l.isClosed 0 = true ∧ ¬l.Mentions 0 := by
  have hfinds : Along step (fun l event => l.findsSession event = true) (newListener sampleConfig)
      ([.datagram "a" sampleClientHello] ++ acceptSession [7] ++ [.validated 0,
      .resume 0 (.ok none), .rebind 0 "b", .registerSessionCIDs 0 [[8]], .close 0,
      .resume 0 (.ok none)]) := by
    decide +kernel
  exact ⟨by decide +kernel, (sessions_notLeaked hfinds).1 0 (by decide +kernel) (by decide +kernel)⟩

end Listener

end Dtls13
