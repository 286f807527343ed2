import Dtls13.Errors
import Dtls13.Lib.ByteCodec
import Dtls13.Lib.StateLogic

/-! # Post-handshake messages

The messages a connection exchanges after the handshake, their encodings and
parsers: alerts, connection IDs and session tickets. A parser consumes the bytes
of a message from the front; what it has not read yet is its state.
-/

namespace Dtls13

open ByteCodec StateLogic List

abbrev WireParser (α : Type) := EStateM Err Bytes α

namespace WireParser

def take (n : Nat) : WireParser Bytes := fun b =>
  if b.length < n then
    .error (alertError alertDecodeError (.protocolError "truncated handshake message")) b
  else .ok (b.take n) (b.drop n)

def uint (width : Nat) : WireParser Nat := do
  let bytes ← take width
  pure (beNat bytes)

/-- A vector with a length field of `width` bytes. -/
def vector (width : Nat) : WireParser Bytes := do
  let n ← uint width
  take n

def u8 : WireParser Nat := uint 1
def u16 : WireParser Nat := uint 2
def u32 : WireParser Nat := uint 4
def bytes8 : WireParser Bytes := vector 1
def bytes16 : WireParser Bytes := vector 2

def done : WireParser Unit := fun b =>
  if b = [] then .ok () b
  else .error (alertError alertDecodeError (.protocolError "trailing handshake data")) b

/-- Parses a whole message. -/
def parse {α : Type} (p : WireParser α) (b : Bytes) : Except Err α :=
  handle (do let value ← p; done; pure value : WireParser α) b (fun value _ => .ok value)
    fun err _ => .error err

/-- Items up to the end of the input; each uses up at least one byte. -/
def items {α : Type} (item : WireParser α) : Nat → WireParser (List α)
  | 0 => pure []
  | fuel + 1 => do
    let b ← get
    if b = [] then pure []
    else do
      let first ← item
      let rest ← items item fuel
      pure (first :: rest)

/-- The parser reads `value` off the front of any input that starts with `b`. -/
def Reads {α : Type} (p : WireParser α) (b : Bytes) (value : α) : Prop :=
  ∀ rest, p (b ++ rest) = .ok value rest

theorem Reads.bind_eq {α β : Type} {p : WireParser α} {b : Bytes} {value : α} (hp : Reads p b value)
    (f : α → WireParser β) (rest : Bytes) : (p >>= f) (b ++ rest) = f value rest := by
  show EStateM.bind p f (b ++ rest) = _
  simp only [EStateM.bind, hp rest]

theorem Reads.bind {α β : Type} {p : WireParser α} {f : α → WireParser β} {b c : Bytes}
    {value : α} {result : β} (hp : Reads p b value) (hf : Reads (f value) c result) :
    Reads (p >>= f) (b ++ c) result := by
  intro rest
  rw [append_assoc, hp.bind_eq f]
  exact hf rest

theorem Reads.map {α β : Type} {p : WireParser α} {b : Bytes} {value : α} (hp : Reads p b value)
    (g : α → β) : Reads (p >>= fun a => pure (g a)) b (g value) := by
  intro rest
  rw [hp.bind_eq]
  rfl

theorem parse_eq_ok {α : Type} {p : WireParser α} {b : Bytes} {value : α}
    (hp : p b = .ok value []) : parse p b = .ok value := by
  show handle (EStateM.bind p _) b _ _ = _
  simp only [handle, EStateM.bind, hp]
  rfl

theorem Reads.parse_eq {α : Type} {p : WireParser α} {b : Bytes} {value : α}
    (hp : Reads p b value) : parse p b = .ok value := by
  apply parse_eq_ok
  simpa using hp []

theorem reads_take (xs : Bytes) : Reads (take xs.length) xs xs := by
  intro rest
  simp [take]

theorem reads_uint {width n : Nat} (hn : n < 256 ^ width) :
    Reads (uint width) (beBytes width n) n := by
  have htake := reads_take (beBytes width n)
  rw [beBytes_length] at htake
  have hread := htake.map beNat
  rwa [beNat_beBytes width hn] at hread

end WireParser

/-- A vector with its length in front. -/
def vectorBytes (width : Nat) (xs : Bytes) : Bytes := beBytes width xs.length ++ xs

namespace WireParser

theorem reads_vector {width : Nat} {xs : Bytes} (hxs : xs.length < 256 ^ width) :
    Reads (vector width) (vectorBytes width xs) xs := (reads_uint hxs).bind (reads_take xs)

/-- Items that are not empty are at most as many as their bytes. -/
theorem length_le_length_flatMap {α : Type} {encode : α → Bytes} (values : List α)
    (hne : ∀ value, encode value ≠ []) : values.length ≤ (values.flatMap encode).length := by
  induction values with
  | nil => simp
  | cons first rest ih =>
    have hfirst : 0 < (encode first).length := length_pos_iff.2 (hne first)
    rw [flatMap_cons, length_append, length_cons]
    omega

/-- Items written one after the other are read back, given one step for each. -/
theorem items_flatMap {α : Type} {item : WireParser α} {encode : α → Bytes} {values : List α}
    {fuel : Nat} (hitem : ∀ value ∈ values, Reads item (encode value) value)
    (hne : ∀ value ∈ values, encode value ≠ []) (hfuel : values.length ≤ fuel) :
    items item fuel (values.flatMap encode) = .ok values [] := by
  induction values generalizing fuel with
  | nil => cases fuel <;> rfl
  | cons first values ih =>
    cases fuel with
    | zero => simp at hfuel
    | succ fuel =>
      have hfirst := hitem first mem_cons_self
      have hrest : items item fuel (values.flatMap encode) = .ok values [] :=
        ih (fun value hv => hitem value (mem_cons_of_mem _ hv))
          (fun value hv => hne value (mem_cons_of_mem _ hv)) (Nat.le_of_succ_le_succ hfuel)
      have hinput : encode first ++ values.flatMap encode ≠ [] := by
        simp [hne first mem_cons_self]
      rw [flatMap_cons]
      show (if encode first ++ values.flatMap encode = [] then pure [] else
        item >>= fun a => items item fuel >>= fun others => pure (a :: others) :
          WireParser (List α)) _ = _
      rw [if_neg hinput, hfirst.bind_eq]
      show EStateM.bind (items item fuel) _ _ = _
      simp only [EStateM.bind, hrest]
      rfl

/-- A parser of a whole message has read it to the end. -/
theorem eq_ok_of_parse {α : Type} {p : WireParser α} {b : Bytes} {value : α}
    (hok : parse p b = .ok value) : p b = .ok value [] := by
  change handle (EStateM.bind p fun first => EStateM.bind done fun _ => EStateM.pure first) b _ _
    = _ at hok
  cases hb : p b with
  | error err rest => simp [handle, EStateM.bind, hb] at hok
  | ok first rest =>
    by_cases hrest : rest = []
    · subst hrest
      simp [handle, EStateM.bind, EStateM.pure, hb, done] at hok
      rw [hok]
    · simp [handle, EStateM.bind, hb, done, hrest] at hok

theorem take_eq_ok {n : Nat} {b xs rest : Bytes} (hok : take n b = .ok xs rest) :
    b = xs ++ rest ∧ xs.length = n := by
  unfold take at hok
  split at hok
  next => cases hok
  next hlong =>
    cases hok
    exact ⟨(take_append_drop n b).symm, length_take_of_le (Nat.le_of_not_lt hlong)⟩

theorem uint_eq_ok {width n : Nat} {b rest : Bytes} (hok : uint width b = .ok n rest) :
    b = beBytes width n ++ rest ∧ n < 256 ^ width := by
  obtain ⟨raw, mid, htake, hok⟩ := exists_of_bind_apply_eq_ok hok
  obtain ⟨hb, hlength⟩ := take_eq_ok htake
  cases hok
  rw [← hlength, beBytes_beNat]
  exact ⟨hb, beNat_lt raw⟩

theorem vector_eq_ok {width : Nat} {b xs rest : Bytes} (hok : vector width b = .ok xs rest) :
    b = vectorBytes width xs ++ rest ∧ xs.length < 256 ^ width := by
  obtain ⟨n, mid, hlength, htake⟩ := exists_of_bind_apply_eq_ok hok
  obtain ⟨rfl, hn⟩ := uint_eq_ok hlength
  obtain ⟨rfl, rfl⟩ := take_eq_ok htake
  exact ⟨by rw [vectorBytes, append_assoc], hn⟩

/-- What the parser accepts starts with the encoding of a well formed value. -/
def Consumes {α : Type} (p : WireParser α) (encode : α → Bytes) (wellFormed : α → Prop) : Prop :=
  ∀ b value rest, p b = .ok value rest → b = encode value ++ rest ∧ wellFormed value

theorem items_eq_ok {α : Type} {item : WireParser α} {encode : α → Bytes} {wellFormed : α → Prop}
    (hitem : Consumes item encode wellFormed) {fuel : Nat} {b rest : Bytes} {values : List α}
    (hok : items item fuel b = .ok values rest) :
    b = values.flatMap encode ++ rest ∧ ∀ value ∈ values, wellFormed value := by
  induction fuel generalizing b values with
  | zero =>
    cases hok
    exact ⟨rfl, by simp⟩
  | succ fuel ih =>
    obtain ⟨input, _, hget, hok⟩ := exists_of_bind_apply_eq_ok hok
    cases hget
    split at hok
    next =>
      cases hok
      exact ⟨rfl, by simp⟩
    next =>
      obtain ⟨first, mid, hfirst, hok⟩ := exists_of_bind_apply_eq_ok hok
      obtain ⟨others, final, hothers, hok⟩ := exists_of_bind_apply_eq_ok hok
      cases hok
      obtain ⟨hb, hwell⟩ := hitem _ _ _ hfirst
      obtain ⟨hmid, hall⟩ := ih hothers
      refine ⟨?_, forall_mem_cons.mpr ⟨hwell, hall⟩⟩
      rw [hb, hmid, flatMap_cons, append_assoc]

end WireParser

open WireParser

/-! ## Alerts -/

structure AlertMessage where
  level : UInt8
  description : UInt8
  deriving DecidableEq, Repr

namespace AlertMessage

def parseAlert : Bytes → Except Err AlertMessage
  | [level, description] => .ok ⟨level, description⟩
  | _ => .error (alertError alertDecodeError (.protocolError "invalid alert length"))

def isCloseNotify (a : AlertMessage) : Bool :=
  (a.level == alertLevelWarning || a.level == alertLevelFatal) && a.description == alertCloseNotify

def isUserCanceled (a : AlertMessage) : Bool :=
  (a.level == alertLevelWarning || a.level == alertLevelFatal) && a.description == alertUserCanceled

end AlertMessage

/-! ## Connection IDs -/

inductive ConnectionIDUsage where
  | immediate
  | spare
  deriving DecidableEq, Repr

def ConnectionIDUsage.code : ConnectionIDUsage → Nat
  | immediate => 0
  | spare => 1

structure NewConnectionIDMessage where
  connectionIDs : List Bytes
  usage : ConnectionIDUsage
  deriving DecidableEq, Repr

/-- The length of short vectors one after the other, each checked before it is counted. -/
def shortVectorsLength : List Bytes → Nat → Except Err Nat
  | [], total => .ok total
  | xs :: rest, total =>
    if 255 < xs.length then .error (.protocolError "8-bit vector overflow")
    else if 65535 - 1 - xs.length < total then .error (.protocolError "16-bit vector overflow")
    else shortVectorsLength rest (total + (1 + xs.length))

/-- The length checks pass exactly for what fits its vectors. -/
theorem shortVectorsLength_eq_ok_iff {vectors : List Bytes} {start total : Nat}
    (hstart : start < 256 ^ 2) : shortVectorsLength vectors start = .ok total ↔
      (∀ xs ∈ vectors, xs.length < 256 ^ 1) ∧
        total = start + (vectors.flatMap (vectorBytes 1)).length ∧ total < 256 ^ 2 := by
  induction vectors generalizing start with
  | nil =>
    simp only [shortVectorsLength, Except.ok.injEq, not_mem_nil, false_imp_iff, implies_true,
      true_and, flatMap_nil, length_nil]
    omega
  | cons xs rest ih =>
    simp only [shortVectorsLength, forall_mem_cons, flatMap_cons, length_append, vectorBytes,
      beBytes_length]
    split_ifs with hlong hroom
    · simp only [false_iff]
      omega
    · simp only [false_iff]
      omega
    · have hshort : xs.length < 256 ^ 1 := by omega
      rw [ih (by omega)]
      simp only [hshort, true_and, Nat.add_assoc]

namespace NewConnectionIDMessage

def encodeConnectionIDs (connectionIDs : List Bytes) : Bytes :=
  connectionIDs.flatMap (vectorBytes 1)

def marshal (m : NewConnectionIDMessage) : Except Err Bytes := do
  if m.usage = .immediate ∧ m.connectionIDs = [] then
    throw (.protocolError "immediate NewConnectionId has no connection IDs")
  let _ ← shortVectorsLength m.connectionIDs 0
  pure (vectorBytes 2 (encodeConnectionIDs m.connectionIDs) ++ [UInt8.ofNat m.usage.code])

def parseUsage : Nat → Except Err ConnectionIDUsage
  | 0 => .ok .immediate
  | 1 => .ok .spare
  | _ => .error (.protocolError "invalid NewConnectionId usage")

/-- The encoded IDs and the usage code. -/
def parseFields : WireParser (Bytes × Nat) := do
  let encoded ← bytes16
  let code ← u8
  pure (encoded, code)

def parseNewConnectionID (b : Bytes) : Except Err NewConnectionIDMessage := do
  let (encoded, code) ← parse parseFields b
  let usage ← parseUsage code
  let connectionIDs ← parse (items bytes8 encoded.length) encoded
  if usage = .immediate ∧ connectionIDs = [] then
    .error (.protocolError "immediate NewConnectionId has no connection IDs")
  else .ok ⟨connectionIDs, usage⟩

theorem vectorBytes_ne_nil (cid : Bytes) : vectorBytes 1 cid ≠ [] := by
  simp [vectorBytes, beBytes]

theorem parseUsage_code (usage : ConnectionIDUsage) : parseUsage usage.code = .ok usage := by
  cases usage <;> rfl

theorem reads_parseFields {encoded : Bytes} {code : Nat} (hencoded : encoded.length < 256 ^ 2)
    (hcode : code < 256 ^ 1) :
    Reads parseFields (vectorBytes 2 encoded ++ beBytes 1 code) (encoded, code) := by
  apply Reads.bind (reads_vector hencoded)
  exact (reads_uint hcode).map fun code => (encoded, code)

/-- A message that can be written is read back. -/
theorem parseNewConnectionID_marshal {m : NewConnectionIDMessage} {body : Bytes}
    (hbody : m.marshal = .ok body) : parseNewConnectionID body = .ok m := by
  unfold marshal at hbody
  by_cases hempty : m.usage = .immediate ∧ m.connectionIDs = []
  · rw [if_pos hempty] at hbody
    cases hbody
  rw [if_neg hempty] at hbody
  cases htotal : shortVectorsLength m.connectionIDs 0 with
  | error err =>
    rw [htotal] at hbody
    cases hbody
  | ok total =>
    rw [htotal] at hbody
    obtain ⟨hcids, hlength, hmax⟩ := (shortVectorsLength_eq_ok_iff (by decide)).mp htotal
    have hbytes : body = vectorBytes 2 (encodeConnectionIDs m.connectionIDs) ++
        beBytes 1 m.usage.code := by
      cases hbody
      simp [beBytes]
    have hencoded : (encodeConnectionIDs m.connectionIDs).length < 256 ^ 2 := by
      rwa [encodeConnectionIDs, ← Nat.zero_add (length _), ← hlength]
    have hcode : m.usage.code < 256 ^ 1 := by cases m.usage <;> decide
    -- The outer fields first, then the IDs inside their vector.
    have houter := (reads_parseFields hencoded hcode).parse_eq
    have hinner : parse (items bytes8
        (encodeConnectionIDs m.connectionIDs).length)
          (encodeConnectionIDs m.connectionIDs) = .ok m.connectionIDs :=
      parse_eq_ok (items_flatMap
        (fun cid hcid => reads_vector (hcids cid hcid))
        (fun cid _ => vectorBytes_ne_nil cid)
        (length_le_length_flatMap _ vectorBytes_ne_nil))
    rw [hbytes]
    simp only [parseNewConnectionID, houter, bind, Except.bind, parseUsage_code, hinner]
    exact if_neg hempty

/-- The parser accepts exactly what the writer writes. -/
theorem newConnectionID_exact (b : Bytes) (m : NewConnectionIDMessage) :
    parseNewConnectionID b = .ok m ↔ m.marshal = .ok b := by
  refine ⟨fun hparse => ?_, parseNewConnectionID_marshal⟩
  obtain ⟨⟨encoded, code⟩, hfields, hrest⟩ := bind_eq_ok.mp hparse
  obtain ⟨usage, husage, hitems⟩ := bind_eq_ok.mp hrest
  obtain ⟨connectionIDs, hcids, hok⟩ := bind_eq_ok.mp hitems
  obtain ⟨_, mid, hvector, hlast⟩ := exists_of_bind_apply_eq_ok (eq_ok_of_parse hfields)
  obtain ⟨_, final, hcode, hend⟩ := exists_of_bind_apply_eq_ok hlast
  cases hend
  obtain ⟨hb, hlength⟩ := vector_eq_ok hvector
  obtain ⟨hencoded, hfit⟩ := items_eq_ok (fun _ _ _ => vector_eq_ok) (eq_ok_of_parse hcids)
  rw [append_nil] at hencoded
  have htotal := (@shortVectorsLength_eq_ok_iff connectionIDs 0 _ (by decide)).mpr
    ⟨hfit, rfl, by rwa [Nat.zero_add, ← hencoded]⟩
  have hcoded : code = usage.code := by
    unfold parseUsage at husage
    split at husage <;> cases husage <;> rfl
  split at hok
  next => cases hok
  next hempty =>
    cases hok
    simp only [marshal, if_neg hempty, htotal]
    rw [hb, (uint_eq_ok hcode).1, hcoded, hencoded]
    rfl

end NewConnectionIDMessage

/-- A request for `count` connection IDs is the count, one byte. -/
def marshalRequestConnectionID (count : UInt8) : Bytes := [count]

def parseRequestConnectionID : Bytes → Except Err UInt8
  | [count] => .ok count
  | _ => .error (alertError alertDecodeError (.protocolError "invalid RequestConnectionId length"))

/-! ## Session tickets -/

def extEarlyData : Nat := 42

/-- The extensions the library knows. -/
def knownExtensionTypes : List Nat :=
  [0, 10, 43, 51, 13, 16, 21, 27, 28, 41, 42, 44, 45, 49, 47, 48, 50, 54, 58, 61, 5, 0xfe0d,
    0xfd00, 19, 20, 25, 34, 0xff02]

def knownExtensionType (typ : Nat) : Bool := knownExtensionTypes.contains typ

def greaseValue (seed : UInt8) : Nat := 0x0a0a + (seed &&& 0x0f).toNat * 0x1010

structure OrderedExtension where
  typ : Nat
  value : Bytes
  deriving DecidableEq, Repr

def OrderedExtension.bytes (e : OrderedExtension) : Bytes :=
  beBytes 2 e.typ ++ vectorBytes 2 e.value

def parseOrderedExtension : WireParser OrderedExtension := do
  let typ ← u16
  let value ← bytes16
  pure ⟨typ, value⟩

/-- Extensions up to the end of the input, each type once. -/
def parseExtensionItems : Nat → List OrderedExtension → WireParser (List OrderedExtension)
  | 0, seen => pure seen
  | fuel + 1, seen => do
    let b ← get
    if b = [] then pure seen
    else do
      let extension ← parseOrderedExtension
      if seen.any fun item => item.typ == extension.typ then
        throw (alertError alertIllegalParameter (.protocolError "duplicate extension"))
      else parseExtensionItems fuel (seen ++ [extension])

def parseOrderedExtensions (b : Bytes) : Except Err (List OrderedExtension) := do
  let raw ← parse bytes16 b
  parse (parseExtensionItems raw.length []) raw

/-- The type and the value fit their fields. -/
def OrderedExtension.Fits (e : OrderedExtension) : Prop :=
  e.typ < 256 ^ 2 ∧ e.value.length < 256 ^ 2

theorem reads_parseOrderedExtension {e : OrderedExtension} (hfits : e.Fits) :
    Reads parseOrderedExtension e.bytes e := by
  apply Reads.bind (reads_uint hfits.1)
  exact (reads_vector hfits.2).map (OrderedExtension.mk e.typ)

theorem parseExtensionItems_flatMap {extensions seen : List OrderedExtension} {fuel : Nat}
    (hfits : ∀ e ∈ extensions, e.Fits) (hfuel : extensions.length ≤ fuel)
    (hnodup : ((seen ++ extensions).map OrderedExtension.typ).Nodup) :
    parseExtensionItems fuel seen (extensions.flatMap OrderedExtension.bytes) =
      .ok (seen ++ extensions) [] := by
  induction extensions generalizing seen fuel with
  | nil => cases fuel <;> simp [parseExtensionItems] <;> rfl
  | cons e rest ih =>
    cases fuel with
    | zero => simp at hfuel
    | succ fuel =>
      have hread := reads_parseOrderedExtension (hfits e mem_cons_self)
      have hassoc : seen ++ e :: rest = seen ++ [e] ++ rest := by simp
      have hinput : e.bytes ++ rest.flatMap OrderedExtension.bytes ≠ [] := by
        simp [OrderedExtension.bytes, beBytes]
      -- No earlier extension has this type.
      have hfresh : (seen.any fun item => item.typ == e.typ) = false := by
        rw [any_eq_false]
        intro item hitem heq
        rw [map_append, map_cons] at hnodup
        exact (nodup_append.1 hnodup).2.2 _ (mem_map_of_mem hitem) _
          mem_cons_self (beq_iff_eq.1 heq)
      rw [hassoc] at hnodup ⊢
      have hrest := ih (fun item hitem => hfits item (mem_cons_of_mem _ hitem))
        (Nat.le_of_succ_le_succ hfuel) hnodup
      rw [flatMap_cons, ← hrest]
      show (if e.bytes ++ rest.flatMap OrderedExtension.bytes = [] then pure seen else
        parseOrderedExtension >>= fun extension =>
          if seen.any fun item => item.typ == extension.typ then
            throw (alertError alertIllegalParameter (.protocolError "duplicate extension"))
          else parseExtensionItems fuel (seen ++ [extension]) :
            WireParser (List OrderedExtension)) _ = _
      rw [if_neg hinput, hread.bind_eq, hfresh]
      rfl

theorem parseOrderedExtensions_vectorBytes {extensions : List OrderedExtension}
    (hfits : ∀ e ∈ extensions, e.Fits)
    (hlength : (extensions.flatMap OrderedExtension.bytes).length < 256 ^ 2)
    (hnodup : (extensions.map OrderedExtension.typ).Nodup) :
    parseOrderedExtensions (vectorBytes 2 (extensions.flatMap OrderedExtension.bytes)) =
      .ok extensions := by
  have hcount : extensions.length ≤ (extensions.flatMap OrderedExtension.bytes).length :=
    length_le_length_flatMap extensions fun e => by
      simp [OrderedExtension.bytes, beBytes]
  have hraw := (reads_vector hlength).parse_eq
  have hitems : parseExtensionItems _ [] _ = .ok ([] ++ extensions) [] :=
    parseExtensionItems_flatMap hfits hcount hnodup
  show (parse (vector 2) _ >>= fun raw => _) = _
  rw [hraw]
  exact parse_eq_ok hitems

structure NewSessionTicketMessage where
  lifetime : UInt32
  ageAdd : UInt32
  nonce : Bytes
  ticket : Bytes
  maxEarlyData : UInt32
  deriving DecidableEq, Repr

namespace NewSessionTicketMessage

/-- Seven days, in seconds. -/
def maxTicketLifetime : Nat := 7 * 24 * 3600

/-- The extensions of a ticket; a GREASE extension of type zero is none. -/
def extensions (m : NewSessionTicketMessage) (greaseExtension : Nat) : List OrderedExtension :=
  (if m.maxEarlyData = 0 then [] else [⟨extEarlyData, beBytes 4 m.maxEarlyData.toNat⟩]) ++
    if greaseExtension = 0 then [] else [⟨greaseExtension, []⟩]

def marshalWithGREASE (m : NewSessionTicketMessage) (greaseExtension : Nat) : Except Err Bytes :=
  if m.lifetime = 0 ∨ maxTicketLifetime < m.lifetime.toNat then
    .error (.protocolError "invalid NewSessionTicket lifetime")
  else if m.ticket = [] then .error (.protocolError "empty NewSessionTicket ticket")
  else if 255 < m.nonce.length then .error (.protocolError "8-bit vector overflow")
  else if 65535 < m.ticket.length then .error (.protocolError "16-bit vector overflow")
  else .ok (beBytes 4 m.lifetime.toNat ++ beBytes 4 m.ageAdd.toNat ++ vectorBytes 1 m.nonce ++
    vectorBytes 2 m.ticket ++
    vectorBytes 2 ((m.extensions greaseExtension).flatMap OrderedExtension.bytes))

/-- What the extensions of a ticket say about early data. -/
def parseEarlyData : List OrderedExtension → UInt32 → Except Err UInt32
  | [], maxEarlyData => .ok maxEarlyData
  | extension :: rest, maxEarlyData =>
    if extension.typ ≠ extEarlyData then
      if knownExtensionType extension.typ then
        .error (alertError alertIllegalParameter
          (.protocolError "recognized extension is not permitted in NewSessionTicket"))
      else parseEarlyData rest maxEarlyData
    else if extension.value.length ≠ 4 then
      .error (alertError alertDecodeError
        (.protocolError "invalid NewSessionTicket early_data extension length"))
    else parseEarlyData rest (UInt32.ofNat (beNat extension.value))

/-- The fixed part of a ticket, and the bytes of its extensions. -/
def parseFields : WireParser (NewSessionTicketMessage × Bytes) := do
  let lifetime ← u32
  let ageAdd ← u32
  let nonce ← bytes8
  let ticket ← bytes16
  let rest ← get
  let wire ← WireParser.take rest.length
  pure (⟨UInt32.ofNat lifetime, UInt32.ofNat ageAdd, nonce, ticket, 0⟩, wire)

def parseNewSessionTicket (b : Bytes) : Except Err NewSessionTicketMessage := do
  let (m, wire) ← parse parseFields b
  if m.ticket = [] then
    .error (alertError alertDecodeError (.protocolError "empty NewSessionTicket ticket"))
  else do
    let extensions ← parseOrderedExtensions wire
    let maxEarlyData ← parseEarlyData extensions 0
    pure { m with maxEarlyData := maxEarlyData }

variable {greaseExtension : Nat}

theorem parseEarlyData_extensions (m : NewSessionTicketMessage)
    (hgrease : greaseExtension ≠ 0 → knownExtensionType greaseExtension = false) :
    parseEarlyData (m.extensions greaseExtension) 0 = .ok m.maxEarlyData := by
  have hvalue : UInt32.ofNat (beNat (beBytes 4 m.maxEarlyData.toNat)) = m.maxEarlyData := by
    rw [beNat_beBytes 4 m.maxEarlyData.toNat_lt, UInt32.ofNat_toNat]
  -- An unknown extension is not early data, and is passed over.
  have hskip : ∀ value, parseEarlyData
      (if greaseExtension = 0 then [] else [⟨greaseExtension, []⟩]) value = .ok value := by
    intro value
    by_cases hzero : greaseExtension = 0
    · rw [if_pos hzero]
      rfl
    · have hunknown := hgrease hzero
      have hne : greaseExtension ≠ extEarlyData := by
        rintro rfl
        exact absurd hunknown (by decide)
      rw [if_neg hzero]
      simp [parseEarlyData, hne, hunknown]
  unfold extensions
  by_cases hdata : m.maxEarlyData = 0
  · rw [if_pos hdata, nil_append, hskip, hdata]
  · rw [if_neg hdata, singleton_append, parseEarlyData, if_neg (by simp),
      if_neg (by simp), hskip, hvalue]

theorem extensions_fits (m : NewSessionTicketMessage)
    (hgrease : greaseExtension < 256 ^ 2) : ∀ e ∈ m.extensions greaseExtension, e.Fits := by
  intro e he
  unfold extensions at he
  rcases mem_append.1 he with hdata | hextra
  · split at hdata
    · cases hdata
    · rw [mem_singleton.1 hdata]
      exact ⟨show extEarlyData < 256 ^ 2 by decide, by simp⟩
  · split at hextra
    · cases hextra
    · rw [mem_singleton.1 hextra]
      exact ⟨hgrease, by simp⟩

theorem extensions_nodup (m : NewSessionTicketMessage)
    (hunknown : greaseExtension ≠ 0 → knownExtensionType greaseExtension = false) :
    ((m.extensions greaseExtension).map OrderedExtension.typ).Nodup := by
  have hne : greaseExtension ≠ 0 → extEarlyData ≠ greaseExtension := by
    rintro hzero rfl
    exact absurd (hunknown hzero) (by decide)
  unfold extensions
  split <;> split <;> simp_all

theorem extensions_length (m : NewSessionTicketMessage) (greaseExtension : Nat) :
    ((m.extensions greaseExtension).flatMap OrderedExtension.bytes).length < 256 ^ 2 := by
  unfold extensions
  split <;> split <;> simp [OrderedExtension.bytes, vectorBytes]

theorem parseFields_append {lifetime ageAdd : UInt32} {nonce ticket : Bytes} (wire : Bytes)
    (hnonce : nonce.length < 256 ^ 1) (hticket : ticket.length < 256 ^ 2) :
    parseFields (beBytes 4 lifetime.toNat ++ (beBytes 4 ageAdd.toNat ++
        (vectorBytes 1 nonce ++ (vectorBytes 2 ticket ++ wire)))) =
      .ok (⟨lifetime, ageAdd, nonce, ticket, 0⟩, wire) [] := by
  have hword (n : UInt32) : Reads u32 (beBytes 4 n.toNat) n.toNat :=
    reads_uint n.toNat_lt
  have hbytes8 : Reads bytes8 _ _ := reads_vector hnonce
  have hbytes16 : Reads bytes16 _ _ := reads_vector hticket
  unfold parseFields
  rw [(hword lifetime).bind_eq, (hword ageAdd).bind_eq, hbytes8.bind_eq, hbytes16.bind_eq]
  -- The rest of the message is taken whole.
  have hrest := (WireParser.reads_take wire).map fun taken =>
    ((⟨UInt32.ofNat lifetime.toNat, UInt32.ofNat ageAdd.toNat, nonce, ticket, 0⟩ :
      NewSessionTicketMessage), taken)
  have hend := hrest []
  rw [append_nil, UInt32.ofNat_toNat, UInt32.ofNat_toNat] at hend
  rw [UInt32.ofNat_toNat, UInt32.ofNat_toNat]
  exact hend

/-- A ticket that can be written is read back: an unknown GREASE extension is
passed over by the parser. -/
theorem parseNewSessionTicket_marshal {m : NewSessionTicketMessage}
    {body : Bytes} (hgrease : greaseExtension < 256 ^ 2)
    (hunknown : greaseExtension ≠ 0 → knownExtensionType greaseExtension = false)
    (hbody : m.marshalWithGREASE greaseExtension = .ok body) :
    parseNewSessionTicket body = .ok m := by
  unfold marshalWithGREASE at hbody
  split at hbody
  · cases hbody
  split at hbody
  · cases hbody
  split at hbody
  · cases hbody
  split at hbody
  · cases hbody
  rename_i hlifetime hticket hnonce hlong
  cases hbody
  have hfields := parse_eq_ok
    (parseFields_append (vectorBytes 2 ((m.extensions greaseExtension).flatMap
      OrderedExtension.bytes)) (show m.nonce.length < 256 ^ 1 by omega)
      (show m.ticket.length < 256 ^ 2 by omega) :
      parseFields (beBytes 4 m.lifetime.toNat ++ (beBytes 4 m.ageAdd.toNat ++ _)) = _)
  have hextensions := parseOrderedExtensions_vectorBytes (m.extensions_fits hgrease)
    (m.extensions_length greaseExtension) (m.extensions_nodup hunknown)
  simp only [append_assoc, parseNewSessionTicket, hfields, bind, Except.bind]
  rw [if_neg hticket]
  simp only [hextensions, m.parseEarlyData_extensions hunknown]
  rfl

theorem parseNewSessionTicket_marshal_greased :
    ∃ body, marshalWithGREASE ⟨60, 1, [2], [3], 4⟩ 0x0a0a = .ok body ∧
      parseNewSessionTicket body = .ok ⟨60, 1, [2], [3], 4⟩ :=
  ⟨_, rfl, parseNewSessionTicket_marshal (by decide) (by decide) rfl⟩

end NewSessionTicketMessage

end Dtls13
