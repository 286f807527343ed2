import Dtls13.Hello.Encrypted

/-! # The sealed hello is opened as it was sealed

Client and server authenticate the same bytes, and the server rebuilds the inner
hello byte for byte. The sealed bytes do not show the length of the server name.
-/

namespace Dtls13

open ByteCodec StateLogic OrderedExtension WireParser ClientHello List

/-! ## Offsets of the extensions -/

/-- The fields fit their vectors. -/
structure RawHead.Fits (head : RawHead) : Prop where
  versionRandom : head.versionRandom.length = 2 + 32
  sessionID : head.sessionID.length < 256 ^ 1
  legacyCookie : head.legacyCookie.length < 256 ^ 1
  cipherSuites : head.cipherSuites.length < 256 ^ 2
  compression : head.compression.length < 256 ^ 1

variable {exts : List OrderedExtension} {distinguishedName : Bytes → Bool} {head : RawHead}

theorem reads_parseRawHead (hfits : head.Fits) : WireParser.Reads parseRawHead head.bytes head := by
  have htake := reads_take head.versionRandom
  rw [hfits.versionRandom] at htake
  apply htake.bind
  apply WireParser.Reads.bind (reads_vector hfits.sessionID)
  apply WireParser.Reads.bind (reads_vector hfits.legacyCookie)
  apply WireParser.Reads.bind (reads_vector hfits.cipherSuites)
  exact (reads_vector hfits.compression).map fun compression =>
    { head with compression }

/-- The extensions with the offsets of their values, from the offset of the first. -/
def rawExtensions : Nat → List OrderedExtension → List RawClientHelloExtension
  | _, [] => []
  | start, e :: rest =>
    ⟨e.typ, e.value, start + 4⟩ :: rawExtensions (start + e.bytes.length) rest

theorem OrderedExtension.bytes_length (e : OrderedExtension) :
    e.bytes.length = 4 + e.value.length := by
  simp [bytes, vectorBytes]
  omega

theorem extractRawItems_flatMap {vectorOffset total fuel : Nat} {out : List RawClientHelloExtension}
    (hfits : ∀ e ∈ exts, e.Fits) (hfuel : exts.length ≤ fuel) (hnodup : (exts.map typ).Nodup)
    (hfresh : ∀ item ∈ out, ∀ e ∈ exts, item.typ ≠ e.typ)
    (htotal : (exts.flatMap bytes).length ≤ total) :
    extractRawItems vectorOffset total fuel out (exts.flatMap bytes) = .ok (out ++ rawExtensions
        (vectorOffset + 2 + (total - (exts.flatMap bytes).length)) exts) [] := by
  induction exts generalizing fuel out with
  | nil => cases fuel <;> simp [extractRawItems, rawExtensions] <;> rfl
  | cons e rest ih =>
    cases fuel with
    | zero => simp at hfuel
    | succ fuel =>
      obtain ⟨hfirst, hrestFits⟩ := forall_mem_cons.mp hfits
      obtain ⟨htyp, hrestNodup⟩ := nodup_cons.mp hnodup
      have hread := reads_parseOrderedExtension hfirst
      have hinput : e.bytes ++ rest.flatMap bytes ≠ [] := by
        simp [bytes, beBytes]
      have hnone : (out.any fun item => item.typ == e.typ) = false := by
        rw [any_eq_false]
        intro item hitem heq
        exact hfresh item hitem e mem_cons_self (beq_iff_eq.mp heq)
      rw [flatMap_cons, length_append, e.bytes_length] at htotal
      -- the value ends where the rest begins
      have hoffset : vectorOffset + 2 + (total - (rest.flatMap bytes).length) - e.value.length =
          vectorOffset + 2 + (total - ((e :: rest).flatMap bytes).length) + 4 := by
        rw [flatMap_cons, length_append, e.bytes_length]
        omega
      have hnext : vectorOffset + 2 +
          (total - ((e :: rest).flatMap bytes).length) + e.bytes.length =
          vectorOffset + 2 + (total - (rest.flatMap bytes).length) := by
        rw [flatMap_cons, length_append, e.bytes_length]
        omega
      have hstep : extractRawItems vectorOffset total (fuel + 1) out
          ((e :: rest).flatMap bytes) =
          extractRawItems vectorOffset total fuel (out ++ [⟨e.typ, e.value, vectorOffset + 2 +
            (total - (rest.flatMap bytes).length) - e.value.length⟩])
            (rest.flatMap bytes) := by
        rw [flatMap_cons]
        change (if e.bytes ++ rest.flatMap bytes = [] then pure out else
          parseOrderedExtension >>= fun extension => get >>= fun left =>
            if out.any fun item => item.typ == extension.typ then
              throw (illegalParameter "duplicate ClientHello extension")
            else extractRawItems vectorOffset total fuel (out ++ [⟨extension.typ,
              extension.value, vectorOffset + 2 + (total - left.length) -
                extension.value.length⟩]) : WireParser _) _ = _
        rw [if_neg hinput, hread.bind_eq]
        change (if out.any fun item => item.typ == e.typ then throw _ else _ :
          WireParser (List RawClientHelloExtension)) _ = _
        rw [hnone]
        rfl
      rw [hstep, ih hrestFits (Nat.le_of_succ_le_succ hfuel) hrestNodup _ (by omega), hoffset,
        rawExtensions, hnext, append_assoc]
      · rfl
      · intro item hitem other hother
        rcases mem_append.mp hitem with hold | hnew
        · exact hfresh item hold other (mem_cons_of_mem _ hother)
        · rw [mem_singleton.mp hnew]
          intro heq
          exact htyp (mem_map.mpr ⟨other, hother, heq.symm⟩)

theorem extractRawClientHelloExtensions_append (hhead : head.Fits) (hfits : ∀ e ∈ exts, e.Fits)
    (hlength : (exts.flatMap bytes).length < 256 ^ 2) (hnodup : (exts.map typ).Nodup) :
    extractRawClientHelloExtensions
        (head.bytes ++ vectorBytes 2 (exts.flatMap bytes)) =
      .ok (rawExtensions (head.bytes.length + 2) exts) := by
  have hcount : exts.length ≤ (exts.flatMap bytes).length :=
    length_le_length_flatMap exts fun e => by simp [bytes, beBytes]
  have hvector : WireParser.Reads bytes16
      (vectorBytes 2 (exts.flatMap bytes))
      (exts.flatMap bytes) := reads_vector hlength
  have hparse (total : Nat) : parse (parseRawVector total)
      (head.bytes ++ vectorBytes 2 (exts.flatMap bytes)) =
      .ok (total - (vectorBytes 2 (exts.flatMap bytes)).length, exts.flatMap bytes) := by
    apply parse_eq_ok
    rw [parseRawVector, (reads_parseRawHead hhead).bind_eq]
    have hend := hvector.map (Prod.mk
      (total - (vectorBytes 2 (exts.flatMap bytes)).length)) []
    rw [append_nil] at hend
    exact hend
  rw [extractRawClientHelloExtensions, hparse, ok_bind]
  dsimp only
  apply parse_eq_ok
  rw [extractRawItems_flatMap hfits hcount hnodup (by simp) le_rfl, length_append,
    Nat.add_sub_cancel, Nat.sub_self]
  rfl

/-- A type that no extension before has is found at its offset. -/
theorem find?_rawExtensions {start : Nat} {before after : List OrderedExtension}
    {e : OrderedExtension} (hbefore : ∀ other ∈ before, other.typ ≠ e.typ) :
    (rawExtensions start (before ++ e :: after)).find? (fun item => item.typ == e.typ) =
      some ⟨e.typ, e.value, start + (before.flatMap bytes).length + 4⟩ := by
  induction before generalizing start with
  | nil => simp [rawExtensions]
  | cons first rest ih =>
    obtain ⟨hfirst, hrest⟩ := forall_mem_cons.mp hbefore
    rw [cons_append, rawExtensions, List.find?_cons_of_neg (by simpa using hfirst), ih hrest,
      flatMap_cons, length_append, Nat.add_assoc start]

/-! ## The outer hello around its sealed bytes -/

namespace ClientHello

/-- The rows of the table before the sealed hello and after it. -/
def rowsBeforeECH (h : ClientHello) (p : Parts) : List (Nat × Option Bytes) :=
  (h.extensionTable p).take 21

def rowsAfterECH (h : ClientHello) (p : Parts) : List (Nat × Option Bytes) :=
  (h.extensionTable p).drop 22

theorem extensions_setEncryptedClientHello (h : ClientHello) (p : Parts) (value : Bytes) :
    (setEncryptedClientHello h value).extensions p =
      present (h.rowsBeforeECH p) ++ ⟨extECH, value⟩ :: present (h.rowsAfterECH p) := by
  have htable : (setEncryptedClientHello h value).extensionTable p =
      h.rowsBeforeECH p ++ (extECH, some value) :: h.rowsAfterECH p := rfl
  rw [extensions, htable]
  simp [present]

/-- The bytes of the outer hello before a value of `n` bytes, and after it. -/
def beforeECH (h : ClientHello) (p : Parts) (n : Nat) : Bytes :=
  let before := (present (h.rowsBeforeECH p)).flatMap OrderedExtension.bytes
  let after := (present (h.rowsAfterECH p)).flatMap OrderedExtension.bytes
  h.head ++ (beBytes 2 (before.length + (4 + n + after.length)) ++
    (before ++ (beBytes 2 extECH ++ beBytes 2 n)))

def afterECH (h : ClientHello) (p : Parts) : Bytes :=
  (present (h.rowsAfterECH p)).flatMap OrderedExtension.bytes

theorem beforeECH_length (h : ClientHello) (p : Parts) (n : Nat) : (h.beforeECH p n).length =
      h.head.length + 2 + ((present (h.rowsBeforeECH p)).flatMap bytes).length + 4
      := by
  simp [beforeECH]
  omega

def rawHead (h : ClientHello) : RawHead where
  versionRandom := beBytes 2 dtlsLegacyVersion ++ h.random.toList
  sessionID := h.sessionID
  legacyCookie := []
  cipherSuites := wordBytes h.cipherSuites
  compression := [0]

theorem rawHead_bytes (h : ClientHello) : h.rawHead.bytes = h.head := by
  simp only [RawHead.bytes, rawHead, head, append_assoc]

section Sealed

variable {h : ClientHello} {p : Parts} {body value : Bytes}

theorem Marshalled.rawHead_fits (hm : h.Marshalled p body) : h.rawHead.Fits := by
  have hsession := hm.sessionID
  have hcount := hm.suitesCount
  refine ⟨?_, ?_, ?_, ?_, ?_⟩
  · simp [rawHead]
  · exact Nat.lt_succ_of_le hsession
  · simp [rawHead]
  · simp only [rawHead, wordBytes_length]
    omega
  · simp [rawHead]

theorem Marshalled.extensions_fit (hm : h.Marshalled p body) : ∀ e ∈ h.extensions p, e.Fits := by
  intro e he
  refine ⟨?_, Nat.lt_succ_of_le (hm.values e he)⟩
  exact h.extensionTable_types_lt p (mem_map_of_mem (mem_present.mp he))

/-- A written hello is taken apart with the offsets of its extensions. -/
theorem Marshalled.extractRaw (hm : h.Marshalled p body) : extractRawClientHelloExtensions body =
      .ok (rawExtensions (h.head.length + 2) (h.extensions p)) := by
  rw [hm.body, ← rawHead_bytes]
  exact extractRawClientHelloExtensions_append hm.rawHead_fits hm.extensions_fit
    (Nat.lt_succ_of_le hm.total) (present_nodup (h.extensionTable_nodup p))

theorem Marshalled.body_ech (hm : (setEncryptedClientHello h value).Marshalled p body) :
    body = h.beforeECH p value.length ++ (value ++ h.afterECH p) := by
  rw [hm.body, extensions_setEncryptedClientHello]
  simp only [flatMap_append, flatMap_cons, bytes, beforeECH, afterECH]
  rw [vectorBytes]
  simp only [length_append, beBytes_length, vectorBytes, append_assoc]
  have hsum (x y : Nat) : x + (2 + (2 + (value.length + y))) = x + (4 + value.length + y) := by
    omega
  rw [hsum]
  rfl

theorem Marshalled.find?_ech (hm : (setEncryptedClientHello h value).Marshalled p body) :
    ∃ extensions, extractRawClientHelloExtensions body = .ok extensions ∧
      extensions.find? (fun extension => extension.typ == extECH) =
        some ⟨extECH, value, (h.beforeECH p value.length).length⟩ := by
  refine ⟨_, hm.extractRaw, ?_⟩
  have hnodup := present_nodup ((setEncryptedClientHello h value).extensionTable_nodup p)
  change ((((setEncryptedClientHello h value).extensions p).map _).Nodup) at hnodup
  rw [extensions_setEncryptedClientHello] at hnodup ⊢
  rw [map_append, map_cons] at hnodup
  have hbefore : ∀ other ∈ present (h.rowsBeforeECH p), other.typ ≠ extECH := by
    intro other hother heq
    exact (nodup_append.mp hnodup).2.2 _ (mem_map_of_mem hother) _ mem_cons_self heq
  rw [beforeECH_length]
  exact find?_rawExtensions (e := ⟨extECH, value⟩) hbefore

end Sealed

end ClientHello

/-! ## The authenticated data -/

/-- Clearing the end of a value in the middle of a message. -/
theorem clearBytes_append (before head payload after : Bytes) :
    clearBytes (before ++ ((head ++ payload) ++ after))
        (before.length + (head ++ payload).length - payload.length) payload.length =
      before ++ ((head ++ List.replicate payload.length 0) ++ after) := by
  have hoffset : before.length + (head ++ payload).length - payload.length =
      (before ++ head).length := by
    rw [length_append, length_append]
    omega
  have hmessage : before ++ ((head ++ payload) ++ after) =
      (before ++ head) ++ (payload ++ after) := by
    simp only [append_assoc]
  unfold clearBytes
  rw [hoffset, hmessage, take_left, ← drop_drop, drop_left, drop_left]
  simp only [append_assoc]

/-- The fields of an outer extension before its sealed bytes. -/
def outerECHHead (configID : UInt8) (kdfID aeadID : UInt16) (enc : Bytes) (n : Nat) : Bytes :=
  UInt8.ofNat echOuterType :: (beBytes 2 kdfID.toNat ++ (beBytes 2 aeadID.toNat ++
    (configID :: (vectorBytes 2 enc ++ beBytes 2 n))))

section OuterExtension

variable {configID : UInt8} {kdfID aeadID : UInt16} {enc payload value : Bytes}

theorem generateOuterECHExt_eq_ok
    (hok : generateOuterECHExt configID kdfID aeadID enc payload = .ok value) :
    value = outerECHHead configID kdfID aeadID enc payload.length ++ payload ∧
      enc.length < 256 ^ 2 ∧ payload.length < 256 ^ 2 := by
  obtain ⟨_, hfits, hok⟩ := bind_eq_ok.mp hok
  cases hok
  obtain ⟨henc, hpayload⟩ := require_eq_ok.mp hfits
  refine ⟨?_, Nat.lt_succ_of_le henc, Nat.lt_succ_of_le hpayload⟩
  simp [outerECHHead, vectorBytes]

/-- The server reads the extension of an outer hello as it was written. -/
theorem parseECHExt_outer
    (hok : generateOuterECHExt configID kdfID aeadID enc payload = .ok value)
    (hpayload : payload ≠ []) :
    parseECHExt value = .ok (.outer kdfID.toNat aeadID.toNat configID.toNat enc payload) := by
  obtain ⟨_, henc, hlength⟩ := generateOuterECHExt_eq_ok hok
  obtain ⟨_, _, hok⟩ := bind_eq_ok.mp hok
  cases hok
  have hconfig : configID :: (vectorBytes 2 enc ++ vectorBytes 2 payload) =
      beBytes 1 configID.toNat ++ (vectorBytes 2 enc ++ vectorBytes 2 payload) := by
    simp [beBytes]
  have hread : WireParser.Reads parseOuterECHFields (beBytes 2 kdfID.toNat ++
      (beBytes 2 aeadID.toNat ++ (beBytes 1 configID.toNat ++
        (vectorBytes 2 enc ++ vectorBytes 2 payload))))
      (.outer kdfID.toNat aeadID.toNat configID.toNat enc payload) := by
    apply WireParser.Reads.bind (reads_uint kdfID.toNat_lt)
    apply WireParser.Reads.bind (reads_uint aeadID.toNat_lt)
    apply WireParser.Reads.bind (reads_uint configID.toNat_lt)
    apply WireParser.Reads.bind (reads_vector henc)
    have hvector : WireParser.Reads bytes16 (vectorBytes 2 payload) payload :=
      reads_vector hlength
    intro rest
    rw [hvector.bind_eq, if_neg hpayload]
    rfl
  rw [parseECHExt, if_neg (by decide), if_neg (by decide), hconfig, hread.parse_eq]

theorem echPayloadEnd_outer
    (hok : generateOuterECHExt configID kdfID aeadID enc payload = .ok value) :
    echPayloadEnd value = value.length := by
  obtain ⟨_, henc, hlength⟩ := generateOuterECHExt_eq_ok hok
  obtain ⟨_, _, hok⟩ := bind_eq_ok.mp hok
  cases hok
  -- six bytes, the encapsulated key and the sealed bytes are all there is
  have hsix : WireParser.Reads (take (1 + 2 + 2 + 1)) _ _ :=
    reads_take (UInt8.ofNat echOuterType :: (beBytes 2 kdfID.toNat ++
      (beBytes 2 aeadID.toNat ++ [configID])))
  have hfirst : WireParser.Reads bytes16 (vectorBytes 2 enc) enc :=
    reads_vector henc
  have hsecond : WireParser.Reads bytes16 (vectorBytes 2 payload) payload :=
    reads_vector hlength
  have hskip : WireParser.Reads skipOuterECH _ () :=
    hsix.bind (hfirst.bind (hsecond.map fun _ => ()))
  have hend := hskip []
  simp only [append_nil, append_assoc, cons_append, nil_append] at hend
  simp only [echPayloadEnd, handle, hend, length_nil, Nat.sub_zero]

end OuterExtension

/-- What the server authenticates is what the client sealed with. -/
theorem echOuterAAD_marshalOuter {outer blank bound : ClientHello} {context : ECHSenderContext}
    {initial : Bool} {payload aad body : Bytes} (hpayload : payload ≠ [])
    (hblank : marshalOuter outer context initial (List.replicate payload.length 0) =
      .ok (blank, aad))
    (hbound : marshalOuter blank context initial payload = .ok (bound, body)) :
    echOuterAAD body = .ok aad := by
  obtain ⟨zeros, hzeros, hblank⟩ := bind_eq_ok.mp hblank
  obtain ⟨_, haad, hblank⟩ := bind_eq_ok.mp hblank
  cases hblank
  obtain ⟨value, hvalue, hbound⟩ := bind_eq_ok.mp hbound
  obtain ⟨_, hbody, hbound⟩ := bind_eq_ok.mp hbound
  cases hbound
  obtain ⟨p₀, hm₀⟩ := marshal_eq_ok_iff.mp haad
  obtain ⟨p, hm⟩ := marshal_eq_ok_iff.mp hbody
  change (setEncryptedClientHello outer value).Marshalled p body at hm
  -- the parts do not depend on the extension
  have hparts : p₀ = p := by
    have hbound := isParts_iff.mpr hm.isParts
    have hsame : (setEncryptedClientHello outer zeros).parts = .ok p := hbound
    exact Except.ok.inj ((isParts_iff.mpr hm₀.isParts).symm.trans hsame)
  subst hparts
  obtain ⟨hzerosEq, _⟩ := generateOuterECHExt_eq_ok hzeros
  obtain ⟨hvalueEq, _⟩ := generateOuterECHExt_eq_ok hvalue
  rw [length_replicate] at hzerosEq
  have hlength : zeros.length = value.length := by
    rw [hzerosEq, hvalueEq, length_append, length_append, length_replicate]
  obtain ⟨extensions, hextract, hfind⟩ := hm.find?_ech
  rw [echOuterAAD, hextract, ok_bind, hfind]
  dsimp only
  rw [parseECHExt_outer hvalue hpayload, echPayloadEnd_outer hvalue]
  dsimp only
  -- everything before the sealed bytes is the same in both hellos
  have hbodyEq := hm.body_ech
  have haadEq := hm₀.body_ech
  rw [hlength, hzerosEq] at haadEq
  generalize outer.beforeECH p₀ value.length = before at hbodyEq haadEq ⊢
  rw [hbodyEq, haadEq, hvalueEq, clearBytes_append]

/-! ## The inner hello -/

theorem expandInnerExtensions_eq (outer : List RawClientHelloExtension)
    (hown : ∀ e ∈ exts, e.typ ≠ extECHOuterExtensions) :
    expandInnerExtensions outer exts = .ok exts := by
  induction exts with
  | nil => rfl
  | cons e rest ih =>
    obtain ⟨hfirst, hrest⟩ := forall_mem_cons.mp hown
    rw [expandInnerExtensions, if_pos hfirst, ok_bind, ih hrest]
    rfl

/-- A written hello refers to no extension of another one. -/
theorem ClientHello.extensions_typ_ne (h : ClientHello) (p : ClientHello.Parts) :
    ∀ e ∈ h.extensions p, e.typ ≠ extECHOuterExtensions := by
  intro e he heq
  have htyp : e.typ ∈ (h.extensionTable p).map Prod.fst :=
    mem_map_of_mem (mem_present.mp he)
  obtain ⟨seed, hseed⟩ := h.exists_greaseValue
  have hgrease := (greaseValue_bounds seed).2.1
  rw [extensionTable_types, hseed, heq, mem_append, mem_cons] at htyp
  rcases htyp with hbefore | hsame | hafter
  · exact absurd hbefore (by decide)
  · rw [← hsame] at hgrease
    exact absurd hgrease (by decide)
  · exact absurd hafter (by decide)

theorem parseEncodedInner_append {raw : Bytes} (padding : Bytes)
    (hhead : head.Fits) (hraw : raw.length < 256 ^ 2) :
    parseEncodedInner (head.bytes ++ (vectorBytes 2 raw ++ padding)) =
      .ok (head, vectorBytes 2 raw, padding) padding := by
  have hvector : WireParser.Reads bytes16 (vectorBytes 2 raw) raw :=
    reads_vector hraw
  rw [parseEncodedInner, (reads_parseRawHead hhead).bind_eq]
  change (bytes16 >>= fun _ => get >>= fun rest => pure (head,
    (vectorBytes 2 raw ++ padding).take ((vectorBytes 2 raw ++ padding).length - rest.length),
    rest) : WireParser _) _ = _
  rw [hvector.bind_eq]
  change EStateM.Result.ok (head, (vectorBytes 2 raw ++ padding).take
    ((vectorBytes 2 raw ++ padding).length - padding.length), padding) padding = _
  rw [length_append, Nat.add_sub_cancel, take_left]

/-- Decoding an inner hello that refers to nothing only puts the session ID back. -/
theorem decodeInnerClientHello_append {received q : ClientHello}
    {outerBody : Bytes} {outerExtensions : List RawClientHelloExtension} (n : Nat)
    (hhead : head.Fits) (hempty : head.sessionID = []) (hfits : ∀ e ∈ exts, e.Fits)
    (hlength : (exts.flatMap bytes).length < 256 ^ 2) (hnodup : (exts.map typ).Nodup)
    (hown : ∀ e ∈ exts, e.typ ≠ extECHOuterExtensions)
    (houter : extractRawClientHelloExtensions outerBody = .ok outerExtensions)
    (hsession : received.sessionID.length ≤ 255) (hparse : parseClientHello distinguishedName
      (({ head with sessionID := received.sessionID } : RawHead).bytes ++
        vectorBytes 2 (exts.flatMap bytes)) = .ok q)
    (hmarker : isInnerMarker q.encryptedClientHelloExtension = true) :
    decodeInnerClientHello distinguishedName received outerBody
        (head.bytes ++ (vectorBytes 2 (exts.flatMap bytes) ++ List.replicate n 0)) =
      .ok (q, ({ head with sessionID := received.sessionID } : RawHead).bytes ++
        vectorBytes 2 (exts.flatMap bytes)) := by
  rw [decodeInnerClientHello, handle, parseEncodedInner_append _ hhead hlength]
  dsimp only
  rw [ok_bind]
  dsimp only
  rw [require_of hempty, ok_bind, require_of fun _ => eq_of_mem_replicate, ok_bind,
    parseOrderedExtensions_vectorBytes hfits hlength hnodup, houter]
  simp only [orInvalid, ok_bind]
  rw [expandInnerExtensions_eq outerExtensions hown, ok_bind,
    require_of ⟨hsession, Nat.le_of_lt_succ hlength⟩, ok_bind, hparse]
  simp only [ok_bind]
  rw [require_of hmarker]
  rfl

/-- The server rebuilds the inner hello. -/
theorem decodeInnerClientHello_encode
    {inner q received : ClientHello} {maxNameLength : Nat} {innerBody encoded outerBody : Bytes}
    {outerExtensions : List RawClientHelloExtension}
    (hmarker : inner.encryptedClientHelloExtension = some [UInt8.ofNat echInnerType])
    (hsession : received.sessionID = inner.sessionID)
    (hencoded : encodeInnerClientHello inner maxNameLength = .ok encoded)
    (hinner : inner.marshal = .ok innerBody)
    (hparse : parseClientHello distinguishedName innerBody = .ok q)
    (houter : extractRawClientHelloExtensions outerBody = .ok outerExtensions) :
    decodeInnerClientHello distinguishedName received outerBody encoded = .ok (q, innerBody) := by
  obtain ⟨body, hbody, hencoded⟩ := bind_eq_ok.mp hencoded
  obtain ⟨_, _, hencoded⟩ := bind_eq_ok.mp hencoded
  cases hencoded
  obtain ⟨p₀, hm₀⟩ := marshal_eq_ok_iff.mp hbody
  obtain ⟨p, hm⟩ := marshal_eq_ok_iff.mp hinner
  have hparts : p₀ = p := by
    have hfull := isParts_iff.mpr hm.isParts
    have hsame : ({ inner with sessionID := [] } : ClientHello).parts = .ok p := hfull
    exact Except.ok.inj ((isParts_iff.mpr hm₀.isParts).symm.trans hsame)
  subst hparts
  have hrebuilt : innerBody = ({ inner.rawHead with
      sessionID := received.sessionID } : RawHead).bytes ++
      vectorBytes 2 ((inner.extensions p₀).flatMap bytes) := by
    rw [hsession, hm.body, ← inner.rawHead_bytes]
    rfl
  have hshort : body = ({ inner.rawHead with sessionID := [] } : RawHead).bytes ++
      vectorBytes 2 ((inner.extensions p₀).flatMap bytes) := by
    rw [hm₀.body, ← rawHead_bytes]
    rfl
  have hmark : isInnerMarker q.encryptedClientHelloExtension = true := by
    rw [(hm.agrees hparse).encryptedClientHello, hmarker]
    decide
  rw [hrebuilt] at hparse ⊢
  nth_rewrite 1 [hshort]
  rw [append_assoc]
  exact decodeInnerClientHello_append _ hm₀.rawHead_fits rfl hm.extensions_fit
    (Nat.lt_succ_of_le hm.total) (present_nodup (inner.extensionTable_nodup p₀))
    (inner.extensions_typ_ne p₀) houter (hsession ▸ hm.sessionID) hparse hmark

/-! ## The length of the sealed hello -/

theorem innerPadding_mod (serverName : Bytes) (maxNameLength length : Nat) :
    (length + innerPadding serverName maxNameLength length) % 32 = 0 := by
  unfold innerPadding
  dsimp only
  omega

namespace ClientHello

/-- The length of a hello with a server name, without the name. -/
theorem Marshalled.length_serverName {h : ClientHello} {p p' : Parts} {body body' name : Bytes}
    (hm : h.Marshalled p body) (hm' : { h with serverName := name }.Marshalled p' body')
    (hold : h.serverName ≠ []) (hname : name ≠ []) :
    body'.length + h.serverName.length = body.length + name.length := by
  have hsent {name : Bytes} {value : Option Bytes} (hne : name ≠ [])
      (hvalue : marshalServerName name = .ok value) :
      value = some (vectorBytes 2 (beBytes 1 0 ++ vectorBytes 2 name)) := by
    rw [marshalServerName, if_neg hne] at hvalue
    obtain ⟨_, _, hvalue⟩ := bind_eq_ok.mp hvalue
    exact (Except.ok.inj hvalue).symm
  have hp := hm.isParts
  have hp' := hm'.isParts
  have hsame : ({ h with serverName := name } : ClientHello).IsParts
      { p with serverName := p'.serverName } :=
    ⟨hp.keyShares, hp.signatures, hp.groups, hp.certificateSignatures, hp'.serverName, hp.alpn,
      hp.cookie, hp.connectionID, hp.psk, hp.certificateCompression, hp.delegatedCredential,
      hp.handshakeMetadata⟩
  have hparts : p' = { p with serverName := p'.serverName } :=
    Except.ok.inj ((isParts_iff.mpr hp').symm.trans (isParts_iff.mpr hsame))
  -- only the first row differs
  have hrow : h.extensions p = ⟨extServerName, vectorBytes 2 (beBytes 1 0 ++
      vectorBytes 2 h.serverName)⟩ :: present ((h.extensionTable p).drop 1) := by
    change present ((extServerName, p.serverName) :: (h.extensionTable p).drop 1) = _
    rw [hsent hold hp.serverName]
    rfl
  have hrow' : ({ h with serverName := name } : ClientHello).extensions p' =
      ⟨extServerName, vectorBytes 2 (beBytes 1 0 ++ vectorBytes 2 name)⟩ ::
        present ((h.extensionTable p).drop 1) := by
    rw [hparts]
    change present ((extServerName, p'.serverName) :: (h.extensionTable p).drop 1) = _
    rw [hsent hname hp'.serverName]
    rfl
  have hhead : ({ h with serverName := name } : ClientHello).head = h.head := rfl
  rw [hm.body, hm'.body, hrow, hrow', hhead]
  simp only [flatMap_cons, vectorBytes, length_append, beBytes_length, bytes]
  omega

end ClientHello

/-- The sealed hello has the same length for all names up to the longest. -/
theorem encodeInnerClientHello_length {inner : ClientHello} {name encoded encoded' : Bytes}
    {maxNameLength : Nat} (hencoded : encodeInnerClientHello inner maxNameLength = .ok encoded)
    (hencoded' : encodeInnerClientHello { inner with serverName := name } maxNameLength =
      .ok encoded')
    (hold : inner.serverName ≠ []) (hname : name ≠ [])
    (hmax : inner.serverName.length ≤ maxNameLength) (hmax' : name.length ≤ maxNameLength) :
    encoded'.length = encoded.length := by
  obtain ⟨body, hbody, hencoded⟩ := bind_eq_ok.mp hencoded
  obtain ⟨_, _, hencoded⟩ := bind_eq_ok.mp hencoded
  cases hencoded
  obtain ⟨body', hbody', hencoded'⟩ := bind_eq_ok.mp hencoded'
  obtain ⟨_, _, hencoded'⟩ := bind_eq_ok.mp hencoded'
  cases hencoded'
  obtain ⟨p, hm⟩ := marshal_eq_ok_iff.mp hbody
  obtain ⟨p', hm'⟩ := marshal_eq_ok_iff.mp hbody'
  have hlength : body'.length + inner.serverName.length = body.length + name.length :=
    hm.length_serverName hm' hold hname
  simp only [length_append, length_replicate, innerPadding, if_pos hold, if_pos hname]
  omega

/-- A sealed hello is opened as it was sealed, first or after a retry, and its
length is a multiple of 32 that does not depend on the server name. -/
theorem encryptedClientHello_agree (hpke : HpkePair) (distinguishedName : Bytes → Bool) :
    (∀ outer inner context initial bound body innerBody q,
      inner.encryptedClientHelloExtension = some [UInt8.ofNat echInnerType] →
      outer.sessionID = inner.sessionID →
      computeOuterECH hpke outer inner context initial = .ok (bound, body) →
      inner.marshal = .ok innerBody → parseClientHello distinguishedName innerBody = .ok q →
      ∃ encoded blank aad payload value enc,
        encodeInnerClientHello inner context.maxNameLen.toNat = .ok encoded ∧
        marshalOuter outer context initial
          (List.replicate (encoded.length + echAEADExpansion) 0) = .ok (blank, aad) ∧
        hpke.sealPayload aad encoded = .ok payload ∧ echOuterAAD body = .ok aad ∧
        bound.encryptedClientHelloExtension = some value ∧
        parseECHExt value = .ok (.outer context.kdfID.toNat context.aeadID.toNat
          context.configID.toNat enc payload) ∧
        decryptECHPayload hpke body payload = .ok encoded ∧
        ∀ received : ClientHello, received.sessionID = outer.sessionID →
          decodeInnerClientHello distinguishedName received body encoded = .ok (q, innerBody)) ∧
    (∀ inner maxNameLength encoded, encodeInnerClientHello inner maxNameLength = .ok encoded →
      encoded.length % 32 = 0 ∧ ∀ name encoded',
        encodeInnerClientHello { inner with serverName := name } maxNameLength = .ok encoded' →
        inner.serverName ≠ [] → name ≠ [] → inner.serverName.length ≤ maxNameLength →
        name.length ≤ maxNameLength → encoded'.length = encoded.length) := by
  constructor
  · intro outer inner context initial bound body innerBody q hmarker hsession hcompute hinner hparse
    obtain ⟨encoded, hencoded, hcompute⟩ := bind_eq_ok.mp hcompute
    obtain ⟨⟨blank, aad⟩, hblank, hcompute⟩ := bind_eq_ok.mp hcompute
    obtain ⟨payload, hpayload, hbound⟩ := bind_eq_ok.mp hcompute
    have hlength := hpke.seal_length hpayload
    have hne : payload ≠ [] := by
      intro hnil
      rw [hnil] at hlength
      simp [echAEADExpansion] at hlength
    have hzeros : marshalOuter outer context initial (List.replicate payload.length 0) =
        .ok (blank, aad) := by
      rw [hlength]
      exact hblank
    have haad := echOuterAAD_marshalOuter hne hzeros hbound
    have hopen : decryptECHPayload hpke body payload = .ok encoded := by
      rw [decryptECHPayload, haad, ok_bind]
      exact hpke.open_seal hpayload
    -- the outer hello as it is sent
    obtain ⟨_, _, hsent⟩ := bind_eq_ok.mp hblank
    obtain ⟨_, _, hsent⟩ := bind_eq_ok.mp hsent
    cases hsent
    obtain ⟨value, hvalue, hbound⟩ := bind_eq_ok.mp hbound
    obtain ⟨_, hbody, hbound⟩ := bind_eq_ok.mp hbound
    cases hbound
    obtain ⟨p, hm⟩ := ClientHello.marshal_eq_ok_iff.mp hbody
    refine ⟨encoded, _, aad, payload, value, _, hencoded, hblank, hpayload, haad, rfl,
      parseECHExt_outer hvalue hne, hopen, fun received hreceived => ?_⟩
    exact decodeInnerClientHello_encode hmarker (hreceived.trans hsession) hencoded hinner hparse
      hm.extractRaw
  · intro inner maxNameLength encoded hencoded
    constructor
    · obtain ⟨body, _, hencoded⟩ := bind_eq_ok.mp hencoded
      obtain ⟨_, _, hencoded⟩ := bind_eq_ok.mp hencoded
      cases hencoded
      rw [List.length_append, List.length_replicate]
      exact innerPadding_mod inner.serverName maxNameLength body.length
    · intro name encoded'
      exact encodeInnerClientHello_length hencoded

/-- A stand-in for HPKE: the plaintext and sixteen bytes after it. -/
def trailingHpke : HpkePair where
  sealPayload aad plain := .ok (plain ++ List.replicate 16 (UInt8.ofNat aad.length))
  openPayload aad payload :=
    let plain := payload.take (payload.length - 16)
    if payload = plain ++ List.replicate 16 (UInt8.ofNat aad.length) then .ok plain
    else .error errInvalidECHExt
  open_seal := by
    intro aad plain payload hpayload
    cases hpayload
    simp
  seal_length := by
    intro aad plain payload hpayload
    cases hpayload
    simp [echAEADExpansion]

def sampleInner : ClientHello :=
  setEncryptedClientHello ClientHello.resumingHello [UInt8.ofNat echInnerType]

def sampleContext : ECHSenderContext := ⟨3, 32, [1, 2, 3], 1, 1⟩

theorem encryptedClientHello_agree_sample : ∃ bound body encoded innerBody q,
    computeOuterECH trailingHpke ClientHello.resumingHello sampleInner sampleContext true =
      .ok (bound, body) ∧
    sampleInner.marshal = .ok innerBody ∧
    decodeInnerClientHello (fun _ => true) ClientHello.resumingHello body encoded =
      .ok (q, innerBody) := by
  have hall : (do
      let _ ← computeOuterECH trailingHpke ClientHello.resumingHello sampleInner sampleContext true
      let innerBody ← sampleInner.marshal
      let _ ← parseClientHello (fun _ => true) innerBody
      pure ()) = .ok () := by decide +kernel
  obtain ⟨⟨bound, body⟩, hcompute, hrest⟩ := bind_eq_ok.mp hall
  obtain ⟨innerBody, hinner, hrest⟩ := bind_eq_ok.mp hrest
  obtain ⟨q, hparse, _⟩ := bind_eq_ok.mp hrest
  obtain ⟨encoded, _, _, _, _, _, _, _, _, _, _, _, _, hdecode⟩ :=
    (encryptedClientHello_agree trailingHpke fun _ => true).1 _ _ _ _ bound body innerBody q rfl rfl
      hcompute hinner hparse
  exact ⟨bound, body, encoded, innerBody, q, hcompute, hinner, hdecode _ rfl⟩

end Dtls13
