import Dtls13.Errors
import Dtls13.Lib.Framing

/-! # Handshake fragments

The twelve-byte handshake header of DTLS and the splitting of a record's content
into fragments. A record sealed by this library carries one fragment; parsing
accepts any number.
-/

namespace Dtls13

open ByteCodec Framing StateLogic List

def handshakeTypeClientHello : UInt8 := 1
def handshakeTypeServerHello : UInt8 := 2
def handshakeTypeNewSessionTicket : UInt8 := 4
def handshakeTypeRequestConnectionID : UInt8 := 9
def handshakeTypeNewConnectionID : UInt8 := 10
def handshakeTypeCertificate : UInt8 := 11
def handshakeTypeCertificateRequest : UInt8 := 13
def handshakeTypeCertificateVerify : UInt8 := 15
def handshakeTypeFinished : UInt8 := 20
def handshakeTypeKeyUpdate : UInt8 := 24
def handshakeTypeCompressedCertificate : UInt8 := 25
def handshakeTypeMessageHash : UInt8 := 254

def handshakeHeaderLen : Nat := 12

structure HandshakeFragment where
  typ : UInt8
  messageSequence : Nat
  length : Nat
  offset : Nat
  body : Bytes
  deriving DecidableEq, Repr

namespace HandshakeFragment

def validateHandshakeFragment (f : HandshakeFragment) : Except Err Unit :=
  if 2 ^ 24 ≤ f.length || 2 ^ 24 ≤ f.offset || f.length < f.offset + f.body.length then
    .error (alertError alertDecodeError (.protocolError "invalid handshake fragment bounds"))
  else .ok ()

def putHandshakeFragment (f : HandshakeFragment) : Bytes :=
  [f.typ] ++ beBytes 3 f.length ++ beBytes 2 f.messageSequence ++ beBytes 3 f.offset ++
    beBytes 3 f.body.length ++ f.body

def marshalHandshakeFragment (f : HandshakeFragment) : Except Err Bytes :=
  match f.validateHandshakeFragment with
  | .error err => .error err
  | .ok () => .ok f.putHandshakeFragment

/-- The fragment at the front of a record's content, and the bytes after it. -/
def parseHandshakeFragment (b : Bytes) : Except Err (HandshakeFragment × Bytes) :=
  if b.length < handshakeHeaderLen then
    .error (alertError alertDecodeError (.protocolError "truncated handshake fragment header"))
  else
    let length := beNat ((b.drop 1).take 3)
    let offset := beNat ((b.drop 6).take 3)
    let n := beNat ((b.drop 9).take 3)
    if length < offset + n || b.length - handshakeHeaderLen < n then
      .error (alertError alertDecodeError (.protocolError "invalid handshake fragment"))
    else
      .ok (⟨b.headD 0, beNat ((b.drop 4).take 2), length, offset,
          (b.drop handshakeHeaderLen).take n⟩,
        b.drop (handshakeHeaderLen + n))

/-- The loop over a record's content; each fragment uses up at least a header. -/
def parseLoop : Nat → Bytes → Except Err (List HandshakeFragment)
  | 0, _ => .ok []
  | fuel + 1, b =>
    if b = [] then .ok []
    else match parseHandshakeFragment b with
      | .error err => .error err
      | .ok (fragment, rest) =>
        match parseLoop fuel rest with
        | .error err => .error err
        | .ok others => .ok (fragment :: others)

def parseHandshakeFragments (b : Bytes) : Except Err (List HandshakeFragment) :=
  parseLoop b.length b

/-- One round of the loop of `parseHandshakeFragmentsMode`. -/
def takeHandshakeFragment (copyBody : Bool) (b : Bytes) :
    Except Err (HandshakeFragment × Bytes) := do
  let (f, rest) ← parseHandshakeFragment b
  pure ({ f with body := copyBytes (copyBody && 0 < f.body.length) f.body }, rest)

/-- All fragments of a record's content, in the storage of `dst`. -/
def parseHandshakeFragmentsMode (b : Bytes) (copyBody : Bool) (dst : Slice HandshakeFragment) :
    Except Err (Slice HandshakeFragment) :=
  if b = [] then .ok Slice.nil
  else parseInto (takeHandshakeFragment copyBody) b.length b dst.truncate

/-- The fragment is the whole message. -/
def isWhole (f : HandshakeFragment) : Bool := f.offset == 0 && f.length == f.body.length

/-- The bounds the wire format and the validation impose. -/
structure Valid (f : HandshakeFragment) : Prop where
  sequence_lt : f.messageSequence < 2 ^ 16
  length_lt : f.length < 2 ^ 24
  offset_lt : f.offset < 2 ^ 24
  within : f.offset + f.body.length ≤ f.length

@[simp] theorem putHandshakeFragment_length (f : HandshakeFragment) :
    f.putHandshakeFragment.length = handshakeHeaderLen + f.body.length := by
  simp [putHandshakeFragment, handshakeHeaderLen]
  omega

/-! ## What is accepted -/

/-- The encoding of a fragment, whose number is a sixteen-bit one. -/
def Encodes (f : HandshakeFragment) (e : Bytes) : Prop :=
  f.messageSequence < 2 ^ 16 ∧ f.marshalHandshakeFragment = .ok e

theorem encodes_iff {f : HandshakeFragment} {e : Bytes} :
    f.Encodes e ↔ f.Valid ∧ e = f.putHandshakeFragment := by
  unfold Encodes marshalHandshakeFragment validateHandshakeFragment
  constructor
  · rintro ⟨hsequence, hok⟩
    split_ifs at hok with hbounds
    cases hok
    simp only [Bool.or_eq_true, decide_eq_true_eq, not_or, not_le, not_lt] at hbounds
    exact ⟨⟨hsequence, hbounds.1.1, hbounds.1.2, hbounds.2⟩, rfl⟩
  · rintro ⟨hvalid, rfl⟩
    rw [if_neg]
    · exact ⟨hvalid.sequence_lt, rfl⟩
    · simp only [Bool.or_eq_true, decide_eq_true_eq, not_or, not_le, not_lt]
      exact ⟨⟨hvalid.length_lt, hvalid.offset_lt⟩, hvalid.within⟩

/-- The checks on a header, and what is then read. -/
theorem parseHandshakeFragment_eq_ok_iff {b rest : Bytes} {f : HandshakeFragment} :
    parseHandshakeFragment b = .ok (f, rest) ↔ 12 ≤ b.length ∧
      beNat ((b.drop 6).take 3) + beNat ((b.drop 9).take 3) ≤ beNat ((b.drop 1).take 3) ∧
      beNat ((b.drop 9).take 3) ≤ b.length - 12 ∧
      f = ⟨b.headD 0, beNat ((b.drop 4).take 2), beNat ((b.drop 1).take 3),
        beNat ((b.drop 6).take 3), (b.drop 12).take (beNat ((b.drop 9).take 3))⟩ ∧
      rest = b.drop (12 + beNat ((b.drop 9).take 3)) := by
  unfold parseHandshakeFragment handshakeHeaderLen
  dsimp only
  split_ifs with hshort hbounds
  · simp
    omega
  · simp at hbounds ⊢
    omega
  · simp only [Bool.or_eq_true, decide_eq_true_eq, not_or, not_lt] at hshort hbounds
    constructor
    · intro hok
      cases hok
      exact ⟨hshort, hbounds.1, hbounds.2, rfl, rfl⟩
    · rintro ⟨-, -, -, rfl, rfl⟩
      rfl

theorem parseHandshakeFragment_append {f : HandshakeFragment} (hvalid : f.Valid) (rest : Bytes) :
    parseHandshakeFragment (f.putHandshakeFragment ++ rest) = .ok (f, rest) := by
  have hwithin := hvalid.within
  have hlengthLt := hvalid.length_lt
  generalize hb : f.putHandshakeFragment ++ rest = b
  have hlength : beNat ((b.drop 1).take 3) = f.length := by
    rw [← hb]
    exact beNat_beBytes 3 hlengthLt
  have hsequence : beNat ((b.drop 4).take 2) = f.messageSequence := by
    rw [← hb]
    exact beNat_beBytes 2 hvalid.sequence_lt
  have hoffset : beNat ((b.drop 6).take 3) = f.offset := by
    rw [← hb]
    exact beNat_beBytes 3 hvalid.offset_lt
  have hcount : beNat ((b.drop 9).take 3) = f.body.length := by
    rw [← hb]
    exact beNat_beBytes 3 (by omega)
  have hrest : b.drop 12 = f.body ++ rest := by
    rw [← hb]
    rfl
  have hend : b.drop (12 + f.body.length) = rest := by
    rw [← drop_drop, hrest, drop_left]
  have hhead : b.headD 0 = f.typ := by
    rw [← hb]
    rfl
  have hlong : b.length = handshakeHeaderLen + f.body.length + rest.length := by
    rw [← hb, length_append, putHandshakeFragment_length]
  rw [parseHandshakeFragment_eq_ok_iff, hlength, hsequence, hoffset, hcount, hrest, hend, hhead,
    take_left]
  rw [handshakeHeaderLen] at hlong
  exact ⟨by omega, hwithin, by omega, rfl, rfl⟩

theorem eq_append_of_parseHandshakeFragment {b rest : Bytes} {f : HandshakeFragment}
    (hok : parseHandshakeFragment b = .ok (f, rest)) :
    f.Valid ∧ b = f.putHandshakeFragment ++ rest := by
  obtain ⟨hshort, hwithin, hlong, rfl, rfl⟩ := parseHandshakeFragment_eq_ok_iff.mp hok
  have hbound : ∀ start width, beNat ((b.drop start).take width) < 256 ^ width := by
    intro start width
    exact lt_of_lt_of_le (beNat_lt _)
      (Nat.pow_le_pow_right (by decide) (length_take_le width _))
  generalize hcount : beNat ((b.drop 9).take 3) = n at hwithin hlong ⊢
  have hbody : ((b.drop 12).take n).length = n := by
    rw [length_take, length_drop]
    omega
  -- the fields of the header, one after the other
  have htype : b = [b.headD 0] ++ b.drop 1 := by
    cases b with
    | nil => simp at hshort
    | cons first others => rfl
  have hlength := drop_eq_beBytes b 1 3 (by omega)
  have hsequence := drop_eq_beBytes b 4 2 (by omega)
  have hoffset := drop_eq_beBytes b 6 3 (by omega)
  have hfields := drop_eq_beBytes b 9 3 (by omega)
  have hcontent := (take_append_drop n (b.drop 12)).symm
  rw [drop_drop] at hcontent
  rw [hcount] at hfields
  refine ⟨⟨hbound 4 2, hbound 1 3, hbound 6 3, by rwa [hbody]⟩, ?_⟩
  conv_lhs => rw [htype, hlength, hsequence, hoffset, hfields, hcontent]
  simp [putHandshakeFragment, hbody]

theorem exact_takeHandshakeFragment (copyBody : Bool) :
    Exact (takeHandshakeFragment copyBody) Encodes where
  eq_ok_iff {b f rest} := by
    simp only [takeHandshakeFragment, bind_eq_ok, Prod.exists, copyBytes_eq, encodes_iff]
    constructor
    · rintro ⟨first, others, hok, hend⟩
      cases hend
      obtain ⟨hvalid, hb⟩ := eq_append_of_parseHandshakeFragment hok
      exact ⟨_, ⟨hvalid, rfl⟩, hb⟩
    · rintro ⟨e, ⟨hvalid, rfl⟩, rfl⟩
      exact ⟨f, rest, parseHandshakeFragment_append hvalid rest, rfl⟩
  ne_nil he hnil := by
    have hlength := congrArg List.length (encodes_iff.mp he).2
    rw [hnil, putHandshakeFragment_length, handshakeHeaderLen, length_nil] at hlength
    omega

theorem parseLoop_eq (fuel : Nat) (b : Bytes) :
    parseLoop fuel b = parseAll (takeHandshakeFragment false) fuel b := by
  induction fuel generalizing b with
  | zero => rfl
  | succ fuel ih =>
    rw [parseLoop, parseAll, takeHandshakeFragment]
    cases parseHandshakeFragment b with
    | error err => rfl
    | ok pair =>
      simp only [ih, ok_bind, copyBytes_eq, pure_bind]
      cases parseAll (takeHandshakeFragment false) fuel pair.2 <;> rfl

theorem parseHandshakeFragments_eq_ok_iff {b : Bytes} {fragments : List HandshakeFragment} :
    parseHandshakeFragments b = .ok fragments ↔ Encoded Encodes fragments b := by
  rw [parseHandshakeFragments, parseLoop_eq]
  exact (exact_takeHandshakeFragment false).parseAll_eq_ok_iff (Nat.le_refl _)

/-- Parsing inverts marshaling. -/
theorem parseHandshakeFragments_put {f : HandshakeFragment} (hvalid : f.Valid) :
    parseHandshakeFragments f.putHandshakeFragment = .ok [f] :=
  parseHandshakeFragments_eq_ok_iff.mpr
    ⟨_, [], encodes_iff.mpr ⟨hvalid, rfl⟩, (append_nil _).symm, rfl⟩

end HandshakeFragment

end Dtls13
