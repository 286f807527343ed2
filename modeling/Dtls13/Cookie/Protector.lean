import Dtls13.Errors
import Dtls13.Crypto.Suite
import Dtls13.Lib.RunSystem
import Dtls13.Lib.WallClock

/-! # HelloRetryRequest cookies

The cookie protector of a server: sealing a ClientHello hash for an address,
opening a cookie, and the rotation of the key that either call may trigger. The
clock and the random source are read several times in one call, so what they
return is an argument of the call.
-/

namespace Dtls13

open ByteCodec WallClock

/-- The size of a SHA-256 tag. -/
def cookieMACSize : Nat := 32

structure CookieKey where
  id : UInt8
  secret : Bytes
  long : 32 ≤ secret.length
  deriving DecidableEq, Repr

/-- The protector, with the checks of its constructor as fields. `rand` says
whether a random source is set; without one the key is never rotated. -/
structure CookieProtector where
  current : CookieKey
  previous : Option CookieKey
  lifetime : Duration
  rand : Bool
  rotated : Instant
  positive : 0 < lifetime.val
  deriving DecidableEq, Repr

/-- What the clock and the random source return during one call: the reading of
the rotation check, the reading of the rotation itself, the last reading, and
the outcome of filling a new secret. A call that does not rotate makes only the
first and the last. -/
structure Surroundings where
  checked : Instant
  rotating : Instant
  last : Instant
  random : Option (Vector UInt8 32)
  deriving DecidableEq, Repr

def Surroundings.readings (s : Surroundings) : List Instant := [s.checked, s.rotating, s.last]

def shortSecretError : Err := .plain "dtls13: cookie secret must be at least 32 bytes"
def invalidCookieError : Err := .plain "dtls13: invalid cookie"

/-- The error of the random source, which is set by the caller. -/
def randomSourceError : Err := .external none "random source"

/-- The bytes of a cookie before its tag: key identifier, creation second, and
the hash with its length. -/
def cookieHead (id : UInt8) (created : Nat) (hash : Bytes) : Bytes :=
  id :: (beBytes 8 created ++ UInt8.ofNat hash.length :: hash)

@[simp] theorem cookieHead_length (id : UInt8) (created : Nat) (hash : Bytes) :
    (cookieHead id created hash).length = 10 + hash.length := by
  simp [cookieHead]
  omega

theorem cookieHead_append_length_byte (id : UInt8) (created : Nat) (hash tail : Bytes) :
    (cookieHead id created hash ++ tail).getD 9 0 = UInt8.ofNat hash.length := by
  simp [cookieHead, beBytes]

theorem cookieHead_append_created (id : UInt8) (created : Nat) (hash tail : Bytes) :
    ((cookieHead id created hash ++ tail).drop 1).take 8 = beBytes 8 created := by
  simp [cookieHead, beBytes]

theorem cookieHead_append_hash (id : UInt8) (created : Nat) (hash tail : Bytes) :
    ((cookieHead id created hash ++ tail).drop 10).take hash.length = hash := by
  simp [cookieHead, beBytes]

/-- Ten bytes and a hash of the length they announce are the head of a cookie. -/
theorem take_eq_cookieHead (cookie : Bytes)
    (hlength : 10 + (cookie.getD 9 0).toNat ≤ cookie.length) :
    cookie.take (10 + (cookie.getD 9 0).toNat) =
      cookieHead (cookie.headD 0) (beNat ((cookie.drop 1).take 8))
        ((cookie.drop 10).take (cookie.getD 9 0).toNat) := by
  match cookie, hlength with
  | id :: a :: b :: c :: d :: e :: f :: g :: h :: len :: hash, hlength =>
    have hbytes := beBytes_beNat [a, b, c, d, e, f, g, h]
    have hhash : len.toNat ≤ hash.length := by
      simp only [List.getD_cons_succ, List.getD_cons_zero, List.length_cons] at hlength
      omega
    simp only [List.length_cons, List.length_nil] at hbytes
    simp [cookieHead, hbytes, Nat.add_comm 10, hhash]

namespace CookieProtector

variable (P : Primitives) (p : CookieProtector)

/-- Address and prefix enter the tag without a delimiter. -/
def cookieMAC (key address head : Bytes) : Bytes := P.hmac .sha256 key (address ++ head)

def rotateLocked (id : UInt8) (secret : Bytes) (now : Instant) : Except Err CookieProtector :=
  if hsecret : secret.length < 32 then .error shortSecretError
  else .ok { p with
    previous := some p.current
    current := ⟨id, secret, by omega⟩
    rotated := now }

def rotate (id : UInt8) (secret : Bytes) (now : Instant) : Except Err Unit × CookieProtector :=
  match p.rotateLocked id secret now with
  | .error err => (.error err, p)
  | .ok next => (.ok (), next)

def rotateIfNeededLocked (s : Surroundings) : Except Err CookieProtector :=
  if !p.rand || s.checked.sub p.rotated < p.lifetime.val.tdiv 2 then .ok p
  else
    match s.random with
    | none => .error randomSourceError
    | some secret => p.rotateLocked (p.current.id + 1) secret.toList s.rotating

def sealCookie (s : Surroundings) (address clientHelloHash : Bytes) :
    Except Err Bytes × CookieProtector :=
  match p.rotateIfNeededLocked s with
  | .error err => (.error err, p)
  | .ok p =>
    if clientHelloHash.length = 0 ∨ 255 < clientHelloHash.length then
      (.error (.plain "dtls13: invalid ClientHello hash length"), p)
    else
      let head := cookieHead p.current.id s.last.unix clientHelloHash
      (.ok (head ++ cookieMAC P p.current.secret address head), p)

/-- The key a cookie names. -/
def keyFor (id : UInt8) : Option CookieKey :=
  if id = p.current.id then some p.current
  else p.previous.filter fun key => id = key.id

/-- A creation second that lies more than a minute ahead or more than the
lifetime back. -/
def expired (now : Instant) (created : Nat) : Bool :=
  now.ns + minute < (Instant.ofUnix created).ns ∨ p.lifetime.val < now.sub (Instant.ofUnix created)

/-- The checks of `open` once the key has been rotated. -/
def checkCookie (now : Instant) (address cookie : Bytes) : Except Err Bytes :=
  if cookie.length < 10 + cookieMACSize then .error invalidCookieError
  else
    let hashLen := (cookie.getD 9 0).toNat
    if hashLen = 0 ∨ cookie.length ≠ 10 + hashLen + cookieMACSize then .error invalidCookieError
    else
      match p.keyFor (cookie.headD 0) with
      | none => .error invalidCookieError
      | some key =>
        let head := cookie.take (10 + hashLen)
        if cookieMAC P key.secret address head ≠ cookie.drop (10 + hashLen) then
          .error invalidCookieError
        else if p.expired now (beNat ((cookie.drop 1).take 8)) then
          .error (.plain "dtls13: expired cookie")
        else .ok ((cookie.drop 10).take hashLen)

def openCookie (s : Surroundings) (address cookie : Bytes) : Except Err Bytes × CookieProtector :=
  match p.rotateIfNeededLocked s with
  | .error err => (.error err, p)
  | .ok p => (p.checkCookie P s.last address cookie, p)

/-! ## What the calls can do -/

variable {P p}

/-- What `open` accepts: the head of a cookie and its tag, under a key the
protector still holds. -/
theorem checkCookie_eq_ok_iff {now : Instant} {address cookie hash : Bytes} :
    p.checkCookie P now address cookie = .ok hash ↔
      ∃ id created key, created < 2 ^ 64 ∧ 0 < hash.length ∧ hash.length ≤ 255 ∧
        p.keyFor id = some key ∧ p.expired now created = false ∧
        cookie = cookieHead id created hash ++
          cookieMAC P key.secret address (cookieHead id created hash) := by
  constructor
  · intro hok
    unfold checkCookie at hok
    dsimp only at hok
    split at hok
    · cases hok
    · split at hok
      · cases hok
      next hlen =>
        split at hok
        · cases hok
        next key hkey =>
          split at hok
          · cases hok
          next hmac =>
            split at hok
            · cases hok
            next hexpired =>
              cases hok
              obtain ⟨hpos, hlength⟩ := not_or.mp hlen
              rw [not_not] at hlength hmac
              have hhead := take_eq_cookieHead cookie (by omega)
              have hbyte := (cookie.getD 9 0).toNat_lt
              refine ⟨_, _, key, ?_, ?_, ?_, hkey, Bool.eq_false_iff.mpr hexpired, ?_⟩
              · calc
                  _ < 256 ^ ((cookie.drop 1).take 8).length := beNat_lt _
                  _ ≤ 256 ^ 8 := Nat.pow_le_pow_right (by decide) (by simp)
                  _ = 2 ^ 64 := by decide
              · rw [List.length_take, List.length_drop]
                omega
              · rw [List.length_take]
                omega
              · rw [← hhead, hmac, List.take_append_drop]
  · rintro ⟨id, created, key, hcreated, hpos, hlen, hkey, hexpired, rfl⟩
    have hbyte : (UInt8.ofNat hash.length).toNat = hash.length := by
      rw [UInt8.toNat_ofNat']
      omega
    have hstamp : beNat (beBytes 8 created) = created := beNat_beBytes 8 hcreated
    have hmac : (cookieMAC P key.secret address (cookieHead id created hash)).length =
        cookieMACSize := P.hmac_length _ _ _
    have hid : (cookieHead id created hash ++
        cookieMAC P key.secret address (cookieHead id created hash)).headD 0 = id := rfl
    simp only [checkCookie, cookieHead_append_length_byte, hbyte, cookieHead_append_created,
      cookieHead_append_hash, hid, hkey, hstamp, hexpired, List.length_append,
      cookieHead_length, hmac]
    rw [if_neg (by omega), if_neg (by omega), List.take_left' (cookieHead_length _ _ _),
      List.drop_left' (cookieHead_length _ _ _)]
    simp

/-- A call keeps the protector or moves its key to the next identifier. -/
theorem rotateIfNeededLocked_cases {s : Surroundings} {q : CookieProtector}
    (hq : p.rotateIfNeededLocked s = .ok q) :
    q = p ∨ p.lifetime.val / 2 ≤ s.checked.sub p.rotated ∧ q.previous = some p.current ∧
      q.current.id = p.current.id + 1 ∧ q.rotated = s.rotating ∧ q.lifetime = p.lifetime := by
  unfold rotateIfNeededLocked at hq
  split at hq
  · exact .inl (Except.ok.inj hq).symm
  next hdue =>
    split at hq
    · cases hq
    next secret _ =>
      have hlong : ¬ secret.toList.length < 32 := by simp
      rw [rotateLocked, dif_neg hlong] at hq
      cases hq
      right
      rw [Bool.not_eq_true, Bool.or_eq_false_iff, decide_eq_false_iff_not,
        Int.tdiv_eq_ediv_of_nonneg (Int.le_of_lt p.positive)] at hdue
      exact ⟨Int.not_lt.mp hdue.2, rfl, rfl, rfl, rfl⟩

/-- With working randomness the rotation of a call does not fail. -/
theorem exists_rotateIfNeededLocked {s : Surroundings} (hrandom : s.random.isSome) :
    ∃ q, p.rotateIfNeededLocked s = .ok q := by
  obtain ⟨secret, hsecret⟩ := Option.isSome_iff_exists.mp hrandom
  unfold rotateIfNeededLocked
  split
  · exact ⟨p, rfl⟩
  · rw [hsecret]
    simp [rotateLocked]

theorem lifetime_rotateIfNeededLocked {s : Surroundings} {q : CookieProtector}
    (hq : p.rotateIfNeededLocked s = .ok q) : q.lifetime = p.lifetime := by
  obtain rfl | ⟨_, _, _, _, hlifetime⟩ := rotateIfNeededLocked_cases hq
  · rfl
  · exact hlifetime

end CookieProtector

/-- A call of the protector by one of the handshakes that share it. -/
inductive CookieCall where
  | sealCookie (s : Surroundings) (address clientHelloHash : Bytes)
  | openCookie (s : Surroundings) (address cookie : Bytes)
  | rotate (id : UInt8) (secret : Bytes) (now : Instant)
  deriving DecidableEq, Repr

/-- The clock and random source of a call that may rotate by itself. -/
def CookieCall.surroundings : CookieCall → Option Surroundings
  | sealCookie s _ _ => some s
  | openCookie s _ _ => some s
  | rotate _ _ _ => none

def CookieCall.readings : CookieCall → List Instant
  | sealCookie s _ _ => s.readings
  | openCookie s _ _ => s.readings
  | rotate _ _ now => [now]

namespace CookieProtector

variable {P : Primitives}

/-- The protector after a call, whatever the call returned. -/
def step (P : Primitives) (p : CookieProtector) : CookieCall → CookieProtector
  | .sealCookie s address clientHelloHash => (p.sealCookie P s address clientHelloHash).2
  | .openCookie s address cookie => (p.openCookie P s address cookie).2
  | .rotate id secret now => (p.rotate id secret now).2

/-- Sealing and opening change the protector by their rotation only. -/
theorem step_of_surroundings {p q : CookieProtector} {call : CookieCall} {s : Surroundings}
    (hcall : call.surroundings = some s) (hq : p.rotateIfNeededLocked s = .ok q) :
    p.step P call = q := by
  cases call with
  | sealCookie s' address hash =>
    cases hcall
    simp only [step, sealCookie, hq]
    split <;> rfl
  | openCookie s' address cookie =>
    cases hcall
    simp only [step, openCookie, hq]
  | rotate id secret now => cases hcall

/-- A failed rotation leaves the protector as it was. -/
theorem step_of_failure {p : CookieProtector} {call : CookieCall} {s : Surroundings} {err : Err}
    (hcall : call.surroundings = some s) (herr : p.rotateIfNeededLocked s = .error err) :
    p.step P call = p := by
  cases call with
  | sealCookie s' address hash =>
    cases hcall
    simp only [step, sealCookie, herr]
  | openCookie s' address cookie =>
    cases hcall
    simp only [step, openCookie, herr]
  | rotate id secret now => cases hcall

/-- A call leaves the protector as it was, or retires the current key. -/
theorem step_cases (p : CookieProtector) (call : CookieCall) : p.step P call = p ∨
      (p.step P call).previous = some p.current ∧ (p.step P call).lifetime = p.lifetime := by
  cases hs : call.surroundings with
  | none =>
    cases call with
    | rotate id secret now =>
      by_cases hsecret : secret.length < 32 <;> simp [step, rotate, rotateLocked, hsecret]
    | _ => cases hs
  | some s =>
    cases hq : p.rotateIfNeededLocked s with
    | error err => exact .inl (step_of_failure hs hq)
    | ok q =>
      rw [step_of_surroundings hs hq]
      exact (rotateIfNeededLocked_cases hq).imp_right
        fun hrotated => ⟨hrotated.2.1, hrotated.2.2.2.2⟩

theorem lifetime_step (p : CookieProtector) (call : CookieCall) :
    (p.step P call).lifetime = p.lifetime := by
  obtain hsame | ⟨-, hlifetime⟩ := step_cases (P := P) p call
  · rw [hsame]
  · exact hlifetime

end CookieProtector

end Dtls13
