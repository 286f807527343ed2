import Dtls13.Cookie.Rotation

/-! # Cookies are bound to their address

The tag of a cookie covers the address and the head of the cookie joined without
a delimiter. A cookie is nevertheless good for its address only: moving the
border between the two would put the key identifier or the leading zero byte of
a plausible creation second inside an address, which has no zero byte.
-/

namespace Dtls13

open ByteCodec WallClock CookieProtector RunSystem List Instant

/-- A creation second that is a plausible date starts with a zero byte. -/
theorem cookieHead_eq_zero_second {id : UInt8} {created : Nat} {hash : Bytes}
    (hcreated : created < 2 ^ 56) : ∃ rest, cookieHead id created hash = id :: 0 :: rest := by
  have hzero : UInt8.ofNat (created >>> (8 * 7)) = 0 := by
    rw [Nat.shiftRight_eq_div_pow, Nat.div_eq_of_lt hcreated]
    rfl
  refine ⟨beBytes 7 created ++ UInt8.ofNat hash.length :: hash, ?_⟩
  rw [cookieHead, beBytes, hzero, cons_append]

/-- An address cannot be longer by bytes taken from the head of a cookie. -/
theorem not_longer_address {id id' : UInt8} {created created' : Nat}
    {hash hash' address more : Bytes} (haddress : 0 ∉ address ++ more) (hmore : more ≠ [])
    (hcreated : created < 2 ^ 56) (hid : id' = 0 → id = 0) :
    cookieHead id created hash ≠ more ++ cookieHead id' created' hash' := by
  obtain ⟨rest, hrest⟩ := @cookieHead_eq_zero_second id created hash hcreated
  rw [hrest]
  intro heq
  match more with
  | [] => exact hmore rfl
  | [byte] =>
    -- the identifier became part of the address and the zero byte the identifier
    simp only [cons_append, nil_append, cookieHead, List.cons.injEq] at heq
    obtain ⟨rfl, hzero, _⟩ := heq
    simp [hid hzero.symm] at haddress
  | byte :: zero :: more =>
    simp only [cons_append, List.cons.injEq] at heq
    obtain ⟨_, rfl, _⟩ := heq
    simp at haddress

/-- Addresses and heads are told apart without a delimiter, unless one of two key
identifiers is 0. -/
theorem append_cookieHead_inj {id id' : UInt8} {created created' : Nat}
    {hash hash' address address' : Bytes} (haddress : 0 ∉ address) (haddress' : 0 ∉ address')
    (hcreated : created < 2 ^ 56) (hcreated' : created' < 2 ^ 56) (hids : id = 0 ↔ id' = 0)
    (heq : address ++ cookieHead id created hash = address' ++ cookieHead id' created' hash') :
    address = address' := by
  rcases append_eq_append_iff.mp heq with ⟨more, rfl, hhead⟩ | ⟨more, rfl, hhead⟩
  · by_contra hne
    exact not_longer_address haddress' (by simpa using hne) hcreated hids.mpr hhead
  · by_contra hne
    exact not_longer_address haddress (by simpa using hne) hcreated' hids.mp hhead

theorem cookieHead_inj {id id' : UInt8} {created created' : Nat} {hash hash' : Bytes}
    (hcreated : created < 2 ^ 64) (hcreated' : created' < 2 ^ 64)
    (heq : cookieHead id created hash = cookieHead id' created' hash') :
    id = id' ∧ created = created' ∧ hash = hash' := by
  have hlength : (beBytes 8 created).length = (beBytes 8 created').length := by simp
  obtain ⟨hid, hafter⟩ := List.cons.inj heq
  obtain ⟨hbytes, hrest⟩ := append_inj hafter hlength
  exact ⟨hid, beBytes_inj hcreated hcreated' hbytes, (List.cons.inj hrest).2⟩

/-- A cookie that was returned by `seal`. -/
structure SealedCookie where
  key : CookieKey
  address : Bytes
  hash : Bytes
  sealedAt : Instant
  cookie : Bytes
  deriving DecidableEq, Repr

def SealedCookie.head (c : SealedCookie) : Bytes := cookieHead c.key.id c.sealedAt.unix c.hash

/-- A protector with the cookies it returned and the keys it ever used. -/
structure CookieHistory where
  protector : CookieProtector
  returned : List SealedCookie
  installed : List CookieKey
  deriving DecidableEq, Repr

namespace CookieCall

def address : CookieCall → Option Bytes
  | sealCookie _ address _ => some address
  | openCookie _ address _ => some address
  | rotate _ _ _ => none

/-- Addresses have no zero byte and the clock reads Unix times between 2^30 and 2^55. -/
def Plausible (call : CookieCall) : Prop :=
  (∀ address ∈ call.address, 0 ∉ address) ∧
    ∀ reading ∈ call.readings, 2 ^ 30 ≤ reading.unix ∧ reading.unix ≤ 2 ^ 55

end CookieCall

namespace CookieHistory

variable {P : Primitives}

def start (p : CookieProtector) : CookieHistory where
  protector := p
  returned := []
  installed := p.current :: p.previous.toList

/-- The cookie a call returned, under the key that was current then. -/
def sealedBy (P : Primitives) (p : CookieProtector) : CookieCall → List SealedCookie
  | .sealCookie s address hash =>
    match p.sealCookie P s address hash with
    | (.ok cookie, next) => [⟨next.current, address, hash, s.last, cookie⟩]
    | (.error _, _) => []
  | _ => []

def step (P : Primitives) (h : CookieHistory) (call : CookieCall) : CookieHistory where
  protector := h.protector.step P call
  returned := sealedBy P h.protector call ++ h.returned
  installed := (h.protector.step P call).current :: h.installed

/-- No forgery: if the tag of a cookie is the one of a key for an address, then
`seal` computed that tag, for that secret and that input. -/
def Unforged (P : Primitives) (h : CookieHistory) (s : Surroundings) (address cookie : Bytes) :
    Prop :=
  let cut := cookie.length - cookieMACSize
  ∀ key ∈ (h.protector.step P (.openCookie s address cookie)).keyFor (cookie.headD 0),
    cookieMAC P key.secret address (cookie.take cut) = cookie.drop cut →
      ∃ c ∈ h.returned, c.key.secret = key.secret ∧ c.address ++ c.head = address ++ cookie.take cut

/-- A secret of the identifier 0 is installed under no other identifier. -/
def ZeroSecretsDistinct (keys : List CookieKey) : Prop :=
  ∀ key ∈ keys, ∀ other ∈ keys, key.secret = other.secret → key.id = 0 → other.id = 0

/-- What holds of the returned cookies and the keys after plausible calls. -/
structure Recorded (P : Primitives) (h : CookieHistory) : Prop where
  current : h.protector.current ∈ h.installed
  previous : ∀ key ∈ h.protector.previous, key ∈ h.installed
  sealing : ∀ c ∈ h.returned, c.key ∈ h.installed
  address : ∀ c ∈ h.returned, 0 ∉ c.address
  dated : ∀ c ∈ h.returned, c.sealedAt.unix ≤ 2 ^ 55
  cookie : ∀ c ∈ h.returned, c.cookie = c.head ++ cookieMAC P c.key.secret c.address c.head

theorem recorded_start (p : CookieProtector) : (start p).Recorded P where
  current := mem_cons_self
  previous _ hkey := mem_cons_of_mem _ (Option.mem_toList.mpr hkey)
  sealing _ hc := absurd hc not_mem_nil
  address _ hc := absurd hc not_mem_nil
  dated _ hc := absurd hc not_mem_nil
  cookie _ hc := absurd hc not_mem_nil

theorem previous_step {p : CookieProtector} {call : CookieCall} {key : CookieKey}
    (hkey : key ∈ (p.step P call).previous) : key = p.current ∨ key ∈ p.previous := by
  obtain hsame | ⟨hprevious, -⟩ := CookieProtector.step_cases (P := P) p call
  · exact .inr (hsame ▸ hkey)
  · rw [hprevious] at hkey
    exact .inl (Option.mem_some.mp hkey).symm

/-- What one returned cookie is. -/
theorem mem_sealedBy {p : CookieProtector} {call : CookieCall} {c : SealedCookie}
    (hc : c ∈ sealedBy P p call) :
    c.key = (p.step P call).current ∧ c.address ∈ call.address ∧ c.sealedAt ∈ call.readings ∧
      c.cookie = c.head ++ CookieProtector.cookieMAC P c.key.secret c.address c.head := by
  cases call with
  | sealCookie s address hash =>
    simp only [sealedBy] at hc
    split at hc
    next cookie next hseal =>
      obtain rfl := mem_singleton.mp hc
      obtain ⟨_, _, _, hcookie⟩ := CookieProtector.sealCookie_eq_ok hseal
      refine ⟨?_, rfl, by simp [CookieCall.readings, Surroundings.readings], hcookie⟩
      simp only [CookieProtector.step, hseal]
    next => exact absurd hc not_mem_nil
  | openCookie s address cookie => exact absurd hc not_mem_nil
  | rotate id secret now => exact absurd hc not_mem_nil

theorem Recorded.step {h : CookieHistory} (hh : h.Recorded P) {call : CookieCall}
    (hcall : call.Plausible) : (h.step P call).Recorded P where
  current := mem_cons_self
  previous key hkey := by
    apply mem_cons_of_mem
    obtain rfl | hprevious := previous_step hkey
    · exact hh.current
    · exact hh.previous key hprevious
  sealing c hc := by
    rcases mem_append.mp hc with hnew | hold
    · exact (mem_sealedBy hnew).1 ▸ mem_cons_self
    · exact mem_cons_of_mem _ (hh.sealing c hold)
  address c hc := by
    rcases mem_append.mp hc with hnew | hold
    · exact hcall.1 _ (mem_sealedBy hnew).2.1
    · exact hh.address c hold
  dated c hc := by
    rcases mem_append.mp hc with hnew | hold
    · exact (hcall.2 _ (mem_sealedBy hnew).2.2.1).2
    · exact hh.dated c hold
  cookie c hc := by
    rcases mem_append.mp hc with hnew | hold
    · exact (mem_sealedBy hnew).2.2.2
    · exact hh.cookie c hold

theorem recorded_run (p : CookieProtector) (calls : List CookieCall)
    (hcalls : ∀ call ∈ calls, call.Plausible) : (run (step P) (start p) calls).Recorded P := by
  have hstep : ∀ (h : CookieHistory) (call : CookieCall), h.Recorded P → call.Plausible →
      (h.step P call).Recorded P := fun _ _ hh hcall => hh.step hcall
  exact run_invariant hstep (recorded_start p) (along_of_forall hcalls)

/-- The key that a protector finds for an identifier. -/
theorem mem_of_keyFor {h : CookieHistory} (hh : h.Recorded P) {id : UInt8} {key : CookieKey}
    (hkey : h.protector.keyFor id = some key) : key.id = id ∧ key ∈ h.installed := by
  unfold keyFor at hkey
  split at hkey
  next hid =>
    cases hkey
    exact ⟨hid.symm, hh.current⟩
  next =>
    obtain ⟨hprevious, hid⟩ := Option.filter_eq_some_iff.mp hkey
    exact ⟨(of_decide_eq_true hid).symm, hh.previous key hprevious⟩

theorem protector_run (p : CookieProtector) (calls : List CookieCall) :
    (run (step P) (start p) calls).protector = run (CookieProtector.step P) p calls := by
  suffices ∀ h : CookieHistory, (run (step P) h calls).protector =
      run (CookieProtector.step P) h.protector calls from this (start p)
  induction calls with
  | nil => exact fun _ => rfl
  | cons call rest ih => exact fun h => ih (h.step P call)

/-- With a clock that reads plausible dates and a lifetime of at most a day, a
creation second that is not expired is a plausible date too. -/
theorem created_lt_of_not_expired {p : CookieProtector} {now : Instant} {created : Nat}
    (hcreated : created < 2 ^ 64) (hlow : 2 ^ 30 ≤ now.unix) (hhigh : now.unix ≤ 2 ^ 55)
    (hlifetime : p.lifetime.val ≤ 86400 * second) (hexpired : p.expired now created = false) :
    created < 2 ^ 56 := by
  rw [expired, decide_eq_false_iff_not, not_or] at hexpired
  obtain ⟨hahead, hback⟩ := hexpired
  have hpositive := p.positive
  have hday : (86400 : Int) * second < maxDuration := by decide
  rw [lt_sub_iff (by unfold minDuration; omega) (by omega), ofUnix_ns hcreated] at hback
  rw [ofUnix_ns hcreated] at hahead
  have hnow := unix_eq (t := now) (by omega)
  have hlt := now.lt_ofUnix_unix_add
  have hle := now.ofUnix_unix_le
  rw [ofUnix_unix] at hlt hle
  by_contra hlarge
  by_cases hhalf : (created : Int) + epochOffset < 2 ^ 63
  · rw [if_pos hhalf] at hahead
    unfold minute second at *
    omega
  · rw [if_neg hhalf] at hback
    unfold second at *
    omega

/-- Every cookie that `open` accepts for an address was returned by an earlier
`seal` for that address, with the hash that `open` returns, at most the lifetime
ago. The assumptions are those on addresses, clock and lifetime, that tags are not
forged, and that no secret is installed under the identifier 0 and another one. -/
theorem openCookie_returned (p : CookieProtector) (calls : List CookieCall)
    (opening : Surroundings) (address cookie hash : Bytes)
    (hlifetime : p.lifetime.val ≤ 86400 * second)
    (hcalls : ∀ call ∈ calls ++ [.openCookie opening address cookie], call.Plausible)
    (hunforged : (RunSystem.run (step P) (start p) calls).Unforged P opening address cookie)
    (hsecrets : ZeroSecretsDistinct (RunSystem.run (step P) (start p)
      (calls ++ [.openCookie opening address cookie])).installed)
    (hopen : ((RunSystem.run (step P) (start p) calls).protector.openCookie P opening address
      cookie).1 = .ok hash) :
    ∃ c ∈ (RunSystem.run (step P) (start p) calls).returned,
      c.address = address ∧ c.cookie = cookie ∧ c.hash = hash ∧
        opening.last.ns ≤ c.sealedAt.ns + p.lifetime.val := by
  have hrecorded := recorded_run (P := P) p calls
    fun call hcall => hcalls call (List.mem_append_left _ hcall)
  have hcall := hcalls _ (List.mem_append_right _ (List.mem_singleton_self _))
  have hnext := hrecorded.step hcall
  have hsame : (RunSystem.run (step P) (start p) calls).protector.lifetime = p.lifetime := by
    rw [protector_run, CookieProtector.lifetime_run]
  rw [RunSystem.run_append] at hsecrets
  generalize RunSystem.run (step P) (start p) calls = h at *
  cases hq : h.protector.rotateIfNeededLocked opening with
  | error err =>
    simp only [CookieProtector.openCookie, hq] at hopen
    cases hopen
  | ok q =>
    have hq' : h.protector.step P (.openCookie opening address cookie) = q :=
      CookieProtector.step_of_surroundings rfl hq
    simp only [CookieProtector.openCookie, hq] at hopen
    obtain ⟨id, created, key, hcreated, hpos, hlen, hkey, hexpired, hcookie⟩ :=
      CookieProtector.checkCookie_eq_ok_iff.mp hopen
    have hlifetimeq := CookieProtector.lifetime_rotateIfNeededLocked hq
    have hclock := hcall.2 opening.last (by simp [CookieCall.readings, Surroundings.readings])
    have hdate : created < 2 ^ 56 := created_lt_of_not_expired hcreated hclock.1 hclock.2
      (by rw [hlifetimeq, hsame]; exact hlifetime) hexpired
    have hcut : cookie.length - cookieMACSize = (cookieHead id created hash).length := by
      rw [hcookie, List.length_append, CookieProtector.cookieMAC, P.hmac_length]
      exact Nat.add_sub_cancel _ _
    have hhead : cookie.headD 0 = id := by rw [hcookie]; rfl
    -- the tag that verifies was computed by `seal`, with the same secret
    obtain ⟨c, hc, hsecret, hinput⟩ := hunforged key
      (by rw [hq', hhead]; exact Option.mem_def.mpr hkey)
      (by rw [hcut, hcookie, List.take_left, List.drop_left])
    rw [hcut, hcookie, List.take_left] at hinput
    have hnextkey : (h.step P (.openCookie opening address cookie)).protector.keyFor id =
        some key := (congrArg (CookieProtector.keyFor · id) hq').trans hkey
    obtain ⟨hid, hmem⟩ := mem_of_keyFor hnext hnextkey
    have hsealing := hnext.sealing c (List.mem_append_right _ hc)
    have hids : c.key.id = 0 ↔ id = 0 := by
      rw [← hid]
      exact ⟨hsecrets c.key hsealing key hmem hsecret,
        hsecrets key hmem c.key hsealing hsecret.symm⟩
    unfold SealedCookie.head at hinput
    have haddress : c.address = address :=
      append_cookieHead_inj (hrecorded.address c hc) (hcall.1 address rfl)
        (Nat.lt_of_le_of_lt (hrecorded.dated c hc) (by decide)) hdate hids hinput
    rw [haddress, List.append_cancel_left_eq] at hinput
    obtain ⟨-, hstamp, hhash⟩ := cookieHead_inj c.sealedAt.unix_lt hcreated hinput
    refine ⟨c, hc, haddress, ?_, hhash, ?_⟩
    · rw [hrecorded.cookie c hc, SealedCookie.head, hinput, haddress, hsecret, ← hcookie]
    · rw [CookieProtector.expired, decide_eq_false_iff_not, not_or, ← hstamp, hlifetimeq,
        hsame] at hexpired
      have hpositive := p.positive
      have hday : (86400 : Int) * second < maxDuration := by decide
      have hage := hexpired.2
      rw [Instant.lt_sub_iff (by unfold minDuration; omega) (by omega)] at hage
      have hle := c.sealedAt.ofUnix_unix_le
      omega

theorem sampleSecret_long : 32 ≤ (List.replicate 32 (7 : UInt8)).length := by decide

theorem minute_bounds : minDuration ≤ minute ∧ minute ≤ maxDuration := by decide

theorem minute_pos : 0 < minute := by decide

/-- A protector that is rotated by calls only, with its first key made in 2004. -/
def sampleKeyed : CookieProtector where
  current := ⟨5, List.replicate 32 7, sampleSecret_long⟩
  previous := none
  lifetime := ⟨minute, minute_bounds⟩
  rand := false
  rotated := ofUnix (2 ^ 30)
  positive := minute_pos

instance (call : CookieCall) : Decidable call.Plausible :=
  inferInstanceAs (Decidable (_ ∧ _))

instance (h : CookieHistory) (s : Surroundings) (address cookie : Bytes) :
    Decidable (h.Unforged P s address cookie) :=
  inferInstanceAs (Decidable (∀ _ ∈ _, _ → _))

instance (keys : List CookieKey) : Decidable (ZeroSecretsDistinct keys) :=
  inferInstanceAs (Decidable (∀ _ ∈ keys, ∀ _ ∈ keys, _ → _ → _))

/-- A cookie opened ten seconds after it was sealed. -/
theorem openCookie_returned_sample :
    let sealing := CookieCall.sealCookie (CookieProtector.readingAt (2 ^ 30) (2 ^ 30)) [9] [1, 66]
    let opening := CookieProtector.readingAt (2 ^ 30 + 10) (2 ^ 30 + 10)
    let h := RunSystem.run (step .checksum) (start sampleKeyed) [sealing]
    ∃ cookie, (h.protector.openCookie .checksum opening [9] cookie).1 = .ok [1, 66] ∧
      ∃ c ∈ h.returned, c.address = [9] ∧ c.cookie = cookie ∧ c.hash = [1, 66] ∧
        opening.last.ns ≤ c.sealedAt.ns + sampleKeyed.lifetime.val := by
  intro sealing opening h
  refine ⟨(h.returned.map SealedCookie.cookie).headD [], by decide +kernel, ?_⟩
  apply openCookie_returned sampleKeyed [sealing] opening
  all_goals decide +kernel

/-- One secret under the identifier 0 and another one is enough for a cookie to move to
another address. A cookie is sealed for the address 9 under the identifier 5, the same
secret is installed under the identifier 0, and when the clock reads the value
that the shifted creation second spells, the cookie without its first byte is
good for the address 9, 5. Tags are not forged: the input of the tag is the same. -/
theorem openCookie_returned_shared_secret :
    let calls := [
      CookieCall.sealCookie (CookieProtector.readingAt (2 ^ 30) (2 ^ 30)) [9] [1, 66],
      CookieCall.rotate 0 (List.replicate 32 7) (Instant.ofUnix (2 ^ 38))]
    let opening := CookieProtector.readingAt (2 ^ 38 + 2) (2 ^ 38 + 2)
    let h := RunSystem.run (step .checksum) (start sampleKeyed) calls
    sampleKeyed.lifetime.val ≤ 86400 * second ∧
    ∃ cookie, (∀ call ∈ calls ++ [.openCookie opening [9, 5] cookie], call.Plausible) ∧
      h.Unforged .checksum opening [9, 5] cookie ∧
      (h.protector.openCookie .checksum opening [9, 5] cookie).1 = .ok [66] ∧
      ∀ c ∈ h.returned, c.address ≠ [9, 5] ∧ c.cookie ≠ cookie := by
  intro calls opening h
  refine ⟨by decide, ((h.returned.map SealedCookie.cookie).headD []).tail, ?_⟩
  decide +kernel

end CookieHistory

end Dtls13
