import Dtls13.Cookie.Protector

/-! # Cookies across rotation

A key is rotated lazily, by whichever call first finds it old enough. The
rotation after the one that retires a key is due half a lifetime later, so the key of a cookie
is the current or the previous one until half the lifetime after it was sealed.
-/

namespace Dtls13

open ByteCodec WallClock Instant RunSystem

namespace CookieProtector

variable {P : Primitives} {p q : CookieProtector}

/-- The key is the current one, or it is the previous one and was retired no
earlier than `t`. -/
def Retains (key : CookieKey) (t : Instant) (p : CookieProtector) : Prop :=
  p.current = key ∨ p.previous = some key ∧ p.current.id = key.id + 1 ∧ t.ns ≤ p.rotated.ns

variable {key : CookieKey} {t : Instant} {s : Surroundings}

/-- Identifiers wrap around, but two successive ones always differ. -/
theorem Retains.keyFor (hp : p.Retains key t) : p.keyFor key.id = some key := by
  obtain rfl | ⟨hprevious, hid, _⟩ := hp
  · simp [CookieProtector.keyFor]
  · have hne : key.id ≠ p.current.id := by
      rw [hid]
      intro heq
      have := congrArg UInt8.toNat heq
      simp only [UInt8.toNat_add, UInt8.toNat_one] at this
      have := key.id.toNat_lt
      omega
    simp [CookieProtector.keyFor, hne, hprevious]

theorem Retains.rotateIfNeeded (hp : p.Retains key t) (hrotating : t.ns ≤ s.rotating.ns)
    (hchecked : s.checked.ns < t.ns + p.lifetime.val / 2)
    (hq : p.rotateIfNeededLocked s = .ok q) : q.Retains key t := by
  obtain rfl | ⟨hdue, hprevious, hid, hrotated, _⟩ := rotateIfNeededLocked_cases hq
  · exact hp
  · obtain rfl | ⟨_, _, hretired⟩ := hp
    · exact .inr ⟨hprevious, hid, hrotated ▸ hrotating⟩
    · -- the next rotation is not due before half a lifetime after the last one
      have hlifetime := p.lifetime.property
      have hpositive := p.positive
      have hearly : s.checked.sub p.rotated < p.lifetime.val / 2 := by
        refine (sub_lt_iff ?_ ?_).mpr ?_ <;> unfold minDuration maxDuration at * <;> omega
      omega

/-- The calls that a cookie sealed at `t` outlives: calls of seal and open with
working randomness whose readings lie from `t` up to half a lifetime later. -/
def Timely (t : Instant) (lifetime : Duration) (call : CookieCall) : Prop :=
  ∃ s, call.surroundings = some s ∧ s.random.isSome ∧ t.ns ≤ s.rotating.ns ∧
    s.checked.ns < t.ns + lifetime.val / 2

theorem Retains.step (hp : p.Retains key t) {call : CookieCall} (hcall : Timely t p.lifetime call) :
    (p.step P call).Retains key t := by
  obtain ⟨s, hs, hrandom, hrotating, hchecked⟩ := hcall
  obtain ⟨q, hq⟩ := p.exists_rotateIfNeededLocked hrandom
  rw [step_of_surroundings hs hq]
  exact hp.rotateIfNeeded hrotating hchecked hq

theorem lifetime_run (p : CookieProtector) (calls : List CookieCall) :
    (run (step P) p calls).lifetime = p.lifetime := by
  have hkept : ∀ (q : CookieProtector) call, q.lifetime = p.lifetime →
      (q.step P call).lifetime = p.lifetime :=
    fun q call hq => (lifetime_step q call).trans hq
  exact run_invariant_all hkept rfl calls

theorem Retains.run (hp : p.Retains key t) {calls : List CookieCall}
    (hcalls : ∀ call ∈ calls, Timely t p.lifetime call) :
    (run (CookieProtector.step P) p calls).Retains key t := by
  have hkept : ∀ (q : CookieProtector) call, q.Retains key t ∧ q.lifetime = p.lifetime →
      Timely t p.lifetime call →
        (q.step P call).Retains key t ∧ (q.step P call).lifetime = p.lifetime := by
    intro q call ⟨hq, hlifetime⟩ hcall
    exact ⟨hq.step (hlifetime ▸ hcall), (lifetime_step q call).trans hlifetime⟩
  exact (run_invariant hkept ⟨hp, rfl⟩ (along_of_forall hcalls)).1

/-- What a successful seal returns, and that its key is retained from then on. -/
theorem sealCookie_eq_ok {address hash cookie : Bytes}
    (hseal : p.sealCookie P s address hash = (.ok cookie, q)) :
    p.rotateIfNeededLocked s = .ok q ∧ 0 < hash.length ∧ hash.length ≤ 255 ∧
      cookie = cookieHead q.current.id s.last.unix hash ++
        cookieMAC P q.current.secret address (cookieHead q.current.id s.last.unix hash) := by
  unfold sealCookie at hseal
  split at hseal
  · simp at hseal
  next next hnext =>
    split at hseal
    · simp at hseal
    · simp only [Prod.mk.injEq, Except.ok.injEq] at hseal
      obtain ⟨rfl, rfl⟩ := hseal
      refine ⟨hnext, ?_, ?_, rfl⟩ <;> omega

/-- A creation second less than the lifetime back is not expired. -/
theorem expired_unix_eq_false {now : Instant} (hafter : t.ns ≤ now.ns)
    (hbefore : now.ns < t.ns + p.lifetime.val / 2) (hlifetime : 2 * second ≤ p.lifetime.val) :
    p.expired now t.unix = false := by
  have hle := t.ofUnix_unix_le
  have hlt := t.lt_ofUnix_unix_add
  have hbound := p.lifetime.property
  have hsub : now.sub (ofUnix t.unix) ≤ p.lifetime.val := by
    unfold sub
    unfold second minDuration maxDuration at *
    omega
  rw [expired, decide_eq_false_iff_not, not_or]
  unfold minute second at *
  omega

/-- A cookie whose creation second is more than the lifetime back is refused,
unless the lifetime is the greatest duration, which no age exceeds. -/
theorem checkCookie_of_expired {address other hash cookie : Bytes} {sealing : CookieProtector}
    {opening : Surroundings} (hseal : p.sealCookie P s address hash = (.ok cookie, sealing))
    (hlifetime : q.lifetime.val < maxDuration)
    (hlate : s.last.ns / second * second + q.lifetime.val < opening.last.ns) :
    ∃ err, (q.openCookie P opening other cookie).1 = .error err := by
  cases hresult : (q.openCookie P opening other cookie).1 with
  | error err => exact ⟨err, rfl⟩
  | ok opened =>
    exfalso
    unfold openCookie at hresult
    split at hresult
    · cases hresult
    next next hnext =>
      obtain ⟨id, created, used, hcreated, _, _, _, hexpired, hcookie⟩ :=
        checkCookie_eq_ok_iff.mp hresult
      obtain ⟨_, _, _, rfl⟩ := sealCookie_eq_ok hseal
      -- both heads hold the same eight bytes of the creation second
      have hbytes : beBytes 8 s.last.unix = beBytes 8 created := by
        rw [← cookieHead_append_created, hcookie, cookieHead_append_created]
      rw [← beBytes_inj s.last.unix_lt hcreated hbytes, expired, decide_eq_false_iff_not,
        not_or, lifetime_rotateIfNeededLocked hnext] at hexpired
      apply hexpired.2
      have hpositive := q.positive
      have hdue := s.last.ofUnix_unix
      refine (lt_sub_iff ?_ hlifetime).mpr ?_
      · unfold minDuration
        omega
      · omega

/-- With a clock that does not go back and working randomness, a cookie is
accepted for its address at every time from its sealing up to half the lifetime
later, however many calls others make in between; and it is refused at every
time more than the lifetime after its creation second. The key that sealed it
may have been retired once, never twice. -/
theorem openCookie_across_rotation {address hash cookie : Bytes} {sealing : CookieProtector}
    (calls : List CookieCall) (opening : Surroundings) (hlifetime : 2 * second ≤ p.lifetime.val)
    (hseal : p.sealCookie P s address hash = (.ok cookie, sealing))
    (hcalls : ∀ call ∈ calls, ∃ c, call.surroundings = some c ∧ c.random.isSome)
    (hrandom : opening.random.isSome)
    (hclock : (s.last :: calls.flatMap CookieCall.readings ++ opening.readings).Pairwise
      fun earlier later => earlier.ns ≤ later.ns) :
    (opening.last.ns < s.last.ns + p.lifetime.val / 2 →
      ((RunSystem.run (step P) sealing calls).openCookie P opening address cookie).1 = .ok hash) ∧
    (p.lifetime.val < maxDuration → s.last.ns / second * second + p.lifetime.val < opening.last.ns →
        ∃ err, ((RunSystem.run (step P) sealing calls).openCookie P opening address cookie).1 =
          .error err) := by
  obtain ⟨hnext, hpos, hshort, hcookie⟩ := sealCookie_eq_ok hseal
  have hsealing := lifetime_rotateIfNeededLocked hnext
  have hend := (lifetime_run (P := P) sealing calls).trans hsealing
  constructor
  · intro hbefore
    rw [List.cons_append, List.pairwise_cons, List.pairwise_append] at hclock
    obtain ⟨hfrom, _, hopening, hupto⟩ := hclock
    -- every reading lies between the stamp and the last reading of the opening call
    have htimely : ∀ call ∈ calls, Timely s.last sealing.lifetime call := by
      intro call hmem
      obtain ⟨c, hc, hsome⟩ := hcalls call hmem
      have hreadings : ∀ r ∈ c.readings, r ∈ calls.flatMap CookieCall.readings := by
        intro r hr
        refine List.mem_flatMap.mpr ⟨call, hmem, ?_⟩
        cases call <;> cases hc
        all_goals exact hr
      refine ⟨c, hc, hsome, ?_, ?_⟩
      · exact hfrom _ (List.mem_append_left _ (hreadings _ (by simp [Surroundings.readings])))
      · have := hupto c.checked (hreadings _ (by simp [Surroundings.readings])) opening.last
          (by simp [Surroundings.readings])
        rw [hsealing]
        omega
    have hretains : (RunSystem.run (step P) sealing calls).Retains sealing.current s.last :=
      Retains.run (.inl rfl) htimely
    have hrotating := hfrom opening.rotating
      (List.mem_append_right _ (by simp [Surroundings.readings]))
    have hlast := hfrom opening.last (List.mem_append_right _ (by simp [Surroundings.readings]))
    have hchecked : opening.checked.ns ≤ opening.last.ns := by
      simp only [Surroundings.readings, List.pairwise_cons] at hopening
      exact hopening.1 _ (by simp)
    generalize RunSystem.run (step P) sealing calls = current at hend hretains ⊢
    obtain ⟨next, hq⟩ := current.exists_rotateIfNeededLocked hrandom
    have hkey := (hretains.rotateIfNeeded hrotating (by rw [hend]; omega) hq).keyFor
    have hlast' := lifetime_rotateIfNeededLocked hq
    simp only [openCookie, hq]
    refine checkCookie_eq_ok_iff.mpr ⟨_, _, _, s.last.unix_lt, hpos, hshort, hkey, ?_, hcookie⟩
    apply expired_unix_eq_false hlast <;> rw [hlast', hend] <;> assumption
  · intro hbound hlate
    exact checkCookie_of_expired hseal (hend ▸ hbound) (hend ▸ hlate)

/-- A protector whose next key identifier is zero. -/
def sample (lifetime : Duration) (positive : 0 < lifetime.val) : CookieProtector where
  current := ⟨255, List.replicate 32 7, by decide⟩
  previous := none
  lifetime := lifetime
  rand := true
  rotated := ofUnix 0
  positive := positive

/-- A call that reads the clock at whole seconds. -/
def readingAt (checked last : Nat) : Surroundings where
  checked := ofUnix checked
  rotating := ofUnix last
  last := ofUnix last
  random := some (Vector.replicate 32 9)

/-- With a lifetime of a minute, a cookie sealed just before the rotation at 30
seconds is accepted half a minute later under the wrapped identifier, and
refused after the minute. -/
theorem openCookie_across_rotation_wrapping : ∃ cookie sealing,
      (sample ⟨minute, by decide⟩ (by decide)).sealCookie .checksum (readingAt 29 29) [1] [2] =
        (.ok cookie, sealing) ∧
      ((RunSystem.run (step .checksum) sealing [.sealCookie (readingAt 30 31) [3] [4]]).openCookie
        .checksum (readingAt 58 58) [1] cookie).1 = .ok [2] ∧
      ∃ err, ((RunSystem.run (step .checksum) sealing
        [.sealCookie (readingAt 30 31) [3] [4]]).openCookie
          .checksum (readingAt 90 90) [1] cookie).1 = .error err := by
  have hcalls : ∀ call ∈ [CookieCall.sealCookie (readingAt 30 31) [3] [4]],
      ∃ c, call.surroundings = some c ∧ c.random.isSome := by
    simp [CookieCall.surroundings, readingAt]
  have hseal : (sample ⟨minute, by decide⟩ (by decide)).sealCookie .checksum (readingAt 29 29)
    [1] [2] = (.ok _, _) := rfl
  refine ⟨_, _, hseal, ?_, ?_⟩
  · exact (openCookie_across_rotation _ (readingAt 58 58) (by decide) hseal hcalls rfl
      (by decide)).1 (by decide)
  · exact (openCookie_across_rotation _ (readingAt 90 90) (by decide) hseal hcalls rfl
      (by decide)).2 (by decide) (by decide)

/-- The bounds are those of the durations. With a lifetime of an odd number of
nanoseconds the half is rounded down: less than half a lifetime after its
sealing, a cookie is refused when the key was rotated twice. And with the
greatest lifetime a cookie is accepted however long ago it was made. -/
theorem openCookie_across_rotation_rounded : (∃ cookie sealing,
      (sample ⟨2 * second + 1, by decide⟩ (by decide)).sealCookie .checksum
        (readingAt 0 1) [1] [2] = (.ok cookie, sealing) ∧
      2 * ((readingAt 2 2).last.ns - (readingAt 0 1).last.ns) < 2 * second + 1 ∧
      ((RunSystem.run (step .checksum) sealing [.sealCookie (readingAt 1 1) [3] [4]]).openCookie
        .checksum (readingAt 2 2) [1] cookie).1 = .error invalidCookieError) ∧
    ∃ cookie sealing, (sample ⟨maxDuration, by decide⟩ (by decide)).sealCookie .checksum
        (readingAt 0 0) [1] [2] = (.ok cookie, sealing) ∧
      (readingAt 0 0).last.ns / second * second + maxDuration <
        (readingAt 9223372037 9223372037).last.ns ∧
      (sealing.openCookie .checksum (readingAt 9223372037 9223372037) [1] cookie).1 = .ok [2] := by
  refine ⟨⟨_, _, rfl, ?_, ?_⟩, _, _, rfl, ?_, ?_⟩ <;> decide +kernel

end CookieProtector

end Dtls13
