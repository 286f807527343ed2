import Dtls13.Hello.Accepted

/-! # What is accepted was written

A reader that succeeds has read exactly the encoding of what it returns. For a
ClientHello this bounds its length, and puts the binders at its end.
-/

namespace Dtls13

open ByteCodec StateLogic WireParser OrderedExtension List

namespace WireParser

theorem parse_vector_eq_ok {width : Nat} {b xs : Bytes} (hok : parse (vector width) b = .ok xs) :
    b = vectorBytes width xs ∧ xs.length < 256 ^ width := by
  have hvector := vector_eq_ok (eq_ok_of_parse hok)
  rwa [append_nil] at hvector

theorem orError_eq_ok {α : Type} {p : WireParser α} {err : Err} {b rest : Bytes} {value : α}
    (hok : p.orError err b = .ok value rest) : p b = .ok value rest := by
  unfold orError at hok
  split at hok
  next first final hfirst =>
    cases hok
    exact hfirst
  next => cases hok

end WireParser

/-! ## Extensions -/

theorem parseOrderedExtension_eq_ok {b rest : Bytes} {e : OrderedExtension}
    (hok : parseOrderedExtension b = .ok e rest) : b = e.bytes ++ rest := by
  obtain ⟨typ, mid, htyp, hok⟩ := exists_of_bind_apply_eq_ok hok
  obtain ⟨value, final, hvalue, hok⟩ := exists_of_bind_apply_eq_ok hok
  cases hok
  rw [(uint_eq_ok htyp).1, (vector_eq_ok hvalue).1, bytes, append_assoc]

theorem parseExtensionItems_eq_ok {fuel : Nat} {seen exts : List OrderedExtension}
    {b rest : Bytes} (hseen : (seen.map typ).Nodup)
    (hok : parseExtensionItems fuel seen b = .ok exts rest) : (exts.map typ).Nodup ∧
      ∃ found, exts = seen ++ found ∧ b = found.flatMap bytes ++ rest := by
  induction fuel generalizing seen b with
  | zero =>
    cases hok
    exact ⟨hseen, [], by simp⟩
  | succ fuel ih =>
    obtain ⟨input, _, hget, hok⟩ := exists_of_bind_apply_eq_ok hok
    cases hget
    split at hok
    next =>
      cases hok
      exact ⟨hseen, [], by simp⟩
    next =>
      obtain ⟨e, mid, he, hok⟩ := exists_of_bind_apply_eq_ok hok
      split at hok
      next => cases hok
      next hfresh =>
        have hnodup : ((seen ++ [e]).map typ).Nodup := by
          rw [map_append, nodup_append]
          refine ⟨hseen, nodup_singleton _, ?_⟩
          rintro typ htyp other hother rfl
          obtain ⟨item, hitem, rfl⟩ := mem_map.mp htyp
          apply hfresh
          rw [any_eq_true]
          exact ⟨item, hitem, by simpa using hother⟩
        obtain ⟨hall, found, rfl, hmid⟩ := ih hnodup hok
        refine ⟨hall, e :: found, by simp, ?_⟩
        rw [parseOrderedExtension_eq_ok he, hmid, flatMap_cons, append_assoc]

theorem parseOrderedExtensions_eq_ok {b : Bytes} {exts : List OrderedExtension}
    (hok : parseOrderedExtensions b = .ok exts) : b = vectorBytes 2 (exts.flatMap bytes) ∧
      (exts.flatMap bytes).length < 256 ^ 2 ∧ (exts.map typ).Nodup := by
  obtain ⟨raw, hraw, hok⟩ := bind_eq_ok.mp hok
  obtain ⟨hb, hlength⟩ := parse_vector_eq_ok hraw
  obtain ⟨hnodup, found, rfl, hfound⟩ :=
    parseExtensionItems_eq_ok (by simp) (eq_ok_of_parse hok)
  rw [append_nil] at hfound
  rw [← hfound]
  exact ⟨hb, hlength, hnodup⟩

/-! ## Offers of pre-shared keys -/

theorem consumes_parsePskIdentity : WireParser.Consumes
    (parsePskIdentity.orError (decodeError "invalid pre_shared_key identity"))
    PskIdentityEntry.bytes
    (fun entry => entry.identity ≠ [] ∧ entry.identity.length ≤ 65535) := by
  intro b entry rest hok
  obtain ⟨identity, mid, hidentity, hok⟩ :=
    exists_of_bind_apply_eq_ok (orError_eq_ok hok)
  obtain ⟨age, final, hage, hok⟩ := exists_of_bind_apply_eq_ok hok
  obtain ⟨hb, hlength⟩ := vector_eq_ok hidentity
  obtain ⟨hmid, hlt⟩ := uint_eq_ok hage
  split at hok
  next => cases hok
  next hne =>
    cases hok
    refine ⟨?_, hne, Nat.le_of_lt_succ hlength⟩
    rw [hb, hmid, PskIdentityEntry.bytes, append_assoc, UInt32.toNat_ofNat_of_lt' hlt]

theorem consumes_parsePskBinder : WireParser.Consumes
    (parsePskBinder.orError (decodeError "invalid pre_shared_key binder length"))
    (vectorBytes 1) (fun binder => 32 ≤ binder.length ∧ binder.length ≤ 255) := by
  intro b binder rest hok
  obtain ⟨found, mid, hfound, hok⟩ := exists_of_bind_apply_eq_ok (orError_eq_ok hok)
  obtain ⟨hb, hlength⟩ := vector_eq_ok hfound
  split at hok
  next => cases hok
  next hlong =>
    cases hok
    exact ⟨hb, Nat.le_of_not_lt hlong, Nat.le_of_lt_succ hlength⟩

theorem parseClientPSKs_eq_ok {b : Bytes} {identities : List PskIdentityEntry}
    {binders : List Bytes} (hok : parseClientPSKs b = .ok (identities, binders)) :
    PskOffer identities binders b := by
  obtain ⟨⟨rawIdentities, rawBinders⟩, hvectors, hok⟩ := bind_eq_ok.mp hok
  simp only [bind_eq_ok] at hok
  obtain ⟨identityList, hidentities, binderList, hbinders, _, hcounts, hok⟩ := hok
  cases hok
  rw [require_eq_ok] at hcounts
  obtain ⟨_, mid, hfirst, hvectors⟩ :=
    exists_of_bind_apply_eq_ok (eq_ok_of_parse hvectors)
  obtain ⟨_, final, hsecond, hvectors⟩ := exists_of_bind_apply_eq_ok hvectors
  cases hvectors
  obtain ⟨hb, hfirstLength⟩ := vector_eq_ok hfirst
  obtain ⟨hmid, hsecondLength⟩ := vector_eq_ok hsecond
  obtain ⟨hidentityBytes, hidentity⟩ :=
    items_eq_ok consumes_parsePskIdentity (eq_ok_of_parse hidentities)
  obtain ⟨hbinderBytes, hbinder⟩ :=
    items_eq_ok consumes_parsePskBinder (eq_ok_of_parse hbinders)
  rw [append_nil] at hidentityBytes hbinderBytes hmid
  refine ⟨hcounts.1, hcounts.2, hidentity, hbinder, ?_, ?_, ?_⟩
  · rw [← hidentityBytes]
    exact Nat.le_of_lt_succ hfirstLength
  · rw [← hbinderBytes]
    exact Nat.le_of_lt_succ hsecondLength
  · rw [hb, hmid, hidentityBytes, hbinderBytes]

/-! ## The whole hello -/

theorem parseHelloFields_eq_ok {b : Bytes} {fields : HelloFields}
    (hok : parse parseHelloFields b = .ok fields) :
    b = fields.random ++ (vectorBytes 1 fields.sessionID ++ (vectorBytes 1 fields.legacyCookie ++
        (vectorBytes 2 fields.suites ++ (vectorBytes 1 fields.compression ++ fields.extensions)))) ∧
      fields.random.length = 32 ∧ fields.sessionID.length < 256 ^ 1 ∧
      fields.legacyCookie.length < 256 ^ 1 ∧ fields.suites.length < 256 ^ 2 ∧
      fields.compression.length < 256 ^ 1 := by
  obtain ⟨random, s₁, hrandom, hok⟩ := exists_of_bind_apply_eq_ok (eq_ok_of_parse hok)
  obtain ⟨sessionID, s₂, hsession, hok⟩ := exists_of_bind_apply_eq_ok hok
  obtain ⟨cookie, s₃, hcookie, hok⟩ := exists_of_bind_apply_eq_ok hok
  obtain ⟨suites, s₄, hsuites, hok⟩ := exists_of_bind_apply_eq_ok hok
  obtain ⟨compression, s₅, hcompression, hok⟩ := exists_of_bind_apply_eq_ok hok
  obtain ⟨_, _, hget, hok⟩ := exists_of_bind_apply_eq_ok hok
  cases hget
  obtain ⟨extensions, s₆, hextensions, hok⟩ := exists_of_bind_apply_eq_ok hok
  cases hok
  obtain ⟨rfl, hrandomLength⟩ := take_eq_ok hrandom
  obtain ⟨rfl, hsessionLength⟩ := vector_eq_ok hsession
  obtain ⟨rfl, hcookieLength⟩ := vector_eq_ok hcookie
  obtain ⟨rfl, hsuitesLength⟩ := vector_eq_ok hsuites
  obtain ⟨rfl, hcompressionLength⟩ := vector_eq_ok hcompression
  obtain ⟨hrest, _⟩ := take_eq_ok hextensions
  rw [append_nil] at hrest
  subst hrest
  exact ⟨rfl, hrandomLength, hsessionLength, hcookieLength, hsuitesLength, hcompressionLength⟩

/-- An accepted hello fits the length field of a handshake message. -/
theorem parseClientHello_length_lt {distinguishedName : Bytes → Bool} {body : Bytes}
    {q : ClientHello} (hok : parseClientHello distinguishedName body = .ok q) :
    body.length < 256 ^ 3 := by
  obtain ⟨fields, exts, _, hfields, hexts, _⟩ := accepted_of_parseClientHello hok
  obtain ⟨hbody, hrandom, hsession, hcookie, hsuites, hcompression⟩ :=
    parseHelloFields_eq_ok hfields
  obtain ⟨hextensions, htotal, _⟩ := parseOrderedExtensions_eq_ok hexts
  have hdrop := congrArg List.length hbody
  simp only [hextensions, vectorBytes, length_append, length_drop, beBytes_length, hrandom] at hdrop
  omega

/-- The binders of an accepted offer are the last bytes of the hello. -/
theorem parseClientHello_binders {distinguishedName : Bytes → Bool} {body : Bytes}
    {q : ClientHello} (hok : parseClientHello distinguishedName body = .ok q)
    (hbinders : q.pskBinders ≠ []) : (q.pskBinders.flatMap (vectorBytes 1)).length < 256 ^ 2 ∧
      (∀ binder ∈ q.pskBinders, 32 ≤ binder.length) ∧
      ∃ covered, body = covered ++ vectorBytes 2 (q.pskBinders.flatMap (vectorBytes 1)) := by
  obtain ⟨fields, exts, _, hfields, hexts, _, hacc⟩ := accepted_of_parseClientHello hok
  obtain ⟨hbody, _⟩ := parseHelloFields_eq_ok hfields
  obtain ⟨hextensions, _, hnodup⟩ := parseOrderedExtensions_eq_ok hexts
  have hparse := hacc.psk
  unfold parseField at hparse
  split at hparse
  next =>
    exact absurd (Prod.mk.inj (Except.ok.inj hparse)).2.symm hbinders
  next raw hraw =>
    obtain ⟨_, hlast, hparse⟩ := bind_eq_ok.mp hparse
    obtain ⟨_, _, hparse⟩ := bind_eq_ok.mp hparse
    have hoffer := parseClientPSKs_eq_ok hparse
    refine ⟨Nat.lt_succ_of_le hoffer.bindersFit, fun binder hb => (hoffer.binder binder hb).1, ?_⟩
    -- the extension found by its type is the last one
    obtain ⟨e, he, htyp⟩ := Option.map_eq_some_iff.mp (require_eq_ok.mp hlast)
    obtain ⟨before, rfl⟩ := List.getLast?_eq_some_iff.mp he
    have hvalue := orderedExtensionValue_of_mem hnodup (e := e) (by simp)
    rw [htyp, hraw] at hvalue
    have hpsk : vectorBytes 2 (q.pskBinders.flatMap (vectorBytes 1)) <:+ e.value := by
      rw [← Option.some.inj hvalue, hoffer.bytes]
      exact suffix_append _ _
    have hlastBytes : e.value <:+ e.bytes :=
      (suffix_append _ _).trans (suffix_append _ _)
    have hall : e.bytes <:+ fields.extensions := by
      rw [hextensions, flatMap_append, flatMap_singleton]
      exact (suffix_append _ _).trans (suffix_append _ _)
    have hend : fields.extensions <:+ body := by
      apply List.IsSuffix.trans _ (drop_suffix 2 body)
      rw [hbody]
      simp only [← append_assoc]
      exact suffix_append _ _
    obtain ⟨covered, hcovered⟩ := hpsk.trans (hlastBytes.trans (hall.trans hend))
    exact ⟨covered, hcovered.symm⟩

end Dtls13
