import Mathlib.Data.List.Forall2
import Mathlib.Data.List.Induction
import Mathlib.Data.List.Nodup
import Mathlib.Data.Set.Basic
import Dtls13.Lib.RunSystem

/-! # Items under changing numbers

Items that are sent under a number and, until they are done, again under further
numbers. A step gives an item a number that was never spent, or replaces all items
by new ones. Over a whole run a number then belongs to one item, and the numbers of
an item are those it had in the states since the items were last replaced.
-/

namespace Renumbering

open RunSystem List

variable {ν ω κ : Type*}

/-- An item: its number and the earlier ones, the last one first, its image under
the current number, what it carries, and whether it is done. -/
structure Item (ν ω κ : Type*) where
  number : ν
  earlier : List ν
  image : ω
  content : κ
  done : Bool

namespace Item

def numbers (x : Item ν ω κ) : List ν := x.number :: x.earlier

/-- A step on one item: it keeps its number, or takes one that was not spent. -/
inductive Step (spent : Set ν) (x y : Item ν ω κ) : Prop where
  | kept (hnumbers : y.numbers = x.numbers) (himage : y.image = x.image)
      (hcontent : y.content = x.content) (hdone : x.done = true → y.done = true)
  | renewed (hdone : x.done = false) (hearlier : y.earlier = x.numbers)
      (hcontent : y.content = x.content) (hfresh : y.number ∉ spent)

/-- Any number of steps on one item. -/
structure Descends (spent : Set ν) (x y : Item ν ω κ) (new : List ν) : Prop where
  numbers : y.numbers = new ++ x.numbers
  fresh : ∀ n ∈ new, n ∉ spent
  image : new = [] → y.image = x.image
  content : y.content = x.content
  done : x.done = true → y.done = true ∧ new = []

variable {spent more : Set ν} {x y z : Item ν ω κ}

theorem Step.descends (hstep : Step spent x y) : ∃ new, Descends spent x y new := by
  cases hstep with
  | kept hnumbers himage hcontent hdone =>
    exact ⟨[], hnumbers, by simp, fun _ => himage, hcontent, fun h => ⟨hdone h, rfl⟩⟩
  | renewed hdone hearlier hcontent hfresh =>
    refine ⟨[y.number], ?_, by simpa using hfresh, nofun, hcontent, fun h => ?_⟩
    · rw [Item.numbers, hearlier]
      rfl
    · rw [hdone] at h
      cases h

theorem Descends.refl (spent : Set ν) (x : Item ν ω κ) : Descends spent x x [] :=
  ⟨rfl, by simp, fun _ => rfl, rfl, fun h => ⟨h, rfl⟩⟩

theorem Descends.trans {new new' : List ν} (hfirst : Descends spent x y new)
    (hsecond : Descends more y z new') (hspent : spent ⊆ more) :
    Descends spent x z (new' ++ new) where
  numbers := by rw [hsecond.numbers, hfirst.numbers, append_assoc]
  fresh n hn := by
    rcases mem_append.mp hn with hlater | hearlier
    · exact fun hmem => hsecond.fresh n hlater (hspent hmem)
    · exact hfirst.fresh n hearlier
  image hnil := by
    obtain ⟨hnew', hnew⟩ := append_eq_nil_iff.mp hnil
    rw [hsecond.image hnew', hfirst.image hnew]
  content := hsecond.content.trans hfirst.content
  done hx := by
    obtain ⟨hy, rfl⟩ := hfirst.done hx
    obtain ⟨hz, rfl⟩ := hsecond.done hy
    exact ⟨hz, rfl⟩

end Item

/-- The items at one moment, the numbers spent so far, and how often all items were
replaced. -/
structure Snapshot (ν ω κ : Type*) where
  generation : Nat
  spent : Set ν
  items : List (Item ν ω κ)

namespace Snapshot

/-- The numbers of the items are spent, and no two items share one. -/
structure Valid (s : Snapshot ν ω κ) : Prop where
  spent : ∀ x ∈ s.items, ∀ n ∈ x.numbers, n ∈ s.spent
  nodup : (s.items.flatMap Item.numbers).Nodup

/-- One step: every item makes one, or all items are new. -/
inductive Advance (s t : Snapshot ν ω κ) : Prop where
  | kept (hgeneration : t.generation = s.generation) (hspent : s.spent ⊆ t.spent)
      (hitems : List.Forall₂ (Item.Step s.spent) s.items t.items)
  | replaced (hgeneration : t.generation = s.generation + 1) (hspent : s.spent ⊆ t.spent)
      (hitems : ∀ y ∈ t.items, y.earlier = [] ∧ y.number ∉ s.spent)

/-- Any number of steps. -/
structure Evolves (s t : Snapshot ν ω κ) : Prop where
  generation : s.generation ≤ t.generation
  spent : s.spent ⊆ t.spent
  length : s.generation = t.generation → s.items.length = t.items.length
  same : s.generation = t.generation → ∀ (i : Nat) x y, s.items[i]? = some x →
    t.items[i]? = some y → ∃ new, Item.Descends s.spent x y new
  other : s.generation < t.generation → ∀ y ∈ t.items, ∀ n ∈ y.numbers, n ∉ s.spent

variable {s t u : Snapshot ν ω κ}

theorem Evolves.refl (s : Snapshot ν ω κ) : Evolves s s where
  generation := le_rfl
  spent := Set.Subset.rfl
  length _ := rfl
  same _ i x y hx hy := by
    obtain rfl : x = y := Option.some.inj (hx.symm.trans hy)
    exact ⟨[], .refl _ _⟩
  other hlt := absurd hlt (lt_irrefl _)

theorem Evolves.trans (hst : Evolves s t) (htu : Evolves t u) : Evolves s u where
  generation := hst.generation.trans htu.generation
  spent := hst.spent.trans htu.spent
  length heq := by
    have hgeneration := hst.generation
    have hgeneration' := htu.generation
    exact (hst.length (by omega)).trans (htu.length (by omega))
  same heq i x z hx hz := by
    have hgeneration := hst.generation
    have hgeneration' := htu.generation
    have hlength := htu.length (by omega)
    obtain ⟨hlt, -⟩ := List.getElem?_eq_some_iff.mp hz
    have hy := List.getElem?_eq_getElem (l := t.items) (i := i) (by omega)
    obtain ⟨new, hfirst⟩ := hst.same (by omega) i x _ hx hy
    obtain ⟨new', hsecond⟩ := htu.same (by omega) i _ z hy hz
    exact ⟨new' ++ new, hfirst.trans hsecond hst.spent⟩
  other hlt z hz n hn := by
    have hgeneration := hst.generation
    rcases htu.generation.lt_or_eq with hlater | heq
    · exact fun hmem => htu.other hlater z hz n hn (hst.spent hmem)
    · obtain ⟨i, hz⟩ := List.getElem?_of_mem hz
      obtain ⟨hi, -⟩ := List.getElem?_eq_some_iff.mp hz
      have hlength := htu.length heq
      have hy := List.getElem?_eq_getElem (l := t.items) (i := i) (by omega)
      obtain ⟨new, hsecond⟩ := htu.same heq i _ z hy hz
      rw [hsecond.numbers] at hn
      rcases mem_append.mp hn with hnew | hold
      · exact fun hmem => hsecond.fresh n hnew (hst.spent hmem)
      · exact hst.other (by omega) _ (mem_of_getElem? hy) n hold

theorem Advance.evolves (hadvance : Advance s t) : Evolves s t := by
  cases hadvance with
  | kept hgeneration hspent hitems =>
    refine ⟨hgeneration.ge, hspent, fun _ => hitems.length_eq, fun _ i x y hx hy => ?_,
      fun hlt => absurd hlt (by omega)⟩
    obtain ⟨hi, rfl⟩ := List.getElem?_eq_some_iff.mp hx
    obtain ⟨hi', rfl⟩ := List.getElem?_eq_some_iff.mp hy
    exact (hitems.get hi hi').descends
  | replaced hgeneration hspent hitems =>
    refine ⟨by omega, hspent, fun heq => absurd heq (by omega), fun heq => absurd heq (by omega),
      fun _ y hy n hn => ?_⟩
    obtain ⟨hearlier, hfresh⟩ := hitems y hy
    rw [Item.numbers, hearlier, mem_singleton] at hn
    rwa [hn]

/-- A number of two items of one snapshot. -/
theorem Valid.eq_of_mem (hvalid : t.Valid) {i j : Nat} {x y : Item ν ω κ} {n : ν}
    (hx : t.items[i]? = some x) (hy : t.items[j]? = some y) (hn : n ∈ x.numbers)
    (hn' : n ∈ y.numbers) : i = j := by
  have hpairwise := (nodup_flatMap.mp hvalid.nodup).2
  rw [pairwise_iff_getElem] at hpairwise
  obtain ⟨hi, rfl⟩ := List.getElem?_eq_some_iff.mp hx
  obtain ⟨hj, rfl⟩ := List.getElem?_eq_some_iff.mp hy
  rcases lt_trichotomy i j with hlt | heq | hgt
  · exact absurd hn' (hpairwise i j hi hj hlt hn)
  · exact heq
  · exact absurd hn (hpairwise j i hj hi hgt hn')

/-- A number belongs to one item of one generation, under one image. -/
theorem Evolves.number_unique (hevolves : Evolves s t) (hs : s.Valid) (ht : t.Valid) {i j : Nat}
    {x y : Item ν ω κ} {n : ν} (hx : s.items[i]? = some x) (hy : t.items[j]? = some y)
    (hn : n ∈ x.numbers) (hn' : n ∈ y.numbers) :
    s.generation = t.generation ∧ i = j ∧ (x.number = y.number → x.image = y.image) := by
  have hspent : ∀ n ∈ x.numbers, n ∈ s.spent := hs.spent x (mem_of_getElem? hx)
  rcases hevolves.generation.lt_or_eq with hlt | heq
  · exact absurd (hspent n hn) (hevolves.other hlt y (mem_of_getElem? hy) n hn')
  · obtain ⟨hi, -⟩ := List.getElem?_eq_some_iff.mp hx
    have hlength := hevolves.length heq
    have hz := List.getElem?_eq_getElem (l := t.items) (i := i) (by omega)
    obtain ⟨new, hdescends⟩ := hevolves.same heq i x _ hx hz
    have hmem : n ∈ t.items[i].numbers := by
      rw [hdescends.numbers]
      exact mem_append_right _ hn
    obtain rfl := ht.eq_of_mem hz hy hmem hn'
    obtain rfl : t.items[i] = y := Option.some.inj (hz.symm.trans hy)
    refine ⟨heq, rfl, fun hnumber => ?_⟩
    cases new with
    | nil => exact (hdescends.image rfl).symm
    | cons first rest =>
      -- The current number would be a new one, but it was spent before.
      have hfirst : t.items[i].number = first := (List.cons.inj hdescends.numbers).1
      refine absurd (hspent x.number mem_cons_self) ?_
      rw [hnumber, hfirst]
      exact hdescends.fresh first mem_cons_self

end Snapshot

/-! ## Runs -/

section Runs

open Snapshot

variable {σ ε : Type*} {step : σ → ε → σ} {start : σ} {events : List ε}
  {snapshot : σ → Snapshot ν ω κ}

/-- Every event of a run is a step of the snapshots. -/
def Advances (step : σ → ε → σ) (snapshot : σ → Snapshot ν ω κ) (start : σ) (events : List ε) :
    Prop :=
  ∀ before event, before ++ [event] <+: events →
    Advance (snapshot (run step start before)) (snapshot (run step start (before ++ [event])))

theorem Advances.evolves (hadvances : Advances step snapshot start events) {before : List ε}
    (rest : List ε) (hinitial : before ++ rest <+: events) :
    Evolves (snapshot (run step start before)) (snapshot (run step start (before ++ rest))) := by
  induction rest using List.reverseRecOn with
  | nil =>
    rw [append_nil]
    exact .refl _
  | append_singleton rest event ih =>
    rw [← append_assoc] at hinitial ⊢
    exact (ih ((prefix_append _ _).trans hinitial)).trans
      (hadvances _ event hinitial).evolves

/-- The numbers of an item are those it had since the items were last replaced. -/
theorem Advances.mem_numbers_iff (hadvances : Advances step snapshot start events)
    (hstart : ∀ x ∈ (snapshot start).items, x.earlier = []) {before : List ε}
    (hinitial : before <+: events) {i : Nat} {x : Item ν ω κ}
    (hx : (snapshot (run step start before)).items[i]? = some x) {n : ν} :
    n ∈ x.numbers ↔ ∃ earlier, earlier <+: before ∧ (snapshot (run step start earlier)).generation =
        (snapshot (run step start before)).generation ∧
      ∃ old, (snapshot (run step start earlier)).items[i]? = some old ∧ old.number = n := by
  constructor
  · intro hn
    induction before using List.reverseRecOn generalizing x with
    | nil =>
      rw [Item.numbers, hstart x (mem_of_getElem? hx), mem_singleton] at hn
      exact ⟨[], prefix_rfl, rfl, x, hx, hn.symm⟩
    | append_singleton before event ih =>
      have hbefore := (prefix_append before [event]).trans hinitial
      have hnow : x.number = n → ∃ earlier, earlier <+: before ++ [event] ∧
          (snapshot (run step start earlier)).generation =
            (snapshot (run step start (before ++ [event]))).generation ∧
          ∃ old, (snapshot (run step start earlier)).items[i]? = some old ∧ old.number = n :=
        fun hnumber => ⟨_, prefix_rfl, rfl, x, hx, hnumber⟩
      cases hadvances before event hinitial with
      | replaced hgeneration hspent hitems =>
        rw [Item.numbers, (hitems x (mem_of_getElem? hx)).1, mem_singleton] at hn
        exact hnow hn.symm
      | kept hgeneration hspent hitems =>
        obtain ⟨hi, rfl⟩ := List.getElem?_eq_some_iff.mp hx
        have hi' := hitems.length_eq.trans_gt hi
        have hbeforeItem := List.getElem?_eq_getElem hi'
        have hgoal : n ∈ ((snapshot (run step start before)).items[i]).numbers →
            ∃ earlier, earlier <+: before ++ [event] ∧
            (snapshot (run step start earlier)).generation =
              (snapshot (run step start (before ++ [event]))).generation ∧
            ∃ old, (snapshot (run step start earlier)).items[i]? = some old ∧ old.number = n := by
          intro hold
          obtain ⟨earlier, hearlier, hsame, hfound⟩ := ih hbefore hbeforeItem hold
          exact ⟨earlier, hearlier.trans (prefix_append _ _), hsame.trans hgeneration.symm, hfound⟩
        cases hitems.get hi' hi with
        | kept hnumbers _ _ _ =>
          rw [get_eq_getElem, get_eq_getElem] at hnumbers
          rw [hnumbers] at hn
          exact hgoal hn
        | renewed _ hearlier _ _ =>
          rw [get_eq_getElem, get_eq_getElem] at hearlier
          rw [Item.numbers, hearlier] at hn
          rcases mem_cons.mp hn with hnew | hold
          · exact hnow hnew.symm
          · exact hgoal hold
  · rintro ⟨earlier, ⟨rest, rfl⟩, hsame, old, hold, rfl⟩
    obtain ⟨new, hdescends⟩ := (hadvances.evolves rest hinitial).same hsame i old x hold hx
    rw [hdescends.numbers]
    exact mem_append_right _ mem_cons_self

end Runs

end Renumbering
