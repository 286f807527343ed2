import Mathlib.Order.Defs.Unbundled

/-! # Reasoning about stateful code that can fail

Code that changes a state and can fail keeps, when it fails, the changes made
so far. `wp` states what holds at the end of a run, on success and on failure;
its rules execute a program symbolically. `Keeps` is the derived judgement that
every run relates its first state to its last one, whatever the outcome.
-/

namespace StateLogic

variable {ε σ τ α β : Type}

/-- Started in `state`, the program ends in `post` or fails in `fail`. -/
def wp (m : EStateM ε σ α) (post : α → σ → Prop) (fail : ε → σ → Prop) (state : σ) : Prop :=
  match m state with
  | .ok value next => post value next
  | .error err next => fail err next

theorem bind_apply (m : EStateM ε σ β) (f : β → EStateM ε σ α) (state : σ) :
    (m >>= f) state = match m state with
      | .ok value next => f value next
      | .error err next => .error err next := rfl

/-- A sequence that succeeds has succeeded in both parts. -/
theorem exists_of_bind_apply_eq_ok {m : EStateM ε σ β} {f : β → EStateM ε σ α} {state final : σ}
    {value : α} (hrun : (m >>= f) state = .ok value final) :
    ∃ first next, m state = .ok first next ∧ f first next = .ok value final := by
  rw [bind_apply] at hrun
  split at hrun
  next first next hfirst => exact ⟨first, next, hfirst, hrun⟩
  next => cases hrun

section Rules

variable {post : α → σ → Prop} {fail : ε → σ → Prop} {state : σ}

@[simp] theorem wp_pure (value : α) :
    wp (pure value : EStateM ε σ α) post fail state ↔ post value state := Iff.rfl

@[simp] theorem wp_throw (err : ε) :
    wp (throw err : EStateM ε σ α) post fail state ↔ fail err state := Iff.rfl

@[simp] theorem wp_bind (m : EStateM ε σ β) (f : β → EStateM ε σ α) : wp (m >>= f) post fail state ↔
      wp m (fun value next => wp (f value) post fail next) fail state := by
  unfold wp
  change (match EStateM.bind m f state with | .ok a n => _ | .error e n => _) ↔ _
  unfold EStateM.bind
  cases m state <;> rfl

@[simp] theorem wp_get {post : σ → σ → Prop} :
    wp (get : EStateM ε σ σ) post fail state ↔ post state state := Iff.rfl

@[simp] theorem wp_set {post : PUnit → σ → Prop} (next : σ) :
    wp (set next : EStateM ε σ PUnit) post fail state ↔ post ⟨⟩ next := Iff.rfl

@[simp] theorem wp_modify {post : PUnit → σ → Prop} (f : σ → σ) :
    wp (modify f : EStateM ε σ PUnit) post fail state ↔ post ⟨⟩ (f state) := Iff.rfl

theorem wp_ofExcept {result : Except ε α} : wp (ofExcept result : EStateM ε σ α) post fail state ↔
      (∀ value, result = .ok value → post value state) ∧
        (∀ err, result = .error err → fail err state) := by
  cases result <;> simp [ofExcept]

theorem wp_ite {cond : Prop} [Decidable cond] {m n : EStateM ε σ α} :
    wp (if cond then m else n) post fail state ↔
      (cond → wp m post fail state) ∧ (¬cond → wp n post fail state) := by
  split <;> simp [*]

/-- A check that ends the program. -/
theorem wp_guard {cond : Prop} [Decidable cond] {m n : EStateM ε σ α}
    (hm : wp m post fail state) (hn : ¬cond → wp n post fail state) :
    wp (if cond then m else n) post fail state := wp_ite.mpr ⟨fun _ => hm, hn⟩

/-- A program may promise less than is known of it. -/
theorem wp_mono {m : EStateM ε σ α} {post' : α → σ → Prop} {fail' : ε → σ → Prop}
    (hwp : wp m post' fail' state) (hpost : ∀ value next, post' value next → post value next)
    (hfail : ∀ err next, fail' err next → fail err next) : wp m post fail state := by
  unfold wp at hwp ⊢
  cases hrun : m state with
  | ok value next =>
    rw [hrun] at hwp
    exact hpost value next hwp
  | error err next =>
    rw [hrun] at hwp
    exact hfail err next hwp

/-- The rule of sequence: the second program starts where the first one ends. -/
theorem wp_seq {m : EStateM ε σ β} {f : β → EStateM ε σ α} {middle : β → σ → Prop}
    (hm : wp m middle fail state)
    (hf : ∀ value next, middle value next → wp (f value) post fail next) :
    wp (m >>= f) post fail state := (wp_bind m f).mpr (wp_mono hm hf fun _ _ hfail => hfail)

/-- A program may promise less of its success than is known. -/
theorem wp_imp {m : EStateM ε σ α} {post' : α → σ → Prop} (hwp : wp m post' fail state)
    (hpost : ∀ value next, post' value next → post value next) : wp m post fail state :=
  wp_mono hwp hpost fun _ _ hfail => hfail

/-- A promise that does not depend on the outcome. -/
theorem wp_both {m : EStateM ε σ α} {before after : σ → Prop}
    (hwp : wp m (fun _ => before) (fun _ => before) state)
    (himp : ∀ next, before next → after next) : wp m (fun _ => after) (fun _ => after) state :=
  wp_mono hwp (fun _ => himp) fun _ => himp

/-- A computation that leaves the state alone, before the rest of the program. -/
theorem wp_ofExcept_bind {result : Except ε β} {f : β → EStateM ε σ α}
    (hok : ∀ value, result = .ok value → wp (f value) post fail state)
    (herr : ∀ err, fail err state) : wp (ofExcept result >>= f) post fail state := by
  rw [wp_bind, wp_ofExcept]
  exact ⟨hok, fun err _ => herr err⟩

/-- Where every outcome is fine, the program does not matter. -/
theorem wp_of_forall {m : EStateM ε σ α} (hpost : ∀ value next, post value next)
    (hfail : ∀ err next, fail err next) : wp m post fail state := by
  unfold wp
  split
  · exact hpost _ _
  · exact hfail _ _

theorem wp_and {m : EStateM ε σ α} {post' : α → σ → Prop} {fail' : ε → σ → Prop}
    (hleft : wp m post fail state) (hright : wp m post' fail' state) :
    wp m (fun value next => post value next ∧ post' value next)
      (fun err next => fail err next ∧ fail' err next) state := by
  unfold wp at hleft hright ⊢
  cases hrun : m state with
  | ok value next =>
    rw [hrun] at hleft hright
    exact ⟨hleft, hright⟩
  | error err next =>
    rw [hrun] at hleft hright
    exact ⟨hleft, hright⟩

/-- The run itself, besides what holds of its end. -/
theorem wp_and_eq {m : EStateM ε σ α} (hwp : wp m post fail state) :
    wp m (fun value next => post value next ∧ m state = .ok value next) fail state := by
  unfold wp at hwp ⊢
  cases hrun : m state with
  | ok value next =>
    rw [hrun] at hwp
    exact ⟨hwp, rfl⟩
  | error err next => rwa [hrun] at hwp

end Rules

/-- The state a run ends in, whatever the outcome. -/
def exec (m : EStateM ε σ α) (state : σ) : σ :=
  match m state with
  | .ok _ next => next
  | .error _ next => next

/-- What holds on success and on failure holds of the final state. -/
theorem exec_of_wp {m : EStateM ε σ α} {invariant : σ → Prop} {state : σ}
    (hwp : wp m (fun _ => invariant) (fun _ => invariant) state) : invariant (exec m state) := by
  unfold wp at hwp
  unfold exec
  cases hrun : m state with
  | ok value next => rwa [hrun] at hwp
  | error err next => rwa [hrun] at hwp

/-- Whether a run ends without a failure. -/
def succeeds (m : EStateM ε σ α) (state : σ) : Bool :=
  match m state with
  | .ok _ _ => true
  | .error _ _ => false

theorem exists_of_succeeds {m : EStateM ε σ α} {state : σ} (hok : succeeds m state = true) :
    ∃ value next, m state = .ok value next := by
  unfold succeeds at hok
  cases hrun : m state with
  | ok value next => exact ⟨value, next, rfl⟩
  | error err next =>
    rw [hrun] at hok
    cases hok

theorem exists_of_not_succeeds {m : EStateM ε σ α} {state : σ} (h : succeeds m state = false) :
    ∃ err next, m state = .error err next := by
  unfold succeeds at h
  cases hrun : m state with
  | ok value next => simp [hrun] at h
  | error err next => exact ⟨err, next, rfl⟩

/-- Runs a program and goes on by its outcome. -/
def handle {γ : Type} (m : EStateM ε σ α) (state : σ) (ok : α → σ → γ) (error : ε → σ → γ) : γ :=
  match m state with
  | .ok value next => ok value next
  | .error err next => error err next

theorem handle_of_wp {γ : Type} {m : EStateM ε σ α} {state : σ} {ok : α → σ → γ}
    {error : ε → σ → γ} {good : γ → Prop}
    (hwp : wp m (fun value next => good (ok value next)) (fun err next => good (error err next))
      state) : good (handle m state ok error) := by
  unfold wp at hwp
  unfold handle
  cases hrun : m state with
  | ok value next => rwa [hrun] at hwp
  | error err next => rwa [hrun] at hwp

/-- The outcome of one run, for goals that are not of the form of a postcondition. -/
theorem wp_cases {m : EStateM ε σ α} {post : α → σ → Prop} {fail : ε → σ → Prop} {state : σ}
    (hwp : wp m post fail state) : (∃ value next, m state = .ok value next ∧ post value next) ∨
      ∃ err next, m state = .error err next ∧ fail err next := by
  unfold wp at hwp
  cases hrun : m state with
  | ok value next =>
    rw [hrun] at hwp
    exact .inl ⟨value, next, rfl, hwp⟩
  | error err next =>
    rw [hrun] at hwp
    exact .inr ⟨err, next, rfl, hwp⟩

/-! ## Recovering from a failure -/

/-- Goes on after a failure, from the state it left behind. -/
def recover (m : EStateM ε σ α) (handler : ε → EStateM ε σ α) : EStateM ε σ α := fun state =>
  match m state with
  | .ok value next => .ok value next
  | .error err next => handler err next

@[simp] theorem wp_recover {m : EStateM ε σ α} {handler : ε → EStateM ε σ α}
    {post : α → σ → Prop} {fail : ε → σ → Prop} {state : σ} :
    wp (recover m handler) post fail state ↔
      wp m post (fun err next => wp (handler err) post fail next) state := by
  unfold wp recover
  cases m state <;> rfl

/-! ## Parts of a state -/

/-- Runs a program on a part of the state. -/
def zoom (view : σ → τ) (put : τ → σ → σ) (m : EStateM ε τ α) : EStateM ε σ α := fun state =>
  match m (view state) with
  | .ok value next => .ok value (put next state)
  | .error err next => .error err (put next state)

@[simp] theorem wp_zoom {view : σ → τ} {put : τ → σ → σ} {m : EStateM ε τ α}
    {post : α → σ → Prop} {fail : ε → σ → Prop} {state : σ} : wp (zoom view put m) post fail state ↔
      wp m (fun value next => post value (put next state))
        (fun err next => fail err (put next state)) (view state) := by
  unfold wp zoom
  cases m (view state) <;> rfl

/-! ## Relations kept by every run -/

/-- Every run of the program relates its first state to its last one. -/
def Keeps (R : σ → σ → Prop) (m : EStateM ε σ α) : Prop :=
  ∀ state, wp m (fun _ next => R state next) (fun _ next => R state next) state

section Keeps

variable {R : σ → σ → Prop}

/-- Forgetting what is known of the returned value. -/
theorem keeps_of_wp {m : EStateM ε σ α} {result : σ → α → σ → Prop}
    (hwp : ∀ state, wp m (fun value next => R state next ∧ result state value next)
      (fun _ next => R state next) state) : Keeps R m := fun state =>
  wp_mono (hwp state) (fun _ _ hpost => hpost.1) fun _ _ hfail => hfail

theorem keeps_pure [Std.Refl R] (value : α) : Keeps R (pure value : EStateM ε σ α) :=
  fun state => Std.Refl.refl state

theorem keeps_throw [Std.Refl R] (err : ε) : Keeps R (throw err : EStateM ε σ α) :=
  fun state => Std.Refl.refl state

theorem keeps_get [Std.Refl R] : Keeps R (get : EStateM ε σ σ) := fun state => Std.Refl.refl state

theorem keeps_ofExcept [Std.Refl R] (result : Except ε α) :
    Keeps R (ofExcept result : EStateM ε σ α) := fun state =>
  wp_ofExcept.mpr ⟨fun _ _ => Std.Refl.refl state, fun _ _ => Std.Refl.refl state⟩

/-- A program on a part of the state, when the rest determines the relation. -/
theorem keeps_zoom {view : σ → τ} {put : τ → σ → σ} (hput : ∀ state part, R state (put part state))
    (m : EStateM ε τ α) : Keeps R (zoom view put m) := by
  intro state
  rw [wp_zoom]
  unfold wp
  split
  · exact hput state _
  · exact hput state _

theorem keeps_modify {f : σ → σ} (hf : ∀ state, R state (f state)) :
    Keeps R (modify f : EStateM ε σ PUnit) := hf

theorem keeps_bind [IsTrans σ R] {m : EStateM ε σ β} {f : β → EStateM ε σ α} (hm : Keeps R m)
    (hf : ∀ value, Keeps R (f value)) : Keeps R (m >>= f) := by
  intro state
  rw [wp_bind]
  refine wp_mono (hm state) (fun value next hfirst => ?_) (fun _ _ hfirst => hfirst)
  exact wp_mono (hf value next) (fun _ _ hsecond => Trans.trans hfirst hsecond)
    (fun _ _ hsecond => Trans.trans hfirst hsecond)

theorem keeps_ite {cond : Prop} [Decidable cond] {m n : EStateM ε σ α}
    (hm : cond → Keeps R m) (hn : ¬cond → Keeps R n) : Keeps R (if cond then m else n) := by
  split
  · exact hm ‹_›
  · exact hn ‹_›

theorem keeps_recover [IsTrans σ R] {m : EStateM ε σ α} {handler : ε → EStateM ε σ α}
    (hm : Keeps R m) (hhandler : ∀ err, Keeps R (handler err)) : Keeps R (recover m handler) := by
  intro state
  rw [wp_recover]
  refine wp_mono (hm state) (fun _ _ hfirst => hfirst) (fun err next hfirst => ?_)
  exact wp_mono (hhandler err next) (fun _ _ hsecond => Trans.trans hfirst hsecond)
    (fun _ _ hsecond => Trans.trans hfirst hsecond)

end Keeps

/-! ## The errors of a program -/

/-- A sequence succeeds when both parts do. -/
theorem bind_eq_ok {result : Except ε β} {f : β → Except ε α} {value : α} :
    (result >>= f) = .ok value ↔ ∃ first, result = .ok first ∧ f first = .ok value := by
  cases result <;> simp [bind, Except.bind]

/-- A check that fails with an error. -/
def require (p : Prop) [Decidable p] (err : ε) : Except ε Unit := if p then .ok () else .error err

theorem ok_bind (value : β) (f : β → Except ε α) : (Except.ok value >>= f) = f value := rfl

theorem require_of {p : Prop} [Decidable p] {err : ε} (hp : p) : require p err = .ok () := if_pos hp

@[simp] theorem require_eq_ok {p : Prop} [Decidable p] {err : ε} {u : Unit} :
    require p err = .ok u ↔ p := by
  unfold require
  split <;> simp [*]

theorem forM_eq_ok {f : α → Except ε Unit} {values : List α} :
    values.forM f = .ok () ↔ ∀ value ∈ values, f value = .ok () := by
  induction values with
  | nil => exact ⟨fun _ _ h => absurd h List.not_mem_nil, fun _ => rfl⟩
  | cons first rest ih =>
    have hcons : (first :: rest).forM f = f first >>= fun _ => rest.forM f := rfl
    rw [hcons, List.forall_mem_cons, ← ih]
    cases hfirst : f first with
    | ok u => simp [ok_bind]
    | error err => simp [bind, Except.bind]

/-- An error of the result is one of the errors `E`. -/
def Raises (E : ε → Prop) (result : Except ε α) : Prop := ∀ err, result = .error err → E err

section Raises

variable {E : ε → Prop}

theorem raises_ok (value : α) : Raises E (.ok value) := nofun

theorem raises_error {err : ε} (herr : E err) : Raises E (.error err : Except ε α) :=
  fun _ heq => Except.error.inj heq ▸ herr

theorem raises_bind {result : Except ε β} {f : β → Except ε α} (hresult : Raises E result)
    (hf : ∀ value, Raises E (f value)) : Raises E (result >>= f) := by
  cases result with
  | ok value => exact hf value
  | error err => exact raises_error (hresult err rfl)

end Raises

/-- Every failure of the program is one of the errors `E`. -/
def Throws (E : ε → Prop) (m : EStateM ε σ α) : Prop :=
  ∀ state, wp m (fun _ _ => True) (fun err _ => E err) state

section Throws

variable {E : ε → Prop}

theorem throws_pure (value : α) : Throws E (pure value : EStateM ε σ α) := fun _ => trivial

theorem throws_throw {err : ε} (herr : E err) : Throws E (throw err : EStateM ε σ α) :=
  fun _ => herr

theorem throws_get : Throws E (get : EStateM ε σ σ) := fun _ => trivial

theorem throws_modify (f : σ → σ) : Throws E (modify f : EStateM ε σ PUnit) := fun _ => trivial

theorem throws_ofExcept {result : Except ε α} (hraises : Raises E result) :
    Throws E (ofExcept result : EStateM ε σ α) :=
  fun _ => wp_ofExcept.mpr ⟨fun _ _ => trivial, hraises⟩

theorem throws_bind {m : EStateM ε σ β} {f : β → EStateM ε σ α} (hm : Throws E m)
    (hf : ∀ value, Throws E (f value)) : Throws E (m >>= f) := by
  intro state
  rw [wp_bind]
  exact wp_mono (hm state) (fun value next _ => hf value next) fun _ _ herr => herr

end Throws

/-! ## Invariants kept by a run -/

/-- What holds of the value a run returns. -/
theorem post_of_wp {m : EStateM ε σ α} {post : α → σ → Prop} {fail : ε → σ → Prop} {state : σ}
    (hwp : wp m post fail state) {value : α} {next : σ} (hrun : m state = .ok value next) :
    post value next := by
  unfold wp at hwp
  rwa [hrun] at hwp

end StateLogic
