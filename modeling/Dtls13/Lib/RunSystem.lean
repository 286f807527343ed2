import Mathlib.Data.List.Basic

/-! # Runs of event-driven systems

A system is a total step function on states and events; nondeterminism, such
as the choice of a packet to deliver, is carried by the event. A run is a list
of events. `Along` restricts the states in which events may occur, so that a
result about restricted runs and a result about all runs have one form.
-/

namespace RunSystem

open List

variable {σ ε : Type*}

/-- The state a list of events leads to. -/
def run (step : σ → ε → σ) (state : σ) (events : List ε) : σ := events.foldl step state

@[simp] theorem run_nil (step : σ → ε → σ) (state : σ) : run step state [] = state := rfl

@[simp] theorem run_cons (step : σ → ε → σ) (state : σ) (event : ε) (rest : List ε) :
    run step state (event :: rest) = run step (step state event) rest := rfl

theorem run_append (step : σ → ε → σ) (state : σ) (first second : List ε) :
    run step state (first ++ second) = run step (run step state first) second := foldl_append

/-- Every event meets `cond` in the state in which it occurs. -/
def Along (step : σ → ε → σ) (cond : σ → ε → Prop) : σ → List ε → Prop
  | _, [] => True
  | state, event :: rest => cond state event ∧ Along step cond (step state event) rest

variable {step : σ → ε → σ} {cond : σ → ε → Prop} {invariant : σ → Prop} {state : σ}
  {events : List ε}

theorem along_append {first second : List ε} :
    Along step cond state (first ++ second) ↔
      Along step cond state first ∧ Along step cond (run step state first) second := by
  induction first generalizing state with
  | nil => simp [Along]
  | cons event rest ih => simp [Along, ih, and_assoc]

/-- A condition on the events alone. -/
theorem along_of_forall {cond : ε → Prop} (hall : ∀ event ∈ events, cond event) :
    Along step (fun _ event => cond event) state events := by
  induction events generalizing state with
  | nil => trivial
  | cons event rest ih =>
    exact ⟨hall event mem_cons_self, ih fun e he => hall e (mem_cons_of_mem _ he)⟩

instance decidableAlong (step : σ → ε → σ) (cond : σ → ε → Prop)
    [∀ state event, Decidable (cond state event)] :
    ∀ state events, Decidable (Along step cond state events)
  | _, [] => .isTrue trivial
  | state, event :: rest =>
    have := decidableAlong step cond (step state event) rest
    inferInstanceAs (Decidable (cond state event ∧ _))

/-- A predicate kept by every permitted step holds in the state reached. -/
theorem run_invariant
    (hstep : ∀ state event, invariant state → cond state event → invariant (step state event))
    (hstart : invariant state) (hcond : Along step cond state events) :
    invariant (run step state events) := by
  induction events generalizing state with
  | nil => exact hstart
  | cons event rest ih => exact ih (hstep state event hstart hcond.1) hcond.2

/-- The rule for runs without restriction. -/
theorem run_invariant_all
    (hstep : ∀ state event, invariant state → invariant (step state event))
    (hstart : invariant state) (events : List ε) : invariant (run step state events) :=
  run_invariant (fun state event hinvariant _ => hstep state event hinvariant) hstart
    (along_of_forall fun _ _ => trivial)

/-- If the condition on a step is what keeps the invariant, then it holds along a
run exactly when the invariant holds in every state of the run. -/
theorem along_iff_forall_prefix
    (hstep : ∀ state event, invariant state → (invariant (step state event) ↔ cond state event))
    (hstart : invariant state) :
    Along step cond state events ↔ ∀ before, before <+: events →
      invariant (run step state before) := by
  induction events generalizing state with
  | nil =>
    refine ⟨fun _ before hbefore => ?_, fun _ => trivial⟩
    rw [prefix_nil.mp hbefore]
    exact hstart
  | cons event rest ih =>
    constructor
    · rintro ⟨hcond, hrest⟩ before hbefore
      cases before with
      | nil => exact hstart
      | cons first tail =>
        obtain ⟨rfl, htail⟩ := cons_prefix_cons.mp hbefore
        exact (ih ((hstep state first hstart).mpr hcond)).mp hrest tail htail
    · intro hall
      have hnext : invariant (step state event) :=
        hall [event] (cons_prefix_cons.mpr ⟨rfl, nil_prefix⟩)
      refine ⟨(hstep state event hstart).mp hnext, (ih hnext).mpr fun before hbefore => ?_⟩
      exact hall (event :: before) (cons_prefix_cons.mpr ⟨rfl, hbefore⟩)

end RunSystem
