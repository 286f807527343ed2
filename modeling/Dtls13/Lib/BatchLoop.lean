import Dtls13.Lib.StateLogic

/-! # Loops over received batches

A loop receives batches of items until its state says that it is complete, and
stops at the first error, of the receiver or of its own. What it has consumed is
a history; an invariant that relates the history to the state and is kept by
every item holds when the loop ends.
-/

namespace BatchLoop

open StateLogic List

variable {ε σ β ι : Type}

/-- Items one after another, up to the first failure. -/
def forEach (step : ι → EStateM ε σ Unit) : List ι → EStateM ε σ Unit
  | [] => pure ()
  | item :: rest => do
    step item
    forEach step rest

/-- How a loop ends; it waits when there is nothing left to receive. -/
inductive Outcome (ε σ β : Type) where
  | finished (state : σ) (rest : List (Except ε β))
  | failed (err : ε)
  | waiting (state : σ)

def loop (complete : σ → Bool) (process : β → EStateM ε σ Unit) :
    List (Except ε β) → σ → Outcome ε σ β
  | [], state => if complete state then .finished state [] else .waiting state
  | received :: rest, state =>
    if complete state then .finished state (received :: rest)
    else match received with
      | .error err => .failed err
      | .ok batch =>
        match process batch state with
        | .error err _ => .failed err
        | .ok _ next => loop complete process rest next

section Invariant

variable {inv : List ι → σ → Prop} {admissible : ι → Prop}

/-- Each item in turn joins the history. -/
theorem wp_forEach {step : ι → EStateM ε σ Unit}
    (hstep : ∀ seen item state, admissible item → inv seen state →
      wp (step item) (fun _ => inv (seen ++ [item])) (fun _ _ => True) state)
    {items seen : List ι} {state : σ} (hitems : ∀ item ∈ items, admissible item)
    (hinv : inv seen state) :
    wp (forEach step items) (fun _ => inv (seen ++ items)) (fun _ _ => True) state := by
  induction items generalizing seen state with
  | nil =>
    rw [append_nil]
    exact hinv
  | cons item rest ih =>
    rw [forEach, wp_bind]
    have hfirst := hstep seen item state (hitems item mem_cons_self) hinv
    refine wp_mono hfirst (fun _ next hnext => ?_) fun _ _ _ => trivial
    rw [append_cons]
    exact ih (fun other hother => hitems other (mem_cons_of_mem _ hother)) hnext

/-- A loop that finished consumed whole batches, and left the rest alone. -/
theorem loop_invariant {complete : σ → Bool} {process : β → EStateM ε σ Unit} {items : β → List ι}
    (hprocess : ∀ seen batch state, inv seen state →
      wp (process batch) (fun _ => inv (seen ++ items batch)) (fun _ _ => True) state)
    {received rest : List (Except ε β)} {seen : List ι} {state last : σ}
    (hrun : loop complete process received state = .finished last rest) (hinv : inv seen state) :
    ∃ taken : List β, received = taken.map .ok ++ rest ∧
      inv (seen ++ taken.flatMap items) last ∧ complete last = true := by
  induction received generalizing seen state with
  | nil =>
    rw [loop] at hrun
    split at hrun
    next hcomplete =>
      cases hrun
      exact ⟨[], rfl, by simpa using hinv, hcomplete⟩
    next => cases hrun
  | cons first others ih =>
    unfold loop at hrun
    split at hrun
    next hcomplete =>
      cases hrun
      exact ⟨[], rfl, by simpa using hinv, hcomplete⟩
    next =>
      cases first with
      | error err => cases hrun
      | ok batch =>
        rcases wp_cases (hprocess seen batch state hinv) with
          ⟨_, next, hok, hnext⟩ | ⟨err, next, herr, _⟩
        · simp only [hok] at hrun
          obtain ⟨taken, rfl, hlast, hcomplete⟩ := ih hrun hnext
          refine ⟨batch :: taken, rfl, ?_, hcomplete⟩
          rw [flatMap_cons, ← append_assoc]
          exact hlast
        · simp only [herr] at hrun
          cases hrun

end Invariant

end BatchLoop
