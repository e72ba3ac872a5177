/-
This file takes the steps of a loop one after the other and carries an invariant along.
-/

namespace ChangeImpact

variable {σ : Type} {step? : σ → Option σ} {state : σ}

/-- Takes a number of steps, or as many as there are. -/
def runFor (step? : σ → Option σ) : Nat → σ → σ
  | 0, state => state
  | count + 1, state =>
    match step? state with
    | none => state
    | some next => runFor step? count next

theorem runFor_succ {next : σ} (isNext : step? state = some next) (count : Nat) :
    runFor step? (count + 1) state = runFor step? count next := by
  rw [runFor, isNext]

theorem runFor_add (step? : σ → Option σ) (count more : Nat) (state : σ) :
    runFor step? (count + more) state = runFor step? more (runFor step? count state) := by
  induction count generalizing state with
  | zero => rw [Nat.zero_add, runFor]
  | succ count ih =>
      cases ended : step? state with
      | none =>
          have stays (count : Nat) : runFor step? count state = state := by
            cases count <;> simp [runFor, ended]
          rw [stays, stays, stays]
      | some next =>
          rw [Nat.succ_add, runFor_succ ended, runFor_succ ended]
          exact ih next

/-- What every step keeps holds after any number of steps. -/
theorem runFor_invariant (holds : σ → Prop)
    (kept : ∀ {state next : σ}, holds state → step? state = some next → holds next)
    (start : holds state) (count : Nat) : holds (runFor step? count state) := by
  induction count generalizing state with
  | zero => exact start
  | succ count ih =>
      cases ended : step? state with
      | none => rwa [runFor, ended]
      | some next =>
          rw [runFor_succ ended]
          exact ih (kept start ended)

end ChangeImpact
