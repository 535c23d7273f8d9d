/-!
# Calls that may be refused

Calls change a state one after the other, and one that is refused leaves it as it was. So what a
run of calls comes to is settled by those of them that succeed: what each of these keeps, every run
keeps.
-/

namespace RowPolicy.Calls

variable {σ κ ε : Type} (step : σ → κ → Except ε σ)

/-- The state after a call. -/
def next (s : σ) (call : κ) : σ :=
  match step s call with
  | .ok s' => s'
  | .error _ => s

/-- The state after some calls. -/
def run (s : σ) (calls : List κ) : σ := calls.foldl (next step) s

/-- Those of some calls that succeed, in their order. -/
def accepted (s : σ) : List κ → List κ
  | [] => []
  | call :: rest =>
      match step s call with
      | .ok s' => call :: accepted s' rest
      | .error _ => accepted s rest

variable {step} {s : σ} {calls : List κ} {call : κ}

theorem run_append_singleton :
    run step s (calls ++ [call]) = next step (run step s calls) call := by
  simp [run]

/-- A call that is refused after some others changes nothing. -/
theorem run_append_of_error {e : ε} (h : step (run step s calls) call = .error e) :
    run step s (calls ++ [call]) = run step s calls := by
  rw [run_append_singleton, next, h]

/-- What holds at the start, and is kept by each call that succeeds, holds of the state after any
calls and those of them that succeeded. -/
theorem run_induction {P : σ → List κ → Prop} (hstart : P s [])
    (hstep : ∀ s s' earlier call, P s earlier → step s call = .ok s' → P s' (earlier ++ [call]))
    (calls : List κ) : P (run step s calls) (accepted step s calls) := by
  suffices hfrom : ∀ s earlier, P s earlier →
      P (run step s calls) (earlier ++ accepted step s calls) from hfrom s [] hstart
  induction calls with
  | nil =>
      intro s earlier h
      simpa [run, accepted] using h
  | cons call rest ih =>
      intro s earlier h
      have hrun : run step s (call :: rest) = run step (next step s call) rest := rfl
      rw [hrun, next, accepted]
      cases hcall : step s call with
      | ok s' => simpa using ih s' _ (hstep s s' earlier call h hcall)
      | error e => exact ih s earlier h

end RowPolicy.Calls
