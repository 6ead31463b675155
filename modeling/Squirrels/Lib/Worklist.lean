import Mathlib.Data.List.Basic

/-!
# Worklists

A recursive procedure is a step that does one task and says which tasks it leaves; these are done
before the tasks that waited. A run does tasks until none is left. When each step leaves less to do,
the run of tasks ends, whatever waits behind them.
-/

namespace Worklist

variable {σ τ : Type}

/-- Do all tasks, in at most so many steps. -/
def run (step : σ → τ → Option (List τ × σ)) : ℕ → List τ → σ → Option σ
  | _, [], s => some s
  | 0, _ :: _, _ => none
  | fuel + 1, task :: tasks, s =>
    (step s task).bind fun r => run step fuel (r.1 ++ tasks) r.2

variable {step : σ → τ → Option (List τ × σ)} {s : σ} {T rest : List τ} {fuel : ℕ}

@[simp] theorem run_nil (fuel : ℕ) (s : σ) : run step fuel [] s = some s := by
  cases fuel <;> rfl

/-- An invariant of the tasks that are left, a relation between states that composes, and a weight
of states that pays for what each step leaves. -/
structure Rule (step : σ → τ → Option (List τ × σ)) (Inv : σ → List τ → Prop) (Kept : σ → σ → Prop)
    (weight : σ → ℕ) : Prop where
  refl : ∀ s, Kept s s
  trans : ∀ s s' s'', Kept s s' → Kept s' s'' → Kept s s''
  step : ∀ s task tasks, Inv s (task :: tasks) → ∃ more s', step s task = some (more, s') ∧
    Inv s' (more ++ tasks) ∧ Kept s s' ∧ weight s' + more.length < weight s + 1

variable {Inv : σ → List τ → Prop} {Kept : σ → σ → Prop} {weight : σ → ℕ}

/-- Tasks are done to their end, and those behind them are left. -/
theorem Rule.run (rule : Rule step Inv Kept weight) (start : Inv s (T ++ rest))
    (enough : weight s + T.length ≤ fuel) :
    ∃ s', Worklist.run step fuel T s = some s' ∧ Inv s' rest ∧ Kept s s' := by
  induction fuel generalizing s T with
  | zero =>
    have nothing : T = [] := List.eq_nil_of_length_eq_zero (by omega)
    subst nothing
    exact ⟨s, rfl, start, rule.refl s⟩
  | succ fuel ih =>
    cases T with
    | nil => exact ⟨s, rfl, start, rule.refl s⟩
    | cons task T =>
      obtain ⟨more, s₁, done, inv₁, kept, less⟩ := rule.step s task (T ++ rest) start
      rw [← List.append_assoc] at inv₁
      rw [List.length_cons] at enough
      obtain ⟨s', ran, inv', kept'⟩ := ih inv₁ (by rw [List.length_append]; omega)
      refine ⟨s', ?_, inv', rule.trans s s₁ s' kept kept'⟩
      rw [Worklist.run, done]
      exact ran

end Worklist
