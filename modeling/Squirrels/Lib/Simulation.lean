import Mathlib.Data.List.Forall2

/-!
# Runs of calls, and simulation between them

A component that answers calls is a step function that may fail. A run makes the calls one after
the other and collects the answers. When each call that an abstract component answers is answered
alike by a concrete one, or by an answer that agrees with its own, and a relation between their
states is kept, whole runs agree as well.
-/

namespace Calls

variable {σ τ α β γ : Type}

/-- Make the calls in order, and collect the answers. -/
def run (step : σ → α → Option (β × σ)) : σ → List α → Option (List β × σ)
  | s, [] => some ([], s)
  | s, a :: as =>
    (step s a).bind fun first => (run step first.2 as).map fun rest => (first.1 :: rest.1, rest.2)

section Run

variable {step : σ → α → Option (β × σ)} {s s'' : σ} {a : α} {as : List α} {bs : List β}

theorem run_cons_eq_some_iff : run step s (a :: as) = some (bs, s'') ↔
    ∃ b bs' s', step s a = some (b, s') ∧ run step s' as = some (bs', s'') ∧ bs = b :: bs' := by
  rw [run, Option.bind_eq_some_iff]
  constructor
  · rintro ⟨⟨b, s'⟩, first, rest⟩
    obtain ⟨⟨bs', s₂⟩, second, last⟩ := Option.map_eq_some_iff.1 rest
    cases last
    exact ⟨b, bs', s', first, second, rfl⟩
  · rintro ⟨b, bs', s', first, second, rfl⟩
    exact ⟨(b, s'), first, by rw [second]; rfl⟩

end Run

/-- Every call that the abstract component answers is answered by the concrete one, and the answers
agree. -/
def SimulatesUpTo (agree : β → γ → Prop) (R : σ → τ → Prop) (step : σ → α → Option (β × σ))
    (spec : τ → α → Option (γ × τ)) : Prop :=
  ∀ s t a c t', R s t → spec t a = some (c, t') →
    ∃ b s', step s a = some (b, s') ∧ agree b c ∧ R s' t'

theorem SimulatesUpTo.run {agree : β → γ → Prop} {R : σ → τ → Prop}
    {step : σ → α → Option (β × σ)} {spec : τ → α → Option (γ × τ)}
    (simulates : SimulatesUpTo agree R step spec) {s : σ} {t t' : τ} {as : List α} {cs : List γ}
    (start : R s t) (ran : Calls.run spec t as = some (cs, t')) :
    ∃ bs s', Calls.run step s as = some (bs, s') ∧ List.Forall₂ agree bs cs ∧ R s' t' := by
  induction as generalizing s t cs with
  | nil =>
    cases ran
    exact ⟨[], s, rfl, .nil, start⟩
  | cons a as ih =>
    obtain ⟨c, rest, mid, one, more, rfl⟩ := run_cons_eq_some_iff.1 ran
    obtain ⟨b, s₁, first, agrees, related⟩ := simulates s t a c mid start one
    obtain ⟨bs, s₂, second, agree', related'⟩ := ih related more
    exact ⟨b :: bs, s₂, run_cons_eq_some_iff.2 ⟨b, bs, s₁, first, second, rfl⟩,
      .cons agrees agree', related'⟩

/-- Every call that the abstract component answers is answered alike by the concrete one. -/
def Simulates (R : σ → τ → Prop) (step : σ → α → Option (β × σ))
    (spec : τ → α → Option (β × τ)) : Prop :=
  ∀ s t a b t', R s t → spec t a = some (b, t') → ∃ s', step s a = some (b, s') ∧ R s' t'

theorem Simulates.upToEq {R : σ → τ → Prop} {step : σ → α → Option (β × σ)}
    {spec : τ → α → Option (β × τ)} (simulates : Simulates R step spec) :
    SimulatesUpTo Eq R step spec := by
  intro s t a b t' start spec
  obtain ⟨s', called, related⟩ := simulates s t a b t' start spec
  exact ⟨b, s', called, rfl, related⟩

theorem Simulates.run {R : σ → τ → Prop} {step : σ → α → Option (β × σ)}
    {spec : τ → α → Option (β × τ)} (simulates : Simulates R step spec) {s : σ} {t t' : τ}
    {as : List α} {bs : List β} (start : R s t) (ran : Calls.run spec t as = some (bs, t')) :
    ∃ s', Calls.run step s as = some (bs, s') ∧ R s' t' := by
  obtain ⟨bs', s', called, same, related⟩ := simulates.upToEq.run start ran
  rw [List.forall₂_eq_eq_eq] at same
  exact ⟨s', by rw [called, same], related⟩

/-- Both components answer each call alike, or neither does. -/
def Bisimulates (R : σ → τ → Prop) (step : σ → α → Option (β × σ))
    (spec : τ → α → Option (β × τ)) : Prop :=
  ∀ s t a, R s t → Option.Rel (fun p q => p.1 = q.1 ∧ R p.2 q.2) (step s a) (spec t a)

section Bisimulates

variable {R : σ → τ → Prop} {step : σ → α → Option (β × σ)} {spec : τ → α → Option (β × τ)}

theorem Bisimulates.run (bisimulates : Bisimulates R step spec) {s : σ} {t : τ} (start : R s t)
    (as : List α) :
    Option.Rel (fun p q => p.1 = q.1 ∧ R p.2 q.2) (Calls.run step s as) (Calls.run spec t as) := by
  induction as generalizing s t with
  | nil => exact .some ⟨rfl, start⟩
  | cons a as ih =>
    have first := bisimulates s t a start
    unfold Calls.run
    generalize step s a = one, spec t a = one' at first
    cases first with
    | none => exact .none
    | @some p q same =>
      have rest := ih same.2
      simp only [Option.bind_some]
      generalize Calls.run step p.2 as = more, Calls.run spec q.2 as = more' at rest
      cases rest with
      | none => exact .none
      | some same' => exact .some ⟨congrArg₂ List.cons same.1 same'.1, same'.2⟩

/-- Runs have the same answers. -/
theorem Bisimulates.answers (bisimulates : Bisimulates R step spec) {s : σ} {t : τ} (start : R s t)
    (as : List α) :
    (Calls.run step s as).map Prod.fst = (Calls.run spec t as).map Prod.fst := by
  have related := bisimulates.run start as
  generalize Calls.run step s as = r, Calls.run spec t as = r' at related
  cases related with
  | none => rfl
  | some same => exact congrArg some same.1

end Bisimulates

end Calls
