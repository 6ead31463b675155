import Mathlib.Logic.Function.Basic

/-!
# Programs over machines, with panics that unwind

`Act σ α` is a program on a state `σ` that returns a value or stops. A stop is either a panic,
which unwinds through the callers and runs their clean-up code, or the end of the process. A
family of machines `ι → σ` is itself a state, and `Act.on i` runs a program of one machine inside
the family. `Triple` is the contract of a program, with a postcondition for every way to stop;
`Keeps` is the contract of a program that preserves an invariant.
-/

namespace Machines

variable {ι σ α β : Type}

/-- Why a program ends without a value. -/
inductive Stop where
  /-- An unwinding panic. -/
  | panic (message : String)
  /-- A failed assertion of the machine itself: the process ends. -/
  | abort (reason : String)
  /-- The program does not end. -/
  | diverge
deriving DecidableEq, Repr

/-- A program on the state `σ`. The state reached is kept when the program stops. -/
def Act (σ α : Type) : Type := σ → Except Stop α × σ

namespace Act

/-- Run the program from a state. -/
def run (m : Act σ α) (s : σ) : Except Stop α × σ := m s

instance : Monad (Act σ) where
  pure a := fun s => (.ok a, s)
  bind m f := fun s =>
    match m s with
    | (.ok a, s') => f a s'
    | (.error e, s') => (.error e, s')

/-- Read the state. -/
def get : Act σ σ := fun s => (.ok s, s)

/-- Change the state. -/
def modify (f : σ → σ) : Act σ Unit := fun s => (.ok (), f s)

/-- Change the state and return a value. -/
def step (f : σ → α × σ) : Act σ α := fun s => (.ok (f s).1, (f s).2)

/-- Stop. -/
def stop (e : Stop) : Act σ α := fun s => (.error e, s)

/-- Start unwinding. -/
def panic (message : String) : Act σ α := stop (.panic message)

/-- Panic unless the condition holds. -/
def ensure (c : Prop) [Decidable c] (message : String) : Act σ Unit :=
  if c then pure () else panic message

/-- Run `cleanup` when `m` panics, then go on unwinding. A second panic ends the process. -/
def onUnwind (m : Act σ α) (cleanup : Act σ Unit) : Act σ α := fun s =>
  match m s with
  | (.error (.panic message), s') =>
    match cleanup s' with
    | (.ok _, s'') => (.error (.panic message), s'')
    | (.error (.panic _), s'') => (.error (.abort "panic in a destructor"), s'')
    | (.error e, s'') => (.error e, s'')
  | r => r

/-- Run `m` and catch the panic it may end with. -/
def catchUnwind (m : Act σ α) : Act σ (Option α) := fun s =>
  match m s with
  | (.ok a, s') => (.ok (some a), s')
  | (.error (.panic _), s') => (.ok none, s')
  | (.error e, s') => (.error e, s')

/-- Run a program of the machine `i` inside the family. -/
def on (i : ι) [DecidableEq ι] (m : Act σ α) : Act (ι → σ) α := fun w =>
  let r := m (w i)
  (r.1, Function.update w i r.2)

/-! ## Running the combinators -/

@[simp] theorem run_pure (a : α) (s : σ) : (pure a : Act σ α).run s = (.ok a, s) := rfl

theorem run_bind (m : Act σ α) (f : α → Act σ β) (s : σ) :
    (m >>= f).run s =
      match m.run s with
      | (.ok a, s') => (f a).run s'
      | (.error e, s') => (.error e, s') := rfl

theorem run_bind_of_ok {m : Act σ α} {f : α → Act σ β} {s s' : σ} {a : α}
    (ran : m.run s = (.ok a, s')) : (m >>= f).run s = (f a).run s' := by
  rw [run_bind, ran]

theorem run_bind_of_error {m : Act σ α} {f : α → Act σ β} {s s' : σ} {e : Stop}
    (ran : m.run s = (.error e, s')) : (m >>= f).run s = (.error e, s') := by
  rw [run_bind, ran]

theorem bind_bind {γ : Type} (m : Act σ α) (f : α → Act σ β) (g : β → Act σ γ) :
    (m >>= f) >>= g = m >>= fun a => f a >>= g := by
  funext s
  show ((m >>= f) >>= g).run s = (m >>= fun a => f a >>= g).run s
  rw [run_bind, run_bind, run_bind]
  rcases m.run s with ⟨e | a, s'⟩ <;> rfl

@[simp] theorem run_get (s : σ) : (get : Act σ σ).run s = (.ok s, s) := rfl

@[simp] theorem run_modify (f : σ → σ) (s : σ) : (modify f).run s = (.ok (), f s) := rfl

@[simp] theorem run_step (f : σ → α × σ) (s : σ) : (step f).run s = (.ok (f s).1, (f s).2) := rfl

@[simp] theorem run_stop (e : Stop) (s : σ) : (stop e : Act σ α).run s = (.error e, s) := rfl

@[simp] theorem run_panic (message : String) (s : σ) :
    (panic message : Act σ α).run s = (.error (.panic message), s) := rfl

theorem run_ensure_of_pos {c : Prop} [Decidable c] (h : c) (message : String) (s : σ) :
    (ensure c message : Act σ Unit).run s = (.ok (), s) := by
  simp [ensure, h]

theorem run_ensure_of_neg {c : Prop} [Decidable c] (h : ¬ c) (message : String) (s : σ) :
    (ensure c message : Act σ Unit).run s = (.error (.panic message), s) := by
  simp [ensure, h]

theorem run_onUnwind_of_ok {m : Act σ α} {cleanup : Act σ Unit} {s s' : σ} {a : α}
    (ran : m.run s = (.ok a, s')) : (m.onUnwind cleanup).run s = (.ok a, s') := by
  simp only [run] at ran
  simp only [run, onUnwind, ran]

theorem run_onUnwind_of_panic {m : Act σ α} {cleanup : Act σ Unit} {s s' s'' : σ} {message : String}
    (ran : m.run s = (.error (.panic message), s')) (cleaned : cleanup.run s' = (.ok (), s'')) :
    (m.onUnwind cleanup).run s = (.error (.panic message), s'') := by
  simp only [run] at ran cleaned
  simp only [run, onUnwind, ran, cleaned]

theorem run_onUnwind_of_end {m : Act σ α} {cleanup : Act σ Unit} {s s' : σ} {e : Stop}
    (ran : m.run s = (.error e, s')) (ended : ∀ message, e ≠ .panic message) :
    (m.onUnwind cleanup).run s = (.error e, s') := by
  simp only [run] at ran
  cases e with
  | panic message => exact (ended message rfl).elim
  | abort reason => simp only [run, onUnwind, ran]
  | diverge => simp only [run, onUnwind, ran]

theorem run_catchUnwind_of_ok {m : Act σ α} {s s' : σ} {a : α} (ran : m.run s = (.ok a, s')) :
    m.catchUnwind.run s = (.ok (some a), s') := by
  simp only [run] at ran
  simp only [run, catchUnwind, ran]

theorem run_catchUnwind_of_panic {m : Act σ α} {s s' : σ} {message : String}
    (ran : m.run s = (.error (.panic message), s')) : m.catchUnwind.run s = (.ok none, s') := by
  simp only [run] at ran
  simp only [run, catchUnwind, ran]

theorem run_on [DecidableEq ι] (i : ι) (m : Act σ α) (w : ι → σ) :
    (m.on i).run w = ((m.run (w i)).1, Function.update w i (m.run (w i)).2) := rfl

theorem run_on_update [DecidableEq ι] (i : ι) (m : Act σ α) (w : ι → σ) (s : σ) :
    (m.on i).run (Function.update w i s) = ((m.run s).1, Function.update w i (m.run s).2) := by
  rw [run_on, Function.update_self, Function.update_idem]

end Act

/-! ## Contracts -/

/-- From a state in `P` the program returns a value in `Q` or stops in `E`. -/
def Triple (P : σ → Prop) (m : Act σ α) (Q : α → σ → Prop) (E : Stop → σ → Prop) : Prop :=
  ∀ s, P s →
    match m.run s with
    | (.ok a, s') => Q a s'
    | (.error e, s') => E e s'

/-- The postcondition of a program that does not stop. -/
def Never : Stop → σ → Prop := fun _ _ => False

namespace Triple

variable {P P' : σ → Prop} {Q Q' : α → σ → Prop} {R : β → σ → Prop} {E E' : Stop → σ → Prop}
  {m : Act σ α}

/-- A contract without stops gives the value the program returns. -/
theorem returns (contract : Triple P m Q Never) {s : σ} (pre : P s) :
    ∃ a s', m.run s = (.ok a, s') ∧ Q a s' := by
  have post := contract s pre
  rcases ran : m.run s with ⟨_ | a, s'⟩
  · rw [ran] at post
    exact post.elim
  · rw [ran] at post
    exact ⟨a, s', rfl, post⟩

/-- To prove a contract, show what the program returns. -/
theorem of_returns (returned : ∀ s, P s → ∃ a s', m.run s = (.ok a, s') ∧ Q a s') :
    Triple P m Q E := by
  intro s pre
  obtain ⟨a, s', ran, post⟩ := returned s pre
  rw [ran]
  exact post

theorem conseq (contract : Triple P' m Q' E') (pre : ∀ s, P s → P' s)
    (post : ∀ a s, Q' a s → Q a s) (stopped : ∀ e s, E' e s → E e s) : Triple P m Q E := by
  intro s hs
  have h := contract s (pre s hs)
  rcases ran : m.run s with ⟨e | a, s'⟩ <;> rw [ran] at h
  · exact stopped _ _ h
  · exact post _ _ h

theorem pre (contract : Triple P' m Q E) (weaken : ∀ s, P s → P' s) : Triple P m Q E :=
  contract.conseq weaken (fun _ _ h => h) (fun _ _ h => h)

theorem post (contract : Triple P m Q' E) (strengthen : ∀ a s, Q' a s → Q a s) :
    Triple P m Q E :=
  contract.conseq (fun _ h => h) strengthen (fun _ _ h => h)

theorem pure {a : α} (holds : ∀ s, P s → Q a s) : Triple P (pure a) Q E :=
  fun s h => holds s h

theorem bind {f : α → Act σ β} (first : Triple P m Q E) (rest : ∀ a, Triple (Q a) (f a) R E) :
    Triple P (m >>= f) R E := by
  intro s hs
  have h := first s hs
  rw [Act.run_bind]
  rcases ran : m.run s with ⟨e | a, s'⟩ <;> rw [ran] at h
  · exact h
  · exact rest a s' h

/-- The state that is read is the one the rest runs from. -/
theorem get_bind {f : σ → Act σ β} (rest : ∀ s, P s → Triple (· = s) (f s) R E) :
    Triple P (Act.get >>= f) R E :=
  fun s h => rest s h s rfl

/-- A fact that does not depend on the state may be moved out of the precondition. -/
theorem of_pre {c : Prop} (contract : c → Triple P m Q E) : Triple (fun s => c ∧ P s) m Q E :=
  fun s h => contract h.1 s h.2

theorem exists_pre {γ : Sort*} {P : γ → σ → Prop} (contract : ∀ c, Triple (P c) m Q E) :
    Triple (fun s => ∃ c, P c s) m Q E :=
  fun s ⟨c, h⟩ => contract c s h

theorem modify {f : σ → σ} {Q : Unit → σ → Prop} (holds : ∀ s, P s → Q () (f s)) :
    Triple P (Act.modify f) Q E :=
  fun s h => holds s h

theorem step {f : σ → α × σ} (holds : ∀ s, P s → Q (f s).1 (f s).2) :
    Triple P (Act.step f) Q E :=
  fun s h => holds s h

theorem stop {e : Stop} (holds : ∀ s, P s → E e s) : Triple P (Act.stop e : Act σ α) Q E :=
  fun s h => holds s h

theorem ensure {c : Prop} [Decidable c] {message : String} {Q : Unit → σ → Prop}
    (met : c → ∀ s, P s → Q () s) (unmet : ¬ c → ∀ s, P s → E (.panic message) s) :
    Triple P (Act.ensure c message) Q E := by
  intro s h
  by_cases hc : c
  · rw [Act.run_ensure_of_pos hc]
    exact met hc s h
  · rw [Act.run_ensure_of_neg hc]
    exact unmet hc s h

/-- Clean-up code turns the state a panic leaves into the one the caller's contract asks for. -/
theorem onUnwind {cleanup : Act σ Unit} (body : Triple P m Q E')
    (cleaned : ∀ message, Triple (E' (.panic message)) cleanup (fun _ => E (.panic message)) Never)
    (ended : ∀ e s, (∀ message, e ≠ .panic message) → E' e s → E e s) :
    Triple P (m.onUnwind cleanup) Q E := by
  intro s hs
  have h := body s hs
  rcases ran : m.run s with ⟨e | a, s'⟩ <;> rw [ran] at h
  · cases e with
    | panic message =>
      obtain ⟨u, s'', done, unwound⟩ := (cleaned message).returns h
      rw [Act.run_onUnwind_of_panic ran done]
      exact unwound
    | abort reason =>
      rw [Act.run_onUnwind_of_end ran (by simp)]
      exact ended _ _ (by simp) h
    | diverge =>
      rw [Act.run_onUnwind_of_end ran (by simp)]
      exact ended _ _ (by simp) h
  · rw [Act.run_onUnwind_of_ok ran]
    exact h

/-- Nothing is asked of what a program does. -/
theorem any (m : Act σ α) : Triple P m (fun _ _ => True) fun _ _ => True := by
  intro s _
  rcases m.run s with ⟨e | a, s'⟩ <;> exact True.intro

/-- A program that stops does not return after its clean-up code either. -/
theorem onUnwind_returns {cleanup : Act σ Unit} (body : Triple P m Q fun _ _ => True) :
    Triple P (m.onUnwind cleanup) Q fun _ _ => True := by
  intro s hs
  have h := body s hs
  rcases ran : m.run s with ⟨e | a, s'⟩ <;> rw [ran] at h
  · have stopped : ∃ e' s'', (m.onUnwind cleanup).run s = (.error e', s'') := by
      simp only [Act.run] at ran
      simp only [Act.run, Act.onUnwind, ran]
      cases e with
      | panic message =>
        simp only
        split <;> exact ⟨_, _, rfl⟩
      | abort reason => exact ⟨_, _, rfl⟩
      | diverge => exact ⟨_, _, rfl⟩
    obtain ⟨e', s'', eq⟩ := stopped
    rw [eq]
    trivial
  · rw [Act.run_onUnwind_of_ok ran]
    exact h

end Triple

/-! ## Invariants -/

/-- The program preserves the invariant `J`, and stops in `E`. -/
def Keeps (J : σ → Prop) (E : Stop → σ → Prop) (m : Act σ α) : Prop := Triple J m (fun _ => J) E

namespace Keeps

variable {J : σ → Prop} {E : Stop → σ → Prop} {m : Act σ α}

theorem pure (a : α) : Keeps J E (pure a) := fun _ h => h

theorem bind {f : α → Act σ β} (first : Keeps J E m) (rest : ∀ a, Keeps J E (f a)) :
    Keeps J E (m >>= f) :=
  Triple.bind first rest

theorem get : Keeps J E Act.get := fun _ h => h

theorem modify {f : σ → σ} (holds : ∀ s, J s → J (f s)) : Keeps J E (Act.modify f) :=
  fun s h => holds s h

theorem step {f : σ → α × σ} (holds : ∀ s, J s → J (f s).2) : Keeps J E (Act.step f) :=
  fun s h => holds s h

end Keeps

/-! ## One machine of a family -/

/-- A contract of a program of one machine, inside the family. -/
theorem Triple.on [DecidableEq ι] {i : ι} {m : Act σ α} {pre : σ → Prop} {post : α → σ → Prop}
    {stops : Stop → σ → Prop} {P : (ι → σ) → Prop} {Q : α → (ι → σ) → Prop}
    {E : Stop → (ι → σ) → Prop} (contract : Triple pre m post stops)
    (starts : ∀ w, P w → pre (w i))
    (returns : ∀ w a s, P w → post a s → Q a (Function.update w i s))
    (stopped : ∀ w e s, P w → stops e s → E e (Function.update w i s)) :
    Triple P (m.on i) Q E := by
  intro w h
  have done := contract (w i) (starts w h)
  rw [Act.run_on]
  rcases ran : m.run (w i) with ⟨e | a, s'⟩ <;> rw [ran] at done
  · exact stopped w e s' h done
  · exact returns w a s' h done

end Machines
