import Mathlib.Logic.Relation
import Squirrels.Binding.PrintShim

/-!
# What the registries hold

Every instance finds its own entry in the table of compile errors, as long as no machine is opened
at an address whose former owner has still to take its entry out. A callback is found by the machine
that prints, so the one of an instance is found by its own machine and not by its coroutines.
-/

namespace Squirrels

namespace Phase

/-- The address an instance still refers to, freed or not. -/
def named : Phase → Option Addr
  | closed a => some a
  | q => q.held

/-- The address under which an instance has made its entry. -/
def entered : Phase → Option Addr
  | absent | opened _ => none
  | q => q.named

theorem named_of_entered {q : Phase} {a : Addr} (entered : q.entered = some a) :
    q.named = some a := by
  cases q <;> first | exact entered | cases entered

theorem entered_of_live {q : Phase} {a : Addr} (live : q.live = some a) : q.entered = some a := by
  cases q <;> first | exact live | cases live

end Phase

namespace Process

/-! ## Compile errors -/

/-- No instance that has freed the address has still to take its entry out. -/
def Settled (p : Process) (a : Addr) : Prop := ∀ j, p.phase j ≠ .closed a

/-- A step that opens no machine at an address that is not settled. -/
def SettledStep (p p' : Process) : Prop :=
  Step p p' ∧ ∀ i a, p.phase i = .absent → p'.phase i = .opened a → p.Settled a

/-- Every instance has its own address and finds its entry there. -/
structure Listed (phase : ℕ → Phase) (errors : ErrorRegistry) : Prop where
  apart : ∀ i j a, (phase i).named = some a → (phase j).named = some a → i = j
  listed : ∀ i a, (phase i).entered = some a → (errors a).isSome
  reported : ∀ i a e, phase i = .reported a e → errors a = some (some e)
  calm : ∀ i a, phase i ≠ .panicked a

/-- What one instance does under its own address does not touch the others. -/
theorem Listed.move {phase : ℕ → Phase} {errors errors' : ErrorRegistry}
    (listed : Listed phase errors) {i : ℕ} {a : Addr} {q : Phase}
    (own : ∀ j, (phase j).named = some a → j = i)
    (named : ∀ b, q.named = some b → b = a)
    (same : ∀ b, b ≠ a → errors' b = errors b)
    (entry : q.entered = some a → (errors' a).isSome)
    (report : ∀ e, q = .reported a e → errors' a = some (some e))
    (calm : ∀ b, q ≠ .panicked b) : Listed (Function.update phase i q) errors' := by
  have elsewhere : ∀ j b, j ≠ i → (phase j).named = some b → b ≠ a := by
    intro j b other at_ eq
    exact other (own j (eq ▸ at_))
  have here : ∀ b, (Function.update phase i q i).named = some b → b = a := by
    rw [Function.update_self]
    exact named
  refine ⟨fun j k b at_ at_' => ?_, fun j b entered => ?_, fun j b e at_ => ?_, fun j b => ?_⟩
  · by_cases first : j = i
    · by_cases second : k = i
      · rw [first, second]
      · rw [first] at at_
        rw [Function.update_of_ne second] at at_'
        exact absurd (here b at_) (elsewhere k b second at_')
    · rw [Function.update_of_ne first] at at_
      by_cases second : k = i
      · rw [second] at at_'
        exact absurd (here b at_') (elsewhere j b first at_)
      · rw [Function.update_of_ne second] at at_'
        exact listed.apart j k b at_ at_'
  · by_cases first : j = i
    · rw [first, Function.update_self] at entered
      obtain rfl := named b (Phase.named_of_entered entered)
      exact entry entered
    · rw [Function.update_of_ne first] at entered
      rw [same b (elsewhere j b first (Phase.named_of_entered entered))]
      exact listed.listed j b entered
  · by_cases first : j = i
    · rw [first, Function.update_self] at at_
      obtain rfl := named b (by rw [at_]; rfl)
      exact report e at_
    · rw [Function.update_of_ne first] at at_
      rw [same b (elsewhere j b first (by rw [at_]; rfl))]
      exact listed.reported j b e at_
  · by_cases first : j = i
    · rw [first, Function.update_self]
      exact calm b
    · rw [Function.update_of_ne first]
      exact listed.calm j b

section Step

variable {p p' : Process} {i : ℕ} {a : Addr} {errors : ErrorRegistry}

/-- An instance that keeps its address and its entry. -/
theorem Listed.keep (listed : Listed p.phase p.errors) {q q' : Phase} (at_ : p.phase i = q)
    (named : q.named = some a) (named' : q'.named = some a) (entered : q.entered = some a)
    (same : ∀ b, b ≠ a → errors b = p.errors b)
    (kept : (p.errors a).isSome → (errors a).isSome)
    (report : ∀ e, q' = .reported a e → errors a = some (some e))
    (calm : ∀ b, q' ≠ .panicked b) : Listed (Function.update p.phase i q') errors := by
  subst at_
  apply listed.move (fun j at_ => listed.apart j i a at_ named) _ same
    (fun _ => kept (listed.listed i a entered)) report calm
  intro b at_
  rw [named'] at at_
  exact (Option.some.inj at_).symm

/-- A table in which one entry was replaced. -/
theorem update_other {x : Option (Option CompileError)} (b : Addr) (other : b ≠ a) :
    Function.update errors a x b = errors b := Function.update_of_ne other _ _

theorem isSome_update_map {f : Option CompileError → Option CompileError}
    (some : (errors a).isSome) :
    (Function.update errors a ((errors a).map f) a).isSome := by
  rw [Function.update_self, Option.isSome_map]
  exact some

/-- One step keeps every entry in its place. -/
theorem Listed.step (listed : Listed p.phase p.errors) (step : SettledStep p p') :
    Listed p'.phase p'.errors := by
  obtain ⟨step, settled⟩ := step
  cases step with
  | sqOpen i a absent free =>
    have settled' : p.Settled a := settled i a absent (Function.update_self _ _ _)
    refine listed.move (fun j at_ => ?_) (fun b at_ => (Option.some.inj at_).symm) (fun _ _ => rfl)
      (fun entered => by cases entered) (fun e eq => by cases eq) (fun b eq => by cases eq)
    have unheld := (free j).1
    have unclosed := settled' j
    cases at_' : p.phase j <;> rw [at_'] at at_ unheld unclosed <;>
      first | exact absurd at_ unheld | simp_all [Phase.named, Phase.held]
  | @registerVm i a at_ =>
    refine listed.move (fun j at_' => listed.apart j i a at_' (by rw [at_]; rfl))
      (fun b at_' => (Option.some.inj at_').symm) update_other (fun _ => ?_)
      (fun e eq => by cases eq) (fun b eq => by cases eq)
    simp [ErrorRegistry.registerVm]
  | installPrintShims at_ =>
    exact listed.keep at_ rfl rfl rfl (fun _ _ => rfl) id (fun e eq => by cases eq)
      (fun b eq => by cases eq)
  | setFn f t at_ => exact listed
  | newthread at_ free => exact listed
  | collect b at_ => exact listed
  | clearError at_ =>
    exact listed.keep at_ rfl rfl rfl update_other isSome_update_map (fun e eq => by cases eq)
      (fun b eq => by cases eq)
  | compiled at_ =>
    exact listed.keep at_ rfl rfl rfl (fun _ _ => rfl) id (fun e eq => by cases eq)
      (fun b eq => by cases eq)
  | @compilerErrorHandler i a e at_ =>
    refine listed.keep at_ rfl rfl rfl update_other isSome_update_map (fun e' eq => ?_)
      (fun b eq => by cases eq)
    have entry := listed.listed i a (by rw [at_]; rfl)
    obtain ⟨x, found⟩ := Option.isSome_iff_exists.1 entry
    cases eq
    simp [ErrorRegistry.compilerErrorHandler, found]
  | takeError at_ found =>
    exact listed.keep at_ rfl rfl rfl update_other isSome_update_map (fun e eq => by cases eq)
      (fun b eq => by cases eq)
  | @takeNothing i a e at_ nothing =>
    simp [ErrorRegistry.takeError, listed.reported i a e at_] at nothing
  | caught at_ => exact absurd at_ (listed.calm _ _)
  | drop at_ =>
    exact listed.keep at_ rfl rfl rfl (fun _ _ => rfl) id (fun e eq => by cases eq)
      (fun b eq => by cases eq)
  | sqClose at_ =>
    exact listed.keep at_ rfl rfl rfl (fun _ _ => rfl) id (fun e eq => by cases eq)
      (fun b eq => by cases eq)
  | @unregisterVm i a at_ =>
    exact listed.move (fun j at_' => listed.apart j i a at_' (by rw [at_]; rfl))
      (fun b at_' => by cases at_') update_other (fun entered => by cases entered)
      (fun e eq => by cases eq) (fun b eq => by cases eq)

theorem Listed.run (run : Relation.ReflTransGen SettledStep initial p) :
    Listed p.phase p.errors := by
  induction run with
  | refl =>
    exact ⟨fun _ _ _ at_ => (by cases at_), fun _ _ at_ => (by cases at_),
      fun _ _ _ at_ => (by cases at_), fun _ _ at_ => (by cases at_)⟩
  | tail _ step ih => exact ih.step step

end Step

/-- In every state of a run whose machines are opened at settled addresses, every instance that is
in use has its entry in the table of compile errors, the error that the compiler reported is the one
that `compile_str` takes, and no `compile_str` has panicked. -/
theorem live_vm_is_registered {p : Process} (run : Relation.ReflTransGen SettledStep initial p) :
    (∀ i a, (p.phase i).live = some a → (p.errors a).isSome) ∧
      (∀ i a e, p.phase i = .reported a e → (p.errors.takeError a).1 = some e) ∧
      ∀ i a, p.phase i ≠ .panicked a := by
  have listed := Listed.run run
  refine ⟨fun i a live => listed.listed i a (Phase.entered_of_live live), fun i a e at_ => ?_,
    listed.calm⟩
  simp [ErrorRegistry.takeError, listed.reported i a e at_]

/-- The first `Squirrel::new` of a process. -/
theorem live_vm_is_registered_first :
    ∃ p : Process, (p.phase 0).live = some 7 ∧ (p.errors 7).isSome := by
  let p₁ : Process := { initial.move 0 (.opened 7) with
    threads := Function.update initial.threads 0 []
    chosen := Function.update initial.chosen 0 default }
  let p₂ : Process := { p₁.move 0 (.registered 7) with errors := p₁.errors.registerVm 7 }
  have opened : SettledStep initial p₁ :=
    ⟨.sqOpen 0 7 rfl fun j => ⟨by simp [initial, Phase.held], by simp [initial]⟩,
      fun _ _ _ _ j => by simp [initial]⟩
  have registered : SettledStep p₁ p₂ := by
    refine ⟨.registerVm rfl, fun j b _ at_ => ?_⟩
    by_cases first : j = 0
    · subst first
      simp [p₂, p₁, move] at at_
    · simp [p₂, p₁, move, initial, first] at at_
  have returned : SettledStep p₂ (p₂.move 0 (.idle 7)) := by
    refine ⟨.installPrintShims rfl, fun j b _ at_ => ?_⟩
    by_cases first : j = 0
    · subst first
      simp [move] at at_
    · simp [p₂, p₁, move, initial, first] at at_
  have run : Relation.ReflTransGen SettledStep initial (p₂.move 0 (.idle 7)) :=
    ((Relation.ReflTransGen.single opened).tail registered).tail returned
  have live : ((p₂.move 0 (.idle 7)).phase 0).live = some 7 := by simp [move, Phase.live]
  exact ⟨_, live, (live_vm_is_registered run).1 0 7 live⟩

/-- Without an entry, a syntax error makes `compile_str` panic. -/
theorem panics_without_entry {p : Process} {i : ℕ} {a : Addr} (at_ : p.phase i = .idle a)
    (missing : p.errors a = none) (e : CompileError) :
    ∃ p', Relation.ReflTransGen Step p p' ∧ p'.phase i = .panicked a := by
  have cleared := Step.clearError at_
  have reported := Step.compilerErrorHandler (p := { p.move i (.compiling a) with
    errors := p.errors.clearError a }) e (Function.update_self i _ _)
  have taken := Step.takeNothing (p := { (p.move i (.compiling a)).move i (.reported a e) with
    errors := (p.errors.clearError a).compilerErrorHandler a e }) (Function.update_self i _ _)
    (by simp [ErrorRegistry.takeError, ErrorRegistry.compilerErrorHandler,
      ErrorRegistry.clearError, missing])
  exact ⟨_, .tail (.tail (.single cleared) reported) taken, Function.update_self i _ _⟩

/-- A second instance is opened where the first has freed its machine and is registered, and then
the first takes the entry out: the second is in use without an entry, and a syntax error makes its
`compile_str` panic. -/
theorem live_vm_loses_entry :
    ∃ p p' : Process, Relation.ReflTransGen Step initial p ∧ p.phase 1 = .idle 7 ∧
      p.errors 7 = none ∧ Relation.ReflTransGen Step p p' ∧ p'.phase 1 = .panicked 7 := by
  have first : initial.Free 7 := fun j => ⟨by simp [initial, Phase.held], by simp [initial]⟩
  have opened := Step.sqOpen 0 7 rfl first
  have reached : ∃ p, Relation.ReflTransGen Step initial p ∧ p.phase 1 = .idle 7 ∧
      p.errors 7 = none := by
    refine ⟨_, .tail (.tail (.tail (.tail (.tail (.tail (.tail (.tail (.single opened)
      (.registerVm (i := 0) (a := 7) rfl)) (.installPrintShims (i := 0) (a := 7) rfl))
      (.drop (i := 0) (a := 7) rfl)) (.sqClose (i := 0) (a := 7) rfl))
      (.sqOpen 1 7 rfl fun j => ?_))
      (.registerVm (i := 1) (a := 7) rfl)) (.installPrintShims (i := 1) (a := 7) rfl))
      (.unregisterVm (i := 0) (a := 7) rfl), rfl, rfl⟩
    by_cases zero : j = 0
    · subst zero
      exact ⟨by simp [move, Phase.held], by simp⟩
    · simp [move, initial, Phase.held, zero]
  obtain ⟨p, run, at_, missing⟩ := reached
  obtain ⟨p', run', panicked⟩ := panics_without_entry at_ missing ⟨[], [], 1, 1⟩
  exact ⟨p, p', run, at_, missing, run', panicked⟩

/-! ## Print callbacks -/

/-- The address is that of a machine of the instance, its own or a coroutine's. -/
def Has (p : Process) (i : ℕ) (a : Addr) : Prop := (p.phase i).held = some a ∨ a ∈ p.threads i

/-- No two machines share an address, an instance that is not being dropped finds the callbacks it
was given, and no other machine finds any. -/
structure Routed (p : Process) : Prop where
  apart : ∀ i j a, p.Has i a → p.Has j a → i = j
  own : ∀ i a, (p.phase i).held = some a → a ∉ p.threads i
  kept : ∀ i a, (p.phase i).held = some a → p.phase i ≠ .dropping a →
    (p.prints a).getD default = p.chosen i
  listed : ∀ b, p.prints b ≠ none → ∃ i, (p.phase i).live = some b

theorem Phase.held_of_live {q : Phase} {a : Addr} (live : q.live = some a) : q.held = some a := by
  cases q <;> first | exact live | cases live

/-- A free address has no callbacks. -/
theorem Routed.none_of_free {p : Process} (routed : Routed p) {a : Addr} (free : p.Free a) :
    p.prints a = none := by
  by_contra some
  obtain ⟨i, live⟩ := routed.listed a some
  exact (free i).1 (Phase.held_of_live live)

/-- An instance goes on with its machine. -/
theorem Routed.goOn {p : Process} (routed : Routed p) {i : ℕ} {a : Addr} {q₀ q : Phase}
    (at_₀ : p.phase i = q₀) (held : q₀.held = some a) (held' : q.held = some a)
    (before : q₀ ≠ .dropping a) (live : q₀.live = some a → q.live = some a)
    (errors : ErrorRegistry) : Routed { p.move i q with errors := errors } := by
  subst at_₀
  have same : ∀ j, (Function.update p.phase i q j).held = (p.phase j).held := by
    intro j
    by_cases here : j = i
    · rw [here, Function.update_self, held, held']
    · rw [Function.update_of_ne here]
  have has : ∀ j b, Has { p.move i q with errors := errors } j b ↔ p.Has j b := by
    intro j b
    show (Function.update p.phase i q j).held = some b ∨ _ ↔ _
    rw [same j]
    rfl
  refine ⟨fun j k b at_ at_' => ?_, fun j b at_ => ?_, fun j b at_ calm => ?_, fun b some => ?_⟩
  · exact routed.apart j k b ((has j b).1 at_) ((has k b).1 at_')
  · exact routed.own j b ((same j).symm.trans at_)
  · have at_' : (p.phase j).held = Option.some b := (same j).symm.trans at_
    apply routed.kept j b at_'
    by_cases here : j = i
    · subst here
      rw [held] at at_'
      exact Option.some.inj at_' ▸ before
    · have calm' : Function.update p.phase i q j ≠ .dropping b := calm
      rwa [Function.update_of_ne here] at calm'
  · obtain ⟨j, at_⟩ := routed.listed b some
    refine ⟨j, ?_⟩
    show (Function.update p.phase i q j).live = Option.some b
    by_cases here : j = i
    · subst here
      have own : (p.phase j).held = Option.some b := Phase.held_of_live at_
      rw [held] at own
      obtain rfl := Option.some.inj own
      rw [Function.update_self]
      exact live at_
    · rw [Function.update_of_ne here]
      exact at_

section Routing

variable {p p' : Process} {i : ℕ} {a : Addr}

theorem Routed.sqOpen (routed : Routed p) (absent : p.phase i = .absent) (free : p.Free a) :
    Routed { p.move i (.opened a) with
      threads := Function.update p.threads i []
      chosen := Function.update p.chosen i default } := by
  have has : ∀ j b, Has { p.move i (.opened a) with
      threads := Function.update p.threads i []
      chosen := Function.update p.chosen i default } j b → j = i ∧ b = a ∨ j ≠ i ∧ p.Has j b := by
    intro j b at_
    by_cases here : j = i
    · subst here
      refine .inl ⟨rfl, ?_⟩
      simpa [Has, Process.move, Phase.held, eq_comm] using at_
    · refine .inr ⟨here, ?_⟩
      simpa [Has, Process.move, Function.update_of_ne here] using at_
  have fresh : ∀ j, ¬ p.Has j a := fun j at_ => at_.elim (free j).1 (free j).2
  refine ⟨fun j k b at_ at_' => ?_, fun j b at_ => ?_, fun j b at_ calm => ?_, fun b some => ?_⟩
  · rcases has j b at_ with ⟨rfl, rfl⟩ | ⟨other, old⟩ <;>
      rcases has k b at_' with ⟨rfl, eq⟩ | ⟨other', old'⟩
    · rfl
    · exact absurd old' (fresh k)
    · exact absurd (eq ▸ old) (fresh j)
    · exact routed.apart j k b old old'
  · by_cases here : j = i
    · subst here
      simp
    · simp only [Process.move, Function.update_of_ne here] at at_ ⊢
      exact routed.own j b at_
  · by_cases here : j = i
    · subst here
      simp only [Process.move, Function.update_self, Phase.held, Option.some.injEq] at at_ ⊢
      rw [← at_, routed.none_of_free free]
      rfl
    · simp only [Process.move, Function.update_of_ne here] at at_ calm ⊢
      exact routed.kept j b at_ calm
  · obtain ⟨j, live⟩ := routed.listed b some
    refine ⟨j, ?_⟩
    have other : j ≠ i := by
      rintro rfl
      rw [absent] at live
      cases live
    simp only [Process.move, Function.update_of_ne other]
    exact live

theorem Routed.setFn (routed : Routed p) (f : ℕ) (t : PrintFnType) (at_ : p.phase i = .idle a) :
    Routed { p with
      prints := p.prints.setFn a f t
      chosen := Function.update p.chosen i ((p.chosen i).choose f t) } := by
  have held : (p.phase i).held = some a := by rw [at_]; rfl
  refine ⟨routed.apart, routed.own, fun j b held' calm => ?_, fun b some => ?_⟩
  · by_cases here : j = i
    · subst here
      rw [held] at held'
      obtain rfl := Option.some.inj held'
      have before := routed.kept j a held calm
      simp [PrintRegistry.setFn, before]
    · have other : b ≠ a := fun eq => here (routed.apart j i a (.inl (eq ▸ held')) (.inl held))
      simp only [PrintRegistry.setFn, Function.update_of_ne here, Function.update_of_ne other]
      exact routed.kept j b held' calm
  · by_cases here : b = a
    · exact ⟨i, by rw [at_, here]; rfl⟩
    · simp only [PrintRegistry.setFn, Function.update_of_ne here] at some
      exact routed.listed b some

/-- The coroutines of an instance change. -/
theorem Routed.threads (routed : Routed p) {threads : List Addr}
    (known : ∀ b ∈ threads, p.Free b ∨ b ∈ p.threads i) :
    Routed { p with threads := Function.update p.threads i threads } := by
  have has : ∀ j b, Has { p with threads := Function.update p.threads i threads } j b →
      p.Has j b ∨ j = i ∧ p.Free b := by
    intro j b at_
    by_cases here : j = i
    · subst here
      rcases at_ with held | mem
      · exact .inl (.inl held)
      · simp only [Function.update_self] at mem
        exact (known b mem).elim (fun free => .inr ⟨rfl, free⟩) fun old => .inl (.inr old)
    · simp only [Has, Function.update_of_ne here] at at_
      exact .inl at_
  have fresh : ∀ j b, p.Free b → ¬ p.Has j b := fun j b free at_ =>
    at_.elim (free j).1 (free j).2
  refine ⟨fun j k b at_ at_' => ?_, fun j b held mem => ?_, routed.kept, routed.listed⟩
  · rcases has j b at_ with old | ⟨rfl, free⟩ <;> rcases has k b at_' with old' | ⟨rfl, free'⟩
    · exact routed.apart j k b old old'
    · exact absurd old (fresh j b free')
    · exact absurd old' (fresh k b free)
    · rfl
  · by_cases here : j = i
    · subst here
      simp only [Function.update_self] at mem
      rcases known b mem with free | old
      · exact (free j).1 held
      · exact routed.own j b held old
    · simp only [Function.update_of_ne here] at mem
      exact routed.own j b held mem

theorem Routed.drop (routed : Routed p) (at_ : p.phase i = .idle a) :
    Routed { p.move i (.dropping a) with prints := p.prints.clearPrintFns a } := by
  have held : (p.phase i).held = some a := by rw [at_]; rfl
  have same : ∀ j, (Function.update p.phase i (.dropping a) j).held = (p.phase j).held := by
    intro j
    by_cases here : j = i
    · rw [here, Function.update_self, held]
      rfl
    · rw [Function.update_of_ne here]
  refine ⟨fun j k b has has' => ?_, fun j b held' => ?_, fun j b held' calm => ?_, fun b some => ?_⟩
  · simp only [Has, Process.move, same] at has has'
    exact routed.apart j k b has has'
  · simp only [Process.move, same] at held'
    exact routed.own j b held'
  · simp only [Process.move, same] at held' calm
    by_cases here : j = i
    · subst here
      rw [held] at held'
      obtain rfl := Option.some.inj held'
      exact absurd (Function.update_self _ _ _) calm
    · rw [Function.update_of_ne here] at calm
      have other : b ≠ a := fun eq => here (routed.apart j i a (.inl (eq ▸ held')) (.inl held))
      simp only [Process.move, PrintRegistry.clearPrintFns, Function.update_of_ne other]
      exact routed.kept j b held' calm
  · by_cases here : b = a
    · simp [PrintRegistry.clearPrintFns, here] at some
    · simp only [PrintRegistry.clearPrintFns, Function.update_of_ne here] at some
      obtain ⟨j, live⟩ := routed.listed b some
      refine ⟨j, ?_⟩
      have other : j ≠ i := by
        rintro rfl
        rw [at_] at live
        exact here (Option.some.inj live).symm
      simp only [Process.move, Function.update_of_ne other]
      exact live

/-- An instance whose callbacks are cleared goes away with its machines. -/
theorem Routed.leave (routed : Routed p) {q : Phase} (gone : q.held = none)
    (dead : (p.phase i).live = none) {threads : List Addr} (fewer : ∀ b ∈ threads, b ∈ p.threads i)
    (errors : ErrorRegistry) :
    Routed { p.move i q with
      threads := Function.update p.threads i threads
      errors := errors } := by
  have has : ∀ j b, Has { p.move i q with
      threads := Function.update p.threads i threads
      errors := errors } j b → p.Has j b := by
    intro j b at_
    by_cases here : j = i
    · subst here
      simp only [Has, Process.move, Function.update_self, gone] at at_
      exact .inr (fewer b (at_.resolve_left (by simp)))
    · simpa only [Has, Process.move, Function.update_of_ne here] using at_
  refine ⟨fun j k b at_ at_' => ?_, fun j b held => ?_, fun j b held calm => ?_, fun b some => ?_⟩
  · exact routed.apart j k b (has j b at_) (has k b at_')
  · by_cases here : j = i
    · subst here
      simp [Process.move, gone] at held
    · simp only [Process.move, Function.update_of_ne here] at held ⊢
      exact routed.own j b held
  · by_cases here : j = i
    · subst here
      simp [Process.move, gone] at held
    · simp only [Process.move, Function.update_of_ne here] at held calm ⊢
      exact routed.kept j b held calm
  · obtain ⟨j, live⟩ := routed.listed b some
    refine ⟨j, ?_⟩
    have other : j ≠ i := by
      rintro rfl
      rw [dead] at live
      cases live
    simp only [Process.move, Function.update_of_ne other]
    exact live

/-- One step keeps the callbacks where they are found. -/
theorem Routed.step (routed : Routed p) (step : Step p p') : Routed p' := by
  cases step with
  | sqOpen i a absent free => exact routed.sqOpen absent free
  | setFn f t at_ => exact routed.setFn f t at_
  | newthread at_ free =>
    apply routed.threads
    intro b mem
    rcases List.mem_cons.1 mem with rfl | old
    · exact .inl free
    · exact .inr old
  | collect b at_ => exact routed.threads fun c mem => .inr (List.mem_of_mem_erase mem)
  | drop at_ => exact routed.drop at_
  | @sqClose i a at_ =>
    exact routed.leave rfl (by rw [at_]; rfl) (fun b mem => absurd mem List.not_mem_nil) p.errors
  | @unregisterVm i a at_ =>
    have left := routed.leave (i := i) (q := .absent) rfl (by rw [at_]; rfl) (fun _ => id)
      (p.errors.unregisterVm a)
    rw [Function.update_eq_self] at left
    exact left
  | compilerErrorHandler e at_ => exact routed.goOn at_ rfl rfl Phase.noConfusion (by exact id) _
  | registerVm at_ => exact routed.goOn at_ rfl rfl Phase.noConfusion (fun live => by cases live) _
  | installPrintShims at_ =>
    exact routed.goOn at_ rfl rfl Phase.noConfusion (fun live => by cases live) _
  | clearError at_ => exact routed.goOn at_ rfl rfl Phase.noConfusion (by exact id) _
  | compiled at_ => exact routed.goOn at_ rfl rfl Phase.noConfusion (by exact id) _
  | takeError at_ found => exact routed.goOn at_ rfl rfl Phase.noConfusion (by exact id) _
  | takeNothing at_ nothing => exact routed.goOn at_ rfl rfl Phase.noConfusion (by exact id) _
  | caught at_ => exact routed.goOn at_ rfl rfl Phase.noConfusion (by exact id) _

theorem Routed.run (run : Relation.ReflTransGen Step initial p) : Routed p := by
  induction run with
  | refl =>
    refine ⟨fun i j a has => ?_, fun i a held => ?_, fun i a held => ?_, fun b some => ?_⟩
    · exact has.elim (fun held => (by cases held)) fun mem => absurd mem List.not_mem_nil
    · cases held
    · cases held
    · exact absurd rfl some
  | tail _ step ih => exact ih.step step

end Routing

/-- The call that hands a text to the callback that an instance was last given, if there is one. -/
def expected (p : Process) (i : ℕ) (text : List UInt8) (t : PrintFnType) :
    List (ℕ × List UInt8) :=
  match (p.chosen i).select t with
  | some f => [(f, text)]
  | none => []

/-- What a machine of an instance prints goes to the callback the instance was last given, once and
as it is, exactly when the machine is the instance's own and the text has no NUL, is valid UTF-8 and
is no longer than an `int` can say, or when there is no callback. -/
theorem print_reaches_callback_iff {p : Process} (run : Relation.ReflTransGen Step initial p)
    {i : ℕ} {a v : Addr} (live : (p.phase i).live = some a) (has : p.Has i v) {libc : Libc}
    (strings : libc.Strings) (smallBuf : Buffer smallBufSize) (text : List UInt8)
    (t : PrintFnType) :
    PrintRegistry.received (PrintRegistry.basePrint strings p.prints v t smallBuf text) =
        p.expected i text t ↔
      v = a ∧ (0 ∉ text ∧ text.length ≤ intMax ∧ ∃ chars, Utf8.encode chars = text) ∨
        (p.chosen i).select t = none := by
  have routed := Routed.run run
  have held := Phase.held_of_live live
  have calm : p.phase i ≠ .dropping a := fun eq => by rw [eq] at live; cases live
  have kept := routed.kept i a held calm
  unfold expected
  by_cases main : v = a
  · subst main
    have found : (p.prints v).bind (·.select t) = (p.chosen i).select t := by
      rw [← kept]
      cases p.prints v with
      | none => cases t <;> rfl
      | some fns => rfl
    cases set : (p.chosen i).select t with
    | none =>
      rw [PrintRegistry.basePrint_of_none strings p.prints v t smallBuf text (found.trans set)]
      simp [PrintRegistry.received]
    | some f =>
      rw [PrintRegistry.received_basePrint_iff strings p.prints v t smallBuf text (found.trans set)]
      simp
  · have nothing : p.prints v = none := by
      by_contra some
      obtain ⟨j, live'⟩ := routed.listed v some
      obtain rfl := routed.apart j i v (.inl (Phase.held_of_live live')) has
      rw [live] at live'
      exact main (Option.some.inj live').symm
    rw [PrintRegistry.basePrint_of_none strings p.prints v t smallBuf text (by rw [nothing]; rfl)]
    cases (p.chosen i).select t with
    | none => simp [PrintRegistry.received]
    | some f => simp [main, PrintRegistry.received]

/-- A process with one instance, which has been given a callback for its output and has made a
coroutine. -/
theorem reach_coroutine :
    ∃ p, Relation.ReflTransGen Step initial p ∧ p.phase 0 = .idle 7 ∧ p.threads 0 = [8] ∧
      p.chosen 0 = ⟨some 3, none⟩ ∧ p.prints 7 = some ⟨some 3, none⟩ ∧ p.prints 8 = none := by
  have first : initial.Free 7 := fun j => ⟨by simp [initial, Phase.held], by simp [initial]⟩
  refine ⟨_, .tail (.tail (.tail (.tail (.single (.sqOpen 0 7 rfl first))
    (.registerVm (i := 0) (a := 7) rfl)) (.installPrintShims (i := 0) (a := 7) rfl))
    (.setFn (i := 0) (a := 7) 3 .print rfl)) (.newthread (i := 0) (a := 7) (b := 8) rfl ?_),
    rfl, rfl, rfl, rfl, rfl⟩
  intro j
  by_cases zero : j = 0
  · subst zero
    exact ⟨by simp [move, Phase.held], by simp [move]⟩
  · simp [move, initial, Phase.held, zero]

/-- The main program of that instance prints `hé`. -/
theorem print_reaches_callback_iff_main :
    ∃ p : Process, PrintRegistry.received
        (PrintRegistry.basePrint Libc.percentS.strings p.prints 7 .print
          ⟨List.replicate smallBufSize 0, List.length_replicate⟩ [104, 195, 169]) =
        [(3, [104, 195, 169])] := by
  obtain ⟨p, run, at_, -, chosen, -⟩ := reach_coroutine
  have live : (p.phase 0).live = some 7 := by rw [at_]; rfl
  have has : p.Has 0 7 := .inl (Phase.held_of_live live)
  have valid : Utf8.encode ['h', 'é'] = [104, 195, 169] := by decide
  have reaches := (print_reaches_callback_iff run live has Libc.percentS.strings
    ⟨List.replicate smallBufSize 0, List.length_replicate⟩ [104, 195, 169] .print).2
    (.inl ⟨rfl, by decide, by decide, _, valid⟩)
  refine ⟨p, ?_⟩
  rw [reaches, expected, chosen]
  rfl

/-- What its coroutine prints reaches no callback. -/
theorem print_lost_in_coroutine :
    ∃ p, Relation.ReflTransGen Step initial p ∧ (p.phase 0).live = some 7 ∧ p.Has 0 8 ∧
      p.expected 0 [104, 105] .print = [(3, [104, 105])] ∧
      PrintRegistry.basePrint Libc.percentS.strings p.prints 8 .print
        ⟨List.replicate smallBufSize 0, List.length_replicate⟩ [104, 105] = [] := by
  obtain ⟨p, run, at_, threads, chosen, -, missing⟩ := reach_coroutine
  refine ⟨p, run, by rw [at_]; rfl, .inr (by rw [threads]; decide), ?_, ?_⟩
  · rw [expected, chosen]
    rfl
  · exact PrintRegistry.basePrint_of_none _ p.prints _ _ _ _ (by rw [missing]; rfl)

end Process

end Squirrels
