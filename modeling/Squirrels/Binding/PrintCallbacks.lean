import Mathlib.Data.List.Chain
import Mathlib.Logic.Relation
import Squirrels.Binding.Process

/-!
# User code and the lock of the print callbacks

The functions of the registry of print callbacks hold its mutex through a guard, which lives to the
end of the statement that takes it. `dispatch` clones the callback, and the guard is gone before
the call. `set_print_fn`, `set_error_fn` and `clear_print_fns` drop the callbacks they take out
while the guard lives; what a callback has captured is dropped with the last reference to it.

The threads of a process are interleaved step by step. User code, that is the program, a callback or
a destructor, may ask anything of the registry.
-/

namespace Squirrels

/-- A function of the registry, with its arguments. A callback that is set is a new one. -/
inductive PrintRequest where
  | setFn (v : Addr) (t : PrintFnType)
  | clearPrintFns (v : Addr)
  | dispatch (v : Addr) (t : PrintFnType)
deriving DecidableEq

/-- A frame of a thread. -/
inductive PrintFrame where
  /-- The program. -/
  | code
  /-- A callback that `dispatch` has called. -/
  | callback (f : ℕ)
  /-- The destructor of what a callback has captured. -/
  | destructor (f : ℕ)
  /-- A function of the registry at `lock`. -/
  | locking (r : PrintRequest)
  /-- A function that has the guard, with the callbacks that it drops before the guard. -/
  | dropping (fs : List ℕ)
  /-- `dispatch` with the guard and the callback it has cloned. -/
  | cloned (f : Option ℕ)
  /-- `dispatch` before the call. -/
  | calling (f : ℕ)
  /-- `dispatch` after the call. -/
  | called (f : ℕ)
deriving DecidableEq

namespace PrintFrame

/-- The frame runs code of the user. -/
def UserCode : PrintFrame → Prop
  | code | callback _ | destructor _ => True
  | _ => False

/-- The frame has the guard. -/
def Guarded : PrintFrame → Prop
  | dropping _ | cloned _ => True
  | _ => False

/-- The callback that `dispatch` has cloned. -/
def clone : PrintFrame → Option ℕ
  | cloned f => f
  | calling f | called f => some f
  | _ => none

/-- The callbacks that the frame holds references to. -/
def arcs : PrintFrame → List ℕ
  | dropping fs => fs
  | x => x.clone.toList

end PrintFrame

/-- The registry of print callbacks and the threads that use it. -/
structure PrintThreads where
  prints : PrintRegistry
  frames : ℕ → List PrintFrame
  /-- The thread that has locked the mutex. -/
  holder : Option ℕ
  /-- The next callback. -/
  next : ℕ

namespace PrintThreads

/-- All threads run code of the program, and no callback is set. -/
def initial : PrintThreads := ⟨fun _ => none, fun _ => [.code], none, 0⟩

variable (s : PrintThreads)

/-- The callback of a machine. -/
def slot (v : Addr) (t : PrintFnType) : Option ℕ := (s.prints v).bind (·.select t)

/-- There is a reference to the callback. -/
def Held (f : ℕ) : Prop := (∃ v t, s.slot v t = some f) ∨ ∃ i, ∃ x ∈ s.frames i, f ∈ x.arcs

/-- A `dispatch` that is under way has cloned the callback. -/
def Dispatched (f : ℕ) : Prop := ∃ i, ∃ x ∈ s.frames i, x.clone = some f

/-- The thread goes on with other frames. -/
def goTo (i : ℕ) (frames : List PrintFrame) : PrintThreads :=
  { s with frames := Function.update s.frames i frames }

/-- What a function of the registry does first when it has locked the mutex. -/
def lock (i : ℕ) (rest : List PrintFrame) : PrintRequest → PrintThreads
  | .setFn v t =>
    { s.goTo i (.dropping (s.slot v t).toList :: rest) with
      prints := s.prints.setFn v s.next t
      holder := some i
      next := s.next + 1 }
  | .clearPrintFns v =>
    { s.goTo i (.dropping ((s.slot v .print).toList ++ (s.slot v .error).toList) :: rest) with
      prints := s.prints.clearPrintFns v
      holder := some i }
  | .dispatch v t => { s.goTo i (.cloned (s.slot v t) :: rest) with holder := some i }

/-- A step of a thread. -/
inductive StepOf (i : ℕ) : PrintThreads → PrintThreads → Prop where
  | request {s : PrintThreads} {x : PrintFrame} {rest : List PrintFrame} (r : PrintRequest)
      (at_ : s.frames i = x :: rest) (user : x.UserCode) :
      StepOf i s (s.goTo i (.locking r :: x :: rest))
  | lock {s : PrintThreads} {r : PrintRequest} {rest : List PrintFrame}
      (at_ : s.frames i = .locking r :: rest) (free : s.holder = none) :
      StepOf i s (s.lock i rest r)
  | drop {s : PrintThreads} {f : ℕ} {fs : List ℕ} {rest : List PrintFrame}
      (at_ : s.frames i = .dropping (f :: fs) :: rest)
      (held : (s.goTo i (.dropping fs :: rest)).Held f) :
      StepOf i s (s.goTo i (.dropping fs :: rest))
  | dropLast {s : PrintThreads} {f : ℕ} {fs : List ℕ} {rest : List PrintFrame}
      (at_ : s.frames i = .dropping (f :: fs) :: rest)
      (last : ¬ (s.goTo i (.dropping fs :: rest)).Held f) :
      StepOf i s (s.goTo i (.destructor f :: .dropping fs :: rest))
  | unlock {s : PrintThreads} {rest : List PrintFrame} (at_ : s.frames i = .dropping [] :: rest) :
      StepOf i s { s.goTo i rest with holder := none }
  | unlockCloned {s : PrintThreads} {f : Option ℕ} {rest : List PrintFrame}
      (at_ : s.frames i = .cloned f :: rest) :
      StepOf i s { s.goTo i ((f.map .calling).toList ++ rest) with holder := none }
  | call {s : PrintThreads} {f : ℕ} {rest : List PrintFrame}
      (at_ : s.frames i = .calling f :: rest) :
      StepOf i s (s.goTo i (.callback f :: .called f :: rest))
  | callbackReturns {s : PrintThreads} {f : ℕ} {rest : List PrintFrame}
      (at_ : s.frames i = .callback f :: rest) : StepOf i s (s.goTo i rest)
  | destructorReturns {s : PrintThreads} {f : ℕ} {rest : List PrintFrame}
      (at_ : s.frames i = .destructor f :: rest) : StepOf i s (s.goTo i rest)
  | release {s : PrintThreads} {f : ℕ} {rest : List PrintFrame}
      (at_ : s.frames i = .called f :: rest) (held : (s.goTo i rest).Held f) :
      StepOf i s (s.goTo i rest)
  | releaseLast {s : PrintThreads} {f : ℕ} {rest : List PrintFrame}
      (at_ : s.frames i = .called f :: rest) (last : ¬ (s.goTo i rest).Held f) :
      StepOf i s (s.goTo i (.destructor f :: rest))

/-- A step of any thread. -/
def Step (s s' : PrintThreads) : Prop := ∃ i, StepOf i s s'

/-- No thread runs user code between its lock and its unlock, and none locks the mutex twice. -/
structure Unlocked : Prop where
  quiet : ∀ i above x below, s.frames i = above ++ x :: below → x.Guarded →
    ∀ y ∈ above, ¬ y.UserCode
  once : ∀ i r rest, s.frames i = .locking r :: rest → s.holder ≠ some i

/-- A step that drops a callback under the lock only while a `dispatch` has a clone of it. -/
def SharedStep (s s' : PrintThreads) : Prop :=
  ∃ i, StepOf i s s' ∧ ∀ f fs rest, s.frames i = .dropping (f :: fs) :: rest → s.Dispatched f

/-! ## The invariant -/

/-- The thread that has the mutex, and no other one, has a guard, in its last frame; every callback
that is to be dropped has left the registry. -/
structure Calm : Prop where
  holder : ∀ i, s.holder = some i → ∃ x rest, s.frames i = x :: rest ∧ x.Guarded
  top : ∀ i x rest, s.frames i = x :: rest → x.Guarded → s.holder = some i
  tail : ∀ i x rest, s.frames i = x :: rest → ∀ y ∈ rest, ¬ y.Guarded
  made : ∀ f, s.Held f → f < s.next
  apart : ∀ v t v' t' f, s.slot v t = some f → s.slot v' t' = some f → v = v' ∧ t = t'
  dropped : ∀ i fs rest, s.frames i = .dropping fs :: rest →
    fs.Nodup ∧ ∀ f ∈ fs, ∀ v t, s.slot v t ≠ some f

variable {s} {s' : PrintThreads} {i : ℕ}

theorem initial_calm : initial.Calm where
  holder := fun _ absurd => by cases absurd
  top := fun i x rest eq => by
    obtain ⟨rfl, -⟩ := List.cons.inj eq
    exact fun guarded => guarded.elim
  tail := fun i x rest eq => by
    obtain ⟨-, rfl⟩ := List.cons.inj eq
    exact fun y mem => absurd mem List.not_mem_nil
  made := fun f held => by
    rcases held with ⟨v, t, absurd⟩ | ⟨j, x, mem, arc⟩
    · cases absurd
    · obtain rfl := List.mem_singleton.1 mem
      cases arc
  apart := fun v t v' t' f absurd => by cases absurd
  dropped := fun i fs rest eq => by cases eq

/-- Under the invariant no user code runs under the lock. -/
theorem Calm.unlocked (calm : s.Calm) : s.Unlocked where
  quiet := fun i above x below eq guarded => by
    cases above with
    | nil => exact fun y mem => absurd mem List.not_mem_nil
    | cons y above =>
      exact absurd guarded (calm.tail i y _ eq x (List.mem_append_right _ List.mem_cons_self))
  once := fun i r rest eq holder => by
    obtain ⟨x, rest', eq', guarded⟩ := calm.holder i holder
    rw [eq] at eq'
    obtain ⟨rfl, -⟩ := List.cons.inj eq'
    exact guarded

/-- A step of one thread keeps the invariant if it keeps it in the frames of that thread. -/
theorem Calm.of_frames (calm : s.Calm) {fr : List PrintFrame}
    (frames : s'.frames = Function.update s.frames i fr) (next : s.next ≤ s'.next)
    (slots : ∀ v t f, s'.slot v t = some f → s.slot v t = some f ∨ s.next = f ∧ f < s'.next)
    (apart : ∀ v t v' t' f, s'.slot v t = some f → s'.slot v' t' = some f → v = v' ∧ t = t')
    (others : ∀ j ≠ i, s'.holder = some j ↔ s.holder = some j)
    (here : s'.holder = some i → ∃ x rest, fr = x :: rest ∧ x.Guarded)
    (top : ∀ x rest, fr = x :: rest → x.Guarded → s'.holder = some i)
    (tail : ∀ x rest, fr = x :: rest → ∀ y ∈ rest, ¬ y.Guarded)
    (arcs : ∀ x ∈ fr, ∀ f ∈ x.arcs, s.Held f)
    (dropped : ∀ fs rest, fr = .dropping fs :: rest →
      fs.Nodup ∧ ∀ f ∈ fs, ∀ v t, s'.slot v t ≠ some f) : s'.Calm := by
  have same : ∀ j ≠ i, s'.frames j = s.frames j := fun j other => by
    rw [frames, Function.update_of_ne other]
  have mine : s'.frames i = fr := by rw [frames, Function.update_self]
  refine ⟨fun j holds => ?_, fun j x rest eq guarded => ?_, fun j x rest eq => ?_, fun f held => ?_,
    apart, fun j fs rest eq => ?_⟩
  · by_cases at_ : j = i
    · subst at_
      rw [mine]
      exact here holds
    · rw [same j at_]
      exact calm.holder j ((others j at_).1 holds)
  · by_cases at_ : j = i
    · subst at_
      rw [mine] at eq
      exact top x rest eq guarded
    · rw [same j at_] at eq
      exact (others j at_).2 (calm.top j x rest eq guarded)
  · by_cases at_ : j = i
    · subst at_
      rw [mine] at eq
      exact tail x rest eq
    · rw [same j at_] at eq
      exact calm.tail j x rest eq
  · rcases held with ⟨v, t, found⟩ | ⟨j, x, mem, arc⟩
    · rcases slots v t f found with old | ⟨-, made⟩
      · exact (calm.made f (.inl ⟨v, t, old⟩)).trans_le next
      · exact made
    · by_cases at_ : j = i
      · subst at_
        rw [mine] at mem
        exact (calm.made f (arcs x mem f arc)).trans_le next
      · rw [same j at_] at mem
        exact (calm.made f (.inr ⟨j, x, mem, arc⟩)).trans_le next
  · by_cases at_ : j = i
    · subst at_
      rw [mine] at eq
      exact dropped fs rest eq
    · rw [same j at_] at eq
      obtain ⟨nodup, left⟩ := calm.dropped j fs rest eq
      refine ⟨nodup, fun f mem v t found => ?_⟩
      rcases slots v t f found with old | ⟨rfl, -⟩
      · exact left f mem v t old
      · have held : s.Held s.next := .inr ⟨j, .dropping fs, eq ▸ List.mem_cons_self, mem⟩
        exact (calm.made _ held).false

/-- A thread that has no guard goes on without one. -/
theorem Calm.goTo (calm : s.Calm) {fr : List PrintFrame} (old : ∀ x ∈ s.frames i, ¬ x.Guarded)
    (new : ∀ x ∈ fr, ¬ x.Guarded) (arcs : ∀ x ∈ fr, ∀ f ∈ x.arcs, s.Held f) :
    (s.goTo i fr).Calm := by
  refine calm.of_frames rfl le_rfl (fun v t f found => .inl found) calm.apart (fun j _ => Iff.rfl)
    (fun holds => ?_) (fun x rest eq guarded => ?_) (fun x rest eq y mem => ?_) arcs
    fun fs rest eq => ?_
  · obtain ⟨x, rest, eq, guarded⟩ := calm.holder i holds
    exact absurd guarded (old x (eq ▸ List.mem_cons_self))
  · exact absurd guarded (new x (eq ▸ List.mem_cons_self))
  · exact new y (eq ▸ List.mem_cons_of_mem _ mem)
  · exact absurd trivial (new (.dropping fs) (eq ▸ List.mem_cons_self))

/-- The guard goes. -/
theorem Calm.unlock (calm : s.Calm) {x : PrintFrame} {rest fr : List PrintFrame}
    (at_ : s.frames i = x :: rest) (guarded : x.Guarded) (new : ∀ x ∈ fr, ¬ x.Guarded)
    (arcs : ∀ x ∈ fr, ∀ f ∈ x.arcs, s.Held f) : { s.goTo i fr with holder := none }.Calm := by
  have holder := calm.top i x rest at_ guarded
  refine calm.of_frames rfl le_rfl (fun v t f found => .inl found) calm.apart (fun j other => ?_)
    (fun none => by cases none) (fun x rest eq guarded => ?_) (fun x rest eq y mem => ?_) arcs
    fun fs rest eq => ?_
  · rw [holder]
    exact ⟨fun none => (by cases none), fun eq => absurd (Option.some.inj eq).symm other⟩
  · exact absurd guarded (new x (eq ▸ List.mem_cons_self))
  · exact new y (eq ▸ List.mem_cons_of_mem _ mem)
  · exact absurd trivial (new (.dropping fs) (eq ▸ List.mem_cons_self))

theorem select_choose (fns : PrintFns) (f : ℕ) (t t' : PrintFnType) :
    (fns.choose f t).select t' = if t' = t then some f else fns.select t' := by
  cases t <;> cases t' <;> rfl

theorem slot_setFn {prints : PrintRegistry} {v v' : Addr} {t t' : PrintFnType} {f : ℕ} :
    ((prints.setFn v f t) v').bind (·.select t') =
      if v' = v ∧ t' = t then some f else (prints v').bind (·.select t') := by
  unfold PrintRegistry.setFn
  by_cases here : v' = v
  · subst here
    rw [Function.update_self]
    show (((prints v').getD default).choose f t).select t' = _
    rw [select_choose]
    simp only [true_and]
    split
    · rfl
    · cases prints v' with
      | none => cases t' <;> rfl
      | some fns => rfl
  · rw [Function.update_of_ne here, if_neg fun both => here both.1]

theorem slot_clearPrintFns {prints : PrintRegistry} {v v' : Addr} {t : PrintFnType} {f : ℕ}
    (found : ((prints.clearPrintFns v) v').bind (·.select t) = some f) :
    v' ≠ v ∧ (prints v').bind (·.select t) = some f := by
  unfold PrintRegistry.clearPrintFns at found
  by_cases here : v' = v
  · rw [here, Function.update_self] at found
    cases found
  · rw [Function.update_of_ne here] at found
    exact ⟨here, found⟩

/-- A thread that locks the mutex has no guard. -/
theorem Calm.free (calm : s.Calm) (free : s.holder = none) : ∀ x ∈ s.frames i, ¬ x.Guarded := by
  intro x mem guarded
  cases eq : s.frames i with
  | nil => rw [eq] at mem; cases mem
  | cons y rest =>
    rw [eq] at mem
    rcases List.mem_cons.1 mem with rfl | mem
    · have holder := calm.top i x rest eq guarded
      rw [free] at holder
      cases holder
    · exact calm.tail i y rest eq x mem guarded

theorem Calm.lock (calm : s.Calm) {r : PrintRequest} {rest : List PrintFrame}
    (at_ : s.frames i = .locking r :: rest) (free : s.holder = none) : (s.lock i rest r).Calm := by
  have none : ∀ x ∈ rest, ¬ x.Guarded := fun x mem =>
    calm.free free x (at_ ▸ List.mem_cons_of_mem _ mem)
  have kept : ∀ x ∈ rest, ∀ f ∈ x.arcs, s.Held f := fun x mem f arc =>
    .inr ⟨i, x, at_ ▸ List.mem_cons_of_mem _ mem, arc⟩
  have others : ∀ j ≠ i, some i = some j ↔ s.holder = some j := fun j other => by
    rw [free]
    exact ⟨fun eq => absurd (Option.some.inj eq).symm other, fun eq => by cases eq⟩
  have tail : ∀ g : PrintFrame, ∀ x rest', g :: rest = x :: rest' → ∀ y ∈ rest', ¬ y.Guarded := by
    intro g x rest' eq
    obtain ⟨-, rfl⟩ := List.cons.inj eq
    exact none
  cases r with
  | setFn v t =>
    have slots : ∀ v' t', (s.lock i rest (.setFn v t)).slot v' t' =
        if v' = v ∧ t' = t then some s.next else s.slot v' t' := fun v' t' => slot_setFn
    have fresh : ∀ v' t', s.slot v' t' ≠ some s.next := fun v' t' found =>
      (calm.made _ (.inl ⟨v', t', found⟩)).false
    refine calm.of_frames rfl (Nat.le_succ _) (fun v' t' f found => ?_)
      (fun v₁ t₁ v₂ t₂ f found found' => ?_) others (fun _ => ⟨_, _, rfl, trivial⟩)
      (fun _ _ _ _ => rfl) (tail _) (fun x mem f arc => ?_) fun fs rest' eq => ?_
    · rw [slots] at found
      split at found
      · exact .inr ⟨Option.some.inj found, Option.some.inj found ▸ Nat.lt_succ_self _⟩
      · exact .inl found
    · rw [slots] at found found'
      split at found <;> split at found'
      · rename_i first second
        exact ⟨first.1.trans second.1.symm, first.2.trans second.2.symm⟩
      · exact absurd (Option.some.inj found ▸ found') (fresh v₂ t₂)
      · exact absurd (Option.some.inj found' ▸ found) (fresh v₁ t₁)
      · exact calm.apart v₁ t₁ v₂ t₂ f found found'
    · rcases List.mem_cons.1 mem with rfl | mem
      · exact .inl ⟨v, t, Option.mem_toList.1 arc⟩
      · exact kept x mem f arc
    · obtain ⟨eq, -⟩ := List.cons.inj eq
      obtain rfl := PrintFrame.dropping.inj eq
      refine ⟨?_, fun f mem v' t' found => ?_⟩
      · cases s.slot v t <;> simp
      · have old := Option.mem_toList.1 mem
        rw [slots] at found
        split at found
        · exact absurd (Option.some.inj found ▸ old) (fresh v t)
        · rename_i elsewhere
          exact elsewhere (calm.apart v' t' v t f found old)
  | clearPrintFns v =>
    have slots : ∀ v' t' f, (s.lock i rest (.clearPrintFns v)).slot v' t' = some f →
        v' ≠ v ∧ s.slot v' t' = some f := fun v' t' f found => slot_clearPrintFns found
    have removed : ∀ f ∈ (s.slot v .print).toList ++ (s.slot v .error).toList,
        ∃ t, s.slot v t = some f := by
      intro f mem
      rcases List.mem_append.1 mem with mem | mem
      · exact ⟨_, Option.mem_toList.1 mem⟩
      · exact ⟨_, Option.mem_toList.1 mem⟩
    refine calm.of_frames rfl le_rfl (fun v' t' f found => .inl (slots v' t' f found).2)
      (fun v₁ t₁ v₂ t₂ f found found' => calm.apart v₁ t₁ v₂ t₂ f (slots _ _ _ found).2
        (slots _ _ _ found').2) others (fun _ => ⟨_, _, rfl, trivial⟩)
      (fun _ _ _ _ => rfl) (tail _) (fun x mem f arc => ?_) fun fs rest' eq => ?_
    · rcases List.mem_cons.1 mem with rfl | mem
      · obtain ⟨t, found⟩ := removed f arc
        exact .inl ⟨v, t, found⟩
      · exact kept x mem f arc
    · obtain ⟨eq, -⟩ := List.cons.inj eq
      obtain rfl := PrintFrame.dropping.inj eq
      refine ⟨?_, fun f mem v' t' found => ?_⟩
      · -- one callback is not in both slots
        cases print : s.slot v .print with
        | none => cases s.slot v .error <;> simp
        | some f =>
          cases error : s.slot v .error with
          | none => simp
          | some g =>
            have differ : f ≠ g := by
              rintro rfl
              cases (calm.apart v .print v .error f print error).2
            simp [differ]
      · obtain ⟨t, old⟩ := removed f mem
        obtain ⟨elsewhere, found⟩ := slots v' t' f found
        exact elsewhere (calm.apart v' t' v t f found old).1
  | dispatch v t =>
    refine calm.of_frames rfl le_rfl (fun v' t' f found => .inl found) calm.apart others
      (fun _ => ⟨_, _, rfl, trivial⟩) (fun _ _ _ _ => rfl) (tail _) (fun x mem f arc => ?_)
      fun fs rest' eq => ?_
    · rcases List.mem_cons.1 mem with rfl | mem
      · exact .inl ⟨v, t, Option.mem_toList.1 arc⟩
      · exact kept x mem f arc
    · obtain ⟨eq, -⟩ := List.cons.inj eq
      cases eq

section Dropping

variable {f : ℕ} {fs : List ℕ} {rest : List PrintFrame}

theorem Calm.drop (calm : s.Calm) (at_ : s.frames i = .dropping (f :: fs) :: rest) :
    (s.goTo i (.dropping fs :: rest)).Calm := by
  obtain ⟨nodup, left⟩ := calm.dropped i _ rest at_
  refine calm.of_frames rfl le_rfl (fun v t f found => .inl found) calm.apart (fun j _ => Iff.rfl)
    (fun _ => ⟨_, _, rfl, trivial⟩) (fun _ _ _ _ => calm.top i _ rest at_ trivial)
    (fun x rest' eq => ?_) (fun x mem g arc => ?_) fun gs rest' eq => ?_
  · obtain ⟨-, rfl⟩ := List.cons.inj eq
    exact calm.tail i _ _ at_
  · rcases List.mem_cons.1 mem with rfl | mem
    · exact .inr ⟨i, .dropping (f :: fs), at_ ▸ List.mem_cons_self, List.mem_cons_of_mem f arc⟩
    · exact .inr ⟨i, x, at_ ▸ List.mem_cons_of_mem _ mem, arc⟩
  · obtain ⟨eq, -⟩ := List.cons.inj eq
    obtain rfl := PrintFrame.dropping.inj eq
    exact ⟨(List.nodup_cons.1 nodup).2, fun g mem => left g (List.mem_cons_of_mem f mem)⟩

/-- A reference of a frame without a guard is the clone of a `dispatch`. -/
theorem clone_of_arcs {x : PrintFrame} (unguarded : ¬ x.Guarded) (arc : f ∈ x.arcs) :
    x.clone = some f := by
  cases x with
  | dropping fs => exact absurd trivial unguarded
  | _ => exact Option.mem_toList.1 arc

/-- What is left of the references to a callback that is dropped are clones. -/
theorem Calm.held_iff_dispatched (calm : s.Calm)
    (at_ : s.frames i = .dropping (f :: fs) :: rest) :
    (s.goTo i (.dropping fs :: rest)).Held f ↔ s.Dispatched f := by
  obtain ⟨nodup, left⟩ := calm.dropped i _ rest at_
  have holder := calm.top i _ rest at_ trivial
  constructor
  · rintro (⟨v, t, found⟩ | ⟨j, x, mem, arc⟩)
    · exact absurd found (left f List.mem_cons_self v t)
    · by_cases here : j = i
      · subst here
        rw [show (s.goTo j _).frames j = _ from Function.update_self _ _ _] at mem
        rcases List.mem_cons.1 mem with rfl | mem
        · exact absurd arc (List.nodup_cons.1 nodup).1
        · exact ⟨j, x, at_ ▸ List.mem_cons_of_mem _ mem,
            clone_of_arcs (calm.tail j _ rest at_ x mem) arc⟩
      · rw [show (s.goTo i _).frames j = _ from Function.update_of_ne here _ _] at mem
        have unguarded : ¬ x.Guarded := by
          intro guarded
          cases eq : s.frames j with
          | nil => rw [eq] at mem; cases mem
          | cons y below =>
            rw [eq] at mem
            rcases List.mem_cons.1 mem with rfl | mem
            · have other := calm.top j x below eq guarded
              rw [holder] at other
              exact here (Option.some.inj other).symm
            · exact calm.tail j y below eq x mem guarded
        exact ⟨j, x, mem, clone_of_arcs unguarded arc⟩
  · rintro ⟨j, x, mem, clone⟩
    have arc : f ∈ x.arcs := by
      cases x with
      | cloned g => exact Option.mem_toList.2 clone
      | calling g => exact Option.mem_toList.2 clone
      | called g => exact Option.mem_toList.2 clone
      | _ => cases clone
    refine .inr ⟨j, x, ?_, arc⟩
    by_cases here : j = i
    · subst here
      rw [at_] at mem
      rw [show (s.goTo j _).frames j = _ from Function.update_self _ _ _]
      rcases List.mem_cons.1 mem with rfl | mem
      · cases clone
      · exact List.mem_cons_of_mem _ mem
    · rw [show (s.goTo i _).frames j = _ from Function.update_of_ne here _ _]
      exact mem

end Dropping

/-- A thread whose last frame has no guard has none. -/
theorem Calm.unguarded (calm : s.Calm) {x : PrintFrame} {rest : List PrintFrame}
    (at_ : s.frames i = x :: rest) (unguarded : ¬ x.Guarded) : ∀ y ∈ s.frames i, ¬ y.Guarded := by
  intro y mem
  rw [at_] at mem
  rcases List.mem_cons.1 mem with rfl | mem
  · exact unguarded
  · exact calm.tail i x rest at_ y mem

/-- A step keeps the invariant as long as it drops shared callbacks only. -/
theorem Calm.step (calm : s.Calm) (step : StepOf i s s')
    (shared : ∀ f fs rest, s.frames i = .dropping (f :: fs) :: rest → s.Dispatched f) :
    s'.Calm := by
  -- the frames that stay keep their references
  have kept : ∀ {x rest}, s.frames i = x :: rest → ∀ y ∈ rest, ∀ f ∈ y.arcs, s.Held f :=
    fun at_ y mem f arc => .inr ⟨i, y, at_ ▸ List.mem_cons_of_mem _ mem, arc⟩
  cases step with
  | @request x rest r at_ user =>
    have none := calm.unguarded at_ (by cases x <;> first | exact id | exact user.elim)
    refine calm.goTo none (fun y mem => ?_) fun y mem f arc => ?_
    · rcases List.mem_cons.1 mem with rfl | mem
      · exact id
      · exact none y (at_ ▸ mem)
    · rcases List.mem_cons.1 mem with rfl | mem
      · cases arc
      · exact .inr ⟨i, y, at_ ▸ mem, arc⟩
  | lock at_ free => exact calm.lock at_ free
  | drop at_ held => exact calm.drop at_
  | @dropLast f fs rest at_ last =>
    exact absurd ((calm.held_iff_dispatched at_).2 (shared f fs rest at_)) last
  | unlock at_ => exact calm.unlock at_ trivial (calm.tail i _ _ at_) (kept at_)
  | @unlockCloned f rest at_ =>
    refine calm.unlock at_ trivial (fun y mem => ?_) fun y mem g arc => ?_
    · rcases List.mem_append.1 mem with mem | mem
      · obtain ⟨g, -, rfl⟩ := Option.map_eq_some_iff.1 (Option.mem_toList.1 mem)
        exact id
      · exact calm.tail i _ _ at_ y mem
    · rcases List.mem_append.1 mem with mem | mem
      · obtain ⟨h, rfl, rfl⟩ := Option.map_eq_some_iff.1 (Option.mem_toList.1 mem)
        obtain rfl := List.mem_singleton.1 arc
        exact .inr ⟨i, _, at_ ▸ List.mem_cons_self, List.mem_singleton.2 rfl⟩
      · exact kept at_ y mem g arc
  | @call f rest at_ =>
    refine calm.goTo (calm.unguarded at_ id) (fun y mem => ?_) fun y mem g arc => ?_
    · rcases List.mem_cons.1 mem with rfl | mem
      · exact id
      · rcases List.mem_cons.1 mem with rfl | mem
        · exact id
        · exact calm.tail i _ _ at_ y mem
    · rcases List.mem_cons.1 mem with rfl | mem
      · cases arc
      · rcases List.mem_cons.1 mem with rfl | mem
        · exact .inr ⟨i, .calling f, at_ ▸ List.mem_cons_self, arc⟩
        · exact kept at_ y mem g arc
  | callbackReturns at_ => exact calm.goTo (calm.unguarded at_ id) (calm.tail i _ _ at_) (kept at_)
  | destructorReturns at_ =>
    exact calm.goTo (calm.unguarded at_ id) (calm.tail i _ _ at_) (kept at_)
  | release at_ held => exact calm.goTo (calm.unguarded at_ id) (calm.tail i _ _ at_) (kept at_)
  | @releaseLast f rest at_ last =>
    refine calm.goTo (calm.unguarded at_ id) (fun y mem => ?_) fun y mem g arc => ?_
    · rcases List.mem_cons.1 mem with rfl | mem
      · exact id
      · exact calm.tail i _ _ at_ y mem
    · rcases List.mem_cons.1 mem with rfl | mem
      · cases arc
      · exact kept at_ y mem g arc

/-- A callback that is dropped under the lock without user code is shared. -/
theorem Calm.shared (calm : s.Calm) (step : StepOf i s s') (unlocked : s'.Unlocked) {f : ℕ}
    {fs : List ℕ} {rest : List PrintFrame} (at_ : s.frames i = .dropping (f :: fs) :: rest) :
    s.Dispatched f := by
  cases step with
  | @drop g gs rest' at_' held =>
    rw [at_] at at_'
    cases at_'
    exact (calm.held_iff_dispatched at_).1 held
  | @dropLast g gs rest' at_' last =>
    have frames : (s.goTo i (.destructor g :: .dropping gs :: rest')).frames i =
        [.destructor g] ++ .dropping gs :: rest' := Function.update_self _ _ _
    exact absurd trivial (unlocked.quiet i _ _ _ frames trivial _ List.mem_cons_self)
  | request r at_' user =>
    rw [at_] at at_'
    obtain ⟨rfl, -⟩ := List.cons.inj at_'
    exact user.elim
  | lock at_' | unlock at_' | unlockCloned at_' | call at_' | callbackReturns at_'
  | destructorReturns at_' | release at_' | releaseLast at_' =>
    rw [at_] at at_'
    cases at_'

/-! ## Runs -/

/-- A run from a state that keeps the invariant. -/
theorem Calm.unlocked_iff (calm : s.Calm) {run : List PrintThreads}
    (steps : List.IsChain Step (s :: run)) :
    (∀ s' ∈ run, s'.Unlocked) ↔ List.IsChain SharedStep (s :: run) := by
  induction run generalizing s with
  | nil => exact ⟨fun _ => List.isChain_singleton s, fun _ s' mem => absurd mem List.not_mem_nil⟩
  | cons s' run ih =>
    obtain ⟨⟨i, step⟩, steps⟩ := List.isChain_cons_cons.1 steps
    rw [List.forall_mem_cons, List.isChain_cons_cons]
    constructor
    · rintro ⟨unlocked, rest⟩
      have shared : ∀ f fs rest, s.frames i = .dropping (f :: fs) :: rest → s.Dispatched f :=
        fun f fs rest at_ => calm.shared step unlocked at_
      exact ⟨⟨i, step, shared⟩, (ih (calm.step step shared) steps).1 rest⟩
    · rintro ⟨⟨j, step', shared⟩, rest⟩
      have calm' := calm.step step' shared
      exact ⟨calm'.unlocked, (ih calm' steps).2 rest⟩

/-- In a run no thread runs user code under the lock, and none locks the mutex twice, exactly when
every callback that is dropped under the lock has been cloned by a `dispatch` that is under way. -/
theorem user_code_unlocked_iff {run : List PrintThreads}
    (steps : List.IsChain Step (initial :: run)) :
    (∀ s ∈ initial :: run, s.Unlocked) ↔ List.IsChain SharedStep (initial :: run) := by
  rw [List.forall_mem_cons, initial_calm.unlocked_iff steps]
  exact ⟨And.right, fun shared => ⟨initial_calm.unlocked, shared⟩⟩

/-- A callback is set and called, and replaces itself: it is dropped under the lock while the
`dispatch` that has called it goes on. -/
theorem user_code_unlocked_iff_replaced : ∃ run : List PrintThreads,
    List.IsChain Step (initial :: run) ∧ run.length = 12 ∧
      run[8]?.map (fun s => s.frames 0) =
        some [.dropping [0], .callback 0, .called 0, .code] ∧ ∀ s ∈ initial :: run, s.Unlocked := by
  have shared : ∃ run : List PrintThreads, List.IsChain SharedStep (initial :: run) ∧
      run.length = 12 ∧
      run[8]?.map (fun s => s.frames 0) =
        some [.dropping [0], .callback 0, .called 0, .code] := by
    refine ⟨[_, _, _, _, _, _, _, _, _, _, _, _],
      .cons_cons ⟨0, .request (.setFn 0 .print) rfl trivial, fun f fs rest at_ => ?_⟩
      (.cons_cons ⟨0, .lock rfl rfl, fun f fs rest at_ => ?_⟩
      (.cons_cons ⟨0, .unlock rfl, fun f fs rest at_ => ?_⟩
      (.cons_cons ⟨0, .request (.dispatch 0 .print) rfl trivial, fun f fs rest at_ => ?_⟩
      (.cons_cons ⟨0, .lock rfl rfl, fun f fs rest at_ => ?_⟩
      (.cons_cons ⟨0, .unlockCloned rfl, fun f fs rest at_ => ?_⟩
      (.cons_cons ⟨0, .call rfl, fun f fs rest at_ => ?_⟩
      (.cons_cons ⟨0, .request (.setFn 0 .print) rfl trivial, fun f fs rest at_ => ?_⟩
      (.cons_cons ⟨0, .lock rfl rfl, fun f fs rest at_ => ?_⟩
      (.cons_cons ⟨0, .drop rfl ?held, fun f fs rest at_ => ?dispatched⟩
      (.cons_cons ⟨0, .unlock rfl, fun f fs rest at_ => ?_⟩
      (.cons_cons ⟨0, .callbackReturns rfl, fun f fs rest at_ => ?_⟩
      (.singleton _)))))))))))), rfl, rfl⟩
    case held => exact .inr ⟨0, .called 0, by decide, List.mem_singleton.2 rfl⟩
    case dispatched =>
      obtain ⟨eq, -⟩ := List.cons.inj at_
      obtain ⟨rfl, -⟩ := List.cons.inj (PrintFrame.dropping.inj eq)
      exact ⟨0, .called 0, by decide, rfl⟩
    all_goals cases at_
  obtain ⟨run, shared, length, replaces⟩ := shared
  have steps : List.IsChain Step (initial :: run) := shared.imp fun _ _ ⟨i, step, _⟩ => ⟨i, step⟩
  exact ⟨run, steps, length, replaces, (user_code_unlocked_iff steps).2 shared⟩

/-- A callback that is replaced is destroyed under the lock. What it has captured may lock the mutex
again, from the same thread. -/
theorem replaced_callback_locks : ∃ s, Relation.ReflTransGen Step initial s ∧ ¬ s.Unlocked ∧
    s.holder = some 0 ∧ s.frames 0 =
      [.locking (.clearPrintFns 1), .destructor 0, .dropping [], .code] := by
  have start : Relation.ReflTransGen Step initial initial := .refl
  have asked := start.tail ⟨0, .request (.setFn 0 .print) rfl trivial⟩
  have locked := asked.tail ⟨0, .lock rfl rfl⟩
  have set := locked.tail ⟨0, .unlock rfl⟩
  have asked' := set.tail ⟨0, .request (.setFn 0 .print) rfl trivial⟩
  have locked' := asked'.tail ⟨0, .lock rfl rfl⟩
  have dropped := locked'.tail ⟨0, @StepOf.dropLast _ _ 0 [] [.code] rfl ?_⟩
  · have again := dropped.tail ⟨0, .request (.clearPrintFns 1) rfl trivial⟩
    exact ⟨_, again, fun unlocked => unlocked.once 0 _ _ rfl rfl, rfl, rfl⟩
  · rintro (⟨v, t, found⟩ | ⟨i, x, mem, arc⟩)
    · change ((PrintRegistry.setFn _ 0 1 .print) v).bind (·.select t) = some 0 at found
      rw [slot_setFn] at found
      split at found
      · cases found
      · rename_i elsewhere
        change ((PrintRegistry.setFn _ 0 0 .print) v).bind (·.select t) = some 0 at found
        rw [slot_setFn, if_neg elsewhere] at found
        cases found
    · cases i with
      | zero =>
        change x ∈ [.dropping [], .code] at mem
        rcases List.mem_pair.1 mem with rfl | rfl <;> cases arc
      | succ i =>
        change x ∈ [.code] at mem
        obtain rfl := List.mem_singleton.1 mem
        cases arc

end PrintThreads

end Squirrels
