import Squirrels.Vm.Api

/-!
# What calls leave as they were

`Same` relates two states of a machine that differ in nothing the stack discipline of the binding
depends on, the stack itself apart; `Kept` adds the stack; `SameRefs` is what calls leave alone
whatever happens. A call that is not stranded is `Same` up to its own arguments, and so metamethods
are `Kept` (`callMetaMethod_kept`).
-/

namespace Squirrels

open Machines

/-! ## The conditions -/

/-- C functions that are given the overhead `EnterFrame` ensures, and the ones script code calls,
stay inside the stack vector. -/
structure Env.InBounds (env : Env) : Prop where
  native : ∀ f (s : SQVM), s.top + minStackOverhead ≤ s.stackSize →
    (env.native f s).2.overflowed = s.overflowed
  body : ∀ s c, (env.body s c).overflowed = false

/-- No function of the program sets the root table. -/
structure Env.KeepsRoot (env : Env) : Prop where
  native : ∀ f (s : SQVM), (env.native f s).2.roottable = s.roottable
  body : ∀ s c, (env.body s c).roottable = s.roottable

theorem Env.scripted_inBounds (behave : SQVM → Exit) : (Env.scripted behave).InBounds :=
  ⟨fun _ _ _ => rfl, fun _ _ => rfl⟩

/-! ## The relations -/

theorem Heap.Grows.refl (h : Heap) : h.Grows h :=
  ⟨le_rfl, fun _ _ => rfl, le_rfl, fun _ _ => rfl, fun _ _ => rfl⟩

theorem Heap.Grows.trans {h₁ h₂ h₃ : Heap} (first : h₁.Grows h₂) (second : h₂.Grows h₃) :
    h₁.Grows h₃ where
  natives_next := first.natives_next.trans second.natives_next
  natives r lt := (second.natives r (lt.trans_le first.natives_next)).trans (first.natives r lt)
  userData_next := first.userData_next.trans second.userData_next
  payload r lt := (second.payload r (lt.trans_le first.userData_next)).trans (first.payload r lt)
  typetag r lt := (second.typetag r (lt.trans_le first.userData_next)).trans (first.typetag r lt)

/-- Two heaps with the same C functions and userdata. -/
theorem Heap.Grows.of_eq {h h' : Heap} (natives : h'.natives = h.natives)
    (userData : h'.userData = h.userData) : h.Grows h' :=
  ⟨natives ▸ le_rfl, fun _ _ => by rw [natives], userData ▸ le_rfl, fun _ _ => by rw [userData],
    fun _ _ => by rw [userData]⟩

/-- What stays as it is when the machine works on behalf of an operation, the stack apart. -/
structure Same (env : Env) (s s' : SQVM) : Prop where
  stackbase : s'.stackbase = s.stackbase
  calls : s'.calls = s.calls
  nnativecalls : s'.nnativecalls = s.nnativecalls
  nmetamethodscall : s'.nmetamethodscall = s.nmetamethodscall
  suspended : s'.suspended = s.suspended
  registered : s'.errorSlot.isSome = s.errorSlot.isSome
  stackSize : s.stackSize ≤ s'.stackSize
  heap : s.heap.Grows s'.heap
  overflowed : env.InBounds → s'.overflowed = s.overflowed

/-- The stack is as it was, too. -/
structure Kept (env : Env) (s s' : SQVM) : Prop extends Same env s s' where
  stack : s'.stack = s.stack

section Relations

variable {env : Env} {s s₁ s₂ s₃ : SQVM}

theorem Same.refl (s : SQVM) : Same env s s :=
  ⟨rfl, rfl, rfl, rfl, rfl, rfl, le_rfl, .refl _, fun _ => rfl⟩

theorem Same.trans (first : Same env s₁ s₂) (second : Same env s₂ s₃) : Same env s₁ s₃ where
  stackbase := second.stackbase.trans first.stackbase
  calls := second.calls.trans first.calls
  nnativecalls := second.nnativecalls.trans first.nnativecalls
  nmetamethodscall := second.nmetamethodscall.trans first.nmetamethodscall
  suspended := second.suspended.trans first.suspended
  registered := second.registered.trans first.registered
  stackSize := first.stackSize.trans second.stackSize
  heap := first.heap.trans second.heap
  overflowed inBounds := (second.overflowed inBounds).trans (first.overflowed inBounds)

theorem Kept.refl (s : SQVM) : Kept env s s := ⟨.refl s, rfl⟩

theorem Kept.trans (first : Kept env s₁ s₂) (second : Kept env s₂ s₃) : Kept env s₁ s₃ :=
  ⟨first.toSame.trans second.toSame, second.stack.trans first.stack⟩

/-- Errors leave everything else alone. -/
theorem Kept.withError (s : SQVM) (o : SQObject) : Kept env s (s.withError o) :=
  ⟨⟨rfl, rfl, rfl, rfl, rfl, rfl, le_rfl, .refl _, fun _ => rfl⟩, rfl⟩

theorem Kept.raise (s : SQVM) (message : String) : Kept env s (s.raise message) := .withError s _

theorem Kept.raiseError (s : SQVM) (format : String) (text : List UInt8) :
    Kept env s (s.raiseError format text) := .withError s _

theorem Kept.raiseIdxError (s : SQVM) (key : SQObject) : Kept env s (s.raiseIdxError env key) :=
  .withError s _

/-- A change of the heap that makes no C function and no userdata. -/
theorem Kept.withHeap (s : SQVM) {h : Heap} (grows : s.heap.Grows h) :
    Kept env s { s with heap := h } :=
  ⟨⟨rfl, rfl, rfl, rfl, rfl, rfl, le_rfl, grows, fun _ => rfl⟩, rfl⟩

end Relations

/-! ## References -/

/-- What calls leave alone whatever happens: the reference table, the cached root, and the root
table unless a function sets it. Calls that have been stranded stay counted. -/
structure SameRefs (env : Env) (s s' : SQVM) : Prop where
  refs : s'.refs = s.refs
  root : s'.root = s.root
  roottable : env.KeepsRoot → s'.roottable = s.roottable
  stranded : s.stranded ≤ s'.stranded

section References

variable {env : Env} {s s₁ s₂ s₃ : SQVM}

theorem SameRefs.refl (s : SQVM) : SameRefs env s s := ⟨rfl, rfl, fun _ => rfl, le_rfl⟩

theorem SameRefs.trans (first : SameRefs env s₁ s₂) (second : SameRefs env s₂ s₃) :
    SameRefs env s₁ s₃ :=
  ⟨second.refs.trans first.refs, second.root.trans first.root, fun keeps =>
    (second.roottable keeps).trans (first.roottable keeps), first.stranded.trans second.stranded⟩

theorem SQVM.enterFrame_refs (env : Env) (s : SQVM) (newbase newtop : ℕ) :
    SameRefs env s (s.enterFrame newbase newtop).2 := by
  unfold SQVM.enterFrame
  split
  · split
    · exact ⟨rfl, rfl, fun _ => rfl, Nat.le_succ _⟩
    · exact ⟨rfl, rfl, fun _ => rfl, le_rfl⟩
  · exact ⟨rfl, rfl, fun _ => rfl, le_rfl⟩

theorem SQVM.pushArgs_refs (env : Env) (s : SQVM) (args : List SQObject) :
    SameRefs env s (s.pushArgs args) :=
  ⟨rfl, rfl, fun _ => rfl, Nat.le_add_right _ _⟩

/-- Arguments that fit are pushed. -/
theorem SQVM.pushArgs_of_calm {s : SQVM} {args : List SQObject}
    (calm : (s.pushArgs args).stranded = s.stranded) :
    s.pushArgs args = { s with stack := args.reverse ++ s.stack } := by
  unfold SQVM.pushArgs at calm ⊢
  cases beyond : decide (s.stackSize < s.top + args.length) with
  | false => simp
  | true =>
    simp only [beyond, Bool.toNat_true] at calm
    omega

theorem SameRefs.leaveFrame (same : SameRefs env s s₁) : SameRefs env s s₁.leaveFrame := by
  unfold SQVM.leaveFrame
  split <;> exact ⟨same.refs, same.root, same.roottable, same.stranded⟩

theorem SQVM.nativeFrame_refs (env : Env) (s : SQVM) (nc : SQNativeClosure) (newbase : ℕ) :
    SameRefs env s (s.nativeFrame nc newbase) := by
  unfold SQVM.nativeFrame
  cases nc.upvalue <;> cases nc.env <;> exact ⟨rfl, rfl, fun _ => rfl, le_rfl⟩

theorem SQVM.nativeReturn_refs (ret : ℤ) (s : SQVM) : SameRefs env s (nativeReturn ret s).2 := by
  unfold SQVM.nativeReturn
  simp only
  split
  · exact ⟨rfl, rfl, fun _ => rfl, le_rfl⟩
  · split
    · exact SameRefs.leaveFrame ⟨rfl, rfl, fun _ => rfl, le_rfl⟩
    · exact SameRefs.leaveFrame ⟨rfl, rfl, fun _ => rfl, le_rfl⟩

theorem SQVM.callNative_refs (env : Env) (s : SQVM) (r nargs newbase : ℕ) :
    SameRefs env s (s.callNative env r nargs newbase).2 := by
  unfold SQVM.callNative
  simp only
  generalize s.heap.natives.read r = nc
  split
  · exact ⟨rfl, rfl, fun _ => rfl, le_rfl⟩
  split
  · exact ⟨rfl, rfl, fun _ => rfl, le_rfl⟩
  split
  · exact ⟨rfl, rfl, fun _ => rfl, le_rfl⟩
  have entered := s.enterFrame_refs env newbase (newbase + nargs + nc.upvalue.toList.length)
  split <;> rename_i s₁ frame <;> rw [frame] at entered
  · exact entered
  · have law := env.native_law nc.function (s₁.nativeFrame nc newbase)
    refine entered.trans ((s₁.nativeFrame_refs env nc newbase).trans
      (.trans ⟨law.refs, law.root, fun keeps => keeps.native _ _, law.stranded⟩ ?_))
    exact SQVM.nativeReturn_refs _ _

theorem SQVM.startCall_refs (env : Env) (s : SQVM) (c : SQClosure) (nargs stackbase : ℕ) :
    SameRefs env s (s.startCall env c nargs stackbase).2 := by
  unfold SQVM.startCall
  split
  · exact ⟨rfl, rfl, fun _ => rfl, le_rfl⟩
  · simp only
    have entered := SQVM.enterFrame_refs env { s with heap := ‹Heap› } stackbase
      (stackbase + (env.proto c.function).stacksize)
    exact ⟨entered.refs, entered.root, entered.roottable, entered.stranded⟩

theorem SQVM.runBody_refs (env : Env) (s : SQVM) (c : SQClosure) (r : ℕ) :
    SameRefs env s (s.runBody env c r).2 := by
  unfold SQVM.runBody
  split
  · exact SameRefs.leaveFrame ⟨rfl, rfl, fun _ => rfl, le_rfl⟩
  · simp only
    split
    · exact SameRefs.leaveFrame ⟨rfl, rfl, fun keeps => keeps.body s r, le_rfl⟩
    · exact SameRefs.leaveFrame ⟨rfl, rfl, fun keeps => keeps.body s r, le_rfl⟩
    · exact ⟨rfl, rfl, fun keeps => keeps.body s r, Nat.le_succ _⟩

/-- A handler run by an `Execute` that leaves the references alone does so itself. -/
theorem SQVM.callErrorHandler_refs {execute : SQVM → ℕ → ℕ → ℕ → CallResult × SQVM}
    (executed : ∀ (s : SQVM) r nargs stackbase, SameRefs env s (execute s r nargs stackbase).2)
    (s : SQVM) : SameRefs env s (s.callErrorHandler env execute) := by
  unfold SQVM.callErrorHandler
  simp only
  have pushed := SQVM.pushArgs_refs env s [s.rootObject, s.lasterror]
  split
  · exact .refl s
  · have called := pushed.trans (executed _ ‹ℕ› 2
      ((s.pushArgs [s.rootObject, s.lasterror]).top - 2))
    exact ⟨called.refs, called.root, called.roottable, called.stranded⟩
  · have called := pushed.trans (SQVM.callNative_refs env _ ‹ℕ› 2
      ((s.pushArgs [s.rootObject, s.lasterror]).top - 2))
    exact ⟨called.refs, called.root, called.roottable, called.stranded⟩

theorem SQVM.afterRefusal_refs {execute : SQVM → ℕ → ℕ → ℕ → CallResult × SQVM}
    (executed : ∀ (s : SQVM) r nargs stackbase, SameRefs env s (execute s r nargs stackbase).2)
    (s : SQVM) : SameRefs env s (s.afterRefusal env execute) := by
  unfold SQVM.afterRefusal
  split
  · exact SQVM.callErrorHandler_refs executed s
  · exact .refl s

theorem SQVM.executeAt_refs (env : Env) (left : ℕ) (s : SQVM) (r nargs stackbase : ℕ) :
    SameRefs env s (executeAt env left s r nargs stackbase).2 := by
  induction left generalizing s r nargs stackbase with
  | zero => exact ⟨rfl, rfl, fun _ => rfl, le_rfl⟩
  | succ left ih =>
    simp only [executeAt]
    have started := s.enterNative.startCall_refs env (s.heap.closures.read r) nargs stackbase
    split <;> rename_i s₁ start <;> rw [start] at started
    · have whole := started.trans (SQVM.afterRefusal_refs ih s₁)
      exact ⟨whole.refs, whole.root, whole.roottable, whole.stranded⟩
    · have whole := started.trans (s₁.runBody_refs env (s.heap.closures.read r) r)
      exact ⟨whole.refs, whole.root, whole.roottable, whole.stranded⟩

theorem SQVM.call_refs (env : Env) (s : SQVM) (callee : SQObject) (nparams stackbase : ℕ) :
    SameRefs env s (s.call env callee nparams stackbase).2 := by
  unfold SQVM.call SQVM.callWith
  split
  · exact SQVM.executeAt_refs env _ _ _ _ _
  · exact SQVM.callNative_refs env _ _ _ _
  · rename_i r
    simp only
    -- the machine as the constructor is called
    generalize made : SQVM.setAt { s with heap := (s.heap.createInstance r).2 } stackbase
      (.ref .inst (s.heap.createInstance r).1) = s₁
    have before : SameRefs env s s₁ := by subst made; exact ⟨rfl, rfl, fun _ => rfl, le_rfl⟩
    split
    · exact before.trans (SQVM.executeAt_refs env _ s₁ _ nparams stackbase)
    · exact before.trans (SQVM.callNative_refs env s₁ _ nparams stackbase)
    · exact ⟨rfl, rfl, fun _ => rfl, le_rfl⟩
  · exact ⟨rfl, rfl, fun _ => rfl, le_rfl⟩

theorem SQVM.callMetaMethod_refs (env : Env) (s : SQVM) (closure : SQObject)
    (args : List SQObject) : SameRefs env s (s.callMetaMethod env closure args).2 := by
  unfold SQVM.callMetaMethod
  simp only
  generalize pushed : ({ s.pushArgs args with
    nmetamethodscall := (s.pushArgs args).nmetamethodscall + 1 } : SQVM) = s₁
  have before : SameRefs env s s₁ := by
    subst pushed
    exact { SQVM.pushArgs_refs env s args with }
  have whole := before.trans (s₁.call_refs env closure args.length (s₁.top - args.length))
  exact ⟨whole.refs, whole.root, whole.roottable, whole.stranded⟩

end References

/-! ## Frames -/

/-- The call has returned normally: it has succeeded, and it has not left the machine suspended. -/
def Returned (s : SQVM) (r : CallResult × SQVM) : Prop :=
  r.1.ok = true ∧ r.2.suspended = s.suspended

/-- The call has given its caller the frame back: nothing has been stranded, or it has returned
normally, whatever has been stranded further in. -/
def Settled (s : SQVM) (r : CallResult × SQVM) : Prop :=
  r.2.stranded = s.stranded ∨ Returned s r

/-- The state after a call: its `n` arguments are still above `lower`, perhaps rewritten. -/
structure Called (env : Env) (lower : List SQObject) (n : ℕ) (s s' : SQVM) : Prop
    extends Same env s s' where
  stack : ∃ args, args.length = n ∧ s'.stack = args ++ lower

/-- The state inside a frame that was entered from `s` on top of `lower`. -/
structure Inside (env : Env) (lower : List SQObject) (s s₁ : SQVM) : Prop where
  stack : ∃ above, s₁.stack = above ++ lower
  stackbase : s₁.stackbase = lower.length
  calls : s₁.calls = ⟨lower.length - s.stackbase, s.top - s.stackbase⟩ :: s.calls
  nnativecalls : s₁.nnativecalls = s.nnativecalls
  nmetamethodscall : s₁.nmetamethodscall = s.nmetamethodscall
  suspended : s₁.suspended = s.suspended
  registered : s₁.errorSlot.isSome = s.errorSlot.isSome
  stackSize : s.stackSize ≤ s₁.stackSize
  heap : s.heap.Grows s₁.heap
  overflowed : env.InBounds → s₁.overflowed = s.overflowed

section Frames

variable {env : Env} {s s₁ : SQVM} {args lower : List SQObject}

theorem Kept.called (kept : Kept env s s₁) (located : s.stack = args ++ lower) :
    Called env lower args.length s s₁ :=
  ⟨kept.toSame, args, rfl, kept.stack.trans located⟩

/-- The new frame stands on the slots below the arguments, with the overhead above it, unless it is
refused. -/
theorem SQVM.enterFrame_cases (env : Env) {newtop : ℕ} (located : s.stack = args ++ lower)
    (above : lower.length ≤ newtop) :
    (∃ s₁, s.enterFrame lower.length newtop = (true, s₁) ∧ Inside env lower s s₁ ∧
      s₁.stack = resizeStack newtop s.stack ∧ newtop + minStackOverhead ≤ s₁.stackSize ∧
      s₁.stranded = s.stranded) ∨
    ∃ s₁, s.enterFrame lower.length newtop = (false, s₁) ∧ s₁.stranded = s.stranded + 1 := by
  obtain ⟨above', -, stack⟩ := resizeStack_append args lower above
  rw [← located] at stack
  unfold SQVM.enterFrame
  split
  · rename_i small
    split
    · exact .inr ⟨_, rfl, rfl⟩
    · refine .inl ⟨_, rfl, ⟨⟨above', stack⟩, rfl, rfl, rfl, rfl, rfl, rfl, ?_, .refl _,
        fun _ => rfl⟩, rfl, ?_, rfl⟩
      · simp only [minStackOverhead] at *; omega
      · simp only [minStackOverhead]; omega
  · rename_i fits
    exact .inl ⟨_, rfl, ⟨⟨above', stack⟩, rfl, rfl, rfl, rfl, rfl, rfl, le_rfl, .refl _,
      fun _ => rfl⟩, rfl, by simpa using fits, rfl⟩

/-- Leaving a frame restores the caller. -/
theorem Inside.leaveFrame (inside : Inside env lower s s₁) (located : s.stack = args ++ lower)
    (base : s.stackbase ≤ lower.length) : Called env lower args.length s s₁.leaveFrame := by
  have top : s.top = args.length + lower.length := by
    rw [SQVM.top, located, List.length_append]
  obtain ⟨above, stack⟩ := inside.stack
  have restored : s₁.leaveFrame = { s₁ with
      calls := s.calls
      stackbase := s.stackbase
      stack := resizeStack s.top s₁.stack } := by
    unfold SQVM.leaveFrame
    rw [inside.calls]
    simp only
    rw [inside.stackbase]
    have e₁ : lower.length - (lower.length - s.stackbase) = s.stackbase := by omega
    have e₂ : s.stackbase + (s.top - s.stackbase) = s.top := by omega
    rw [e₁, e₂]
  rw [restored]
  refine ⟨⟨rfl, rfl, inside.nnativecalls, inside.nmetamethodscall, inside.suspended,
    inside.registered, inside.stackSize, inside.heap, inside.overflowed⟩, ?_⟩
  obtain ⟨args', length, resized⟩ := resizeStack_append above lower (n := s.top) (by omega)
  exact ⟨args', by omega, by simp only [stack, resized]⟩

end Frames

/-! ## C functions -/

section Native

variable {env : Env} {s s₁ : SQVM} {rest lower : List SQObject} {this : SQObject}

/-- The object a C function finds as `this`. -/
def SQNativeClosure.boundThis (nc : SQNativeClosure) (this : SQObject) : SQObject :=
  match nc.env with
  | none => this
  | some o => o.object

/-- The layout of the frame of a C function. -/
theorem SQVM.nativeFrame_eq (nc : SQNativeClosure)
    (entered : s₁.stack = resizeStack (lower.length + (rest.length + 1) + nc.upvalue.toList.length)
      (rest ++ this :: lower)) :
    s₁.nativeFrame nc lower.length = { s₁ with
      stack := nc.upvalue.toList ++ rest ++ nc.boundThis this :: lower
      nnativecalls := s₁.nnativecalls + 1 } := by
  have padded : s₁.stack =
      List.replicate nc.upvalue.toList.length .null ++ (rest ++ this :: lower) := by
    have height : lower.length + (rest.length + 1) = (rest ++ this :: lower).length := by
      simp only [List.length_append, List.length_cons]; omega
    rw [entered, height, resizeStack_length_add]
  unfold SQVM.nativeFrame SQNativeClosure.boundThis
  cases upvalue : nc.upvalue with
  | none =>
    rw [upvalue] at padded
    cases nc.env with
    | none => simpa using padded
    | some o => simp [SQVM.setAt, SQVM.top, padded]
  | some u =>
    rw [upvalue] at padded
    cases nc.env with
    | none => simp [SQVM.setUp, padded]
    | some o =>
      have index : rest.length + (lower.length + 1) - lower.length = rest.length + 1 := by omega
      simp [SQVM.setUp, SQVM.setAt, SQVM.top, padded, index]

/-- The first slot of the current frame. -/
theorem SQVM.stackGet_one (base : s.stackbase = lower.length)
    (located : s.stack = rest ++ this :: lower) : s.stackGet 1 = this := by
  have index : (1 : ℤ).toNat + s.stackbase - 1 = lower.length := by
    rw [base]; simp
  unfold SQVM.stackGet
  rw [if_pos (by decide), index, located]
  simp

/-- The return from a C function to its caller. -/
theorem SQVM.nativeReturn_called {args : List SQObject} {ret : ℤ} {s₃ : SQVM}
    (inside : Inside env lower s { s₃ with nnativecalls := s₃.nnativecalls - 1 })
    (located : s.stack = args ++ lower) (base : s.stackbase ≤ lower.length)
    (returns : ret ≠ sqTailcallFlag) :
    Called env lower args.length s (SQVM.nativeReturn ret s₃).2 := by
  unfold SQVM.nativeReturn
  rw [if_neg returns]
  split
  · exact inside.leaveFrame located base
  · exact inside.leaveFrame located base

/-- A C function that is not handed a script function as `this` returns to its caller. -/
theorem SQVM.callNative_called (r : ℕ) (located : s.stack = rest ++ this :: lower)
    (base : s.stackbase ≤ lower.length) (plain : ∀ c, this ≠ .ref .closure c)
    (settled : Settled s (s.callNative env r (rest.length + 1) lower.length)) :
    Called env lower (rest.length + 1) s
      (s.callNative env r (rest.length + 1) lower.length).2 := by
  have located' : s.stack = (rest ++ [this]) ++ lower := by rw [located]; simp
  have length : (rest ++ [this]).length = rest.length + 1 := by simp
  have failed : ∀ s', Kept env s s' → Called env lower (rest.length + 1) s s' :=
    fun s' kept => length ▸ kept.called located'
  have top : s.top = rest.length + 1 + lower.length := by
    rw [SQVM.top, located', List.length_append, length]
  unfold SQVM.callNative at settled ⊢
  simp only at settled ⊢
  generalize s.heap.natives.read r = nc at settled ⊢
  split
  · exact failed _ (.raise _ _)
  rename_i shallow
  split
  · exact failed _ (.raise _ _)
  rename_i counted
  split
  · exact failed _ (.raiseError _ _ _)
  rename_i typed
  rw [if_neg shallow, if_neg counted, typed] at settled
  simp only at settled
  obtain ⟨s₁, entered, inside, stack, fits, -⟩ | ⟨s₁, refused, more⟩ :=
    SQVM.enterFrame_cases env located' (by omega : lower.length ≤
      lower.length + (rest.length + 1) + nc.upvalue.toList.length)
  swap
  · rw [refused] at settled
    rcases settled with calm | ⟨ok, -⟩
    · exact absurd (calm.symm.trans more) (by omega)
    · cases ok
  rw [entered]
  simp only
  rw [SQVM.nativeFrame_eq nc (stack.trans (by rw [located]))]
  -- the machine as the C function finds it
  generalize frame : nc.upvalue.toList ++ rest ++ nc.boundThis this :: lower = slots
  set s₂ : SQVM := { s₁ with stack := slots, nnativecalls := s₁.nnativecalls + 1 } with found
  have law := env.native_law nc.function s₂
  have base₂ : s₂.stackbase = lower.length := inside.stackbase
  have height : s₂.top = nc.upvalue.toList.length + rest.length + 1 + lower.length := by
    simp only [SQVM.top, found, ← frame, List.length_append, List.length_cons]; omega
  have below : s₂.stack.drop s₂.depth = lower := by
    rw [SQVM.depth, height, base₂, Nat.add_sub_cancel]
    change slots.drop _ = _
    rw [← frame, List.append_cons, List.drop_left']
    simp only [List.length_append, List.length_cons, List.length_nil]
  have returns : (env.native nc.function s₂).1 ≠ sqTailcallFlag := by
    intro tailcall
    obtain ⟨c, first⟩ := law.tailcall tailcall
    rw [SQVM.stackGet_one base₂ (frame.symm)] at first
    unfold SQNativeClosure.boundThis at first
    split at first
    · exact plain c first
    · rename_i o _
      cases o <;> simp [EnvObject.object] at first
  refine length ▸ SQVM.nativeReturn_called ?_ located' base returns
  obtain ⟨above, left⟩ := law.below
  exact {
    stack := ⟨above, below ▸ left⟩
    stackbase := law.stackbase.trans base₂
    calls := law.calls.trans inside.calls
    nnativecalls := by
      change (env.native nc.function s₂).2.nnativecalls - 1 = _
      rw [law.nnativecalls]
      exact inside.nnativecalls
    nmetamethodscall := law.nmetamethodscall.trans inside.nmetamethodscall
    suspended := law.suspended.trans inside.suspended
    registered := law.registered.trans inside.registered
    stackSize := inside.stackSize.trans law.stackSize
    heap := inside.heap.trans law.heap
    overflowed := by
      intro inBounds
      refine (inBounds.native nc.function s₂ ?_).trans (inside.overflowed inBounds)
      rw [height]
      change _ ≤ s₁.stackSize
      omega }

end Native

/-! ## Script functions -/

section Script

variable {env : Env} {s : SQVM} {args lower : List SQObject}

theorem SQVM.arrangeArgs_grows {c : SQClosure} {args' : List SQObject} {heap : Heap}
    (arranged : s.arrangeArgs env c args = .ok (args', heap)) : s.heap.Grows heap := by
  unfold SQVM.arrangeArgs at arranged
  simp only at arranged
  split at arranged
  · split at arranged
    · simp at arranged
    · simp only [Except.ok.injEq, Prod.mk.injEq] at arranged
      exact .of_eq (by rw [← arranged.2]; rfl) (by rw [← arranged.2]; rfl)
  · split at arranged
    · simp only [Except.ok.injEq, Prod.mk.injEq] at arranged
      exact arranged.2 ▸ .refl _
    · split at arranged
      · simp only [Except.ok.injEq, Prod.mk.injEq] at arranged
        exact arranged.2 ▸ .refl _
      · simp at arranged

/-- A script function whose arguments fit gets its frame, unless it is refused. -/
theorem SQVM.startCall_inside {c : SQClosure} {args' : List SQObject} {heap : Heap}
    (located : s.stack = args ++ lower)
    (arranged : s.arrangeArgs env c args.reverse = .ok (args', heap)) :
    (∃ s₁, s.startCall env c args.length lower.length = (true, s₁) ∧ Inside env lower s s₁ ∧
      s₁.stranded = s.stranded) ∨
    ∃ s₁, s.startCall env c args.length lower.length = (false, s₁) ∧
      s₁.stranded = s.stranded + 1 := by
  have taken : s.stack.take args.length = args := by rw [located, List.take_left]
  have dropped : s.stack.drop args.length = lower := by rw [located, List.drop_left]
  unfold SQVM.startCall
  rw [taken, arranged, dropped]
  simp only
  obtain ⟨s₁, entered, inside, -, -, calm⟩ | ⟨s₁, refused, more⟩ :=
    SQVM.enterFrame_cases env (s := { s with heap := heap }) located
      (Nat.le_add_right lower.length (env.proto c.function).stacksize)
  swap
  · rw [refused]
    exact .inr ⟨_, rfl, more⟩
  rw [entered]
  obtain ⟨above, -, stack⟩ := resizeStack_append
    (match c.env with | none => args' | some o => args'.set 0 o.object).reverse lower
    (Nat.le_add_right lower.length (env.proto c.function).stacksize)
  exact .inl ⟨_, rfl, { inside with
    stack := ⟨above, stack⟩
    heap := (SQVM.arrangeArgs_grows arranged).trans inside.heap }, calm⟩

/-- A function that is not left suspended leaves its frame. -/
theorem SQVM.runBody_called {s₁ : SQVM} (c : SQClosure) (r : ℕ)
    (inside : Inside env lower s s₁) (located : s.stack = args ++ lower)
    (base : s.stackbase ≤ lower.length)
    (settled : (s₁.runBody env c r).2.stranded = s₁.stranded ∨
      (s₁.runBody env c r).2.suspended = s.suspended) :
    Called env lower args.length s (s₁.runBody env c r).2 := by
  have ran : Inside env lower s (s₁.after (env.body s₁ r)) := {
    inside with
    registered := by
      rw [← inside.registered]
      simp [SQVM.after]
    stackSize := inside.stackSize.trans (Nat.le_add_right _ _)
    heap := inside.heap.trans (env.body_grows s₁ r)
    overflowed := by
      intro inBounds
      rw [← inside.overflowed inBounds]
      simp [SQVM.after, inBounds.body] }
  unfold SQVM.runBody at settled ⊢
  by_cases generator : (env.proto c.function).bgenerator = true
  · rw [if_pos generator]
    have made : Inside env lower s
        { s₁ with heap := { s₁.heap with generators := s₁.heap.generators + 1 } } :=
      { inside with heap := inside.heap.trans (.of_eq rfl rfl) }
    exact made.leaveFrame located base
  · rw [if_neg generator] at settled ⊢
    simp only at settled ⊢
    cases ends : (env.body s₁ r).exit with
    | returned v => exact ran.leaveFrame located base
    | threw => exact ran.leaveFrame located base
    | suspended point =>
      rw [ends] at settled
      rcases settled with calm | resumes
      · exact absurd calm (Nat.succ_ne_self _)
      · -- a function that is suspended has run on a machine that was not
        have running : s.suspended = false :=
          inside.suspended.symm.trans (env.body_suspends s₁ r point ends).2
        rw [running] at resumes
        cases resumes

/-- What happens between counting a native call and uncounting it. -/
theorem Called.exitNative {n : ℕ} {s' : SQVM} (called : Called env lower n s.enterNative s') :
    Called env lower n s s'.exitNative :=
  ⟨{ called.toSame with
    nnativecalls := by
      change s'.nnativecalls - 1 = _
      rw [called.nnativecalls]
      rfl }, called.stack⟩

/-- Popping what a call left of its arguments gives the stack below them. -/
theorem Called.pop {n : ℕ} {pushed s' : SQVM} (called : Called env s.stack n pushed s')
    (same : Same env s pushed) : Kept env s (s'.pop n) := by
  obtain ⟨args, length, stack⟩ := called.stack
  have whole := same.trans called.toSame
  exact ⟨{ whole with }, by simp [SQVM.pop, stack, ← length]⟩

/-- A call whose arguments do not fit only raises an error before the handler is asked. -/
theorem SQVM.startCall_rejected {c : SQClosure} {message : String × List UInt8}
    (located : s.stack = args ++ lower)
    (rejected : s.arrangeArgs env c args.reverse = .error message) (stackbase : ℕ) :
    s.startCall env c args.length stackbase = (false, s.raiseError message.1 message.2) := by
  have taken : s.stack.take args.length = args := by rw [located, List.take_left]
  unfold SQVM.startCall
  rw [taken, rejected]

/-- The machine with the arguments of the handler pushed and after it has been called. -/
theorem SQVM.callErrorHandler_calm {execute : SQVM → ℕ → ℕ → ℕ → CallResult × SQVM}
    (executed : ∀ (s : SQVM) r nargs stackbase, SameRefs env s (execute s r nargs stackbase).2)
    (handler : s.errorhandler ≠ .none)
    (calm : (s.callErrorHandler env execute).stranded = s.stranded) :
    s.pushArgs [s.rootObject, s.lasterror] =
      { s with stack := [s.lasterror, s.rootObject] ++ s.stack } := by
  apply SQVM.pushArgs_of_calm
  have before := (SQVM.pushArgs_refs env s [s.rootObject, s.lasterror]).stranded
  unfold callErrorHandler at calm
  simp only at calm
  split at calm
  · exact absurd ‹_› handler
  · have after := (executed (s.pushArgs [s.rootObject, s.lasterror]) ‹ℕ› 2
      ((s.pushArgs [s.rootObject, s.lasterror]).top - 2)).stranded
    exact le_antisymm (after.trans_eq calm) before
  · have after := (SQVM.callNative_refs env (s.pushArgs [s.rootObject, s.lasterror]) ‹ℕ› 2
      ((s.pushArgs [s.rootObject, s.lasterror]).top - 2)).stranded
    exact le_antisymm (after.trans_eq calm) before

/-- The error handler leaves the machine as it was, if `Execute` returns to its callers. -/
theorem SQVM.callErrorHandler_kept {execute : SQVM → ℕ → ℕ → ℕ → CallResult × SQVM}
    (executed : ∀ (s : SQVM) r nargs stackbase, SameRefs env s (execute s r nargs stackbase).2)
    (returns : ∀ {s : SQVM} {args lower : List SQObject} (r : ℕ), s.stack = args ++ lower →
      s.stackbase ≤ lower.length →
      (execute s r args.length lower.length).2.stranded = s.stranded →
      Called env lower args.length s (execute s r args.length lower.length).2)
    (base : s.stackbase ≤ s.top)
    (calm : (s.callErrorHandler env execute).stranded = s.stranded) :
    Kept env s (s.callErrorHandler env execute) := by
  by_cases handler : s.errorhandler = .none
  · unfold callErrorHandler
    simp only [handler]
    exact .refl s
  have fits := SQVM.callErrorHandler_calm executed handler calm
  -- the machine with the arguments of the handler pushed
  generalize made : ({ s with stack := [s.lasterror, s.rootObject] ++ s.stack } : SQVM) = pushed
    at fits
  have same : Same env s pushed := by
    rw [← made]
    exact ⟨rfl, rfl, rfl, rfl, rfl, rfl, le_rfl, .refl _, fun _ => rfl⟩
  have stack : pushed.stack = [s.lasterror] ++ s.rootObject :: s.stack := by rw [← made]; rfl
  have base' : pushed.stackbase ≤ s.stack.length := by rw [← made]; exact base
  have height : pushed.top - 2 = s.stack.length := by rw [SQVM.top, stack]; rfl
  have counted : pushed.stranded = s.stranded := by rw [← made]
  unfold callErrorHandler at calm ⊢
  simp only [fits, height] at calm ⊢
  rw [← counted] at calm
  split at calm
  · exact absurd ‹_› handler
  · have stack' : pushed.stack = [s.lasterror, s.rootObject] ++ s.stack := stack
    exact Called.pop (returns _ stack' base' calm) same
  · refine Called.pop (SQVM.callNative_called _ stack base' ?_ (.inl calm)) same
    intro c
    unfold rootObject
    split <;> simp

/-- A call of a script function that has settled returns to its caller. -/
theorem SQVM.executeAt_called (left r : ℕ) (located : s.stack = args ++ lower)
    (base : s.stackbase ≤ lower.length)
    (settled : Settled s (executeAt env left s r args.length lower.length)) :
    Called env lower args.length s (executeAt env left s r args.length lower.length).2 := by
  -- by induction on the native calls that are left: the handler of a refused call takes one more
  induction left generalizing s r args lower with
  | zero => exact (Kept.raise s _).called located
  | succ left ih =>
    unfold Settled Returned at settled
    simp only [executeAt] at settled ⊢
    cases arranged : s.enterNative.arrangeArgs env (s.heap.closures.read r) args.reverse with
    | ok result =>
      obtain ⟨s₁, started, inside, same⟩ | ⟨s₁, started, more⟩ := SQVM.startCall_inside
        (s := s.enterNative) (c := s.heap.closures.read r) located arranged
      · simp only [started] at settled ⊢
        exact (SQVM.runBody_called (s := s.enterNative) _ r inside located base
          (settled.imp (fun calm => calm.trans same.symm) And.right)).exitNative
      · simp only [started] at settled
        rcases settled with calm | ⟨ok, -⟩
        · have after := (SQVM.afterRefusal_refs (SQVM.executeAt_refs env left) s₁).stranded
          have before : s₁.stranded ≤ s.stranded := after.trans_eq calm
          exact absurd (more ▸ before) (Nat.not_succ_le_self _)
        · cases ok
    | error message =>
      have failed := SQVM.startCall_rejected (s := s.enterNative) located arranged lower.length
      simp only [failed] at settled ⊢
      rcases settled with calm | ⟨ok, -⟩
      swap
      · cases ok
      have handled : Kept env (s.enterNative.raiseError message.1 message.2)
          ((s.enterNative.raiseError message.1 message.2).afterRefusal env
            (executeAt env left)) := by
        unfold afterRefusal at calm ⊢
        split
        · rename_i outermost
          rw [if_pos outermost] at calm
          refine SQVM.callErrorHandler_kept (SQVM.executeAt_refs env left)
            (fun r located base calm => ih r located base (.inl calm)) ?_ calm
          show s.stackbase ≤ s.top
          rw [SQVM.top, located, List.length_append]
          omega
        · exact .refl _
      exact Called.exitNative
        (((Kept.raiseError _ message.1 message.2).trans handled).called located)

end Script

/-! ## Calls -/

/-- Locking classes changes nothing but the classes. -/
theorem Heap.lock_grows (fuel : ℕ) (h : Heap) (r : ℕ) : h.Grows (Heap.lock fuel h r) := by
  induction fuel generalizing h r with
  | zero => exact .refl h
  | succ fuel ih =>
    unfold Heap.lock
    simp only
    split
    · exact .of_eq rfl rfl
    · rename_i b _
      refine Heap.Grows.trans ?_ (ih _ b)
      exact .of_eq rfl rfl

theorem Heap.createInstance_grows (h : Heap) (r : ℕ) : h.Grows (h.createInstance r).2 := by
  unfold Heap.createInstance
  simp only
  split
  · exact .of_eq rfl rfl
  · exact Heap.Grows.trans (Heap.lock_grows _ h r) (.of_eq rfl rfl)

section Call

variable {env : Env} {s : SQVM} {rest lower : List SQObject} {this : SQObject}

/-- What a call does to a machine whose `this` has been replaced. -/
theorem Called.setAt {n : ℕ} {o : SQObject} {s' : SQVM} {heap : Heap}
    (called : Called env lower n ({ s with heap := heap }.setAt lower.length o) s')
    (grows : s.heap.Grows heap) : Called env lower n s s' :=
  ⟨(Kept.withHeap s grows).toSame.trans { called.toSame with }, called.stack⟩

/-- The constructor of a class finds the new instance as `this`. -/
theorem SQVM.stack_setAt (located : s.stack = rest ++ this :: lower) (o : SQObject) :
    (s.setAt lower.length o).stack = rest ++ o :: lower := by
  simp [SQVM.setAt, SQVM.top, located]

/-- A call of anything that has settled returns to its caller. A script function may be handed
anything as `this`, other callees anything but a script function. -/
theorem SQVM.call_called (callee : SQObject) (located : s.stack = rest ++ this :: lower)
    (base : s.stackbase ≤ lower.length)
    (plain : (∃ r, callee = .ref .closure r) ∨ (∃ r, callee = .ref .cls r) ∨
      ∀ c, this ≠ .ref .closure c)
    (settled : Settled s (s.call env callee (rest.length + 1) lower.length)) :
    Called env lower (rest.length + 1) s
      (s.call env callee (rest.length + 1) lower.length).2 := by
  have located' : s.stack = (rest ++ [this]) ++ lower := by rw [located]; simp
  have length : (rest ++ [this]).length = rest.length + 1 := by simp
  unfold SQVM.call SQVM.callWith at settled ⊢
  split
  · rw [← length] at settled ⊢
    exact SQVM.executeAt_called _ _ located' base settled
  · refine SQVM.callNative_called _ located base ?_ settled
    rcases plain with ⟨_, eq⟩ | ⟨_, eq⟩ | plain
    · simp at eq
    · simp at eq
    · exact plain
  · rename_i r
    simp only at settled ⊢
    have grows := s.heap.createInstance_grows r
    generalize (s.heap.createInstance r).2 = heap at grows settled ⊢
    generalize (s.heap.createInstance r).1 = i at settled ⊢
    -- the machine as the constructor is called
    let s₁ : SQVM := { s with heap := heap }.setAt lower.length (.ref .inst i)
    have stack : s₁.stack = rest ++ .ref .inst i :: lower :=
      SQVM.stack_setAt (s := { s with heap := heap }) located _
    have stack' : s₁.stack = (rest ++ [.ref .inst i]) ++ lower := by rw [stack]; simp
    have length' : (rest ++ [SQObject.ref .inst i]).length = rest.length + 1 := by simp
    split
    · rename_i f made
      simp only [made] at settled
      have settled' : Settled s₁ (executeAt env (maxNativeCalls - s.nnativecalls) s₁ f
          (rest.length + 1) lower.length) := settled
      rw [← length'] at settled' ⊢
      exact (SQVM.executeAt_called (s := s₁) (maxNativeCalls - s.nnativecalls) _ stack' base
        settled').setAt grows
    · rename_i f made
      simp only [made] at settled
      have settled' : Settled s₁ (s₁.callNative env f (rest.length + 1) lower.length) := settled
      exact (SQVM.callNative_called _ stack base (by simp) settled').setAt grows
    · exact length ▸ (Kept.withHeap s grows).called located'
  · exact length ▸ (Kept.raiseError s _ _).called located'

/-- What a metamethod left of its arguments is popped, and it is no longer counted. -/
theorem Called.popMeta {n : ℕ} {slots : List SQObject} {s' : SQVM}
    (called : Called env s.stack n { s with
      stack := slots, nmetamethodscall := s.nmetamethodscall + 1 } s') :
    Kept env s ({ s' with nmetamethodscall := s'.nmetamethodscall - 1 }.pop n) := by
  obtain ⟨args, length, stack⟩ := called.stack
  have same := called.toSame
  refine ⟨⟨same.stackbase, same.calls, same.nnativecalls, ?_, same.suspended, same.registered,
    same.stackSize, same.heap, same.overflowed⟩, ?_⟩
  · change s'.nmetamethodscall - 1 = _
    rw [same.nmetamethodscall]
    rfl
  · change s'.stack.drop n = s.stack
    rw [stack, ← length, List.drop_left]

/-- A metamethod that has settled leaves the machine as it was, apart from its arguments that may
have been written beyond the stack vector. -/
theorem SQVM.callMetaMethod_settled (callee self : SQObject) (args : List SQObject)
    (plain : ∀ c, self ≠ .ref .closure c) (base : s.stackbase ≤ s.top)
    (settled : Settled (s.pushArgs (self :: args)) (s.callMetaMethod env callee (self :: args))) :
    Kept env { s.pushArgs (self :: args) with stack := s.stack }
      (s.callMetaMethod env callee (self :: args)).2 := by
  unfold SQVM.callMetaMethod at settled ⊢
  simp only at settled ⊢
  generalize pushed : ({ s.pushArgs (self :: args) with
    nmetamethodscall := (s.pushArgs (self :: args)).nmetamethodscall + 1 } : SQVM) = s₁
    at settled ⊢
  have located : s₁.stack = args.reverse ++ self :: s.stack := by
    rw [← pushed]
    simp [SQVM.pushArgs]
  have base₁ : s₁.stackbase ≤ s.stack.length := by rw [← pushed]; exact base
  have height : s₁.top - (self :: args).length = s.stack.length := by
    rw [SQVM.top, located]
    simp
    omega
  have count : args.reverse.length + 1 = (self :: args).length := by simp
  rw [height, ← count] at settled ⊢
  have settled₁ : Settled s₁ (s₁.call env callee (args.reverse.length + 1) s.stack.length) := by
    rw [← pushed] at settled ⊢
    exact settled
  have called := SQVM.call_called callee located base₁ (.inr (.inr plain)) settled₁
  subst pushed
  exact Called.popMeta (s := { s.pushArgs (self :: args) with stack := s.stack }) called

/-- A metamethod that is not stranded leaves the machine as it was. -/
theorem SQVM.callMetaMethod_kept (callee self : SQObject) (args : List SQObject)
    (plain : ∀ c, self ≠ .ref .closure c) (base : s.stackbase ≤ s.top)
    (calm : (s.callMetaMethod env callee (self :: args)).2.stranded = s.stranded) :
    Kept env s (s.callMetaMethod env callee (self :: args)).2 := by
  have pushed := (SQVM.pushArgs_refs env s (self :: args)).stranded
  have called := (SQVM.call_refs env { s.pushArgs (self :: args) with
    nmetamethodscall := (s.pushArgs (self :: args)).nmetamethodscall + 1 } callee
    (self :: args).length ((s.pushArgs (self :: args)).top - (self :: args).length)).stranded
  have fits : (s.pushArgs (self :: args)).stranded = s.stranded :=
    le_antisymm (called.trans_eq calm) pushed
  have kept := SQVM.callMetaMethod_settled callee self args plain base
    (.inl (calm.trans fits.symm))
  rw [SQVM.pushArgs_of_calm fits] at kept
  exact kept

end Call

end Squirrels
