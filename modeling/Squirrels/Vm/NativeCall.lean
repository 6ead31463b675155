import Squirrels.Vm.Contract

/-!
# Calls of C functions with a free variable

The machine as the C function of a native closure finds it, and as its caller finds it again.
-/

namespace Squirrels

namespace SQVM

variable {env : Env} {s t : SQVM} {rest lower slots : List SQObject} {this upvalue : SQObject}
  {r c : ℕ}

/-- The machine inside the frame of a C function: the free variable lies on top of the arguments,
and the stack vector has been grown if it had to be. -/
def inNative (s : SQVM) (size : ℕ) (upvalue : SQObject) (newbase : ℕ) : SQVM :=
  { s with
    calls := ⟨newbase - s.stackbase, s.top - s.stackbase⟩ :: s.calls
    stackbase := newbase
    stack := upvalue :: s.stack
    stackSize := size
    nnativecalls := s.nnativecalls + 1 }

/-- The machine `t` back in the frame of `s`. -/
def backIn (t s : SQVM) : SQVM :=
  { t with
    stack := s.stack
    stackbase := s.stackbase
    calls := s.calls
    nnativecalls := s.nnativecalls }

/-- A native closure without type checks enters the frame of its C function. -/
theorem callNative_run (located : s.stack = rest ++ this :: lower)
    (closure : s.heap.natives.read r = ⟨c, some upvalue, none, 0, [], .null⟩)
    (shallow : s.nnativecalls < maxNativeCalls)
    (room : s.nmetamethodscall = 0 ∨ s.top + 1 + minStackOverhead ≤ s.stackSize) :
    ∃ size, s.stackSize ≤ size ∧ s.callNative env r (rest.length + 1) lower.length =
      nativeReturn (env.native c (s.inNative size upvalue lower.length)).1
        (env.native c (s.inNative size upvalue lower.length)).2 := by
  have top : s.top = lower.length + (rest.length + 1) := by
    rw [SQVM.top, located, List.length_append, List.length_cons]
    omega
  have height : lower.length + (rest.length + 1) + 1 = s.stack.length + 1 := by
    rw [← top]
    rfl
  -- the frame starts with an empty slot, which the free variable fills
  have entered : ∃ size, s.stackSize ≤ size ∧
      s.enterFrame lower.length (lower.length + (rest.length + 1) + 1) = (true, { s with
        calls := ⟨lower.length - s.stackbase, s.top - s.stackbase⟩ :: s.calls
        stackbase := lower.length
        stack := .null :: s.stack
        stackSize := size }) := by
    unfold enterFrame
    rw [height, resizeStack_length_add]
    by_cases small : s.stackSize < s.stack.length + 1 + minStackOverhead
    · have outside : ¬ 0 < s.nmetamethodscall := by
        rcases room with none | fits
        · omega
        · exact absurd small (not_lt.2 fits)
      simp only
      rw [if_pos small, if_neg outside]
      refine ⟨_, ?_, rfl⟩
      unfold minStackOverhead at small ⊢
      omega
    · simp only
      rw [if_neg small]
      exact ⟨s.stackSize, le_rfl, rfl⟩
  obtain ⟨size, larger, ran⟩ := entered
  refine ⟨size, larger, ?_⟩
  have few : ¬ maxNativeCalls < s.nnativecalls + 1 := by omega
  have anyCount : wrongParameters 0 (rest.length + 1) = false := rfl
  have anyTypes : badArgument (s.stack.take (rest.length + 1)).reverse [] = none := by
    unfold badArgument
    rw [List.zip_nil_right]
    rfl
  unfold callNative
  simp only [closure]
  rw [if_neg few, anyCount, if_neg Bool.false_ne_true, anyTypes]
  simp only [Option.toList_some, List.length_singleton]
  rw [ran]
  rfl

/-- The machine `t` is inside the frame of a C function that `s` has called, with `slots` above
those of the caller. -/
structure CalledFrom (s : SQVM) (newbase : ℕ) (slots : List SQObject) (t : SQVM) : Prop where
  stack : t.stack = slots ++ s.stack
  stackbase : t.stackbase = newbase
  calls : t.calls = ⟨newbase - s.stackbase, s.top - s.stackbase⟩ :: s.calls
  nnativecalls : t.nnativecalls = s.nnativecalls + 1

theorem calledFrom_inNative (s : SQVM) (size : ℕ) (upvalue : SQObject) (newbase : ℕ) :
    CalledFrom s newbase [upvalue] (s.inNative size upvalue newbase) := ⟨rfl, rfl, rfl, rfl⟩

namespace CalledFrom

variable {newbase : ℕ} (inside : CalledFrom s newbase slots t)

include inside

theorem kept {t' : SQVM} (kept : Kept env t t') : CalledFrom s newbase slots t' where
  stack := kept.stack.trans inside.stack
  stackbase := kept.stackbase.trans inside.stackbase
  calls := kept.calls.trans inside.calls
  nnativecalls := kept.nnativecalls.trans inside.nnativecalls

theorem push (o : SQObject) : CalledFrom s newbase (o :: slots) (t.push o) where
  stack := congrArg (o :: ·) inside.stack
  stackbase := inside.stackbase
  calls := inside.calls
  nnativecalls := inside.nnativecalls

/-- What lies above the slots of the caller is cut when the C function returns. -/
theorem leaveFrame (base : s.stackbase ≤ newbase) (height : newbase ≤ s.top) :
    { t with nnativecalls := t.nnativecalls - 1 }.leaveFrame = t.backIn s := by
  have bottom : newbase - (newbase - s.stackbase) = s.stackbase := by omega
  have top : s.stackbase + (s.top - s.stackbase) = s.stack.length := by
    show _ = s.top
    omega
  have cut : resizeStack s.stack.length (slots ++ s.stack) = s.stack := by
    unfold resizeStack
    rw [if_pos (by rw [List.length_append]; omega), List.length_append, Nat.add_sub_cancel,
      List.drop_left]
  unfold SQVM.leaveFrame backIn
  simp only [inside.calls]
  rw [inside.stackbase, bottom, top, inside.stack, cut, inside.nnativecalls, Nat.add_sub_cancel]

/-- A C function that returns one value. -/
theorem nativeReturn_one (base : s.stackbase ≤ newbase) (height : newbase ≤ s.top) :
    nativeReturn 1 t = (.returned (t.up 0), t.backIn s) := by
  unfold nativeReturn
  rw [if_neg (by decide), if_neg (by decide), inside.leaveFrame base height]
  rfl

/-- A C function that throws. -/
theorem nativeReturn_error (base : s.stackbase ≤ newbase) (height : newbase ≤ s.top) :
    nativeReturn (-1) t = (.failed, t.backIn s) := by
  unfold nativeReturn
  rw [if_neg (by decide), if_pos (by decide), inside.leaveFrame base height]

end CalledFrom

end SQVM

end Squirrels
