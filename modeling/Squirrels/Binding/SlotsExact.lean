import Squirrels.Binding.Codec
import Squirrels.Binding.Slots

/-!
# What access to slots computes

The shared bodies of the operations on slots, given what their C function computes.
-/

namespace Squirrels

open Machines

section Slots

variable {env : Env} {w₀ : World} {s t : SQVM} {L : List Object} {r : RefType} {self : Handle r}
  {κ ν : Type}

/-- The slot on top is converted, and it is popped together with slots below it. -/
theorem takeTop_exact [Owns ν] [FromSquirrel ν] [ExactFrom ν] {vm : VmId} {n : ℕ}
    (positive : 0 < n) (enough : s.stackbase + n ≤ s.top) :
    ∃ e, Yields w₀ vm s L (Handle.takeTop env vm n)
      (ExactFrom.decode vm (s.up 0) : Except Error ν) ((s.pop n).withError e)
      (Owns.handles (ExactFrom.decode vm (s.up 0) : Except Error ν) ++ L) := by
  obtain ⟨e, read⟩ := @ExactFrom.read ν _ _ _ env w₀ vm s L (-1)
    (SQVM.validIdx_top (by omega)) (by omega)
  have enough' : (s.withError e).stackbase + n ≤ (s.withError e).top := enough
  refine ⟨e, ?_⟩
  apply Yields.bind read
  exact Yields.bind (Yields.onUnwind (Yields.pop positive enough')) (Yields.pure _)

theorem handles_liftError [Owns ν] (res : Except Error ν) :
    Owns.handles (liftError res) = Owns.handles res := by
  cases res <;> rfl

/-- The C function finds an object and leaves it in place of the key. -/
theorem getWith_yields [Owns κ] [IntoSquirrel κ] [ExactInto κ] [Owns ν] [FromSquirrel ν]
    [ExactFrom ν] {read : ℤ → Act SQVM SQRESULT} {key : κ} {o : SQObject}
    (based : s.stackbase ≤ s.top) (here : Local self.sq key)
    (computes : Computes (read (-2)) ((s.push self.obj).push (ExactInto.encode key)) .ok
      ((t.push self.obj).push o))
    (root : t.root = s.root) (base : t.stackbase ≤ t.top) :
    ∃ e, Yields w₀ self.sq s (Owns.handles key ++ L) (self.getWith env read key)
      (liftError (ExactFrom.decode self.sq o) : Except CallError ν) (t.withError e)
      (Owns.handles (liftError (ExactFrom.decode self.sq o) : Except CallError ν) ++ L) := by
  have enough : ((t.push self.obj).push o).stackbase + 2 ≤ ((t.push self.obj).push o).top := by
    show t.stackbase + 2 ≤ t.top + 2
    omega
  have based' : (s.push self.obj).stackbase ≤ (s.push self.obj).top := by
    show s.stackbase ≤ s.top + 1
    omega
  obtain ⟨e, taken⟩ := @takeTop_exact env w₀ _ L ν _ _ _ self.sq 2 Nat.two_pos enough
  refine ⟨e, ?_⟩
  rw [handles_liftError]
  apply Yields.bind (Yields.push self.obj)
  apply Yields.bind (ExactInto.pushed based' here)
  apply Yields.bind (Yields.machine computes root)
  apply Yields.bind (Yields.pure (Except.ok ()))
  exact Yields.bind taken (Yields.pure _)

/-- The C function fails and pops the key. -/
theorem getWith_fails [Owns κ] [IntoSquirrel κ] [ExactInto κ] [Owns ν] [FromSquirrel ν]
    {read : ℤ → Act SQVM SQRESULT} {key : κ} (based : s.stackbase ≤ s.top)
    (here : Local self.sq key)
    (computes : Computes (read (-2)) ((s.push self.obj).push (ExactInto.encode key)) .error
      (t.push self.obj))
    (root : t.root = s.root) (base : t.stackbase ≤ t.top) :
    Yields w₀ self.sq s (Owns.handles key ++ L) (self.getWith env read key)
      (.error (.runtime (t.lasterror.toValue self.sq)) : Except CallError ν) t
      (Owns.handles (t.lasterror.toValue self.sq) ++ L) := by
  have based' : (s.push self.obj).stackbase ≤ (s.push self.obj).top := by
    show s.stackbase ≤ s.top + 1
    omega
  apply Yields.bind (Yields.push self.obj)
  apply Yields.bind (ExactInto.pushed based' here)
  apply Yields.bind (Yields.machine computes root)
  apply Yields.bind (Yields.toRuntimeError (n := 1) one_pos ?_)
  · exact Yields.pure _
  · show t.stackbase + 1 ≤ t.top + 1
    omega

/-- The arguments of a write. -/
theorem pushArguments_yields [Owns κ] [IntoSquirrel κ] [ExactInto κ] [Owns ν] [IntoSquirrel ν]
    [ExactInto ν] {key : κ} {value : ν} {α : Type} {rest : Act World α} {a : α}
    {L' : List Object} (based : s.stackbase ≤ s.top) (here : Local self.sq (key, value))
    (after : Yields w₀ self.sq
      (((s.push self.obj).push (ExactInto.encode key)).push (ExactInto.encode value)) L rest a t
      L') :
    Yields w₀ self.sq s (Owns.handles (key, value) ++ L) (do
      self.object.pushIntoStack
      (IntoSquirrel.pushIntoStack env key self.sq).onUnwind (dropValue value)
      IntoSquirrel.pushIntoStack env value self.sq
      rest) a t L' := by
  have based' : (s.push self.obj).stackbase ≤ (s.push self.obj).top := by
    show s.stackbase ≤ s.top + 1
    omega
  have based'' : ((s.push self.obj).push (ExactInto.encode key)).stackbase ≤
      ((s.push self.obj).push (ExactInto.encode key)).top := by
    show s.stackbase ≤ s.top + 2
    omega
  have split : (Owns.handles (key, value) ++ L).Perm
      (Owns.handles key ++ (Owns.handles value ++ L)) := by
    rw [← List.append_assoc]
    exact .refl _
  apply Yields.perm _ split
  apply Yields.bind (Yields.push self.obj)
  apply Yields.bind (Yields.onUnwind (ExactInto.pushed based' here.fst))
  exact Yields.bind (ExactInto.pushed based'' here.snd) after

/-- The C function succeeds and pops the key and the value. -/
theorem setWith_yields [Owns κ] [IntoSquirrel κ] [ExactInto κ] [Owns ν] [IntoSquirrel ν]
    [ExactInto ν] {write : ℤ → Act SQVM SQRESULT} {popped : ℤ} {key : κ} {value : ν}
    (based : s.stackbase ≤ s.top) (here : Local self.sq (key, value))
    (computes : Computes (write (-3))
      (((s.push self.obj).push (ExactInto.encode key)).push (ExactInto.encode value)) .ok
      (t.push self.obj))
    (root : t.root = s.root) (base : t.stackbase ≤ t.top) :
    Yields w₀ self.sq s (Owns.handles (key, value) ++ L) (self.setWith env write popped key value)
      (.ok ()) t L := by
  apply pushArguments_yields based here
  apply Yields.bind (Yields.machine computes root)
  apply Yields.bind (Yields.pure (Except.ok ()))
  apply Yields.bind (Yields.pop (n := 1) one_pos ?_)
  · exact Yields.pure _
  · show t.stackbase + 1 ≤ t.top + 1
    omega

/-- The C function fails, and the slots it has left are popped. -/
theorem setWith_fails [Owns κ] [IntoSquirrel κ] [ExactInto κ] [Owns ν] [IntoSquirrel ν]
    [ExactInto ν] {write : ℤ → Act SQVM SQRESULT} {n : ℕ} {key : κ} {value : ν}
    (based : s.stackbase ≤ s.top) (here : Local self.sq (key, value))
    (computes : Computes (write (-3))
      (((s.push self.obj).push (ExactInto.encode key)).push (ExactInto.encode value)) .error t)
    (root : t.root = s.root) (positive : 0 < n) (enough : t.stackbase + n ≤ t.top) :
    Yields w₀ self.sq s (Owns.handles (key, value) ++ L) (self.setWith env write n key value)
      (.error (.runtime (t.lasterror.toValue self.sq))) (t.pop n)
      (Owns.handles (t.lasterror.toValue self.sq) ++ L) := by
  apply pushArguments_yields based here
  apply Yields.bind (Yields.machine computes root)
  exact Yields.bind (Yields.toRuntimeError positive enough) (Yields.pure _)

end Slots

end Squirrels
