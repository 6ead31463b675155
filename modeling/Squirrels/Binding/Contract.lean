import Mathlib.Data.List.Count
import Squirrels.Binding.Convert
import Squirrels.Vm.ApiContract

/-!
# Contracts of the binding

`Owned L` says that the reference tables count exactly the live handles in `L` and the cached
roots. `At` describes the machines in the middle of an operation on the machine `vm`: the
references are `Owned`, the other machines are as they were, and as far as `H` promises it the
stack of `vm` holds the given slots. The contracts below are about every promise `G` of the start:
with a false one they say what holds whatever happens.
-/

namespace Squirrels

open Machines

/-- The count of every reference-counted object is the number of live handles to it, and one more
for the root table cached in `Squirrel`. -/
def Owned (L : List Object) (w : World) : Prop :=
  ∀ vm o, o.isRefCounted = true →
    (w vm).refs o = L.count ⟨vm, o⟩ + if o = .ref .table (w vm).root then 1 else 0

/-- A machine that an operation on another one leaves alone: handles to its objects may be dropped,
and no others are made. -/
structure Apart (s₀ s : SQVM) : Prop where
  same : s = { s₀ with refs := s.refs }
  refs : ∀ o, s.refs o ≤ s₀.refs o

/-- The machines in the middle of an operation on `vm` that started in `w₀`, with the live
handles `L`. -/
structure At (env : Env) (G H : Prop) (w₀ : World) (vm : VmId) (stack : List SQObject)
    (L : List Object) (w : World) : Prop where
  on : On env G H (w₀ vm) (w vm).refs stack (w vm)
  owned : Owned L w
  others : ∀ j, j ≠ vm → Apart (w₀ j) (w j)

/-- The panics of the binding that a failed type check of a C function or an object of another type
than the expected one would cause. -/
def typeAssertions : List String :=
  ["sq_getstringandsized failed", "sq_getstringandsize failed",
    "expecting the string we just pushed", "expecting the table we just created",
    "sq_clear failed", "sq_rawdeleteslot failed",
    "sq_getdelegate failed", "expected table or null", "expected table after sq_clone",
    "sq_newarray did not push an Array", "sq_arrayappend failed", "sq_arrayreverse failed",
    "sq_clone failed", "expected array after sq_clone", "sq_newclass failed",
    "expecting the class we just pushed", "sq_getbase failed",
    "expecting the class we just pushed or null", "sq_createinstance failed",
    "expecting the instance we just created", "sq_getclass failed", "sq_instanceof failed",
    "expecting the closure we just compiled", "sq_settypetag failed on fresh userdata",
    "expecting the userdata we just pushed", "sq_getuserdata failed"]

/-- The machines after calls, which promise less than `H` when one of them has been stranded. -/
def Later (env : Env) (G H : Prop) (w₀ : World) (vm : VmId) (stack : List SQObject)
    (L : List Object) (w : World) : Prop :=
  ∃ H' : Prop, (H' → H) ∧ At env G H' w₀ vm stack L w

/-- An operation on `vm` that did not return. A panic is excluded by `N` and by what is still
promised when it happens, one about a type by the latter alone, and it drops the handles the
operation owned; the process ends only when `G` does not hold or a call has been stranded. -/
structure Failed (env : Env) (G N : Prop) (w₀ : World) (vm : VmId) (L : List Object) (e : Stop)
    (w : World) : Prop where
  counted : e ≠ Api.overRelease
  panicked : ∀ message, e = .panic message → ∃ (H : Prop) (stack : List SQObject),
    ¬ (H ∧ N) ∧ (H → message ∉ typeAssertions) ∧ At env G H w₀ vm stack L w
  ended : (∀ message, e ≠ .panic message) → ¬ (G ∧ (w vm).stranded = (w₀ vm).stranded)
  root : (w vm).root = (w₀ vm).root
  others : ∀ j, j ≠ vm → Apart (w₀ j) (w j)

/-- The slots are above the base of the frame and there is a free one. -/
structure Space (s₀ : SQVM) (stack : List SQObject) : Prop where
  base : s₀.stackbase ≤ stack.length
  free : stack.length < s₀.stackSize

/-! ## Counting -/

section Counting

variable {L L' : List Object} {w : World}

theorem Owned.perm (owned : Owned L w) (perm : L.Perm L') : Owned L' w := by
  intro vm o counted
  rw [← perm.count_eq]
  exact owned vm o counted

/-- A change that leaves references and roots alone leaves the count right. -/
theorem Owned.congr {w' : World} (owned : Owned L w) (refs : ∀ j, (w' j).refs = (w j).refs)
    (root : ∀ j, (w' j).root = (w j).root) : Owned L w' := by
  intro vm o counted
  rw [refs, root]
  exact owned vm o counted

theorem Owned.update {vm : VmId} {s : SQVM} (owned : Owned L w) (refs : s.refs = (w vm).refs)
    (root : s.root = (w vm).root) : Owned L (Function.update w vm s) := by
  apply owned.congr <;>
  · intro j
    by_cases here : j = vm
    · subst here
      rw [Function.update_self]
      assumption
    · rw [Function.update_of_ne here]

theorem count_cons_other {o : Object} {vm : VmId} {x : SQObject} (ne : vm ≠ o.sq ∨ x ≠ o.obj) :
    (o :: L).count ⟨vm, x⟩ = L.count ⟨vm, x⟩ := by
  refine List.count_cons_of_ne fun eq => ?_
  subst eq
  simp at ne

/-- One more handle with one more reference. -/
theorem Owned.addref (owned : Owned L w) (o : Object) {s : SQVM} (root : s.root = (w o.sq).root)
    (refs : ∀ x, x.isRefCounted = true →
      s.refs x = (w o.sq).refs x + if x = o.obj then 1 else 0) :
    Owned (o :: L) (Function.update w o.sq s) := by
  intro vm x counted
  by_cases here : vm = o.sq
  · subst here
    rw [Function.update_self, refs x counted, owned _ _ counted, root]
    by_cases target : x = o.obj
    · subst target
      rw [if_pos rfl, List.count_cons_self]
      omega
    · rw [if_neg target, count_cons_other (.inr target)]
      rfl
  · rw [Function.update_of_ne here, owned _ _ counted, count_cons_other (.inl here)]

/-- One handle less with one reference less. -/
theorem Owned.release {o : Object} (owned : Owned (o :: L) w) {s : SQVM}
    (root : s.root = (w o.sq).root)
    (refs : ∀ x, x.isRefCounted = true →
      s.refs x = (w o.sq).refs x - if x = o.obj then 1 else 0) :
    Owned L (Function.update w o.sq s) := by
  intro vm x counted
  have before := owned vm x counted
  by_cases here : vm = o.sq
  · subst here
    rw [Function.update_self, refs x counted, before, root]
    by_cases target : x = o.obj
    · subst target
      rw [if_pos rfl, List.count_cons_self]
      omega
    · rw [if_neg target, count_cons_other (.inr target)]
      rfl
  · rw [Function.update_of_ne here, before, count_cons_other (.inl here)]

end Counting

/-! ## Lifting the contracts of the C functions -/

section Lift

variable {env : Env} {G H N : Prop} {w₀ w : World} {vm : VmId} {stack stack' : List SQObject}
  {L L' : List Object} {α : Type} {m : Act SQVM α}

theorem At.machine (at_ : At env G H w₀ vm stack L w) {H' : Prop} {s : SQVM}
    (on : On env G H' (w₀ vm) (w vm).refs stack' s) :
    At env G H' w₀ vm stack' L (Function.update w vm s) where
  on := by
    rw [Function.update_self, on.refs_eq]
    exact on
  owned := by
    refine at_.owned.congr (fun j => ?_) fun j => ?_
    · by_cases same : j = vm
      · subst same
        rw [Function.update_self, on.refs_eq]
      · rw [Function.update_of_ne same]
    · by_cases same : j = vm
      · subst same
        rw [Function.update_self, on.root_eq, at_.on.root_eq]
      · rw [Function.update_of_ne same]
  others j other := by
    rw [Function.update_of_ne other]
    exact at_.others j other

theorem At.failed (at_ : At env G H w₀ vm stack L w) {e : Stop} {s : SQVM}
    (stopped : Stopped G (w₀ vm) (w vm).refs e s) (L' : List Object) :
    Failed env G N w₀ vm L' e (Function.update w vm s) := by
  refine ⟨stopped.counted, fun message eq => (stopped.quiet message eq).elim, fun _ => ?_, ?_,
    fun j other => ?_⟩
  · rw [Function.update_self]
    exact stopped.broken
  · rw [Function.update_self]
    exact stopped.root_eq
  · rw [Function.update_of_ne other]
    exact at_.others j other

/-- What a C function leaves on the stack, inside the world. -/
theorem At.exits {X : Type} {out : α → X → List SQObject} {Φ : α → X → Prop}
    (spec : Exits env G H (w₀ vm) stack m out Φ) :
    Triple (At env G H w₀ vm stack L) (m.on vm)
      (fun a w => ∃ x, (H → Φ a x) ∧ At env G H w₀ vm (out a x) L w) (Failed env G N w₀ vm L') := by
  intro w at_
  have done := spec (w vm).refs (w vm) at_.on
  rw [Act.run_on]
  rcases ran : m.run (w vm) with ⟨e | a, s⟩ <;> rw [ran] at done
  · exact at_.failed done L'
  · obtain ⟨x, fact, on⟩ := done
    exact ⟨x, fact, at_.machine on⟩

/-- What a C function that makes calls leaves on the stack, inside the world. -/
theorem At.leaves {X : Type} {out : α → X → List SQObject} {Φ : α → X → Prop}
    (spec : Leaves env G H (w₀ vm) stack m out Φ) :
    Triple (At env G H w₀ vm stack L) (m.on vm)
      (fun a w => ∃ x, (H → Φ a x) ∧ Later env G H w₀ vm (out a x) L w)
      (Failed env G N w₀ vm L') := by
  intro w at_
  have done := spec (w vm).refs (w vm) at_.on
  rw [Act.run_on]
  rcases ran : m.run (w vm) with ⟨e | a, s⟩ <;> rw [ran] at done
  · exact at_.failed done L'
  · obtain ⟨x, fact, H', less, on⟩ := done
    exact ⟨x, fact, H', less, at_.machine on⟩

/-- A C function that needs and leaves a fact about the machine. -/
theorem At.lift {X : Type} {out : α → X → List SQObject} {need : SQVM → Prop}
    {fact : α → SQVM → Prop}
    (spec : ∀ refs, Triple (fun s => need s ∧ On env G H (w₀ vm) refs stack s) m
      (fun a s => fact a s ∧ ∃ x, On env G H (w₀ vm) refs (out a x) s) (Stopped G (w₀ vm) refs)) :
    Triple (fun w => need (w vm) ∧ At env G H w₀ vm stack L w) (m.on vm)
      (fun a w => fact a (w vm) ∧ ∃ x, At env G H w₀ vm (out a x) L w)
      (Failed env G N w₀ vm L') := by
  rintro w ⟨met, at_⟩
  have done := spec (w vm).refs (w vm) ⟨met, at_.on⟩
  rw [Act.run_on]
  rcases ran : m.run (w vm) with ⟨e | a, s⟩ <;> rw [ran] at done
  · exact at_.failed done L'
  · obtain ⟨holds, x, on⟩ := done
    refine ⟨?_, x, at_.machine on⟩
    rw [Function.update_self]
    exact holds

/-- A C function with one exit. -/
theorem At.step (spec : ∀ refs, Triple (On env G H (w₀ vm) refs stack) m
      (fun _ => On env G H (w₀ vm) refs stack') (Stopped G (w₀ vm) refs)) :
    Triple (At env G H w₀ vm stack L) (m.on vm) (fun _ => At env G H w₀ vm stack' L)
      (Failed env G N w₀ vm L') := by
  intro w at_
  have done := spec (w vm).refs (w vm) at_.on
  rw [Act.run_on]
  rcases ran : m.run (w vm) with ⟨e | a, s⟩ <;> rw [ran] at done
  · exact at_.failed done L'
  · exact at_.machine done

/-- Nothing is promised about the stack when `H` does not hold. -/
theorem At.any (at_ : At env G H w₀ vm stack L w) (broken : ¬ H) (stack' : List SQObject) :
    At env G H w₀ vm stack' L w :=
  ⟨at_.on.any broken stack', at_.owned, at_.others⟩

/-- A program is run above the slots as far as they are still promised. -/
theorem Later.pre {β : Type} {m : Act World β} {Q : β → World → Prop} {E : Stop → World → Prop}
    (spec : ∀ H' : Prop, (H' → H) → Triple (At env G H' w₀ vm stack L) m Q E) :
    Triple (Later env G H w₀ vm stack L) m Q E :=
  Triple.exists_pre fun H' => Triple.of_pre fun less => spec H' less

theorem At.later (at_ : At env G H w₀ vm stack L w) : Later env G H w₀ vm stack L w :=
  ⟨H, id, at_⟩

/-- Where `H` does not hold any more, the promise of the start has been broken. -/
theorem At.broken (at_ : At env G H w₀ vm stack L w) (broken : ¬ H) :
    ¬ (G ∧ (w vm).stranded = (w₀ vm).stranded) := at_.on.broken broken

theorem At.perm {L' : List Object} (at_ : At env G H w₀ vm stack L w) (perm : L.Perm L') :
    At env G H w₀ vm stack L' w :=
  ⟨at_.on, at_.owned.perm perm, at_.others⟩

/-- A panic that `H` and `N` exclude. -/
theorem At.panicked (at_ : At env G H w₀ vm stack L w) {message : String} (excluded : ¬ (H ∧ N))
    (typed : H → message ∉ typeAssertions) : Failed env G N w₀ vm L (.panic message) w := by
  refine ⟨by simp [Api.overRelease], fun message' eq => ?_,
    fun ended => (ended message rfl).elim, at_.on.root_eq, at_.others⟩
  obtain rfl := Stop.panic.inj eq
  exact ⟨H, stack, excluded, typed, at_⟩

/-- A check that holds whenever `H` does. -/
theorem At.ensure {c : Prop} [Decidable c] {message : String} (holds : H → c) :
    Triple (At env G H w₀ vm stack L) (Act.ensure c message)
      (fun _ w => c ∧ At env G H w₀ vm stack L w) (Failed env G N w₀ vm L) :=
  Triple.ensure (fun met _ at_ => ⟨met, at_⟩) fun unmet _ at_ =>
    at_.panicked (fun ⟨h, _⟩ => unmet (holds h)) fun h => (unmet (holds h)).elim

/-- A check of what the caller has passed, which holds whenever `H` and `N` do. -/
theorem At.check {c : Prop} [Decidable c] {message : String} (untyped : message ∉ typeAssertions)
    (holds : H → N → c) :
    Triple (At env G H w₀ vm stack L) (Act.ensure c message)
      (fun _ w => c ∧ At env G H w₀ vm stack L w) (Failed env G N w₀ vm L) :=
  Triple.ensure (fun met _ at_ => ⟨met, at_⟩) fun unmet _ at_ =>
    at_.panicked (fun ⟨h, n⟩ => unmet (holds h n)) fun _ => untyped

theorem At.panic {message : String} (excluded : ¬ H) {Q : α → World → Prop} :
    Triple (At env G H w₀ vm stack L) (Act.panic message : Act World α) Q
      (Failed env G N w₀ vm L) :=
  Triple.stop fun _ at_ => at_.panicked (fun ⟨h, _⟩ => excluded h) fun h => (excluded h).elim

/-- The end of the process, which `H` excludes. -/
theorem At.abort {reason : String} (excluded : ¬ H) (counted : Stop.abort reason ≠ Api.overRelease)
    {Q : α → World → Prop} :
    Triple (At env G H w₀ vm stack L) (Act.stop (.abort reason) : Act World α) Q
      (Failed env G N w₀ vm L') :=
  Triple.stop fun _ at_ =>
    ⟨counted, fun _ absurd => by simp at absurd, fun _ => at_.broken excluded, at_.on.root_eq,
      at_.others⟩

end Lift

/-! ## References -/

section References

variable {env : Env} {G H N : Prop} {w₀ : World} {vm : VmId} {stack : List SQObject}
  {L : List Object} {E : Stop → World → Prop}

/-- References change only in the reference tables. -/
theorem At.withRefs {L' : List Object} {w : World} (at_ : At env G H w₀ vm stack L w) (sq : VmId)
    {s : SQVM} (same : s = { w sq with refs := s.refs })
    (fewer : sq ≠ vm → ∀ o, s.refs o ≤ (w sq).refs o)
    (owned : Owned L' (Function.update w sq s)) :
    At env G H w₀ vm stack L' (Function.update w sq s) := by
  refine ⟨?_, owned, fun j other => ?_⟩
  · by_cases here : vm = sq
    · subst here
      rw [Function.update_self, same]
      exact ⟨rfl, at_.on.root_eq, at_.on.roottable_eq, at_.on.stranded_le, at_.on.live,
        fun h => { at_.on.same h with }, at_.on.stack_eq⟩
    · rw [Function.update_of_ne here]
      exact at_.on
  · by_cases here : j = sq
    · subst here
      have apart := at_.others j other
      rw [Function.update_self]
      refine ⟨?_, fun o => (fewer other o).trans (apart.refs o)⟩
      conv_lhs => rw [same, apart.same]
    · rw [Function.update_of_ne here]
      exact at_.others j other

/-- `sq_addref` changes the reference table only, where it counts one more handle. -/
theorem addref_run {w : World} (owned : Owned L w) (o : Object) :
    ∃ s, ((Api.sqAddref o.obj).on o.sq).run w = (.ok (), Function.update w o.sq s) ∧
      s = { w o.sq with refs := s.refs } ∧ Owned (o :: L) (Function.update w o.sq s) := by
  rw [Act.run_on]
  simp only [Api.sqAddref, Act.run_modify]
  refine ⟨_, rfl, ?_, owned.addref o ?_ fun x counted => ?_⟩
  · split <;> rfl
  · split <;> rfl
  · by_cases target : x = o.obj
    · subst target
      simp [counted]
    · split <;> simp [target]

/-- `sq_release` of a live handle returns; it changes the reference table only, where it counts
one handle less. -/
theorem release_run {w : World} {o : Object} (owned : Owned (o :: L) w) :
    ∃ s, o.drop.run w = (.ok (), Function.update w o.sq s) ∧ s = { w o.sq with refs := s.refs } ∧
      (∀ x, s.refs x ≤ (w o.sq).refs x) ∧ Owned L (Function.update w o.sq s) := by
  unfold Object.drop
  rw [Act.run_on]
  by_cases counted : o.obj.isRefCounted
  · have positive : (w o.sq).refs o.obj ≠ 0 := by
      have := owned o.sq o.obj counted
      rw [List.count_cons_self] at this
      omega
    have ran : (Api.sqRelease o.obj).run (w o.sq) = (.ok (), { w o.sq with
        refs := Function.update (w o.sq).refs o.obj ((w o.sq).refs o.obj - 1) }) := by
      unfold Api.sqRelease
      rw [Act.run_bind_of_ok (Act.run_get _)]
      simp [counted, positive]
    rw [ran]
    refine ⟨_, rfl, rfl, fun x => ?_, owned.release rfl fun x _ => ?_⟩
    · by_cases target : x = o.obj
      · subst target
        simp
      · simp [target]
    · by_cases target : x = o.obj
      · subst target
        simp
      · simp [target]
  · have ran : (Api.sqRelease o.obj).run (w o.sq) = (.ok (), w o.sq) := by
      unfold Api.sqRelease
      rw [Act.run_bind_of_ok (Act.run_get _)]
      simp [counted]
    rw [ran]
    refine ⟨_, rfl, rfl, fun _ => le_rfl, owned.release rfl fun x counted' => ?_⟩
    have apart : x ≠ o.obj := by
      rintro rfl
      exact counted counted'
    simp [apart]

theorem addref_at {o : Object} (here : o.sq = vm) :
    Triple (At env G H w₀ vm stack L) ((Api.sqAddref o.obj).on o.sq)
      (fun _ => At env G H w₀ vm stack (o :: L)) E := by
  intro w at_
  obtain ⟨s, ran, same, owned⟩ := addref_run at_.owned o
  rw [ran]
  exact at_.withRefs o.sq same (fun other => (other here).elim) owned

/-- Dropping a live handle neither panics nor releases too much. -/
theorem drop_at (o : Object) :
    Triple (At env G H w₀ vm stack (o :: L)) o.drop (fun _ => At env G H w₀ vm stack L) E := by
  intro w at_
  obtain ⟨s, ran, same, fewer, owned⟩ := release_run at_.owned
  rw [ran]
  exact at_.withRefs o.sq same (fun _ => fewer) owned

theorem dropAll_at (hs : List Object) :
    Triple (At env G H w₀ vm stack (hs ++ L)) (dropAll hs) (fun _ => At env G H w₀ vm stack L)
      E := by
  induction hs with
  | nil => exact Triple.pure fun _ at_ => at_
  | cons o hs ih => exact Triple.bind (drop_at o) fun _ => ih

theorem dropValue_at {α : Type} [Owns α] (a : α) :
    Triple (At env G H w₀ vm stack (Owns.handles a ++ L)) (dropValue a)
      (fun _ => At env G H w₀ vm stack L) E :=
  dropAll_at _

theorem clone_at {o : Object} (here : o.sq = vm) :
    Triple (At env G H w₀ vm stack L) o.clone
      (fun o' w => o' = o ∧ At env G H w₀ vm stack (o :: L) w) E :=
  Triple.bind (addref_at here) fun _ => Triple.pure fun _ at_ => ⟨rfl, at_⟩

theorem cloneHandle_at {t : RefType} (h : Handle t) :
    Triple (At env G H w₀ h.sq stack L) h.clone
      (fun h' w => h' = h ∧ At env G H w₀ h.sq stack (Owns.handles h ++ L) w) E :=
  Triple.bind (clone_at rfl) fun _ => Triple.pure fun _ at_ => ⟨rfl, at_.2⟩

/-- Unwinding runs the clean-up code, which drops the handles that are still owned. -/
theorem unwind_at {α : Type} {P : World → Prop} {m : Act World α} {Q : α → World → Prop}
    {hs : List Object} {cleanup : Act World Unit}
    (body : Triple P m Q (Failed env G N w₀ vm (hs ++ L)))
    (cleaned : ∀ (H : Prop) stack, Triple (At env G H w₀ vm stack (hs ++ L)) cleanup
      (fun _ => At env G H w₀ vm stack L) Never) :
    Triple P (m.onUnwind cleanup) Q (Failed env G N w₀ vm L) := by
  refine Triple.onUnwind body (fun message w failed => ?_) fun e w ended failed => ?_
  · obtain ⟨H, stack, excluded, typed, at_⟩ := failed.panicked message rfl
    exact Triple.post (cleaned H stack) (fun _ _ at_ => at_.panicked excluded typed) w at_
  · exact ⟨failed.counted, fun message eq => (ended message eq).elim, failed.ended, failed.root,
      failed.others⟩

theorem unwindDrop_at {α : Type} {P : World → Prop} {m : Act World α} {Q : α → World → Prop}
    {o : Object} (body : Triple P m Q (Failed env G N w₀ vm (o :: L))) :
    Triple P (m.onUnwind o.drop) Q (Failed env G N w₀ vm L) :=
  unwind_at (show Triple P m Q (Failed env G N w₀ vm ([o] ++ L)) from body) fun _ _ => drop_at o

theorem unwindValue_at {α β : Type} [Owns β] {P : World → Prop} {m : Act World α}
    {Q : α → World → Prop} {b : β}
    (body : Triple P m Q (Failed env G N w₀ vm (Owns.handles b ++ L))) :
    Triple P (m.onUnwind (dropValue b)) Q (Failed env G N w₀ vm L) :=
  unwind_at body fun _ _ => dropValue_at b

end References

/-! ## The stack -/

section Stack

variable {env : Env} {G H N : Prop} {w₀ : World} {vm : VmId} {stack st : List SQObject}
  {L L' : List Object}

theorem push_at (o : SQObject) (space : H → Space (w₀ vm) stack) :
    Triple (At env G H w₀ vm stack L) ((Api.push o).on vm)
      (fun _ => At env G H w₀ vm (o :: stack) L) (Failed env G N w₀ vm L') :=
  At.step fun _ => Api.push_on (fun h => (space h).free) o

theorem pushObject_at {o : Object} (here : o.sq = vm) (space : H → Space (w₀ vm) stack) :
    Triple (At env G H w₀ vm stack L) o.pushIntoStack (fun _ => At env G H w₀ vm (o.obj :: stack) L)
      (Failed env G N w₀ vm L') := by
  subst here
  exact push_at o.obj space

/-- The depth of the frame, as far as it is known. -/
theorem stackDepth_at :
    Triple (At env G H w₀ vm stack L) (Squirrel.stackDepth vm)
      (fun d w => (H → (w₀ vm).stackbase + d = stack.length) ∧ At env G H w₀ vm stack L w)
      (Failed env G N w₀ vm L') := by
  intro w at_
  refine ⟨fun h => ?_, at_.machine at_.on⟩
  have top := at_.on.top h
  have base := (at_.on.same h).stackbase
  change ((w₀ vm).stackbase : ℤ) + ((w vm).top - (w vm).stackbase) = _
  omega

/-- A pop that may find fewer slots than it asks for, which panics. -/
theorem tryPop_at (n : ℕ) (positive : 0 < n)
    (above : H → N → (w₀ vm).stackbase + n ≤ stack.length) :
    Triple (At env G H w₀ vm stack L) (Squirrel.pop vm n)
      (fun _ w => (H → (w₀ vm).stackbase + n ≤ stack.length) ∧
        At env G H w₀ vm (stack.drop n) L w) (Failed env G N w₀ vm L) := by
  refine Triple.bind stackDepth_at fun d => Triple.of_pre fun depth => ?_
  refine Triple.bind (At.check (by simp [typeAssertions]) fun h n => ?_) fun _ =>
    Triple.of_pre fun few => ?_
  · have := depth h
    have := above h n
    omega
  refine Triple.bind (At.ensure fun _ => by omega) fun _ => Triple.of_pre fun _ => ?_
  have enough : H → (w₀ vm).stackbase + n ≤ stack.length := fun h => by
    have := depth h
    omega
  rw [Int.toNat_natCast]
  refine Triple.post (At.step fun _ => Api.sqPop_on n fun h => ?_) fun _ _ at_ => ⟨enough, at_⟩
  have := enough h
  omega

theorem pop_at (n : ℕ) (positive : 0 < n)
    (above : H → (w₀ vm).stackbase + n ≤ stack.length) :
    Triple (At env G H w₀ vm stack L) (Squirrel.pop vm n)
      (fun _ => At env G H w₀ vm (stack.drop n) L) (Failed env G N w₀ vm L) :=
  Triple.post (tryPop_at n positive fun h _ => above h) fun _ _ at_ => at_.2

theorem resizeStack_at (above : List SQObject) {newtop : ℤ}
    (former : H → (w₀ vm).stackbase + newtop = st.length)
    (base : H → (w₀ vm).stackbase ≤ st.length) :
    Triple (At env G H w₀ vm (above ++ st) L) (Squirrel.resizeStack vm newtop)
      (fun _ => At env G H w₀ vm st L) (Failed env G N w₀ vm L) := by
  refine Triple.bind (At.ensure fun h => ?_) fun _ => Triple.of_pre fun _ =>
    At.step fun _ => Api.sqSettop_on above former
  have := former h
  have := base h
  omega

/-- An index that names a slot of the frame, and the slot. -/
structure Slot (s₀ : SQVM) (stack : List SQObject) (idx : ℤ) (o : SQObject) : Prop where
  valid : idx ≠ 0 ∧ if 0 < idx then idx ≤ (stack.length : ℤ) - s₀.stackbase
    else -((stack.length : ℤ) - s₀.stackbase) ≤ idx
  found : ∀ s : SQVM, s.stack = stack → s.stackbase = s₀.stackbase → s.stackGet idx = o

theorem slot_neg {s₀ : SQVM} {n : ℕ} (above : s₀.stackbase + n < stack.length) :
    Slot s₀ stack (-(n + 1 : ℕ)) (stack.getD n .null) where
  valid := by
    refine ⟨by omega, ?_⟩
    rw [if_neg (by omega)]
    omega
  found s eq _ := by rw [s.stackGet_neg, SQVM.up, eq]

theorem assertValidIdx_at {idx : ℤ} {o : SQObject} (slot : H → Slot (w₀ vm) stack idx o) :
    Triple (At env G H w₀ vm stack L) (Squirrel.assertValidIdx vm idx)
      (fun _ => At env G H w₀ vm stack L) (Failed env G N w₀ vm L) := by
  refine Triple.bind stackDepth_at fun d => Triple.of_pre fun depth =>
    Triple.post (At.ensure fun h => ?_) fun _ _ at_ => at_.2
  have eq : d = (stack.length : ℤ) - (w₀ vm).stackbase := by have := depth h; omega
  rw [eq]
  exact (slot h).valid

theorem fromStack_at {idx : ℤ} {o : SQObject} (slot : H → Slot (w₀ vm) stack idx o) :
    Triple (At env G H w₀ vm stack L) (Object.fromStack idx vm)
      (fun x w => (x.sq = vm ∧ (H → x.obj = o)) ∧ At env G H w₀ vm stack (x :: L) w)
      (Failed env G N w₀ vm L) := by
  refine Triple.bind (assertValidIdx_at slot) fun _ => ?_
  refine Triple.bind (Q := fun x w => (H → x = o) ∧ At env G H w₀ vm stack L w) ?_ fun x =>
    Triple.of_pre fun eq => ?_
  · intro w at_
    refine ⟨fun h => ?_, at_.machine at_.on⟩
    exact (slot h).found (w vm) (at_.on.stack_eq h) (at_.on.same h).stackbase
  · exact Triple.bind (addref_at (o := ⟨vm, x⟩) rfl) fun _ => Triple.pure fun _ at_ =>
      ⟨⟨rfl, eq⟩, at_⟩

end Stack

end Squirrels
