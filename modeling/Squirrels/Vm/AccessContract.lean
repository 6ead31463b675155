import Squirrels.Vm.Contract

/-!
# What access to objects leaves as it was

`On` describes a machine in the middle of an operation that started in `s₀`: the references are as
given, and as far as `H` promises it the stack holds the given slots and everything else stands as
it did. `Get`, `Set`, `NewSlot`, `NewSlotA`, `DeleteSlot` and `Clone` keep such a description, and
they end, since every walk along delegates does.
-/

namespace Squirrels

open Machines

/-- A machine inside an operation that started in `s₀`. `G` is what was promised at the start. It is
all that is left of `H` while no call has been stranded. -/
structure On (env : Env) (G H : Prop) (s₀ : SQVM) (refs : SQObject → ℕ) (stack : List SQObject)
    (s : SQVM) : Prop where
  refs_eq : s.refs = refs
  root_eq : s.root = s₀.root
  roottable_eq : env.KeepsRoot → s.roottable = s₀.roottable
  stranded_le : s₀.stranded ≤ s.stranded
  live : G → s.stranded = s₀.stranded → H
  same : H → Same env s₀ s
  stack_eq : H → s.stack = stack

/-- The machine after calls, which promise less than `H` when one of them has been stranded. -/
def Still (env : Env) (G H : Prop) (s₀ : SQVM) (refs : SQObject → ℕ) (stack : List SQObject)
    (s : SQVM) : Prop :=
  ∃ H' : Prop, (H' → H) ∧ On env G H' s₀ refs stack s

/-- A C function stops only when `G` does not hold or a call has been stranded. It does not panic,
and never releases an object that has no reference. -/
structure Stopped (G : Prop) (s₀ : SQVM) (refs : SQObject → ℕ) (e : Stop) (s : SQVM) : Prop where
  broken : ¬ (G ∧ s.stranded = s₀.stranded)
  counted : e ≠ Api.overRelease
  quiet : ∀ message, e ≠ .panic message
  refs_eq : s.refs = refs
  root_eq : s.root = s₀.root

section On

variable {env : Env} {G H : Prop} {s₀ s s' : SQVM} {refs : SQObject → ℕ} {stack : List SQObject}

theorem On.kept (on : On env G H s₀ refs stack s) (same : SameRefs env s s')
    (kept : H → Kept env s s') : On env G H s₀ refs stack s' where
  refs_eq := same.refs.trans on.refs_eq
  root_eq := same.root.trans on.root_eq
  roottable_eq keeps := (same.roottable keeps).trans (on.roottable_eq keeps)
  stranded_le := on.stranded_le.trans same.stranded
  live g calm := on.live g (le_antisymm (same.stranded.trans_eq calm) on.stranded_le)
  same h := (on.same h).trans (kept h).toSame
  stack_eq h := (kept h).stack.trans (on.stack_eq h)

/-- A call keeps the description as far as it is not stranded. -/
theorem On.called (on : On env G H s₀ refs stack s) (same : SameRefs env s s')
    (kept : H → s'.stranded = s.stranded → Kept env s s') : Still env G H s₀ refs stack s' := by
  have calm : s'.stranded = s₀.stranded → s.stranded = s₀.stranded := fun eq =>
    le_antisymm (same.stranded.trans_eq eq) on.stranded_le
  refine ⟨H ∧ s'.stranded = s₀.stranded, And.left, ?_⟩
  exact {
    refs_eq := same.refs.trans on.refs_eq
    root_eq := same.root.trans on.root_eq
    roottable_eq := fun keeps => (same.roottable keeps).trans (on.roottable_eq keeps)
    stranded_le := on.stranded_le.trans same.stranded
    live := fun g eq => ⟨on.live g (calm eq), eq⟩
    same := fun ⟨h, eq⟩ => (on.same h).trans (kept h (eq.trans (calm eq).symm)).toSame
    stack_eq := fun ⟨h, eq⟩ => (kept h (eq.trans (calm eq).symm)).stack.trans (on.stack_eq h) }

theorem On.still (on : On env G H s₀ refs stack s) : Still env G H s₀ refs stack s :=
  ⟨H, id, on⟩

theorem On.withError (on : On env G H s₀ refs stack s) (o : SQObject) :
    On env G H s₀ refs stack (s.withError o) :=
  on.kept ⟨rfl, rfl, fun _ => rfl, le_rfl⟩ fun _ => .withError s o

theorem On.withHeap (on : On env G H s₀ refs stack s) {h : Heap} (grows : s.heap.Grows h) :
    On env G H s₀ refs stack { s with heap := h } :=
  on.kept ⟨rfl, rfl, fun _ => rfl, le_rfl⟩ fun _ => .withHeap s grows

/-- The stack may be changed on purpose. -/
theorem On.withStack (on : On env G H s₀ refs stack s) {slots stack' : List SQObject}
    (eq : H → s.stack = stack → slots = stack') :
    On env G H s₀ refs stack' { s with stack := slots } where
  refs_eq := on.refs_eq
  root_eq := on.root_eq
  roottable_eq := on.roottable_eq
  stranded_le := on.stranded_le
  live := on.live
  same h := { on.same h with }
  stack_eq h := eq h (on.stack_eq h)

theorem On.top (on : On env G H s₀ refs stack s) (h : H) : s.top = stack.length := by
  rw [SQVM.top, on.stack_eq h]

/-- Where `H` does not hold any more, the promise of the start has been broken. -/
theorem On.broken (on : On env G H s₀ refs stack s) (broken : ¬ H) :
    ¬ (G ∧ s.stranded = s₀.stranded) := fun ⟨g, calm⟩ => broken (on.live g calm)

/-- Nothing is promised about the stack of a machine on which `H` does not hold. -/
theorem Still.any (still : Still env G H s₀ refs stack s) (broken : ¬ H)
    (stack' : List SQObject) : On env G H s₀ refs stack' s :=
  let ⟨_, less, on⟩ := still
  ⟨on.refs_eq, on.root_eq, on.roottable_eq, on.stranded_le, fun g calm => less (on.live g calm),
    fun h => (broken h).elim, fun h => (broken h).elim⟩

theorem Still.withError (still : Still env G H s₀ refs stack s) (o : SQObject) :
    Still env G H s₀ refs stack (s.withError o) :=
  let ⟨H', less, on⟩ := still
  ⟨H', less, on.withError o⟩

theorem Still.withHeap (still : Still env G H s₀ refs stack s) {h : Heap}
    (grows : s.heap.Grows h) : Still env G H s₀ refs stack { s with heap := h } :=
  let ⟨H', less, on⟩ := still
  ⟨H', less, on.withHeap grows⟩

/-- A program that keeps the description, run from a state that has it. -/
theorem On.run {α : Type} {m : Act SQVM α} (on : On env G H s₀ refs stack s)
    (keeps : Keeps (On env G H s₀ refs stack) (Stopped G s₀ refs) m) :
    Triple (· = s) m (fun _ => On env G H s₀ refs stack) (Stopped G s₀ refs) :=
  Triple.pre keeps fun _ eq => eq ▸ on

/-- A program is run above the slots as far as they are still promised. -/
theorem Still.pre {α : Type} {m : Act SQVM α} {Q : α → SQVM → Prop} {E : Stop → SQVM → Prop}
    (spec : ∀ H' : Prop, (H' → H) → Triple (On env G H' s₀ refs stack) m Q E) :
    Triple (Still env G H s₀ refs stack) m Q E :=
  Triple.exists_pre fun H' => Triple.of_pre fun less => spec H' less

/-- Where nothing is promised about the stack, calls keep the description too. -/
theorem Still.keeps_on {α : Type} {m : Act SQVM α} {E : Stop → SQVM → Prop} (broken : ¬ H)
    (keeps : Keeps (Still env G H s₀ refs stack) E m) :
    Keeps (On env G H s₀ refs stack) E m :=
  Triple.conseq keeps (fun _ on => on.still) (fun _ _ still => still.any broken stack)
    fun _ _ ended => ended

/-- A program that keeps every description makes no call. -/
theorem Still.of_on {α : Type} {m : Act SQVM α}
    (keeps : ∀ H : Prop, Keeps (On env G H s₀ refs stack) (Stopped G s₀ refs) m) :
    Keeps (Still env G H s₀ refs stack) (Stopped G s₀ refs) m := by
  rintro s ⟨H', less, on⟩
  have done := keeps H' s on
  rcases ran : m.run s with ⟨e | a, s'⟩ <;> rw [ran] at done
  · exact done
  · exact ⟨H', less, done⟩

/-- A program that makes calls, run from a state that has the description. -/
theorem Still.run {α : Type} {m : Act SQVM α} (still : Still env G H s₀ refs stack s)
    (keeps : Keeps (Still env G H s₀ refs stack) (Stopped G s₀ refs) m) :
    Triple (· = s) m (fun _ => Still env G H s₀ refs stack) (Stopped G s₀ refs) :=
  Triple.pre keeps fun _ eq => eq ▸ still

end On

/-! ## The heap -/

section Heap

variable {h h' : Heap} {hash : SQObject → ℕ}

theorem Heap.Grows.tableSet {r : ℕ} {key val : SQObject}
    (done : h.tableSet hash r key val = some h') : h.Grows h' := by
  obtain ⟨t, -, rfl⟩ := Option.map_eq_some_iff.1 done
  exact .of_eq rfl rfl

theorem Heap.Grows.instanceSet {r : ℕ} {key val : SQObject}
    (done : h.instanceSet hash r key val = some h') : h.Grows h' := by
  unfold Heap.instanceSet at done
  simp only at done
  split at done
  · split at done
    · obtain rfl := Option.some.inj done
      exact .of_eq rfl rfl
    · simp at done
  · simp at done

theorem Heap.Grows.setDelegate {r : ℕ} {d : Option ℕ} (done : h.setDelegate r d = some h') :
    h.Grows h' := by
  unfold Heap.setDelegate at done
  split at done
  · obtain rfl := Option.some.inj done
    exact .of_eq rfl rfl
  · split at done
    · obtain rfl := Option.some.inj done
      exact .of_eq rfl rfl
    · simp at done

theorem Heap.Grows.cloneTable (r : ℕ) : h.Grows (h.cloneTable hash r).2 := by
  unfold Heap.cloneTable
  simp only
  have made : h.Grows (h.newTable ((h.tables.read r).clone hash)).2 := .of_eq rfl rfl
  cases set : Heap.setDelegate (h.newTable ((h.tables.read r).clone hash)).2
      (h.newTable ((h.tables.read r).clone hash)).1 (h.delegates r) with
  | none => exact made
  | some h' => exact made.trans (.setDelegate set)

theorem Heap.Grows.memberFunction (base : Option ℕ) (val : SQObject) :
    h.Grows (h.memberFunction base val).2 := by
  unfold Heap.memberFunction
  split <;> exact .of_eq rfl rfl

theorem Heap.Grows.classNewSlot (r : ℕ) (key val : SQObject) (bstatic : Bool) :
    h.Grows (h.classNewSlot hash r key val bstatic).2 := by
  have stored : ∀ c, h.Grows (h.writeClass r c) := fun _ => .of_eq rfl rfl
  have copied : ∀ c, h.Grows ((h.memberFunction (h.classes.read r).base val).2.writeClass r c) :=
    fun _ => (Heap.Grows.memberFunction _ val).trans (.of_eq rfl rfl)
  unfold Heap.classNewSlot
  simp only
  split
  · exact .refl h
  split
  · exact stored _
  split
  · exact .refl h
  split
  · split
    · exact stored _
    · split
      · exact copied _
      · exact copied _
  · exact stored _

end Heap

/-! ## Metamethods -/

namespace SQVM

section Metamethods

variable {env : Env} {G H : Prop} {s₀ s : SQVM} {refs : SQObject → ℕ} {stack : List SQObject}

theorem runMetaMethod_keeps (base : H → s₀.stackbase ≤ stack.length) (closure : SQObject)
    {self : SQObject} {args : List SQObject} (plain : ∀ c, self ≠ .ref .closure c) :
    Keeps (Still env G H s₀ refs stack) (Stopped G s₀ refs)
      (runMetaMethod env closure (self :: args)) := by
  refine Keeps.step fun s ⟨H', less, on⟩ => ?_
  obtain ⟨H'', less', on'⟩ := on.called (s.callMetaMethod_refs env closure (self :: args))
    fun h calm => by
      refine SQVM.callMetaMethod_kept closure self args plain ?_ calm
      rw [(on.same h).stackbase, on.top h]
      exact base (less h)
  exact ⟨H'', fun h => less (less' h), on'⟩

/-- Only tables, userdata and instances have metamethods. -/
theorem plain_of_getMetaMethod {self closure : SQObject} {mm : SQMetaMethod}
    (found : s.getMetaMethod env self mm = some closure) (c : ℕ) : self ≠ .ref .closure c := by
  rintro rfl
  simp [getMetaMethod, delegateOf, Heap.delegateMetaMethod] at found

/-! ## Get -/

/-- The delegates of an object are climbed within `fuel` steps. -/
def Climbs (s : SQVM) (fuel : ℕ) (self : SQObject) : Prop :=
  ∃ n, fuel = n + 1 ∧ ∀ d, s.delegateOf self = some d → Chain.Ends s.heap.delegates n d

theorem climbs (s : SQVM) (self : SQObject) : s.Climbs (s.heap.delegateFuel + 1) self :=
  ⟨_, rfl, fun d _ => s.heap.delegates_end d⟩

theorem Climbs.delegate {fuel d : ℕ} {self : SQObject} (climbs : s.Climbs (fuel + 1) self)
    (found : s.delegateOf self = some d) : s.Climbs fuel (.ref .table d) := by
  obtain ⟨n, eq, ends⟩ := climbs
  obtain rfl : fuel = n := by omega
  have ends := ends d found
  cases fuel with
  | zero => exact ends.elim
  | succ n =>
    refine ⟨n, rfl, fun d' found' => ?_⟩
    have parent : s.heap.delegates d = some d' := found'
    unfold Chain.Ends at ends
    rw [parent] at ends
    exact ends

theorem metaGet_keeps (base : H → s₀.stackbase ≤ stack.length) (self slot : SQObject) :
    Keeps (Still env G H s₀ refs stack) (Stopped G s₀ refs) (metaGet env self slot) := by
  refine Keeps.bind .get fun s => ?_
  split
  · exact .pure _
  · rename_i closure found
    refine Keeps.bind (runMetaMethod_keeps base closure
      (plain_of_getMetaMethod found)) fun result => ?_
    simp only
    split
    · exact .pure _
    · refine Keeps.bind .get fun s => ?_
      split
      · exact .pure _
      · exact .pure _

theorem getRest_keeps (self slot : SQObject) (raising : Bool) :
    Keeps (Still env G H s₀ refs stack) (Stopped G s₀ refs) (getRest env self slot raising) := by
  refine Keeps.bind .get fun s => ?_
  split
  · exact .pure _
  · simp only
    split
    · exact Keeps.bind (.modify fun s on => on.withError _) fun _ => .pure _
    · exact .pure _

theorem getAt_keeps (base : H → s₀.stackbase ≤ stack.length) (fuel : ℕ) (raising : Bool)
    (self slot : SQObject) (on : Still env G H s₀ refs stack s) (climbs : s.Climbs fuel self) :
    Triple (· = s) (getAt env fuel raising self slot) (fun _ => Still env G H s₀ refs stack)
      (Stopped G s₀ refs) := by
  induction fuel generalizing raising self slot with
  | zero => obtain ⟨n, absurd, -⟩ := climbs; omega
  | succ fuel ih =>
    unfold getAt
    refine Triple.get_bind fun _ eq => ?_
    subst eq
    split
    · exact on.run (.pure _)
    · simp only
      split
      · exact on.run (Keeps.bind (.modify fun s on => on.withError _) fun _ => .pure _)
      · exact on.run (.pure _)
    · refine Triple.bind (Q := fun _ => Still env G H s₀ refs stack) ?_ fun r => ?_
      · unfold fallBackGet
        split
        · exact on.run (metaGet_keeps base _ slot)
        · refine Triple.get_bind fun _ eq => ?_
          subst eq
          split
          · exact on.run (.pure _)
          · rename_i d found
            refine Triple.bind (ih false _ slot (climbs.delegate found)) fun r => ?_
            obtain ⟨found, slot⟩ := r
            simp only
            split
            · exact Keeps.pure _
            · exact metaGet_keeps base _ _
      · obtain ⟨fallback, slot⟩ := r
        cases fallback with
        | ok => exact Keeps.pure _
        | error => exact Keeps.pure _
        | noMatch => exact getRest_keeps self slot raising

theorem get_keeps (base : H → s₀.stackbase ≤ stack.length) (self slot : SQObject) :
    Keeps (Still env G H s₀ refs stack) (Stopped G s₀ refs) (get env self slot) := by
  refine Triple.get_bind fun s on => ?_
  exact getAt_keeps base _ true self slot on (s.climbs self)

/-- An array has no fallback for an index. -/
theorem get_array_run (s : SQVM) (r : ℕ) (n : ℤ) :
    (get env (.ref .array r) (.integer n)).run s =
      if 0 ≤ n ∧ n < (s.heap.arrays.read r).length then
        (.ok (true, s.heap.realval ((s.heap.arrays.read r).getD n.toNat .null)), s)
      else (.ok (false, .integer n), s.raiseIdxError env (.integer n)) := by
  unfold get
  rw [Act.run_bind_of_ok (Act.run_get s)]
  unfold getAt
  rw [Act.run_bind_of_ok (Act.run_get s)]
  by_cases inside : 0 ≤ n ∧ n < (s.heap.arrays.read r).length
  · have direct : s.getDirect env (.ref .array r) (.integer n) =
        (some (s.heap.realval ((s.heap.arrays.read r).getD n.toNat .null)), true) := if_pos inside
    rw [direct, if_pos inside]
    rfl
  · have direct : s.getDirect env (.ref .array r) (.integer n) = (none, false) := if_neg inside
    rw [direct, if_neg inside]
    rfl

theorem get_array_keeps (r : ℕ) (n : ℤ) :
    Keeps (On env G H s₀ refs stack) (Stopped G s₀ refs)
      (get env (.ref .array r) (.integer n)) := by
  intro s on
  rw [get_array_run]
  by_cases inside : 0 ≤ n ∧ n < (s.heap.arrays.read r).length
  · rw [if_pos inside]
    exact on
  · rw [if_neg inside]
    exact on.withError _

/-! ## Set -/

theorem metaSet_keeps (base : H → s₀.stackbase ≤ stack.length) (self key val : SQObject) :
    Keeps (Still env G H s₀ refs stack) (Stopped G s₀ refs) (metaSet env self key val) := by
  refine Keeps.bind .get fun s => ?_
  split
  · exact .pure _
  · rename_i closure found
    refine Keeps.bind (runMetaMethod_keeps base closure
      (plain_of_getMetaMethod found)) fun result => ?_
    split
    · exact .pure _
    · refine Keeps.bind .get fun s => ?_
      split
      · exact .pure _
      · exact .pure _

/-- What follows when an object does not hold the key, given how its delegate is set. -/
theorem setRest_keeps (base : H → s₀.stackbase ≤ stack.length)
    (setDelegate : SQObject → SQObject → SQObject → Act SQVM Bool) (self key val : SQObject)
    (on : Still env G H s₀ refs stack s)
    (delegate : ∀ d, s.delegateOf self = some d → Triple (· = s)
      (setDelegate (.ref .table d) key val) (fun _ => Still env G H s₀ refs stack)
      (Stopped G s₀ refs)) :
    Triple (· = s) (setRest env setDelegate self key val) (fun _ => Still env G H s₀ refs stack)
      (Stopped G s₀ refs) := by
  refine Triple.bind (Q := fun _ => Still env G H s₀ refs stack) ?_ fun fallback => ?_
  · unfold fallBackSet
    split
    · refine Triple.get_bind fun _ eq => ?_
      subst eq
      split
      · exact on.run (metaSet_keeps base _ key val)
      · rename_i d found
        refine Triple.bind (delegate d found) fun done => ?_
        split
        · exact Keeps.pure _
        · exact metaSet_keeps base _ key val
    · exact on.run (metaSet_keeps base _ key val)
    · exact on.run (metaSet_keeps base _ key val)
    · exact on.run (.pure _)
  · cases fallback with
    | ok => exact Keeps.pure _
    | error => exact Keeps.pure _
    | noMatch => exact Keeps.bind (.modify fun s on => on.withError _) fun _ => .pure _

theorem setArray_keeps (r : ℕ) (self key val : SQObject) :
    Keeps (On env G H s₀ refs stack) (Stopped G s₀ refs) (setArray env r self key val) := by
  refine Keeps.bind .get fun s => ?_
  split
  · exact Keeps.bind (.modify fun s on => on.withError _) fun _ => .pure _
  · simp only
    split
    · exact Keeps.bind (.modify fun s on => on.withHeap (.of_eq rfl rfl)) fun _ => .pure _
    · exact Keeps.bind (.modify fun s on => on.withError _) fun _ => .pure _

theorem setAtFuel_keeps (base : H → s₀.stackbase ≤ stack.length) (fuel : ℕ)
    (self key val : SQObject) (on : Still env G H s₀ refs stack s) (climbs : s.Climbs fuel self) :
    Triple (· = s) (setAtFuel env fuel self key val) (fun _ => Still env G H s₀ refs stack)
      (Stopped G s₀ refs) := by
  induction fuel generalizing self with
  | zero => obtain ⟨n, absurd, -⟩ := climbs; omega
  | succ fuel ih =>
    have rest := setRest_keeps base (setAtFuel env fuel) self key val on
      fun d found => ih _ (climbs.delegate found)
    have store : ∀ heap, s.heap.Grows heap →
        Triple (· = s) (do Act.modify fun s => { s with heap := heap }; pure true)
          (fun _ => Still env G H s₀ refs stack) (Stopped G s₀ refs) := fun heap grows =>
      Triple.bind (Q := fun _ => Still env G H s₀ refs stack)
        (Triple.modify fun _ eq => eq ▸ on.withHeap grows) fun _ => Keeps.pure _
    unfold setAtFuel
    refine Triple.get_bind fun _ eq => ?_
    subst eq
    split
    · split
      · exact store _ (.tableSet ‹_›)
      · exact rest
    · split
      · exact store _ (.instanceSet ‹_›)
      · exact rest
    · exact on.run (Still.of_on fun _ => setArray_keeps _ _ key val)
    · exact rest
    · exact on.run (Keeps.bind (.modify fun s on => on.withError _) fun _ => .pure _)

theorem set_keeps (base : H → s₀.stackbase ≤ stack.length) (self key val : SQObject) :
    Keeps (Still env G H s₀ refs stack) (Stopped G s₀ refs) (set env self key val) := by
  refine Triple.get_bind fun s on => ?_
  exact setAtFuel_keeps base _ self key val on (s.climbs self)

theorem set_array_run (s : SQVM) (r : ℕ) (n : ℤ) (val : SQObject) :
    (set env (.ref .array r) (.integer n) val).run s =
      if 0 ≤ n ∧ n < (s.heap.arrays.read r).length then
        (.ok true, { s with
          heap := s.heap.writeArray r ((s.heap.arrays.read r).set n.toNat val) })
      else (.ok false, s.raiseIdxError env (.integer n)) := by
  unfold set
  rw [Act.run_bind_of_ok (Act.run_get s)]
  unfold setAtFuel
  rw [Act.run_bind_of_ok (Act.run_get s)]
  simp only [setArray]
  rw [Act.run_bind_of_ok (Act.run_get s)]
  simp only [SQObject.isNumeric, Bool.not_true, Bool.false_eq_true, if_false]
  by_cases inside : 0 ≤ n ∧ n < (s.heap.arrays.read r).length
  · rw [if_pos inside]
    exact congrArg (fun m : Act SQVM Bool => m.run s) (if_pos inside)
  · rw [if_neg inside]
    exact congrArg (fun m : Act SQVM Bool => m.run s) (if_neg inside)

theorem set_array_keeps (r : ℕ) (n : ℤ) (val : SQObject) :
    Keeps (On env G H s₀ refs stack) (Stopped G s₀ refs)
      (set env (.ref .array r) (.integer n) val) := by
  intro s on
  rw [set_array_run]
  by_cases inside : 0 ≤ n ∧ n < (s.heap.arrays.read r).length
  · rw [if_pos inside]
    exact on.withHeap (.of_eq rfl rfl)
  · rw [if_neg inside]
    exact on.withError _

/-! ## New slots, deletion and copies -/

theorem newSlot_keeps (base : H → s₀.stackbase ≤ stack.length) (self key val : SQObject)
    (bstatic : Bool) :
    Keeps (Still env G H s₀ refs stack) (Stopped G s₀ refs) (newSlot env self key val bstatic) := by
  have refuse : ∀ f : SQVM → SQVM, (∀ s, ∃ o, f s = s.withError o) →
      Keeps (Still env G H s₀ refs stack) (Stopped G s₀ refs) (do Act.modify f; pure false) := by
    intro f raises
    refine Keeps.bind (.modify fun s on => ?_) fun _ => .pure _
    obtain ⟨o, eq⟩ := raises s
    exact eq ▸ on.withError o
  unfold newSlot
  split
  · exact refuse _ fun s => ⟨_, rfl⟩
  · refine Triple.get_bind fun s on => ?_
    split
    · split
      · rename_i closure _ found
        exact on.run (Keeps.bind (runMetaMethod_keeps base closure
          (plain_of_getMetaMethod found)) fun _ => .pure _)
      · exact on.run
          (Keeps.bind (.modify fun s on => on.withHeap (.of_eq rfl rfl)) fun _ => .pure _)
    · simp only
      split
      · refine Triple.bind (Q := fun _ => Still env G H s₀ refs stack) ?_ fun _ => Keeps.pure _
        exact Triple.modify fun _ eq => eq ▸ on.withHeap (.classNewSlot _ key val bstatic)
      · split
        · exact on.run (refuse _ fun s => ⟨_, rfl⟩)
        · exact on.run (refuse _ fun s => ⟨_, rfl⟩)
    · split
      · rename_i closure found
        exact on.run (Keeps.bind (runMetaMethod_keeps base closure (by simp))
          fun _ => .pure _)
      · exact on.run (refuse _ fun s => ⟨_, rfl⟩)
    · exact on.run (refuse _ fun s => ⟨_, rfl⟩)

theorem newSlotA_keeps (base : H → s₀.stackbase ≤ stack.length) (r : ℕ) (key val attrs : SQObject)
    (bstatic raw : Bool) :
    Keeps (Still env G H s₀ refs stack) (Stopped G s₀ refs)
      (newSlotA env r key val attrs bstatic raw) := by
  refine Keeps.bind .get fun s => ?_
  simp only
  split
  · exact Keeps.bind (runMetaMethod_keeps base _ (by simp)) fun _ => .pure _
  · refine Keeps.bind (newSlot_keeps base _ key val bstatic) fun done => ?_
    split
    · split
      · exact Keeps.bind (.modify fun s on => on.withHeap (.of_eq rfl rfl)) fun _ => .pure _
      · exact .pure _
    · exact .pure _

theorem deleteSlot_keeps (base : H → s₀.stackbase ≤ stack.length) (r : ℕ) (key : SQObject) :
    Keeps (Still env G H s₀ refs stack) (Stopped G s₀ refs) (deleteSlot env r key) := by
  refine Keeps.bind .get fun s => ?_
  split
  · exact Keeps.bind (runMetaMethod_keeps base _ (by simp)) fun _ => .pure _
  · split
    · exact Keeps.bind (.modify fun s on => on.withHeap (.of_eq rfl rfl)) fun _ => .pure _
    · exact Keeps.bind (.modify fun s on => on.withError _) fun _ => .pure _

theorem metaCloned_on (base : H → s₀.stackbase ≤ stack.length) (newobj self : SQObject) :
    Triple (Still env G H s₀ refs stack) (metaCloned env newobj self)
      (fun r s => (r = some newobj ∨ r = none) ∧ Still env G H s₀ refs stack s)
      (Stopped G s₀ refs) := by
  refine Triple.get_bind fun s on => ?_
  split
  · exact Triple.pure fun _ eq => ⟨.inl rfl, eq ▸ on⟩
  · rename_i closure found
    refine Triple.bind (on.run (runMetaMethod_keeps base closure
      (plain_of_getMetaMethod found))) fun result => Triple.pure fun s on => ?_
    split
    · exact ⟨.inl rfl, on⟩
    · exact ⟨.inr rfl, on⟩

/-- A copy has the type of the original. -/
theorem clone_on (base : H → s₀.stackbase ≤ stack.length) (self : SQObject) :
    Triple (Still env G H s₀ refs stack) (clone env self)
      (fun r s => (∀ o, r = some o → o.type = self.type) ∧ Still env G H s₀ refs stack s)
      (Stopped G s₀ refs) := by
  have finish : ∀ newobj : SQObject, newobj.type = self.type →
      Triple (Still env G H s₀ refs stack) (metaCloned env newobj self)
        (fun r s => (∀ o, r = some o → o.type = self.type) ∧ Still env G H s₀ refs stack s)
        (Stopped G s₀ refs) := by
    intro newobj typed
    refine Triple.post (metaCloned_on base newobj self) ?_
    rintro r s ⟨rfl | rfl, on⟩
    · exact ⟨fun o eq => Option.some.inj eq ▸ typed, on⟩
    · exact ⟨fun o eq => by simp at eq, on⟩
  unfold clone
  split
  · refine Triple.bind (Q := fun o s => (∃ q, o = .ref .table q) ∧ Still env G H s₀ refs stack s)
      (Triple.step fun s on => ⟨⟨_, rfl⟩, on.withHeap (.cloneTable _)⟩) ?_
    rintro newobj s ⟨⟨q, rfl⟩, on⟩
    exact finish (.ref .table q) rfl s on
  · refine Triple.bind (Q := fun o s => (∃ q, o = .ref .inst q) ∧ Still env G H s₀ refs stack s)
      (Triple.step fun s on => ⟨⟨_, rfl⟩, on.withHeap (.of_eq rfl rfl)⟩) ?_
    rintro newobj s ⟨⟨q, rfl⟩, on⟩
    exact finish (.ref .inst q) rfl s on
  · exact Triple.step fun s on =>
      ⟨fun o eq => Option.some.inj eq ▸ rfl, on.withHeap (.of_eq rfl rfl)⟩
  · exact Triple.bind (Q := fun _ => Still env G H s₀ refs stack)
      (Triple.modify fun s on => on.withError _) fun _ =>
        Triple.pure fun s on => ⟨fun o eq => by simp at eq, on⟩

end Metamethods

end SQVM

end Squirrels
