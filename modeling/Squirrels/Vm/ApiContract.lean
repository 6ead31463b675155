import Squirrels.Vm.AccessContract

/-!
# What each C function leaves on the stack

For every `sq_*` function the binding calls, the slots it leaves on each of its exits. The counts
differ from function to function and from exit to exit; these are the facts the hand-written
counts of the binding have to match.
-/

namespace Squirrels

open Machines

/-- Run above the given slots, the program returns `a` with the slots `out a x` for some `x` that
satisfies `Φ a x`, as far as `H` promises it. -/
def Exits (env : Env) (G H : Prop) (s₀ : SQVM) {α X : Type} (stack : List SQObject)
    (m : Act SQVM α) (out : α → X → List SQObject) (Φ : α → X → Prop) : Prop :=
  ∀ refs, Triple (On env G H s₀ refs stack) m
    (fun a s => ∃ x, (H → Φ a x) ∧ On env G H s₀ refs (out a x) s) (Stopped G s₀ refs)

/-- The same of a program that makes calls, which may be stranded. -/
def Leaves (env : Env) (G H : Prop) (s₀ : SQVM) {α X : Type} (stack : List SQObject)
    (m : Act SQVM α) (out : α → X → List SQObject) (Φ : α → X → Prop) : Prop :=
  ∀ refs, Triple (On env G H s₀ refs stack) m
    (fun a s => ∃ x, (H → Φ a x) ∧ Still env G H s₀ refs (out a x) s) (Stopped G s₀ refs)

theorem Exits.leaves {env : Env} {G H : Prop} {s₀ : SQVM} {α X : Type} {stack : List SQObject}
    {m : Act SQVM α} {out : α → X → List SQObject} {Φ : α → X → Prop}
    (exits : Exits env G H s₀ stack m out Φ) : Leaves env G H s₀ stack m out Φ := fun refs =>
  Triple.post (exits refs) fun _ _ ⟨x, fact, on⟩ => ⟨x, fact, on.still⟩

/-! ## The stack -/

theorem SQVM.stackGet_neg (s : SQVM) (n : ℕ) : s.stackGet (-(n + 1 : ℕ)) = s.up n := by
  have index : (- -((n + 1 : ℕ) : ℤ)).toNat - 1 = n := by omega
  rw [SQVM.stackGet, if_neg (by omega), index]

section Stack

variable {env : Env} {G H : Prop} {s₀ s : SQVM} {refs : SQObject → ℕ} {a b c d : SQObject}
  {st : List SQObject}

theorem On.any {stack : List SQObject} (on : On env G H s₀ refs stack s) (broken : ¬ H)
    (stack' : List SQObject) : On env G H s₀ refs stack' s :=
  on.still.any broken stack'

theorem On.pop {stack : List SQObject} (on : On env G H s₀ refs stack s) (n : ℕ) :
    On env G H s₀ refs (stack.drop n) (s.pop n) :=
  on.withStack fun _ eq => by rw [eq]

theorem On.up {stack : List SQObject} (on : On env G H s₀ refs stack s) (h : H) (n : ℕ) :
    s.up n = stack.getD n .null := by
  rw [SQVM.up, on.stack_eq h]

theorem On.get_neg_one (on : On env G H s₀ refs (a :: st) s) (h : H) : s.stackGet (-1) = a :=
  (s.stackGet_neg 0).trans (on.up h 0)

theorem On.get_neg_two (on : On env G H s₀ refs (a :: b :: st) s) (h : H) : s.stackGet (-2) = b :=
  (s.stackGet_neg 1).trans (on.up h 1)

theorem On.get_neg_three (on : On env G H s₀ refs (a :: b :: c :: st) s) (h : H) :
    s.stackGet (-3) = c :=
  (s.stackGet_neg 2).trans (on.up h 2)

end Stack

/-- A new C function. -/
theorem Heap.Grows.newNative (h : Heap) (nc : SQNativeClosure) :
    h.Grows { h with natives := (h.natives.alloc nc).2 } where
  natives_next := Nat.le_succ _
  natives _ lt := Store.read_alloc_of_ne _ _ (Nat.ne_of_lt lt)
  userData_next := le_rfl
  payload _ _ := rfl
  typetag _ _ := rfl

/-- A new userdata. -/
theorem Heap.Grows.newUserData (h : Heap) (u : SQUserData) :
    h.Grows { h with userData := (h.userData.alloc u).2 } where
  natives_next := le_rfl
  natives _ _ := rfl
  userData_next := Nat.le_succ _
  payload _ lt := congrArg (·.payload.map Payload.typeId)
    (Store.read_alloc_of_ne _ _ (Nat.ne_of_lt lt))
  typetag _ lt := congrArg SQUserData.typetag (Store.read_alloc_of_ne _ _ (Nat.ne_of_lt lt))

/-- A userdata keeps its payload and its tag when its delegate changes. -/
theorem Heap.Grows.userDataDelegate (h : Heap) (r : ℕ) (d : Option ℕ) :
    h.Grows { h with
      userData := h.userData.write r { h.userData.read r with delegate := d } } := by
  have kept : ∀ q, ((h.userData.write r { h.userData.read r with delegate := d }).read q).payload =
      (h.userData.read q).payload ∧
      ((h.userData.write r { h.userData.read r with delegate := d }).read q).typetag =
        (h.userData.read q).typetag := by
    intro q
    by_cases same : q = r
    · subst same; simp
    · rw [Store.read_write_of_ne _ _ same]
      exact ⟨rfl, rfl⟩
  exact ⟨le_rfl, fun _ _ => rfl, le_rfl, fun q _ => congrArg (·.map Payload.typeId) (kept q).1,
    fun q _ => (kept q).2⟩

namespace Api

section Basic

variable {env : Env} {G H : Prop} {s₀ : SQVM} {refs : SQObject → ℕ} {stack st : List SQObject}

theorem push_on (fits : H → stack.length < s₀.stackSize) (o : SQObject) :
    Triple (On env G H s₀ refs stack) (push o) (fun _ => On env G H s₀ refs (o :: stack))
      (Stopped G s₀ refs) := by
  refine Triple.modify fun s on => ?_
  refine ⟨on.refs_eq, on.root_eq, on.roottable_eq, on.stranded_le, on.live, fun h => ?_,
    fun h => by simp [SQVM.apiPush, on.stack_eq h]⟩
  have same := on.same h
  have below : decide (s.stackSize ≤ s.top) = false := by
    have fits := fits h
    have larger := same.stackSize
    rw [on.top h]
    simp
    omega
  refine { same with overflowed := fun inBounds => ?_ }
  simp [SQVM.apiPush, below, same.overflowed inBounds]

theorem popN_on (n : ℕ) :
    Triple (On env G H s₀ refs stack) (popN n) (fun _ => On env G H s₀ refs (stack.drop n))
      (Stopped G s₀ refs) :=
  Triple.modify fun _ on => on.pop n

theorem setTop_on (o v : SQObject) :
    Triple (On env G H s₀ refs (o :: st)) (Act.modify fun s => s.setUp 0 v)
      (fun _ => On env G H s₀ refs (v :: st)) (Stopped G s₀ refs) :=
  Triple.modify fun _ on => on.withStack fun _ eq => by rw [eq]; rfl

/-- Push an object that is made in the heap. -/
theorem pushNew_on (fits : H → stack.length < s₀.stackSize) {t : RefType}
    (make : Heap → SQObject × Heap) (grows : ∀ h : Heap, h.Grows (make h).2)
    (typed : ∀ h, ∃ r, (make h).1 = .ref t r) :
    Triple (On env G H s₀ refs stack) (pushNew make)
      (fun _ s => ∃ r, On env G H s₀ refs (.ref t r :: stack) s) (Stopped G s₀ refs) := by
  refine Triple.modify fun s on => ?_
  obtain ⟨r, eq⟩ := typed s.heap
  refine ⟨r, ?_⟩
  rw [eq]
  exact push_on fits (.ref t r) _ (on.withHeap (grows s.heap))

/-- Raising an error fails without touching the stack. -/
theorem fail_on {f : SQVM → SQVM} (raises : ∀ s, ∃ o, f s = s.withError o) :
    Triple (On env G H s₀ refs stack) (fail f)
      (fun r s => r = .error ∧ On env G H s₀ refs stack s) (Stopped G s₀ refs) := by
  refine Triple.bind (Q := fun _ => On env G H s₀ refs stack) (Triple.modify fun s on => ?_)
    fun _ => Triple.pure fun s on => ⟨rfl, on⟩
  obtain ⟨o, eq⟩ := raises s
  exact eq ▸ on.withError o

theorem throwText_on (message : String) :
    Triple (On env G H s₀ refs stack) (throwText message)
      (fun r s => r = .error ∧ On env G H s₀ refs stack s) (Stopped G s₀ refs) :=
  fail_on fun _ => ⟨_, rfl⟩

theorem wrongArgument_on (expected : SQObjectType) (o : SQObject) :
    Triple (On env G H s₀ refs stack) (wrongArgument env expected o)
      (fun r s => r = .error ∧ On env G H s₀ refs stack s) (Stopped G s₀ refs) :=
  fail_on fun _ => ⟨_, rfl⟩

theorem invalidType_on (o : SQObject) :
    Triple (On env G H s₀ refs stack) (invalidType o)
      (fun r s => r = .error ∧ On env G H s₀ refs stack s) (Stopped G s₀ refs) :=
  fail_on fun _ => ⟨_, rfl⟩

/-- The check of the number of parameters fails without touching the stack. -/
theorem paramsCheck_on {count : ℕ} {rest : Act SQVM SQRESULT} {Q : SQRESULT → SQVM → Prop}
    (fits : H → s₀.stackbase + count ≤ stack.length)
    (refused : ¬ H → ∀ s, On env G H s₀ refs stack s → Q .error s)
    (passed : Triple (On env G H s₀ refs stack) rest Q (Stopped G s₀ refs)) :
    Triple (On env G H s₀ refs stack) (paramsCheck count rest) Q (Stopped G s₀ refs) := by
  refine Triple.get_bind fun s on => ?_
  split
  · rename_i short
    have broken : ¬ H := by
      intro h
      have fits := fits h
      rw [SQVM.depth, on.top h, (on.same h).stackbase] at short
      omega
    refine Triple.pre (Triple.post (throwText_on _) ?_) (fun _ eq => eq ▸ on)
    rintro _ s ⟨rfl, on⟩
    exact refused broken s on
  · exact Triple.pre passed fun _ eq => eq ▸ on

end Basic

/-! ## Creating objects -/

section Create

variable {env : Env} {G H : Prop} {s₀ : SQVM} {stack st : List SQObject}

/-- A function that pushes one new object of a given type. -/
theorem pushNew_exits (fits : H → stack.length < s₀.stackSize) {t : RefType}
    (make : Heap → SQObject × Heap) (grows : ∀ h : Heap, h.Grows (make h).2)
    (typed : ∀ h, ∃ r, (make h).1 = .ref t r) :
    Exits env G H s₀ stack (pushNew make) (fun _ r => .ref t r :: stack) (fun _ _ => True) :=
  fun _ => Triple.post (pushNew_on fits make grows typed) fun _ _ ⟨r, on⟩ =>
    ⟨r, fun _ => trivial, on⟩

theorem sqNewtableex_exits (fits : H → stack.length < s₀.stackSize) (initialcapacity : ℤ) :
    Exits env G H s₀ stack (sqNewtableex initialcapacity) (fun _ r => .ref .table r :: stack)
      (fun _ _ => True) :=
  pushNew_exits fits _ (fun _ => .of_eq rfl rfl) fun _ => ⟨_, rfl⟩

theorem sqNewarray_exits (fits : H → stack.length < s₀.stackSize) (size : ℤ) :
    Exits env G H s₀ stack (sqNewarray size) (fun _ r => .ref .array r :: stack)
      (fun _ _ => True) :=
  pushNew_exits fits _ (fun _ => .of_eq rfl rfl) fun _ => ⟨_, rfl⟩

theorem newClass_grows (hash : SQObject → ℕ) (h : Heap) (base : Option ℕ) :
    h.Grows (h.newClass hash base).2 :=
  .of_eq rfl rfl

/-- A class without a base; the base of a derived class is replaced by it. -/
theorem sqNewclass_exits (fits : H → stack.length < s₀.stackSize) :
    Exits env G H s₀ stack (sqNewclass env false) (fun _ r => .ref .cls r :: stack)
      (fun res _ => res = .ok) := by
  intro refs
  refine Triple.get_bind fun s on => ?_
  refine Triple.bind (Triple.pre (pushNew_on fits _ (fun h => newClass_grows env.hash h none)
    fun _ => ⟨_, rfl⟩) fun _ eq => eq ▸ on) fun _ => ?_
  exact Triple.pure fun s ⟨r, on⟩ => ⟨r, fun _ => rfl, on⟩

theorem sqNewclass_base_exits (fits : H → st.length < s₀.stackSize) (b : ℕ) :
    Exits env G H s₀ (.ref .cls b :: st) (sqNewclass env true)
      (fun res r => match res with | .ok => .ref .cls r :: st | .error => .ref .cls b :: st)
      (fun res _ => res = .ok) := by
  intro refs
  refine Triple.get_bind fun s on => ?_
  simp only [if_true]
  split
  · refine Triple.bind (Triple.pre (popN_on 1) fun _ eq => eq ▸ on) fun _ => ?_
    refine Triple.bind (pushNew_on fits _ (fun h => newClass_grows env.hash h (some _))
      fun _ => ⟨_, rfl⟩) fun _ => ?_
    exact Triple.pure fun s ⟨r, on⟩ => ⟨r, fun _ => rfl, on⟩
  · rename_i other
    refine Triple.post (Triple.pre (throwText_on _) fun _ eq => eq ▸ on) ?_
    rintro _ s ⟨rfl, on'⟩
    exact ⟨0, fun h => (other b (on.get_neg_one h)).elim, on'⟩

/-- The free variable is replaced by the closure. -/
theorem sqNewclosure_exits (function : ℕ) (o : SQObject) (fits : H → st.length < s₀.stackSize) :
    Exits env G H s₀ (o :: st) (sqNewclosure function) (fun _ r => .ref .nativeClosure r :: st)
      (fun _ _ => True) := by
  intro refs
  refine Triple.get_bind fun s on => ?_
  refine Triple.bind (Triple.pre (popN_on 1) fun _ eq => eq ▸ on) fun _ => ?_
  refine Triple.post (pushNew_on fits _ (fun h => ?_) fun _ => ⟨_, rfl⟩) fun _ _ ⟨r, on⟩ =>
    ⟨r, fun _ => trivial, on⟩
  exact Heap.Grows.newNative h _

theorem sqCreateinstance_exits (fits : H → st.length + 1 < s₀.stackSize) (r : ℕ) :
    Exits env G H s₀ (.ref .cls r :: st) (sqCreateinstance env (-1))
      (fun res i => match res with
        | .ok => .ref .inst i :: .ref .cls r :: st
        | .error => .ref .cls r :: st)
      (fun res _ => res = .ok) := by
  intro refs
  refine Triple.get_bind fun s on => ?_
  split
  · refine Triple.bind (Triple.pre (pushNew_on fits _ (fun h => h.createInstance_grows _)
      fun _ => ⟨_, rfl⟩) fun _ eq => eq ▸ on) fun _ => ?_
    exact Triple.pure fun s ⟨r, on⟩ => ⟨r, fun _ => rfl, on⟩
  · rename_i other
    refine Triple.post (Triple.pre (wrongArgument_on _ _) fun _ eq => eq ▸ on) ?_
    rintro _ s ⟨rfl, on'⟩
    exact ⟨0, fun h => (other r (on.get_neg_one h)).elim, on'⟩

/-- The copy is pushed above the original; a failed copy leaves the original. -/
theorem sqClone_leaves (self : SQObject) (base : H → s₀.stackbase ≤ st.length)
    (fits : H → st.length + 1 < s₀.stackSize) :
    Leaves env G H s₀ (self :: st) (sqClone env (-1))
      (fun res o => match res with | .ok => o :: self :: st | .error => self :: st)
      (fun _ o => o.type = self.type) := by
  intro refs
  refine Triple.get_bind fun s on => ?_
  refine Triple.bind (Triple.pre (push_on fits .null) fun _ eq => eq ▸ on) fun _ => ?_
  have base' : H → s₀.stackbase ≤ (SQObject.null :: self :: st).length := fun h =>
    (base h).trans (by simp only [List.length_cons]; omega)
  refine Triple.bind (Triple.pre (SQVM.clone_on base' _) fun _ on => on.still) fun r =>
    Triple.of_pre fun typed => Still.pre fun H' less => ?_
  cases r with
  | none =>
    refine Triple.bind (popN_on 1) fun _ => Triple.pure fun s on' => ?_
    exact ⟨self, fun _ => rfl, H', less, on'⟩
  | some newobj =>
    refine Triple.bind (setTop_on .null newobj) fun _ => Triple.pure fun s on' => ?_
    exact ⟨newobj, fun h => (typed newobj rfl).trans (by rw [on.get_neg_one h]), H', less, on'⟩

/-- A copy of an array runs no metamethod. -/
theorem sqClone_array_exits (r : ℕ) (fits : H → st.length + 1 < s₀.stackSize) :
    Exits env G H s₀ (.ref .array r :: st) (sqClone env (-1))
      (fun res o => match res with
        | .ok => o :: .ref .array r :: st
        | .error => .ref .array r :: st)
      (fun res o => res = .ok ∧ ∃ q, o = .ref .array q) := by
  intro refs
  by_cases h : H
  · refine Triple.get_bind fun s on => ?_
    rw [on.get_neg_one h]
    refine Triple.bind (Triple.pre (push_on fits .null) fun _ eq => eq ▸ on) fun _ => ?_
    refine Triple.bind (Q := fun o s => (∃ q, o = some (.ref .array q)) ∧
      On env G H s₀ refs (.null :: .ref .array r :: st) s) ?_ fun o => Triple.of_pre fun copy => ?_
    · exact Triple.step fun s on => ⟨⟨_, rfl⟩, on.withHeap (.of_eq rfl rfl)⟩
    · obtain ⟨q, rfl⟩ := copy
      exact Triple.bind (setTop_on .null (.ref .array q)) fun _ => Triple.pure fun s on =>
        ⟨.ref .array q, fun _ => ⟨rfl, q, rfl⟩, on⟩
  · exact Triple.post (sqClone_leaves (.ref .array r) (fun h' => (h h').elim) fits refs)
      fun _ _ ⟨o, _, still⟩ => ⟨o, fun h' => (h h').elim, still.any h _⟩

end Create

/-! ## Moving the top -/

section Top

variable {env : Env} {G H : Prop} {s₀ : SQVM} {refs : SQObject → ℕ} {stack st : List SQObject}

theorem sqPop_on (n : ℕ) (fits : H → n ≤ stack.length) :
    Triple (On env G H s₀ refs stack) (sqPop n) (fun _ => On env G H s₀ refs (stack.drop n))
      (Stopped G s₀ refs) := by
  refine Triple.get_bind fun s on => ?_
  split
  · rename_i short
    refine Triple.stop fun _ eq => ⟨eq ▸ on.broken fun h => ?_, by simp [overRelease], by simp,
      eq ▸ on.refs_eq, eq ▸ on.root_eq⟩
    have fits := fits h
    rw [on.top h] at short
    omega
  · exact Triple.pre (popN_on n) fun _ eq => eq ▸ on

theorem pushNulls_on (broken : ¬ H) (n : ℕ) :
    Triple (On env G H s₀ refs stack) (pushNulls n) (fun _ => On env G H s₀ refs stack)
      (Stopped G s₀ refs) := by
  induction n with
  | zero => exact Keeps.pure ()
  | succ n ih =>
    exact Triple.bind (push_on (fun h => (broken h).elim) .null) fun _ =>
      Triple.pre ih fun _ on => on.any broken _

/-- Setting the top to where it was removes what is above. -/
theorem sqSettop_on (above : List SQObject) {newtop : ℤ}
    (former : H → s₀.stackbase + newtop = st.length) :
    Triple (On env G H s₀ refs (above ++ st)) (sqSettop newtop)
      (fun _ => On env G H s₀ refs st) (Stopped G s₀ refs) := by
  refine Triple.get_bind fun s on => ?_
  change Triple (· = s) (if newtop < (s.top : ℤ) - s.stackbase
    then sqPop ((s.top : ℤ) - s.stackbase - newtop).toNat
    else pushNulls (newtop - ((s.top : ℤ) - s.stackbase)).toNat) _ _
  by_cases h : H
  · have former := former h
    have top : s.top = above.length + st.length := by rw [on.top h, List.length_append]
    have base := (on.same h).stackbase
    split
    · have count : ((s.top : ℤ) - s.stackbase - newtop).toNat = above.length := by omega
      rw [count]
      refine Triple.post (Triple.pre (sqPop_on above.length fun _ => by simp) fun _ eq => eq ▸ on)
        fun _ s on => ?_
      rwa [List.drop_left] at on
    · have none : above = [] := List.eq_nil_of_length_eq_zero (by omega)
      subst none
      have zero : (newtop - ((s.top : ℤ) - s.stackbase)).toNat = 0 := by omega
      rw [zero]
      exact Triple.pure fun _ eq => eq ▸ on
  · split
    · exact Triple.post (Triple.pre (sqPop_on _ fun h' => (h h').elim) fun _ eq => eq ▸ on)
        fun _ s on => on.any h st
    · exact Triple.post (Triple.pre (pushNulls_on h _) fun _ eq => eq ▸ on)
        fun _ s on => on.any h st

end Top

/-! ## Slots -/

section Slots

variable {env : Env} {G H : Prop} {s₀ : SQVM} {st : List SQObject}

/-- The key is replaced by the value, or removed. -/
theorem sqGet_leaves (idx : ℤ) (key : SQObject) (base : H → s₀.stackbase ≤ st.length + 1) :
    Leaves env G H s₀ (key :: st) (sqGet env idx)
      (fun res v => match res with | .ok => v :: st | .error => st) (fun _ _ => True) := by
  intro refs
  refine Triple.get_bind fun s on => ?_
  refine Triple.bind (on.still.run (SQVM.get_keeps base _ _)) fun r => ?_
  obtain ⟨found, slot⟩ := r
  refine Still.pre fun H' less => ?_
  simp only
  split
  · exact Triple.bind (setTop_on key slot) fun _ => Triple.pure fun s on =>
      ⟨slot, fun _ => trivial, H', less, on⟩
  · exact Triple.bind (popN_on 1) fun _ => Triple.pure fun s on =>
      ⟨.null, fun _ => trivial, H', less, on⟩

/-- An array runs no metamethod. -/
theorem sqGet_array_exits {key : SQObject} (n : ℤ) (r : ℕ) (index : H → key = .integer n) :
    Exits env G H s₀ (key :: .ref .array r :: st) (sqGet env (-2))
      (fun res v => match res with
        | .ok => v :: .ref .array r :: st
        | .error => .ref .array r :: st)
      (fun _ _ => True) := by
  intro refs
  by_cases h : H
  · refine Triple.get_bind fun s on => ?_
    rw [on.get_neg_two h, on.up h, index h]
    refine Triple.bind (on.run (SQVM.get_array_keeps r n)) fun found => ?_
    obtain ⟨found, slot⟩ := found
    simp only
    split
    · exact Triple.bind (setTop_on key slot) fun _ => Triple.pure fun s on =>
        ⟨slot, fun _ => trivial, on⟩
    · exact Triple.bind (popN_on 1) fun _ => Triple.pure fun s on =>
        ⟨.null, fun _ => trivial, on⟩
  · exact Triple.post (sqGet_leaves (-2) key (fun h' => (h h').elim) refs)
      fun _ _ ⟨v, _, still⟩ => ⟨v, fun _ => trivial, still.any h _⟩

/-- The key and the value are removed, or both stay. -/
theorem sqSet_leaves (idx : ℤ) (val key : SQObject) (base : H → s₀.stackbase ≤ st.length + 2) :
    Leaves env G H s₀ (val :: key :: st) (sqSet env idx)
      (fun res (_ : Unit) => match res with | .ok => st | .error => val :: key :: st)
      (fun _ _ => True) := by
  intro refs
  refine Triple.get_bind fun s on => ?_
  refine Triple.bind (on.still.run (SQVM.set_keeps base _ _ _)) fun done =>
    Still.pre fun H' less => ?_
  split
  · exact Triple.bind (popN_on 2) fun _ => Triple.pure fun s on =>
      ⟨(), fun _ => trivial, H', less, on⟩
  · exact Triple.pure fun s on => ⟨(), fun _ => trivial, H', less, on⟩

theorem sqSet_array_exits (val : SQObject) {key : SQObject} (n : ℤ) (r : ℕ)
    (index : H → key = .integer n) :
    Exits env G H s₀ (val :: key :: .ref .array r :: st) (sqSet env (-3))
      (fun res (_ : Unit) => match res with
        | .ok => .ref .array r :: st
        | .error => val :: key :: .ref .array r :: st)
      (fun _ _ => True) := by
  intro refs
  by_cases h : H
  · refine Triple.get_bind fun s on => ?_
    obtain rfl := index h
    rw [on.get_neg_three h, on.up h, on.up h]
    refine Triple.bind (on.run (SQVM.set_array_keeps r n val)) fun done => ?_
    split
    · exact Triple.bind (popN_on 2) fun _ => Triple.pure fun s on => ⟨(), fun _ => trivial, on⟩
    · exact Triple.pure fun s on => ⟨(), fun _ => trivial, on⟩
  · exact Triple.post (sqSet_leaves (-3) val key (fun h' => (h h').elim) refs)
      fun _ _ ⟨_, _, still⟩ => ⟨(), fun _ => trivial, still.any h _⟩

/-- On a table or a class the key and the value are removed, or all three slots stay. -/
theorem sqNewslot_leaves (bstatic : Bool) (val key self : SQObject)
    (typed : self.type = .ref .table ∨ self.type = .ref .cls)
    (base : H → s₀.stackbase ≤ st.length) :
    Leaves env G H s₀ (val :: key :: self :: st) (sqNewslot env (-3) bstatic)
      (fun res (_ : Unit) => match res with
        | .ok => self :: st
        | .error => val :: key :: self :: st)
      (fun _ _ => True) := by
  intro refs
  refine paramsCheck_on (fun h => by have := base h; simp; omega)
    (fun _ s on => ⟨(), fun _ => trivial, on.still⟩) ?_
  refine Triple.get_bind fun s on => ?_
  simp only
  split
  · split
    · refine Triple.post (Triple.pre (throwText_on _) fun _ eq => eq ▸ on) ?_
      rintro _ s ⟨rfl, on⟩
      exact ⟨(), fun _ => trivial, on.still⟩
    · have base' : H → s₀.stackbase ≤ (val :: key :: self :: st).length := fun h =>
        (base h).trans (by simp only [List.length_cons]; omega)
      refine Triple.bind (on.still.run (SQVM.newSlot_keeps base' _ _ _ bstatic)) fun _ =>
        Still.pre fun H' less => ?_
      exact Triple.bind (popN_on 2) fun _ => Triple.pure fun s on =>
        ⟨(), fun _ => trivial, H', less, on⟩
  · rename_i other
    refine Triple.pure fun _ eq => ⟨(), fun _ => trivial, ?_⟩
    have broken : ¬ H := fun h => other (by rw [on.get_neg_three h]; exact typed)
    exact eq ▸ (on.any broken _).still

/-- The key is replaced by what was removed. On failure the key is removed or not. -/
theorem sqDeleteslot_leaves (idx : ℤ) (key self : SQObject)
    (base : H → s₀.stackbase ≤ st.length) :
    Leaves env G H s₀ (key :: self :: st) (sqDeleteslot env idx)
      (fun res (x : SQObject × List SQObject) => match res with
        | .ok => x.1 :: self :: st
        | .error => x.2 ++ st)
      (fun _ _ => True) := by
  intro refs
  have refused : ∀ s, On env G H s₀ refs (key :: self :: st) s →
      ∃ x : SQObject × List SQObject, (H → True) ∧ Still env G H s₀ refs (x.2 ++ st) s :=
    fun s on => ⟨(.null, [key, self]), fun _ => trivial, on.still⟩
  refine paramsCheck_on (fun h => by have := base h; simp; omega) (fun _ s on => refused s on) ?_
  refine Triple.get_bind fun s on => ?_
  split
  · simp only
    split
    · refine Triple.post (Triple.pre (throwText_on _) fun _ eq => eq ▸ on) ?_
      rintro _ s ⟨rfl, on⟩
      exact refused s on
    · have base' : H → s₀.stackbase ≤ (key :: self :: st).length := fun h =>
        (base h).trans (by simp only [List.length_cons]; omega)
      refine Triple.bind (on.still.run (SQVM.deleteSlot_keeps base' _ _)) fun r =>
        Still.pre fun H' less => ?_
      cases r with
      | some res =>
        exact Triple.bind (setTop_on key res) fun _ => Triple.pure fun s on =>
          ⟨(res, []), fun _ => trivial, H', less, on⟩
      | none =>
        exact Triple.bind (popN_on 1) fun _ => Triple.pure fun s on =>
          ⟨(.null, [self]), fun _ => trivial, H', less, on⟩
  · refine Triple.post (Triple.pre (wrongArgument_on _ _) fun _ eq => eq ▸ on) ?_
    rintro _ s ⟨rfl, on⟩
    exact refused s on

theorem sqRawdeleteslot_exits (key : SQObject) (r : ℕ) (base : H → s₀.stackbase ≤ st.length) :
    Exits env G H s₀ (key :: .ref .table r :: st) (sqRawdeleteslot env (-2))
      (fun _ v => v :: .ref .table r :: st) (fun res _ => res = .ok) := by
  intro refs
  refine paramsCheck_on (fun h => by have := base h; simp; omega)
    (fun broken s on => ⟨key, fun h => (broken h).elim, on⟩) ?_
  refine Triple.get_bind fun s on => ?_
  split
  · simp only
    split
    · rename_i v _
      refine Triple.bind (Triple.modify fun _ eq => ?_) fun _ => Triple.pure fun s on =>
        ⟨v, fun _ => rfl, on⟩
      subst eq
      exact setTop_on key v _ (on.withHeap (.of_eq rfl rfl))
    · refine Triple.bind (Triple.pre (setTop_on key .null) fun _ eq => eq ▸ on) fun _ =>
        Triple.pure fun s on => ⟨.null, fun _ => rfl, on⟩
  · rename_i other
    refine Triple.post (Triple.pre (wrongArgument_on _ _) fun _ eq => eq ▸ on) ?_
    rintro _ s ⟨rfl, on'⟩
    exact ⟨key, fun h => (other r (on.get_neg_two h)).elim, on'⟩

/-- The key is replaced by the value, or removed. -/
theorem sqRawget_exits (idx : ℤ) (key : SQObject) :
    Exits env G H s₀ (key :: st) (sqRawget env idx)
      (fun res v => match res with | .ok => v :: st | .error => st) (fun _ _ => True) := by
  intro refs
  refine Triple.get_bind fun s on => ?_
  have missed : ∀ message, Triple (· = s) (do popN 1; throwText message)
      (fun res s => ∃ v, (H → True) ∧
        On env G H s₀ refs (match res with | .ok => v :: st | .error => st) s)
      (Stopped G s₀ refs) := by
    intro message
    refine Triple.bind (Triple.pre (popN_on 1) fun _ eq => eq ▸ on) fun _ => ?_
    refine Triple.post (throwText_on message) ?_
    rintro _ s ⟨rfl, on⟩
    exact ⟨.null, fun _ => trivial, on⟩
  have found : ∀ v, Triple (· = s) (do Act.modify fun s => s.setUp 0 v; pure SQRESULT.ok)
      (fun res s => ∃ v, (H → True) ∧
        On env G H s₀ refs (match res with | .ok => v :: st | .error => st) s)
      (Stopped G s₀ refs) := by
    intro v
    exact Triple.bind (Triple.pre (setTop_on key v) fun _ eq => eq ▸ on) fun _ =>
      Triple.pure fun s on => ⟨v, fun _ => trivial, on⟩
  simp only
  split
  · split
    · exact found _
    · exact missed _
  · split
    · exact found _
    · exact missed _
  · split
    · exact found _
    · exact missed _
  · split
    · split
      · exact found _
      · exact missed _
    · exact missed _
  · exact missed _

/-- The key and the value are removed on success. On failure they are removed too, unless the
object is an instance or an array. -/
theorem sqRawset_exits (val key self : SQObject) :
    Exits env G H s₀ (val :: key :: self :: st) (sqRawset env (-3))
      (fun res (left : Bool) => match res with
        | .ok => self :: st
        | .error => if left then val :: key :: self :: st else self :: st)
      (fun _ left => self.type = .ref .table ∨ self.type = .ref .cls → left = false) := by
  intro refs
  refine Triple.get_bind fun s on => ?_
  simp only
  split
  · refine Triple.bind (Triple.pre (popN_on 2) fun _ eq => eq ▸ on) fun _ => ?_
    refine Triple.post (throwText_on _) ?_
    rintro _ s ⟨rfl, on⟩
    exact ⟨false, fun _ _ => rfl, on⟩
  · split
    · refine Triple.bind (Triple.modify fun _ eq => ?_) fun _ => Triple.pure fun s on =>
        ⟨false, fun _ _ => rfl, on⟩
      subst eq
      refine On.pop (On.withHeap on ?_) 2
      exact .of_eq rfl rfl
    · refine Triple.bind (Triple.modify fun _ eq => ?_) fun _ => Triple.pure fun s on =>
        ⟨false, fun _ _ => rfl, on⟩
      subst eq
      exact On.pop (On.withHeap on (.classNewSlot _ _ _ _)) 2
    · rename_i r instance_
      split
      · refine Triple.bind (Triple.modify fun _ eq => ?_) fun _ => Triple.pure fun s on =>
          ⟨false, fun _ _ => rfl, on⟩
        subst eq
        exact On.pop (On.withHeap on (.instanceSet ‹_›)) 2
      · refine Triple.post (Triple.pre (fail_on fun _ => ⟨_, rfl⟩) fun _ eq => eq ▸ on) ?_
        rintro _ s ⟨rfl, on'⟩
        refine ⟨true, fun h typed => ?_, on'⟩
        rw [← on.get_neg_three h, instance_] at typed
        simp [SQObject.type] at typed
    · rename_i r array_
      refine Triple.bind (on.run (SQVM.setArray_keeps r _ _ _)) fun done => ?_
      split
      · exact Triple.bind (popN_on 2) fun _ => Triple.pure fun s on =>
          ⟨false, fun _ _ => rfl, on⟩
      · refine Triple.post (fail_on fun _ => ⟨_, rfl⟩) ?_
        rintro _ s ⟨rfl, on'⟩
        refine ⟨true, fun h typed => ?_, on'⟩
        rw [← on.get_neg_three h, array_] at typed
        simp [SQObject.type] at typed
    · refine Triple.bind (Triple.pre (popN_on 2) fun _ eq => eq ▸ on) fun _ => ?_
      refine Triple.post (throwText_on _) ?_
      rintro _ s ⟨rfl, on⟩
      exact ⟨false, fun _ _ => rfl, on⟩

theorem sqClear_exits (self : SQObject)
    (typed : self.type = .ref .table ∨ self.type = .ref .array) :
    Exits env G H s₀ (self :: st) (sqClear env (-1)) (fun _ (_ : Unit) => self :: st)
      (fun res _ => res = .ok) := by
  intro refs
  refine Triple.get_bind fun s on => ?_
  split
  · exact Triple.bind (Triple.modify fun _ eq => eq ▸ on.withHeap (.of_eq rfl rfl)) fun _ =>
      Triple.pure fun s on => ⟨(), fun _ => rfl, on⟩
  · exact Triple.bind (Triple.modify fun _ eq => eq ▸ on.withHeap (.of_eq rfl rfl)) fun _ =>
      Triple.pure fun s on => ⟨(), fun _ => rfl, on⟩
  · rename_i noTable noArray
    refine Triple.post (Triple.pre (throwText_on _) fun _ eq => eq ▸ on) ?_
    rintro _ s ⟨rfl, on'⟩
    refine ⟨(), fun h => ?_, on'⟩
    rw [on.get_neg_one h] at noTable noArray
    cases self <;> simp_all [SQObject.type]

/-- Reading a size leaves everything as it was, and does not fail on a container. -/
theorem sqGetsize_exits {stack : List SQObject} (idx : ℤ) :
    Exits env G H s₀ stack (sqGetsize idx) (fun _ (_ : Unit) => stack) (fun _ _ => True) := by
  intro refs
  refine Triple.get_bind fun s on => ?_
  split
  all_goals first
    | exact Triple.pure fun _ eq => ⟨(), fun _ => trivial, eq ▸ on⟩
    | exact Triple.bind (Triple.pre (invalidType_on _) fun _ eq => eq ▸ on) fun _ =>
        Triple.pure fun s on => ⟨(), fun _ => trivial, on.2⟩

end Slots

/-! ## Delegates -/

section Delegates

variable {env : Env} {G H : Prop} {s₀ : SQVM} {st : List SQObject}

/-- The delegate is removed on success and stays on failure. -/
theorem sqSetdelegate_exits (idx : ℤ) (mt : SQObject) :
    Exits env G H s₀ (mt :: st) (sqSetdelegate idx)
      (fun res (_ : Unit) => match res with | .ok => st | .error => mt :: st)
      (fun _ _ => True) := by
  intro refs
  refine Triple.get_bind fun s on => ?_
  have stored : ∀ f : SQVM → Heap, s.heap.Grows (f s) →
      Triple (· = s) (do Act.modify fun s => { s with heap := f s }.pop 1; pure SQRESULT.ok)
        (fun res s => ∃ _ : Unit, (H → True) ∧
          On env G H s₀ refs (match res with | .ok => st | .error => mt :: st) s)
        (Stopped G s₀ refs) := by
    intro f grows
    refine Triple.bind (Triple.modify fun _ eq => ?_) fun _ => Triple.pure fun s on =>
      ⟨(), fun _ => trivial, on⟩
    subst eq
    exact On.pop (On.withHeap on grows) 1
  have refused : ∀ m : Act SQVM SQRESULT, (∀ refs stack, Triple (On env G H s₀ refs stack) m
        (fun r s => r = .error ∧ On env G H s₀ refs stack s) (Stopped G s₀ refs)) →
      Triple (· = s) m
        (fun res s => ∃ _ : Unit, (H → True) ∧
          On env G H s₀ refs (match res with | .ok => st | .error => mt :: st) s)
        (Stopped G s₀ refs) := by
    intro m fails
    refine Triple.post (Triple.pre (fails refs (mt :: st)) fun _ eq => eq ▸ on) ?_
    rintro _ s ⟨rfl, on⟩
    exact ⟨(), fun _ => trivial, on⟩
  simp only
  split
  · split
    · exact stored _ (.setDelegate ‹_›)
    · exact refused _ fun _ _ => throwText_on _
  · rename_i r _ _
    refine stored (fun s => (s.heap.setDelegate r none).getD s.heap) ?_
    cases set : s.heap.setDelegate r none with
    | none => exact .refl _
    | some h => exact .setDelegate set
  · exact stored (fun s => { s.heap with userData := _ }) (.userDataDelegate _ _ _)
  · exact stored (fun s => { s.heap with userData := _ }) (.userDataDelegate _ _ _)
  · exact refused _ fun _ _ => invalidType_on _

/-- The delegate of a table, or null, is pushed. -/
theorem sqGetdelegate_exits (fits : H → st.length + 1 < s₀.stackSize) (r : ℕ) :
    Exits env G H s₀ (.ref .table r :: st) (sqGetdelegate (-1))
      (fun res o => match res with
        | .ok => o :: .ref .table r :: st
        | .error => .ref .table r :: st)
      (fun res o => res = .ok ∧ (o = .null ∨ ∃ d, o = .ref .table d)) := by
  intro refs
  refine Triple.get_bind fun s on => ?_
  simp only
  split
  · split
    · exact Triple.bind (Triple.pre (push_on fits .null) fun _ eq => eq ▸ on) fun _ =>
        Triple.pure fun s on => ⟨_, fun _ => ⟨rfl, .inl rfl⟩, on⟩
    · rename_i d _
      exact Triple.bind (Triple.pre (push_on fits (.ref .table d)) fun _ eq => eq ▸ on) fun _ =>
        Triple.pure fun s on => ⟨_, fun _ => ⟨rfl, .inr ⟨d, rfl⟩⟩, on⟩
  · rename_i other
    refine Triple.post (Triple.pre (throwText_on _) fun _ eq => eq ▸ on) ?_
    rintro _ s ⟨rfl, on'⟩
    refine ⟨.null, fun h => (other ?_).elim, on'⟩
    rw [on.get_neg_one h]
    exact .inl rfl

end Delegates

/-! ## Arrays -/

section Arrays

variable {env : Env} {G H : Prop} {s₀ : SQVM} {refs : SQObject → ℕ} {stack st : List SQObject}

/-- The type and parameter checks of the array functions fail without touching the stack; on an
array they pass. -/
theorem withArray_on {count : ℕ} {idx : ℤ} {f : ℕ → List SQObject → Act SQVM SQRESULT}
    {Q : SQRESULT → SQVM → Prop} {r : ℕ} (fits : H → s₀.stackbase + count ≤ stack.length)
    (found : ∀ s, H → On env G H s₀ refs stack s → s.stackGet idx = .ref .array r)
    (refused : ¬ H → ∀ s, On env G H s₀ refs stack s → Q .error s)
    (passed : ∀ q values, Triple (On env G H s₀ refs stack) (f q values) Q (Stopped G s₀ refs)) :
    Triple (On env G H s₀ refs stack) (withArray env count idx f) Q (Stopped G s₀ refs) := by
  refine paramsCheck_on fits refused (Triple.get_bind fun s on => ?_)
  split
  · exact Triple.pre (passed _ _) fun _ eq => eq ▸ on
  · rename_i other
    refine Triple.post (Triple.pre (wrongArgument_on _ _) fun _ eq => eq ▸ on) ?_
    rintro _ s' ⟨rfl, on'⟩
    exact refused (fun h => other r (found s h on)) s' on'

theorem putArray_on (r : ℕ) (values : List SQObject) :
    Triple (On env G H s₀ refs stack) (putArray r values) (fun _ => On env G H s₀ refs stack)
      (Stopped G s₀ refs) :=
  Triple.modify fun _ on => on.withHeap (.of_eq rfl rfl)

theorem sqArrayappend_exits (val : SQObject) (r : ℕ) (base : H → s₀.stackbase ≤ st.length) :
    Exits env G H s₀ (val :: .ref .array r :: st) (sqArrayappend env (-2))
      (fun _ (_ : Unit) => .ref .array r :: st) (fun res _ => res = .ok) := by
  intro refs
  refine withArray_on (fun h => by have := base h; simp; omega) (fun s h on => on.get_neg_two h)
    (fun broken s on => ⟨(), fun h => (broken h).elim, on.any broken _⟩) fun q values => ?_
  refine Triple.get_bind fun s on => ?_
  refine Triple.bind (Triple.pre (putArray_on _ _) fun _ eq => eq ▸ on) fun _ => ?_
  exact Triple.bind (popN_on 1) fun _ => Triple.pure fun s on => ⟨(), fun _ => rfl, on⟩

theorem sqArraypop_exits (r : ℕ) (base : H → s₀.stackbase ≤ st.length)
    (fits : H → st.length + 1 < s₀.stackSize) :
    Exits env G H s₀ (.ref .array r :: st) (sqArraypop env (-1))
      (fun res v => match res with
        | .ok => v :: .ref .array r :: st
        | .error => .ref .array r :: st)
      (fun _ _ => True) := by
  intro refs
  refine withArray_on (fun h => by have := base h; simp; omega) (fun s h on => on.get_neg_one h)
    (fun _ s on => ⟨.null, fun _ => trivial, on⟩) fun q values => ?_
  simp only
  split
  · refine Triple.bind (push_on fits _) fun _ => ?_
    exact Triple.bind (putArray_on _ _) fun _ => Triple.pure fun s on => ⟨_, fun _ => trivial, on⟩
  · refine Triple.post (throwText_on _) ?_
    rintro _ s ⟨rfl, on⟩
    exact ⟨.null, fun _ => trivial, on⟩

theorem sqArrayresize_exits (r : ℕ) (newsize : ℤ) (base : H → s₀.stackbase ≤ st.length) :
    Exits env G H s₀ (.ref .array r :: st) (sqArrayresize env (-1) newsize)
      (fun _ (_ : Unit) => .ref .array r :: st) (fun _ _ => True) := by
  intro refs
  refine withArray_on (fun h => by have := base h; simp; omega) (fun s h on => on.get_neg_one h)
    (fun _ s on => ⟨(), fun _ => trivial, on⟩) fun q values => ?_
  simp only
  split
  · exact Triple.bind (putArray_on _ _) fun _ => Triple.pure fun s on => ⟨(), fun _ => trivial, on⟩
  · refine Triple.post (throwText_on _) ?_
    rintro _ s ⟨rfl, on⟩
    exact ⟨(), fun _ => trivial, on⟩

theorem sqArrayreverse_exits (r : ℕ) (base : H → s₀.stackbase ≤ st.length) :
    Exits env G H s₀ (.ref .array r :: st) (sqArrayreverse env (-1))
      (fun _ (_ : Unit) => .ref .array r :: st) (fun res _ => res = .ok) := by
  intro refs
  refine withArray_on (fun h => by have := base h; simp; omega) (fun s h on => on.get_neg_one h)
    (fun broken s on => ⟨(), fun h => (broken h).elim, on⟩) fun q values => ?_
  exact Triple.bind (putArray_on _ _) fun _ => Triple.pure fun s on => ⟨(), fun _ => rfl, on⟩

theorem sqArrayremove_exits (r : ℕ) (itemidx : ℤ) (base : H → s₀.stackbase ≤ st.length) :
    Exits env G H s₀ (.ref .array r :: st) (sqArrayremove env (-1) itemidx)
      (fun _ (_ : Unit) => .ref .array r :: st) (fun _ _ => True) := by
  intro refs
  refine withArray_on (fun h => by have := base h; simp; omega) (fun s h on => on.get_neg_one h)
    (fun _ s on => ⟨(), fun _ => trivial, on⟩) fun q values => ?_
  simp only
  split
  · refine Triple.post (throwText_on _) ?_
    rintro _ s ⟨rfl, on⟩
    exact ⟨(), fun _ => trivial, on⟩
  · exact Triple.bind (putArray_on _ _) fun _ => Triple.pure fun s on => ⟨(), fun _ => trivial, on⟩

/-- The value is removed on both exits. -/
theorem sqArrayinsert_exits (val : SQObject) (r : ℕ) (destpos : ℤ)
    (base : H → s₀.stackbase ≤ st.length) :
    Exits env G H s₀ (val :: .ref .array r :: st) (sqArrayinsert env (-2) destpos)
      (fun _ (_ : Unit) => .ref .array r :: st) (fun _ _ => True) := by
  intro refs
  refine withArray_on (fun h => by have := base h; simp; omega) (fun s h on => on.get_neg_two h)
    (fun broken s on => ⟨(), fun _ => trivial, on.any broken _⟩) fun q values => ?_
  refine Triple.get_bind fun s on => ?_
  split
  · refine Triple.bind (Triple.pre (throwText_on _) fun _ eq => eq ▸ on) fun ret => ?_
    refine Triple.of_pre fun _ => ?_
    exact Triple.bind (popN_on 1) fun _ => Triple.pure fun s on => ⟨(), fun _ => trivial, on⟩
  · refine Triple.bind (Triple.pre (putArray_on _ _) fun _ eq => eq ▸ on) fun _ => ?_
    exact Triple.bind (popN_on 1) fun _ => Triple.pure fun s on => ⟨(), fun _ => trivial, on⟩

end Arrays

/-! ## Classes -/

section Classes

variable {env : Env} {G H : Prop} {s₀ : SQVM} {stack st : List SQObject}

/-- The member's key, value and attributes are removed, unless the key is null. -/
theorem newMember_leaves (bstatic raw : Bool) (attrs val key : SQObject) (r : ℕ)
    (base : H → s₀.stackbase ≤ st.length + 4) :
    Leaves env G H s₀ (attrs :: val :: key :: .ref .cls r :: st) (newMember env (-4) bstatic raw)
      (fun res above => match res with
        | .ok => .ref .cls r :: st
        | .error => above ++ st)
      (fun _ _ => True) := by
  intro refs
  refine Triple.get_bind fun s on => ?_
  have refused : ∀ message, Triple (· = s) (throwText message)
      (fun res s => ∃ above, (H → True) ∧
        Still env G H s₀ refs (match res with | .ok => .ref .cls r :: st | .error => above ++ st) s)
      (Stopped G s₀ refs) := by
    intro message
    refine Triple.post (Triple.pre (throwText_on _) fun _ eq => eq ▸ on) ?_
    rintro _ s ⟨rfl, on⟩
    exact ⟨[attrs, val, key, .ref .cls r], fun _ => trivial, on.still⟩
  split
  · simp only
    split
    · exact refused _
    · refine Triple.bind (on.still.run (SQVM.newSlotA_keeps base _ _ _ _ bstatic raw))
        fun done => Still.pre fun H' less => ?_
      refine Triple.bind (popN_on 3) fun _ => Triple.pure fun s on => ?_
      cases done
      · exact ⟨[.ref .cls r], fun _ => trivial, H', less, on⟩
      · exact ⟨[], fun _ => trivial, H', less, on⟩
  · exact refused _

/-- The key is removed on success and stays on failure. -/
theorem sqGetmemberhandle_exits (idx : ℤ) (key : SQObject) :
    Exits env G H s₀ (key :: st) (sqGetmemberhandle env idx)
      (fun res (_ : Unit) => match res with | some _ => st | none => key :: st)
      (fun _ _ => True) := by
  intro refs
  refine Triple.get_bind fun s on => ?_
  split
  · split
    · exact Triple.bind (Triple.pre (popN_on 1) fun _ eq => eq ▸ on) fun _ =>
        Triple.pure fun s on => ⟨(), fun _ => trivial, on⟩
    · exact Triple.bind (Triple.pre (throwText_on _) fun _ eq => eq ▸ on) fun _ =>
        Triple.pure fun s on => ⟨(), fun _ => trivial, on.2⟩
  · exact Triple.bind (Triple.pre (wrongArgument_on _ _) fun _ eq => eq ▸ on) fun _ =>
      Triple.pure fun s on => ⟨(), fun _ => trivial, on.2⟩

theorem sqSetclassudsize_exits (idx udsize : ℤ) :
    Exits env G H s₀ stack (sqSetclassudsize idx udsize) (fun _ (_ : Unit) => stack)
      (fun _ _ => True) := by
  intro refs
  refine Triple.get_bind fun s on => ?_
  split
  · split
    · exact Triple.post (Triple.pre (throwText_on _) fun _ eq => eq ▸ on) fun _ _ on =>
        ⟨(), fun _ => trivial, on.2⟩
    · exact Triple.bind (Triple.modify fun _ eq => eq ▸ on.withHeap (.of_eq rfl rfl)) fun _ =>
        Triple.pure fun s on => ⟨(), fun _ => trivial, on⟩
  · exact Triple.post (Triple.pre (throwText_on _) fun _ eq => eq ▸ on) fun _ _ on =>
      ⟨(), fun _ => trivial, on.2⟩

/-- The base of a class, or null, is pushed. -/
theorem sqGetbase_exits (fits : H → st.length + 1 < s₀.stackSize) (r : ℕ) :
    Exits env G H s₀ (.ref .cls r :: st) (sqGetbase env (-1))
      (fun res o => match res with
        | .ok => o :: .ref .cls r :: st
        | .error => .ref .cls r :: st)
      (fun res o => res = .ok ∧ (o = .null ∨ ∃ b, o = .ref .cls b)) := by
  intro refs
  refine Triple.get_bind fun s on => ?_
  split
  · split
    · rename_i b _
      exact Triple.bind (Triple.pre (push_on fits (.ref .cls b)) fun _ eq => eq ▸ on) fun _ =>
        Triple.pure fun s on => ⟨_, fun _ => ⟨rfl, .inr ⟨b, rfl⟩⟩, on⟩
    · exact Triple.bind (Triple.pre (push_on fits .null) fun _ eq => eq ▸ on) fun _ =>
        Triple.pure fun s on => ⟨_, fun _ => ⟨rfl, .inl rfl⟩, on⟩
  · rename_i other
    refine Triple.post (Triple.pre (wrongArgument_on _ _) fun _ eq => eq ▸ on) ?_
    rintro _ s ⟨rfl, on'⟩
    exact ⟨.null, fun h => (other r (on.get_neg_one h)).elim, on'⟩

theorem sqGetclass_exits (fits : H → st.length + 1 < s₀.stackSize) (r : ℕ) :
    Exits env G H s₀ (.ref .inst r :: st) (sqGetclass env (-1))
      (fun res c => match res with
        | .ok => .ref .cls c :: .ref .inst r :: st
        | .error => .ref .inst r :: st)
      (fun res _ => res = .ok) := by
  intro refs
  refine Triple.get_bind fun s on => ?_
  split
  · exact Triple.bind (Triple.pre (push_on fits _) fun _ eq => eq ▸ on) fun _ =>
      Triple.pure fun s on => ⟨_, fun _ => rfl, on⟩
  · rename_i other
    refine Triple.post (Triple.pre (wrongArgument_on _ _) fun _ eq => eq ▸ on) ?_
    rintro _ s ⟨rfl, on'⟩
    exact ⟨0, fun h => (other r (on.get_neg_one h)).elim, on'⟩

theorem sqInstanceof_exits (r c : ℕ) :
    Exits env G H s₀ (.ref .inst r :: .ref .cls c :: st) sqInstanceof
      (fun _ (_ : Unit) => .ref .inst r :: .ref .cls c :: st) (fun res _ => res.isSome) := by
  intro refs
  refine Triple.get_bind fun s on => ?_
  split
  · exact Triple.pure fun _ eq => ⟨(), fun _ => rfl, eq ▸ on⟩
  · rename_i other
    refine Triple.bind (Triple.pre (throwText_on _) fun _ eq => eq ▸ on) fun _ =>
      Triple.pure fun s on' => ⟨(), fun h => ?_, on'.2⟩
    exact (other r c (on.get_neg_one h) (on.get_neg_two h)).elim

end Classes

/-! ## Userdata -/

section UserData

variable {env : Env} {G H : Prop} {s₀ : SQVM} {stack st : List SQObject}

/-- A new userdata is not one of those there were. -/
theorem sqNewuserdata_exits (fits : H → stack.length < s₀.stackSize) (payload : Payload) :
    Exits env G H s₀ stack (sqNewuserdata payload) (fun _ r => .ref .userData r :: stack)
      (fun _ r => s₀.heap.userData.next ≤ r) := by
  intro refs
  refine Triple.modify fun s on => ⟨s.heap.userData.next,
    fun h => (on.same h).heap.userData_next, ?_⟩
  exact push_on fits _ _ (on.withHeap (.newUserData s.heap _))

/-- The tag of a new userdata is set. -/
theorem sqSettypetag_exits (r typetag : ℕ) (fresh : H → s₀.heap.userData.next ≤ r) :
    Exits env G H s₀ (.ref .userData r :: st) (sqSettypetag (-1) typetag)
      (fun _ (_ : Unit) => .ref .userData r :: st) (fun res _ => res = .ok) := by
  intro refs
  refine Triple.get_bind fun s on => ?_
  split
  · rename_i q found
    refine Triple.bind (Triple.modify fun _ eq => ?_) fun _ => Triple.pure fun s on =>
      ⟨(), fun _ => rfl, on⟩
    subst eq
    refine ⟨on.refs_eq, on.root_eq, on.roottable_eq, on.stranded_le, on.live, fun h => ?_,
      on.stack_eq⟩
    have same : q = r := by
      rw [on.get_neg_one h] at found
      injection found with _ eq
      exact eq.symm
    have grows := (on.same h).heap
    have apart : ∀ p < s₀.heap.userData.next, p ≠ q := fun p lt eq => by
      have := fresh h
      omega
    refine { on.same h with heap := ⟨grows.natives_next, grows.natives, grows.userData_next,
      fun p lt => ?_, fun p lt => ?_⟩ }
    · rw [← grows.payload p lt]
      exact congrArg (fun u : SQUserData => u.payload.map Payload.typeId)
        (Store.read_write_of_ne _ _ (apart p lt))
    · rw [← grows.typetag p lt]
      exact congrArg SQUserData.typetag (Store.read_write_of_ne _ _ (apart p lt))
  · rename_i found
    exact Triple.pure fun _ eq => ⟨(), fun _ => rfl, eq ▸ on⟩
  · rename_i other _
    refine Triple.post (Triple.pre (throwText_on _) fun _ eq => eq ▸ on) ?_
    rintro _ s ⟨rfl, on'⟩
    exact ⟨(), fun h => (other r (on.get_neg_one h)).elim, on'⟩

end UserData

/-! ## Reading values -/

section Getters

variable {env : Env} {G H : Prop} {s₀ : SQVM} {refs : SQObject → ℕ} {stack : List SQObject}

theorem sqGetinteger_keeps (idx : ℤ) :
    Keeps (On env G H s₀ refs stack) (Stopped G s₀ refs) (sqGetinteger idx) := by
  refine Keeps.bind .get fun s => ?_
  split <;> exact .pure _

theorem sqGetfloat_keeps (idx : ℤ) :
    Keeps (On env G H s₀ refs stack) (Stopped G s₀ refs) (sqGetfloat idx) :=
  Keeps.bind .get fun _ => .pure _

theorem sqGetbool_keeps (idx : ℤ) :
    Keeps (On env G H s₀ refs stack) (Stopped G s₀ refs) (sqGetbool idx) := by
  refine Keeps.bind .get fun s => ?_
  split <;> exact .pure _

theorem wrongArgument_keeps (expected : SQObjectType) (o : SQObject) :
    Keeps (On env G H s₀ refs stack) (Stopped G s₀ refs) (wrongArgument env expected o) :=
  Triple.post (wrongArgument_on expected o) fun _ _ on => on.2

theorem sqGetuserpointer_keeps (idx : ℤ) :
    Keeps (On env G H s₀ refs stack) (Stopped G s₀ refs) (sqGetuserpointer env idx) := by
  refine Keeps.bind .get fun s => ?_
  split
  · exact .pure _
  · exact Keeps.bind (wrongArgument_keeps _ _) fun _ => .pure _

/-- The characters of a string. -/
theorem sqGetstringandsize_exits {idx : ℤ} (bytes : List UInt8)
    (found : ∀ s : SQVM, H → s.stack = stack → s.stackbase = s₀.stackbase →
      s.stackGet idx = .string bytes) :
    Exits env G H s₀ stack (sqGetstringandsize env idx) (fun _ (_ : Unit) => stack)
      (fun r _ => r = some bytes) := by
  intro refs
  refine Triple.get_bind fun s on => ?_
  have string : H → s.stackGet idx = .string bytes := fun h =>
    found s h (on.stack_eq h) (on.same h).stackbase
  split
  · rename_i read
    refine Triple.pure fun _ eq => ⟨(), fun h => ?_, eq ▸ on⟩
    rw [string h] at read
    injection read with eq
    rw [eq]
  · rename_i other
    exact Triple.bind (Triple.pre (wrongArgument_on _ _) fun _ eq => eq ▸ on) fun _ =>
      Triple.pure fun s on => ⟨(), fun h => (other bytes (string h)).elim, on.2⟩

/-- A userdata is found as one. -/
theorem sqGetuserdata_exits {st : List SQObject} (r : ℕ) :
    Exits env G H s₀ (.ref .userData r :: st) (sqGetuserdata env (-1))
      (fun _ (_ : Unit) => .ref .userData r :: st) (fun res _ => res.isSome) := by
  intro refs
  refine Triple.get_bind fun s on => ?_
  split
  · exact Triple.pure fun _ eq => ⟨(), fun _ => rfl, eq ▸ on⟩
  · rename_i other
    refine Triple.bind (Triple.pre (wrongArgument_on _ _) fun _ eq => eq ▸ on) fun _ =>
      Triple.pure fun _ ⟨_, on'⟩ => ⟨(), fun h => ?_, on'⟩
    have found := on.get_neg_one h
    exact (other r found).elim

end Getters

/-! ## Calls -/

section Calls

variable {env : Env} {G H : Prop} {s₀ : SQVM} {st : List SQObject}

/-- The arguments are removed and, on success, the result is pushed. -/
theorem sqCall_leaves (rest : List SQObject) (this callee : SQObject)
    (running : H → s₀.suspended = false)
    (base : H → s₀.stackbase ≤ st.length) (fits : H → st.length + 1 < s₀.stackSize)
    (plain : H → (∃ r, callee = .ref .closure r) ∨ (∃ r, callee = .ref .cls r) ∨
      ∀ c, this ≠ .ref .closure c) :
    Leaves env G H s₀ (rest ++ this :: callee :: st) (sqCall env (rest.length + 1))
      (fun res v => match res with | .ok => v :: callee :: st | .error => callee :: st)
      (fun _ _ => True) := by
  intro refs
  -- the arguments stay, perhaps rewritten, until `sq_call` pops them
  have called : Triple (On env G H s₀ refs (rest ++ this :: callee :: st))
      (Act.step fun s => s.call env (s.up (rest.length + 1)) (rest.length + 1)
        (s.top - (rest.length + 1)))
      (fun _ s => ∃ (args : List SQObject) (H' : Prop),
        (H' → H ∧ args.length = rest.length + 1) ∧
          On env G H' s₀ refs (args ++ callee :: st) s) (Stopped G s₀ refs) := by
    refine Triple.step fun s on => ?_
    have same := s.call_refs env (s.up (rest.length + 1)) (rest.length + 1)
      (s.top - (rest.length + 1))
    by_cases live : H ∧ (s.call env (s.up (rest.length + 1)) (rest.length + 1)
      (s.top - (rest.length + 1))).2.stranded = s₀.stranded
    · obtain ⟨h, calm⟩ := live
      have located : s.stack = rest ++ this :: (callee :: st) := on.stack_eq h
      have found : s.up (rest.length + 1) = callee := by simp [SQVM.up, located]
      have height : s.top - (rest.length + 1) = (callee :: st).length := by
        rw [on.top h]; simp; omega
      rw [found, height] at same calm ⊢
      have before := on.same h
      have calm' : (s.call env callee (rest.length + 1) (callee :: st).length).2.stranded =
          s.stranded := le_antisymm (calm.trans_le on.stranded_le) same.stranded
      have called := SQVM.call_called callee located
        (by have := base h; rw [before.stackbase]; simp; omega) (plain h) (.inl calm')
      obtain ⟨args, length, stack⟩ := called.stack
      exact ⟨args, H, fun h => ⟨h, length⟩, same.refs.trans on.refs_eq,
        same.root.trans on.root_eq, fun keeps => (same.roottable keeps).trans
          (on.roottable_eq keeps), on.stranded_le.trans same.stranded, fun _ _ => h,
        fun _ => before.trans called.toSame, fun _ => stack⟩
    · refine ⟨[], False, False.elim, same.refs.trans on.refs_eq, same.root.trans on.root_eq,
        fun keeps => (same.roottable keeps).trans (on.roottable_eq keeps),
        on.stranded_le.trans same.stranded, fun g calm => live ⟨on.live g ?_, calm⟩,
        False.elim, False.elim⟩
      exact le_antisymm (same.stranded.trans_eq calm) on.stranded_le
  refine Triple.bind called fun result => Triple.exists_pre fun args =>
    Triple.exists_pre fun H' => Triple.of_pre fun less => ?_
  -- popping the arguments uncovers the callee
  have popped : ∀ s, On env G H' s₀ refs ((args ++ callee :: st).drop (rest.length + 1)) s →
      On env G H' s₀ refs (callee :: st) s := by
    intro s on
    by_cases h : H'
    · rwa [← (less h).2, List.drop_left] at on
    · exact on.any h _
  split
  · exact Triple.bind (popN_on _) fun _ => Triple.pure fun s on =>
      ⟨.null, fun _ => trivial, H', fun h => (less h).1, popped s on⟩
  · refine Triple.get_bind fun s on => ?_
    have fits' : H' → (callee :: st).length < s₀.stackSize := fun h => fits (less h).1
    have push : Triple (On env G H' s₀ refs (callee :: st))
        (do push (result.res.getD .null); pure SQRESULT.ok)
        (fun res s => ∃ v, (H → True) ∧ Still env G H s₀ refs
          (match res with | .ok => v :: callee :: st | .error => callee :: st) s)
        (Stopped G s₀ refs) :=
      Triple.bind (push_on fits' _) fun _ => Triple.pure fun s on =>
        ⟨_, fun _ => trivial, H', fun h => (less h).1, on⟩
    simp only
    split
    · refine Triple.bind (Triple.pre (popN_on _) fun _ eq => eq ▸ on) fun _ => ?_
      exact Triple.pre push popped
    · rename_i suspended
      refine Triple.pre push fun _ eq => eq ▸ on.any (fun h => suspended ?_) _
      rw [(on.same h).suspended, running (less h).1]
      rfl

/-- A source may be compiled: there is a root table, or the compiler reports an error. -/
def CanCompile (env : Env) (s : SQVM) (src sourceName : List UInt8) : Prop :=
  s.roottable.isSome ∨ ∀ s', ∃ e, env.compile s' src sourceName = .error e

/-- A compiled function is pushed. A compile error leaves the stack, and the handler has stored it
if the machine is registered. -/
theorem sqCompilebuffer_on {refs : SQObject → ℕ} {stack : List SQObject}
    (fits : H → stack.length < s₀.stackSize) (src sourceName : List UInt8) :
    Triple (fun s => (H → CanCompile env s src sourceName) ∧ On env G H s₀ refs stack s)
      (sqCompilebuffer env src sourceName)
      (fun res s => (H → res = .error → s₀.errorSlot.isSome → ∃ e, s.errorSlot = some (some e)) ∧
        ∃ r, On env G H s₀ refs
          (match res with | .ok => .ref .closure r :: stack | .error => stack) s)
      (Stopped G s₀ refs) := by
  refine Triple.get_bind fun s ⟨can, on⟩ => ?_
  cases compiled : env.compile s src sourceName with
  | ok function =>
    cases root : s.roottable with
    | none =>
      have broken : ¬ H := fun h => by
        rcases can h with rooted | refused
        · simp [root] at rooted
        · obtain ⟨e, error⟩ := refused s
          simp [compiled] at error
      exact Triple.stop fun _ eq => ⟨eq ▸ on.broken broken, by simp [overRelease], by simp,
        eq ▸ on.refs_eq, eq ▸ on.root_eq⟩
    | some root =>
      exact Triple.bind (Triple.pre (pushNew_on fits _ (fun h => .of_eq rfl rfl)
        fun h => ⟨_, rfl⟩) fun _ eq => eq ▸ on) fun _ => Triple.pure fun s ⟨r, on⟩ =>
          ⟨fun _ absurd => by simp at absurd, r, on⟩
  | error e =>
    refine Triple.bind
      (Q := fun _ s => (H → s₀.errorSlot.isSome → ∃ e, s.errorSlot = some (some e)) ∧
        On env G H s₀ refs stack s)
      (Triple.modify fun _ eq => ?_) fun _ =>
        Triple.pure fun s ⟨stored, on⟩ => ⟨fun h _ => stored h, 0, on⟩
    subst eq
    refine ⟨fun h registered => ?_, ⟨on.refs_eq, on.root_eq, on.roottable_eq, on.stranded_le,
      on.live, fun h => ?_, on.stack_eq⟩⟩
    · rw [← (on.same h).registered] at registered
      obtain ⟨slot, eq⟩ := Option.isSome_iff_exists.1 registered
      exact ⟨e, by simp [eq]⟩
    · refine (on.same h).trans ⟨rfl, rfl, rfl, rfl, rfl, ?_, le_rfl, .refl _, fun _ => rfl⟩
      simp

end Calls

/-! ## Iteration -/

section Iteration

variable {env : Env} {G H : Prop} {s₀ : SQVM} {st : List SQObject}

/-- A position that `sq_next` accepts. -/
def ValidPosition : SQObject → Prop
  | .null => True
  | .integer n => 0 ≤ n
  | _ => False

/-- What fails in a step over a container is a read out of bounds. -/
theorem containerNext_error {s : SQVM} {o : SQObject} {idx : ℤ} {e : Stop}
    (failed : containerNext s o idx = .error e) :
    e ≠ overRelease ∧ ∀ message, e ≠ .panic message := by
  unfold containerNext at failed
  split at failed
  all_goals first
    | (split at failed <;> simp at failed <;> subst failed <;> simp [overRelease])
    | simp at failed

/-- Where nothing is promised about the stack, iteration still leaves the references alone. -/
theorem sqNext_keeps {refs : SQObject → ℕ} {stack : List SQObject} (broken : ¬ H) (idx : ℤ) :
    Keeps (On env G H s₀ refs stack) (Stopped G s₀ refs) (sqNext env idx) := by
  have vacuous : H → s₀.stackbase ≤ stack.length := fun h => (broken h).elim
  have rewrite : ∀ o, Keeps (On env G H s₀ refs stack) (Stopped G s₀ refs)
      (Act.modify fun s => s.setUp 0 o) := fun o =>
    Keeps.modify fun s on => on.withStack fun h => (broken h).elim
  have pushed : ∀ o, Keeps (On env G H s₀ refs stack) (Stopped G s₀ refs) (push o) := fun o =>
    Triple.post (push_on (fun h => (broken h).elim) o) fun _ _ on => on.any broken _
  have thrown : ∀ message, Keeps (On env G H s₀ refs stack) (Stopped G s₀ refs)
      (throwText message) := fun message => Triple.post (throwText_on message) fun _ _ on => on.2
  have iterate : ∀ o pos, Keeps (On env G H s₀ refs stack) (Stopped G s₀ refs)
      (metaNext env o pos) := by
    intro o pos
    refine Keeps.bind .get fun s => ?_
    split
    · exact .pure _
    split
    · exact thrown _
    · rename_i closure found
      refine Keeps.bind (Still.keeps_on broken (SQVM.runMetaMethod_keeps vacuous closure
        (SQVM.plain_of_getMetaMethod found))) fun result => ?_
      split
      · exact .pure _
      · refine Keeps.bind (rewrite _) fun _ => ?_
        split
        · exact .pure _
        · refine Keeps.bind (Still.keeps_on broken (SQVM.get_keeps vacuous _ _)) fun r => ?_
          obtain ⟨found, val⟩ := r
          simp only
          split
          · exact Keeps.bind (pushed _) fun _ => Keeps.bind (pushed _) fun _ => .pure _
          · exact thrown _
  have step : ∀ o pos, Keeps (On env G H s₀ refs stack) (Stopped G s₀ refs)
      (containerStep o pos) := by
    intro o pos
    refine Triple.get_bind fun s on => ?_
    split
    · exact Triple.stop fun _ eq =>
        ⟨eq ▸ on.broken broken, by simp [overRelease], by simp, eq ▸ on.refs_eq, eq ▸ on.root_eq⟩
    split
    · rename_i e failed
      obtain ⟨counted, quiet⟩ := containerNext_error failed
      exact Triple.stop fun _ eq =>
        ⟨eq ▸ on.broken broken, counted, quiet, eq ▸ on.refs_eq, eq ▸ on.root_eq⟩
    · exact on.run (.pure _)
    · exact on.run (Keeps.bind (rewrite _) fun _ => Keeps.bind (pushed _) fun _ =>
        Keeps.bind (pushed _) fun _ => .pure _)
  refine Keeps.bind .get fun s => ?_
  simp only
  split
  · exact thrown _
  · exact iterate _ _
  · exact iterate _ _
  · exact step _ _
  · exact step _ _
  · exact step _ _
  · exact step _ _
  · exact Triple.post (fail_on fun _ => ⟨_, rfl⟩) fun _ _ on => on.2

theorem translateIndex_of_valid {pos : SQObject} (valid : ValidPosition pos) :
    ∃ i, translateIndex pos = some i ∧ 0 ≤ i := by
  cases pos with
  | null => exact ⟨0, rfl, le_rfl⟩
  | integer n => exact ⟨n, rfl, valid⟩
  | float _ => exact valid.elim
  | bool _ => exact valid.elim
  | userPointer _ => exact valid.elim
  | string _ => exact valid.elim
  | ref _ _ => exact valid.elim

/-- A step over a table moves the position and pushes the key and the value, or does nothing. -/
theorem sqNext_exits (pos : SQObject) (r : ℕ) (valid : H → ValidPosition pos)
    (fits : H → st.length + 3 < s₀.stackSize) :
    Exits env G H s₀ (pos :: .ref .table r :: st) (sqNext env (-2))
      (fun res (x : ℤ × SQObject × SQObject) => match res with
        | .ok => x.2.2 :: x.2.1 :: .integer x.1 :: .ref .table r :: st
        | .error => pos :: .ref .table r :: st)
      (fun res x => res = .ok → 0 ≤ x.1) := by
  intro refs
  by_cases h : H
  · refine Triple.get_bind fun s on => ?_
    have fits := fits h
    obtain ⟨i, index, nonneg⟩ := translateIndex_of_valid (valid h)
    rw [on.get_neg_two h, on.up h 0]
    simp only [SQObject.type, List.getD_cons_zero]
    refine Triple.get_bind fun s' eq => ?_
    subst eq
    rw [index]
    simp only [containerNext, if_neg (not_lt.2 nonneg)]
    cases found : (s'.heap.tables.read r).next i.toNat with
    | none => exact Triple.pure fun _ eq => ⟨(0, .null, .null), by simp, eq ▸ on⟩
    | some item =>
      refine Triple.bind (Triple.pre (setTop_on pos _) fun _ eq => eq ▸ on) fun _ => ?_
      refine Triple.bind (push_on (fun _ => by simp; omega) _) fun _ => ?_
      refine Triple.bind (push_on (fun _ => by simp; omega) _) fun _ => Triple.pure fun s on => ?_
      exact ⟨(_, _, _), fun _ _ => Int.natCast_nonneg _, on⟩
  · refine Triple.post (sqNext_keeps h (-2)) fun res s on => ?_
    exact ⟨(0, .null, .null), fun h' => (h h').elim, on.any h _⟩

end Iteration

end Api

end Squirrels
