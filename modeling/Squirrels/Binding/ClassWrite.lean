import Squirrels.Binding.Class
import Squirrels.Binding.SlotsExact
import Squirrels.Vm.ClassExact

/-!
# Writing the members of a class

A class that has instances takes no more fields, and no class takes more than `MEMBER_MAX_COUNT`
members. `SQClass::NewSlot` says so, and `sq_rawnewmember` passes it on; `sq_newslot` and
`sq_rawset` do not look at what it says, so `new_slot` and `raw_set` report success for a member
that is refused.
-/

namespace Squirrels

open Machines

namespace Yields

variable {w₀ : World} {vm : VmId} {s : SQVM} {L : List Object}

/-- A stack that is made smaller loses its last slots. -/
theorem resizeStack {n : ℕ} (positive : 0 < n) (enough : s.stackbase + n ≤ s.top) :
    Yields w₀ vm s L (Squirrel.resizeStack vm ((s.top : ℤ) - s.stackbase - n)) () (s.pop n) L := by
  have fewer : (s.top : ℤ) - s.stackbase - n < s.top - s.stackbase := by omega
  have count : ((s.top : ℤ) - s.stackbase - (s.top - s.stackbase - n)).toNat = n := by omega
  have popped : Computes (Api.sqSettop ((s.top : ℤ) - s.stackbase - n)) s () (s.pop n) := by
    apply Computes.bind (Api.sqGettop_computes s)
    rw [if_pos fewer, count]
    exact Api.sqPop_computes (by omega)
  exact bind (ensure (by omega)) (machine popped rfl)

end Yields

/-- A machine that has just been opened has no classes and no instances. -/
theorem World.reachable_usual (env : Env) (hash : SQObject → ℕ) (vm : VmId) :
    ((World.usual env) vm).heap.Reachable hash := by
  obtain ⟨heap, same, eq⟩ := SQVM.opened_eq env .empty 1024
  have opened : ((World.usual env) vm).heap = heap := by
    show (SQVM.opened env .empty 1024).heap = heap
    rw [eq]
  rw [opened]
  exact .start same.classes same.instances

namespace Handle.Class

/-- The members of a class. -/
def members (w : World) (self : Class) : SQClass := (w self.sq).heap.classes.read self.ref

/-- `raw_get` returns the value of the key, in whatever types they are given and asked for. -/
def ReadsBack (env : Env) (w : World) (self : Class) (key val : SQObject) : Prop :=
  ∀ {κ ν : Type} [Owns κ] [IntoSquirrel κ] [ExactInto κ] [Owns ν] [FromSquirrel ν] [ExactFrom ν]
    (again : κ) (L : List Object), ExactInto.encode again = key →
    Owned (Owns.handles again ++ L) w → Local self.sq again →
    ∃ w', (rawGet env self again : Act World (Except CallError ν)).run w =
      (.ok (liftError (ExactFrom.decode self.sq val)), w')

/-- What is asked of a write: a success has taken effect, an error has changed nothing, and a member
that the class refuses is an error. -/
def TakesEffect (env : Env) (w : World) (self : Class) (key val : SQObject) (isStatic : Bool)
    (write : Act World (Except CallError Unit)) : Prop :=
  ∃ res w', write.run w = (.ok res, w') ∧
    (res = .ok () → ReadsBack env w' self key val) ∧
    (∀ e, res = .error e → members w' self = members w self) ∧
    ((members w self).Refuses env.hash key val isStatic → ∃ v, res = .error (.runtime v))

section Write

variable {env : Env} {w₀ w : World} {s t : SQVM} {L : List Object} {self : Class} {κ ν α : Type}
  [Owns κ] [IntoSquirrel κ] [ExactInto κ] [Owns ν] [IntoSquirrel ν] [ExactInto ν] [Owns α]
  [IntoSquirrel α] [ExactInto α] {key : κ} {value : ν} {attr : α} {bstatic : Bool}

/-- The machine with the arguments of a member on its stack. -/
def withMember (s : SQVM) (self : Class) (key : κ) (value : ν) (attr : α) : SQVM :=
  (((s.push self.obj).push (ExactInto.encode key)).push (ExactInto.encode value)).push
    (ExactInto.encode attr)

/-- What `new_member` and `raw_new_member` do once their arguments are on the stack. -/
theorem pushMember_yields {newMember : ℤ → Bool → Act SQVM SQRESULT} {ret : SQRESULT}
    {res : Except CallError Unit} {s' : SQVM} {L' : List Object} (based : s.stackbase ≤ s.top)
    (here : Local self.sq (key, value, attr))
    (computes : Computes (newMember (-4) bstatic) (withMember s self key value attr) ret t)
    (root : t.root = s.root)
    (after : Yields w₀ self.sq t L (if ret.isError then do
        Squirrel.resizeStack self.sq ((s.top : ℤ) - s.stackbase)
        let e ← CallError.getRuntimeError env self.sq
        pure (.error e)
      else do
        Squirrel.pop self.sq 1
        pure (.ok ())) res s' L') :
    Yields w₀ self.sq s (Owns.handles (key, value, attr) ++ L)
      (memberWith env self newMember key value attr bstatic) res s' L' := by
  have split : (Owns.handles (key, value, attr) ++ L).Perm
      (Owns.handles key ++ (Owns.handles value ++ (Owns.handles attr ++ L))) := by
    show ((Owns.handles key ++ (Owns.handles value ++ Owns.handles attr)) ++ L).Perm _
    simp only [List.append_assoc]
    exact .refl _
  have based₁ : (s.push self.obj).stackbase ≤ (s.push self.obj).top := by
    show s.stackbase ≤ s.top + 1
    omega
  have based₂ : ((s.push self.obj).push (ExactInto.encode key)).stackbase ≤
      ((s.push self.obj).push (ExactInto.encode key)).top := by
    show s.stackbase ≤ s.top + 2
    omega
  have based₃ : (((s.push self.obj).push (ExactInto.encode key)).push
      (ExactInto.encode value)).stackbase ≤ (((s.push self.obj).push (ExactInto.encode key)).push
      (ExactInto.encode value)).top := by
    show s.stackbase ≤ s.top + 3
    omega
  apply Yields.perm _ split
  apply Yields.bind Yields.stackDepth
  apply Yields.bind (Yields.push self.obj)
  apply Yields.bind (Yields.onUnwind (ExactInto.pushed based₁ here.fst))
  apply Yields.bind (Yields.onUnwind (ExactInto.pushed based₂ here.snd.fst))
  apply Yields.bind (ExactInto.pushed based₃ here.snd.snd)
  exact Yields.bind (Yields.machine computes root) after

/-- The C function stores the member and pops all but the class. -/
theorem memberWith_yields {newMember : ℤ → Bool → Act SQVM SQRESULT}
    (based : s.stackbase ≤ s.top) (here : Local self.sq (key, value, attr))
    (computes : Computes (newMember (-4) bstatic) (withMember s self key value attr) .ok
      (t.push self.obj))
    (root : t.root = s.root) (base : t.stackbase ≤ t.top) :
    Yields w₀ self.sq s (Owns.handles (key, value, attr) ++ L)
      (memberWith env self newMember key value attr bstatic) (.ok ()) t L := by
  apply pushMember_yields based here computes root
  refine Yields.bind (Yields.pop (n := 1) one_pos ?_) (Yields.pure _)
  show t.stackbase + 1 ≤ t.top + 1
  omega

/-- The C function refuses the member and pops all but the class. -/
theorem memberWith_fails {newMember : ℤ → Bool → Act SQVM SQRESULT} {e : SQObject}
    (based : s.stackbase ≤ s.top) (here : Local self.sq (key, value, attr))
    (computes : Computes (newMember (-4) bstatic) (withMember s self key value attr) .error
      ((s.withError e).push self.obj)) :
    Yields w₀ self.sq s (Owns.handles (key, value, attr) ++ L)
      (memberWith env self newMember key value attr bstatic)
      (.error (.runtime (e.toValue self.sq))) (s.withError e)
      (Owns.handles (e.toValue self.sq) ++ L) := by
  apply pushMember_yields based here computes rfl
  have enough : ((s.withError e).push self.obj).stackbase + 1 ≤
      ((s.withError e).push self.obj).top := by
    show s.stackbase + 1 ≤ s.top + 1
    omega
  have resized := @Yields.resizeStack w₀ self.sq ((s.withError e).push self.obj) L 1 one_pos enough
  have former : (((s.withError e).push self.obj).top : ℤ) -
      ((s.withError e).push self.obj).stackbase - (1 : ℕ) = s.top - s.stackbase := by
    show ((s.top + 1 : ℕ) : ℤ) - s.stackbase - (1 : ℕ) = s.top - s.stackbase
    omega
  rw [former] at resized
  exact Yields.bind resized (Yields.bind (Yields.getRuntimeError (s := s.withError e) based)
    (Yields.pure _))

/-- A member that is found is read back. -/
theorem readsBack_of_found (based : (w self.sq).stackbase ≤ (w self.sq).top) {k val : SQObject}
    (found : (w self.sq).heap.classGet env.hash self.ref k = some val) :
    ReadsBack env w self k val := by
  intro κ ν _ _ _ _ _ _ again L isKey owned here
  have member : (((w self.sq).push self.obj).push (ExactInto.encode again)).heap.classGet env.hash
      self.ref ((((w self.sq).push self.obj).push (ExactInto.encode again)).up 0) = some val := by
    rw [← isKey] at found
    exact found
  obtain ⟨e, yields⟩ := @getWith_yields env w (w self.sq) (w self.sq) L _ self κ ν _ _ _ _ _ _
    (Api.sqRawget env) again val based here (Api.sqRawget_class_computes rfl member) rfl based
  obtain ⟨res, w', ran, rfl, -⟩ := yields.returns (Exactly.start owned self.sq)
  exact ⟨w', ran⟩

/-- A write that the C function reports as a success, with the heap it leaves. -/
theorem setWith_succeeds (write : ℤ → Act SQVM SQRESULT) (popped : ℤ)
    (owned : Owned (Owns.handles (key, value) ++ L) w)
    (based : (w self.sq).stackbase ≤ (w self.sq).top) (here : Local self.sq (key, value))
    (heap : Heap) (e : SQObject) (computes : Computes (write (-3)) ((((w self.sq).push
      self.obj).push (ExactInto.encode key)).push (ExactInto.encode value)) .ok
      (SQVM.push { (w self.sq).withError e with heap := heap } self.obj)) :
    ∃ w', (self.setWith env write popped key value).run w = (.ok (.ok ()), w') ∧
      (w' self.sq).heap = heap ∧ (w' self.sq).stackbase ≤ (w' self.sq).top := by
  have yields : Yields w self.sq (w self.sq) _ (self.setWith env write popped key value) _ _ L :=
    setWith_yields based here computes rfl based
  obtain ⟨res, w', ran, rfl, after⟩ := yields.returns (Exactly.start owned self.sq)
  refine ⟨w', ran, ?_, ?_⟩
  · rw [after.machine]
  · rw [after.machine]
    exact based

section Plain

variable (owned : Owned (Owns.handles (key, value) ++ L) w)
  (based : (w self.sq).stackbase ≤ (w self.sq).top) (here : Local self.sq (key, value))
  (reachable : (w self.sq).heap.Reachable env.hash)
  (made : self.ref < (w self.sq).heap.classes.next)
  (nonnull : ExactInto.encode key ≠ .null) (plain : (ExactInto.encode value).isFunction = false)
  (strong : (ExactInto.encode value).isWeakRef = false)

include owned based here nonnull

/-- `new_slot` reports success for a member that is refused. -/
theorem newSlot_refused (refuses : (members w self).Refuses env.hash (ExactInto.encode key)
      (ExactInto.encode value) bstatic) :
    ∃ w', (newSlot env self key value bstatic).run w = (.ok (.ok ()), w') := by
  obtain ⟨-, refused⟩ | ⟨accepted, -⟩ := Heap.classNewSlot_cases env.hash (w self.sq).heap self.ref
    (ExactInto.encode key) (ExactInto.encode value) bstatic
  · have deep : 3 ≤ ((((w self.sq).push self.obj).push (ExactInto.encode key)).push
        (ExactInto.encode value)).depth := by
      show 3 ≤ (w self.sq).top + 3 - (w self.sq).stackbase
      omega
    obtain ⟨e, computes⟩ := @Api.sqNewslot_class_refused env _ self.ref (-3) bstatic _ deep
      rfl nonnull refused
    obtain ⟨w', ran, -, -⟩ := setWith_succeeds (fun idx => Api.sqNewslot env idx bstatic) 3 owned
      based here (w self.sq).heap e computes
    exact ⟨w', ran⟩
  · exact absurd refuses accepted

/-- `raw_set` reports success for a member that is refused. -/
theorem rawSet_succeeds : ∃ w', (rawSet env self key value).run w = (.ok (.ok ()), w') ∧
    (w' self.sq).heap = ((w self.sq).heap.classNewSlot env.hash self.ref (ExactInto.encode key)
      (ExactInto.encode value) false).2 ∧ (w' self.sq).stackbase ≤ (w' self.sq).top :=
  setWith_succeeds (Api.sqRawset env) 1 owned based here _ (w self.sq).lasterror
    (Api.sqRawset_class_computes rfl nonnull)

include reachable made plain strong

theorem newSlot_accepted (accepted : ¬ (members w self).Refuses env.hash (ExactInto.encode key)
      (ExactInto.encode value) bstatic) :
    ∃ w', (newSlot env self key value bstatic).run w = (.ok (.ok ()), w') ∧
      ReadsBack env w' self (ExactInto.encode key) (ExactInto.encode value) := by
  obtain ⟨heap, stored, found⟩ := reachable.classGet_stored made nonnull plain strong accepted
  have deep : 3 ≤ ((((w self.sq).push self.obj).push (ExactInto.encode key)).push
      (ExactInto.encode value)).depth := by
    show 3 ≤ (w self.sq).top + 3 - (w self.sq).stackbase
    omega
  obtain ⟨w', ran, rfl, based'⟩ := setWith_succeeds (fun idx => Api.sqNewslot env idx bstatic) 3
    owned based here heap (w self.sq).lasterror
    (@Api.sqNewslot_class_stored env _ self.ref (-3) bstatic _ deep rfl nonnull stored)
  exact ⟨w', ran, readsBack_of_found based' found⟩

theorem rawSet_accepted (accepted : ¬ (members w self).Refuses env.hash (ExactInto.encode key)
      (ExactInto.encode value) false) :
    ∃ w', (rawSet env self key value).run w = (.ok (.ok ()), w') ∧
      ReadsBack env w' self (ExactInto.encode key) (ExactInto.encode value) := by
  obtain ⟨heap, stored, found⟩ := reachable.classGet_stored made nonnull plain strong accepted
  obtain ⟨w', ran, left, based'⟩ := rawSet_succeeds owned based here nonnull
  rw [stored] at left
  subst left
  exact ⟨w', ran, readsBack_of_found based' found⟩

end Plain

/-- `raw_new_member` stores the member or reports that it is refused. -/
theorem rawNewMember_takesEffect (owned : Owned (Owns.handles (key, value, attr) ++ L) w)
    (based : (w self.sq).stackbase ≤ (w self.sq).top) (here : Local self.sq (key, value, attr))
    (reachable : (w self.sq).heap.Reachable env.hash)
    (made : self.ref < (w self.sq).heap.classes.next) (nonnull : ExactInto.encode key ≠ .null)
    (plain : (ExactInto.encode value).isFunction = false)
    (strong : (ExactInto.encode value).isWeakRef = false) (bstatic : Bool) :
    TakesEffect env w self (ExactInto.encode key) (ExactInto.encode value) bstatic
      (rawNewMember env self key value attr bstatic) := by
  by_cases refuses : (members w self).Refuses env.hash (ExactInto.encode key)
      (ExactInto.encode value) bstatic
  · obtain ⟨-, refused⟩ | ⟨accepted, -⟩ := Heap.classNewSlot_cases env.hash (w self.sq).heap
      self.ref (ExactInto.encode key) (ExactInto.encode value) bstatic
    · obtain ⟨e, computes⟩ := @Api.sqRawnewmember_refused env
        (withMember (w self.sq) self key value attr) self.ref (-4) bstatic _ rfl nonnull refused
      have yields : Yields w self.sq (w self.sq) _ (rawNewMember env self key value attr bstatic)
        _ _ (_ ++ L) := memberWith_fails (e := e) based here computes
      obtain ⟨res, w', ran, rfl, after⟩ := yields.returns (Exactly.start owned self.sq)
      refine ⟨_, w', ran, (fun ok => by cases ok), fun _ _ => ?_, fun _ => ⟨_, rfl⟩⟩
      unfold members
      rw [after.machine]
      rfl
    · exact absurd refuses accepted
  · obtain ⟨heap, stored, found⟩ := reachable.classGet_stored made nonnull plain strong refuses
    have yields : Yields w self.sq (w self.sq) _ (rawNewMember env self key value attr bstatic) _
        { w self.sq with
          heap := SQVM.attributed env heap self.ref (ExactInto.encode key)
            (ExactInto.encode attr) } L :=
      memberWith_yields based here (@Api.sqRawnewmember_stored env
        (withMember (w self.sq) self key value attr) self.ref (-4) bstatic _ rfl nonnull stored)
        rfl based
    obtain ⟨res, w', ran, rfl, after⟩ := yields.returns (Exactly.start owned self.sq)
    refine ⟨_, w', ran, fun _ => ?_, (fun _ error => by cases error), fun refused =>
      absurd refused refuses⟩
    apply readsBack_of_found
    · rw [after.machine]
      exact based
    · rw [after.machine]
      exact (SQVM.classGet_attributed heap _ _).trans found

/-- `raw_new_member` always takes effect or fails; `new_slot` and `raw_set` do unless the class
refuses the member. -/
theorem write_effective_iff (owned : Owned (Owns.handles (key, value, attr) ++ L) w)
    (based : (w self.sq).stackbase ≤ (w self.sq).top) (here : Local self.sq (key, value, attr))
    (reachable : (w self.sq).heap.Reachable env.hash)
    (made : self.ref < (w self.sq).heap.classes.next) (nonnull : ExactInto.encode key ≠ .null)
    (plain : (ExactInto.encode value).isFunction = false)
    (strong : (ExactInto.encode value).isWeakRef = false) (isStatic : Bool) :
    TakesEffect env w self (ExactInto.encode key) (ExactInto.encode value) isStatic
        (rawNewMember env self key value attr isStatic) ∧
      (TakesEffect env w self (ExactInto.encode key) (ExactInto.encode value) isStatic
          (newSlot env self key value isStatic) ↔
        ¬ (members w self).Refuses env.hash (ExactInto.encode key) (ExactInto.encode value)
          isStatic) ∧
      (TakesEffect env w self (ExactInto.encode key) (ExactInto.encode value) false
          (rawSet env self key value) ↔
        ¬ (members w self).Refuses env.hash (ExactInto.encode key) (ExactInto.encode value)
          false) := by
  have split : (Owns.handles (key, value, attr) ++ L).Perm
      (Owns.handles (key, value) ++ (Owns.handles attr ++ L)) := by
    show ((Owns.handles key ++ (Owns.handles value ++ Owns.handles attr)) ++ L).Perm
      ((Owns.handles key ++ Owns.handles value) ++ (Owns.handles attr ++ L))
    simp only [List.append_assoc]
    exact .refl _
  have owned' := owned.perm split
  have here' : Local self.sq (key, value) := by
    intro o mem
    apply here o
    show o ∈ Owns.handles key ++ (Owns.handles value ++ Owns.handles attr)
    rw [← List.append_assoc]
    exact List.mem_append_left _ mem
  refine ⟨rawNewMember_takesEffect owned based here reachable made nonnull plain strong isStatic,
    ⟨fun effective refuses => ?_, fun accepted => ?_⟩,
    ⟨fun effective refuses => ?_, fun accepted => ?_⟩⟩
  · obtain ⟨res, w', ran, -, -, refused⟩ := effective
    obtain ⟨v, rfl⟩ := refused refuses
    obtain ⟨w'', ran'⟩ := newSlot_refused owned' based here' nonnull refuses
    rw [ran'] at ran
    cases ran
  · obtain ⟨w', ran, back⟩ := newSlot_accepted owned' based here' reachable made nonnull plain
      strong
      accepted
    exact ⟨_, w', ran, fun _ => back, (fun _ error => by cases error), fun refused =>
      absurd refused accepted⟩
  · obtain ⟨res, w', ran, -, -, refused⟩ := effective
    obtain ⟨v, rfl⟩ := refused refuses
    obtain ⟨w'', ran', -, -⟩ := @rawSet_succeeds env w _ self κ ν _ _ _ _ _ _ key value owned' based
      here' nonnull
    rw [ran'] at ran
    cases ran
  · obtain ⟨w', ran, back⟩ := rawSet_accepted owned' based here' reachable made nonnull plain strong
      accepted
    exact ⟨_, w', ran, fun _ => back, (fun _ error => by cases error), fun refused =>
      absurd refused accepted⟩

end Write

/-- A class with a field, and one with a field of its own that extends it and has an instance. -/
def derivedClass (hash : SQObject → ℕ) (h : Heap) : Heap :=
  let h := (h.newClass hash none).2
  let h := (h.classNewSlot hash 0 (.integer 1) (.integer 5) false).2
  let h := (h.newClass hash (some 0)).2
  let h := (h.classNewSlot hash 1 (.integer 2) (.integer 6) false).2
  (h.createInstance 1).2

/-- The locked class takes a static member from `raw_new_member` and `new_slot`, but `raw_set`,
which would make a field of it, has no effect. -/
theorem write_effective_iff_locked :
    let usual := World.usual .returning
    let w := Function.update usual 0
      { usual 0 with heap := derivedClass (Env.hash .returning) (usual 0).heap }
    TakesEffect .returning w ⟨0, 1⟩ (.integer 3) (.integer 7) true
        (rawNewMember .returning ⟨0, 1⟩ (3 : ℤ) (7 : ℤ) () true) ∧
      TakesEffect .returning w ⟨0, 1⟩ (.integer 3) (.integer 7) true
        (newSlot .returning ⟨0, 1⟩ (3 : ℤ) (7 : ℤ) true) ∧
      ¬ TakesEffect .returning w ⟨0, 1⟩ (.integer 3) (.integer 7) false
        (rawSet .returning ⟨0, 1⟩ (3 : ℤ) (7 : ℤ)) := by
  intro usual w
  have owned : Owned [] w := (owned_opened _ _ _).update rfl rfl
  have based : (w 0).stackbase ≤ (w 0).top := by decide +kernel
  have here : Local 0 ((3, 7, ()) : ℤ × ℤ × Unit) := fun o mem => absurd mem List.not_mem_nil
  have reachable : (w 0).heap.Reachable (Env.hash .returning) := by
    refine .createInstance (.newSlot (.newClass (.newSlot (.newClass
      (World.reachable_usual .returning _ 0) fun b derived => ?_) ?_ (by decide) _ _)
      fun b derived => ?_) ?_ (by decide) _ _) ?_
    · cases derived
    · exact Nat.succ_pos _
    · obtain rfl := Option.some.inj derived
      decide +kernel
    · decide +kernel
    · decide +kernel
  have made : 1 < (w 0).heap.classes.next := by decide +kernel
  have locked : (members w ⟨0, 1⟩).locked = true := by decide +kernel
  have accepted : ¬ (members w ⟨0, 1⟩).Refuses (Env.hash .returning) (.integer 3) (.integer 7)
      true := by
    rintro (⟨-, -, field⟩ | ⟨-, full⟩)
    · cases field
    · exact absurd full (by decide +kernel)
  obtain ⟨always, slot, set⟩ := @write_effective_iff .returning w [] ⟨0, 1⟩ ℤ ℤ Unit _ _ _ _ _ _ _ _
    _ 3 7 () owned based here reachable made (by decide) rfl rfl true
  exact ⟨always, slot.2 accepted, fun effective => set.1 effective (.inl ⟨locked, rfl, rfl⟩)⟩

/-- A class with an instance: `new_slot` and `raw_set` succeed, and there is no member. -/
theorem write_without_effect :
    ((do
        let cls ← new .returning 0
        let _ ← rawInstantiate .returning cls
        let put ← newSlot .returning cls (1 : ℤ) (5 : ℤ) false
        let set ← rawSet .returning cls (1 : ℤ) (5 : ℤ)
        let got : Except CallError Value ← rawGet .returning cls (1 : ℤ)
        pure (put, set, got.toOption)).run (World.usual .returning)).1 =
      .ok (.ok (), .ok (), none) := by
  decide +kernel

end Handle.Class

end Squirrels
