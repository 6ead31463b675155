import Squirrels.Binding.ConvertContract
import Squirrels.Binding.Slots

/-!
# Contracts of the shared bodies

Each body of `Slots` returns to the stack it started on, whatever the C function in it does,
provided the C function leaves the slots that the counts in the body expect.
-/

namespace Squirrels

open Machines

/-- There are `k` free slots above the first `height` ones, which hold the current frame. -/
structure Fits (s₀ : SQVM) (height k : ℕ) : Prop where
  base : s₀.stackbase ≤ height
  free : height + k ≤ s₀.stackSize

instance (s₀ : SQVM) (height k : ℕ) : Decidable (Fits s₀ height k) :=
  decidable_of_iff (s₀.stackbase ≤ height ∧ height + k ≤ s₀.stackSize)
    ⟨fun ⟨base, free⟩ => ⟨base, free⟩, fun fits => ⟨fits.base, fits.free⟩⟩

/-- An operation on `vm` that consumes the given handles leaves the stack as it was, and the live
handles are the ones of its result and those it did not consume. -/
def Balanced (env : Env) (G H N : Prop) (w₀ : World) (vm : VmId) (st : List SQObject)
    (consumed : List Object) {α : Type} [Owns α] (m : Act World α) : Prop :=
  ∀ L, Triple (At env G H w₀ vm st (consumed ++ L)) m
    (fun r => Later env G H w₀ vm st (Owns.handles r ++ L)) (Failed env G N w₀ vm L)

/-- An operation that may panic, and may leave other slots than it found. -/
def Accounted (env : Env) (G H : Prop) (w₀ : World) (vm : VmId) (st : List SQObject)
    (consumed : List Object) {α : Type} [Owns α] (m : Act World α) : Prop :=
  ∀ L, Triple (At env G H w₀ vm st (consumed ++ L)) m
    (fun r w => ∃ stack, Later env G H w₀ vm stack (Owns.handles r ++ L) w)
    (Failed env G False w₀ vm L)

theorem Balanced.accounted {env : Env} {G H : Prop} {w₀ : World} {vm : VmId} {st : List SQObject}
    {consumed : List Object} {α : Type} [Owns α] {m : Act World α}
    (balanced : Balanced env G H False w₀ vm st consumed m) :
    Accounted env G H w₀ vm st consumed m := fun L =>
  Triple.post (balanced L) fun _ _ at_ => ⟨st, at_⟩

/-- An operation that makes no call. -/
theorem Balanced.of_at {env : Env} {G H N : Prop} {w₀ : World} {vm : VmId} {st : List SQObject}
    {consumed : List Object} {α : Type} [Owns α] {m : Act World α}
    (spec : ∀ L, Triple (At env G H w₀ vm st (consumed ++ L)) m
      (fun r => At env G H w₀ vm st (Owns.handles r ++ L)) (Failed env G N w₀ vm L)) :
    Balanced env G H N w₀ vm st consumed m := fun L =>
  Triple.post (spec L) fun _ _ at_ => at_.later

section Conditions

variable {env : Env} {s₀ : SQVM} {height k : ℕ} {st : List SQObject}

theorem Fits.space (fits : Fits s₀ st.length k) (above : List SQObject) (lt : above.length < k) :
    Space s₀ (above ++ st) := by
  have := fits.base
  have := fits.free
  constructor <;> rw [List.length_append] <;> omega

end Conditions

section Bodies

variable {env : Env} {G H N : Prop} {w₀ : World} {st : List SQObject} {L : List Object}
  {t : RefType} {κ ν : Type} [Owns κ] [Owns ν] {self : Handle t}

/-- Reading the type leaves the stack as it was; `P` relates the result to the slot, as far as its
first argument promises what the slot is. -/
def Decoded (ν : Type) [Owns ν] [FromSquirrel ν]
    (P : Prop → VmId → SQObject → Except Error ν → Prop) : Prop :=
  ∀ {env : Env} {G H N : Prop} {w₀ : World} {vm : VmId} {stack : List SQObject} {L : List Object}
    {idx : ℤ} {o : SQObject}, (H → Space (w₀ vm) stack) → (H → Slot (w₀ vm) stack idx o) →
    Triple (At env G H w₀ vm stack L) (FromSquirrel.fromStack env idx vm)
      (fun (r : Except Error ν) w => P H vm o r ∧ At env G H w₀ vm stack (Owns.handles r ++ L) w)
      (Failed env G N w₀ vm L)

/-- Reading the type succeeds on the objects in `good`. -/
def Decodes (ν : Type) [Owns ν] [FromSquirrel ν] (good : SQObject → Prop) : Prop :=
  Decoded ν fun H _ o r => H → good o → ∃ a, r = .ok a

theorem decoded_any [FromSquirrel ν] [LawfulFrom ν] : Decoded ν fun _ _ _ _ => True :=
  fun space slot => Triple.post (LawfulFrom.read space slot) fun _ _ at_ => ⟨trivial, at_⟩

/-- A value that is read belongs to the machine. -/
theorem decoded_value : Decoded Value fun _ vm _ r => ∀ v, r = .ok v → Local vm v := by
  intro env G H N w₀ vm stack L idx o space slot
  refine Triple.bind (fromStack_at slot) fun x => Triple.of_pre ?_
  rintro ⟨here, -⟩
  refine Triple.bind (intoValue_at here space) fun v => Triple.of_pre fun local_ =>
    Triple.pure fun _ at_ => ⟨fun v' eq => ?_, at_⟩
  obtain rfl := Except.ok.inj eq
  exact local_

/-- A handle that is read belongs to the machine. -/
theorem decoded_handle (t : RefType) : Decoded (Handle t) fun H vm o r =>
    (H → (∃ q, o = .ref t q) → ∃ a, r = .ok a) ∧ ∀ a, r = .ok a → a.sq = vm :=
  fun _ slot => Triple.post (readHandle_at slot) fun _ _ ⟨⟨read, here⟩, at_⟩ =>
    ⟨⟨fun h ⟨q, eq⟩ => ⟨_, read q h eq⟩, here⟩, at_⟩

theorem decodes_handle (t : RefType) : Decodes (Handle t) fun o => ∃ r, o = .ref t r :=
  fun space slot => Triple.post (decoded_handle t space slot) fun _ _ at_ => ⟨at_.1.1, at_.2⟩

theorem decodes_optionHandle (t : RefType) :
    Decodes (Option (Handle t)) fun o => o = .null ∨ ∃ r, o = .ref t r := by
  intro env G H N w₀ vm stack L idx o space slot
  refine Triple.post (readOption_at (P := fun r => H → (∃ q, o = .ref t q) → ∃ a, r = .ok a) slot
    fun L => decodes_handle t space slot) fun r w ⟨read, at_⟩ => ⟨fun h good => ?_, at_⟩
  rcases read with ⟨rfl, -⟩ | ⟨r', fine, rfl, other⟩
  · exact ⟨none, rfl⟩
  · obtain ⟨a, rfl⟩ := fine h (good.resolve_left (other h))
    exact ⟨some a, rfl⟩

theorem takeTop_of {vm : VmId} {o : SQObject} [FromSquirrel ν]
    {P : Prop → VmId → SQObject → Except Error ν → Prop} (decoded : Decoded ν P)
    (above : List SQObject) {n : ℕ} (count : above.length + 1 = n)
    (fits : H → Fits (w₀ vm) st.length (n + 1)) :
    Triple (At env G H w₀ vm (o :: above ++ st) L) (Handle.takeTop env vm n)
      (fun (r : Except Error ν) w => P H vm o r ∧ At env G H w₀ vm st (Owns.handles r ++ L) w)
      (Failed env G N w₀ vm L) := by
  have top : (o :: above).length = n := by simp; omega
  have base : H → (w₀ vm).stackbase ≤ (above ++ st).length := fun h => by
    have := (fits h).base
    rw [List.length_append]
    omega
  refine Triple.bind (decoded (fun h => (fits h).space (o :: above) (by omega))
    fun h => slot_top (base h)) fun r => Triple.of_pre fun good => ?_
  refine Triple.bind (unwindValue_at (pop_at n (by omega) fun h => ?_)) fun _ =>
    Triple.pure fun _ at_ => ⟨good, ?_⟩
  · have := (fits h).base
    rw [List.length_append]
    omega
  · rwa [← top, List.drop_left] at at_

theorem takeTop_at {vm : VmId} {o : SQObject} [FromSquirrel ν] [LawfulFrom ν]
    (above : List SQObject) {n : ℕ} (count : above.length + 1 = n)
    (fits : H → Fits (w₀ vm) st.length (n + 1)) :
    Triple (At env G H w₀ vm (o :: above ++ st) L) (Handle.takeTop env vm n)
      (fun (r : Except Error ν) => At env G H w₀ vm st (Owns.handles r ++ L))
      (Failed env G N w₀ vm L) :=
  Triple.post (takeTop_of decoded_any above count fits) fun _ _ at_ => at_.2

/-- An object with the type of a handle is a reference. -/
theorem typed_ref {o : SQObject} {t : RefType} {r : ℕ} (typed : o.type = (SQObject.ref t r).type) :
    ∃ q, o = .ref t q := by
  cases o <;> simp_all [SQObject.type]

theorem expectOk_at {vm : VmId} {stack : List SQObject} {r : Except Error ν} {message : String}
    (fine : H → ∃ a, r = .ok a) :
    Triple (At env G H w₀ vm stack (Owns.handles r ++ L)) (expectOk r message)
      (fun a => At env G H w₀ vm stack (Owns.handles a ++ L)) (Failed env G N w₀ vm L) := by
  cases r with
  | ok a => exact Triple.pure fun _ at_ => at_
  | error e =>
    refine At.panic fun h => ?_
    obtain ⟨a, absurd⟩ := fine h
    simp at absurd

/-- The exits of a C function that reads a slot. -/
def Reads (env : Env) (G H : Prop) (s₀ : SQVM) (shown : SQObject → Prop) (self : SQObject)
    (st : List SQObject) (read : Act SQVM SQRESULT) : Prop :=
  ∀ key, (H → shown key) → Leaves env G H s₀ (key :: self :: st) read
    (fun res v => match res with | .ok => v :: self :: st | .error => self :: st)
    (fun _ _ => True)

theorem getWith_at [IntoSquirrel κ] [LawfulInto κ] [FromSquirrel ν]
    {P : VmId → Except Error ν → Prop} (decoded : Decoded ν fun _ vm _ r => P vm r)
    {read : ℤ → Act SQVM SQRESULT} (key : κ) (fits : H → Fits (w₀ self.sq) st.length 3)
    (here : N → Local self.sq key)
    (reads : Reads env G H (w₀ self.sq) (LawfulInto.Shows key) self.obj st (read (-2))) :
    Triple (At env G H w₀ self.sq st (Owns.handles key ++ L)) (self.getWith env read key)
      (fun (r : Except CallError ν) w => (∀ v, r = .ok v → P self.sq (.ok v)) ∧
        Later env G H w₀ self.sq st (Owns.handles r ++ L) w)
      (Failed env G N w₀ self.sq L) := by
  refine Triple.bind (pushObject_at rfl fun h => (fits h).space [] (by simp)) fun _ => ?_
  refine Triple.bind (LawfulInto.push key (fun h => (fits h).space [self.obj] (by simp))
    fun _ => here) fun _ => Triple.exists_pre fun k => Triple.of_pre fun shown => ?_
  refine Triple.bind (At.leaves (reads k shown)) fun ret => Triple.exists_pre fun v =>
    Triple.of_pre fun _ => Later.pre fun H' less => ?_
  have fits' : H' → Fits (w₀ self.sq) st.length 3 := fun h => fits (less h)
  refine Triple.bind (toRuntimeError_at ret 1 [self.obj] (fun _ => rfl)
    fun h => (fits' h).space [] (by simp)) fun e => ?_
  cases e with
  | error e =>
    exact Triple.pure fun _ at_ => ⟨fun _ absurd => by simp at absurd, H', less, at_⟩
  | ok _ =>
    refine Triple.of_pre fun _ => Triple.bind (takeTop_of decoded [self.obj] rfl fits') fun r =>
      Triple.of_pre fun good => Triple.pure fun _ at_ => ?_
    cases r with
    | error e => exact ⟨fun _ absurd => by simp [liftError] at absurd, H', less, at_⟩
    | ok a => exact ⟨fun v eq => Except.ok.inj eq ▸ good, H', less, at_⟩

theorem getWith_balanced [IntoSquirrel κ] [LawfulInto κ] [FromSquirrel ν] [LawfulFrom ν]
    {read : ℤ → Act SQVM SQRESULT} (key : κ) (fits : H → Fits (w₀ self.sq) st.length 3)
    (here : N → Local self.sq key)
    (reads : Reads env G H (w₀ self.sq) (LawfulInto.Shows key) self.obj st (read (-2))) :
    Balanced env G H N w₀ self.sq st (Owns.handles key)
      (self.getWith env read key : Act World (Except CallError ν)) := fun _ =>
  Triple.post (getWith_at decoded_any key fits here reads) fun _ _ at_ => at_.2

/-- The exits of a C function that writes a slot; it leaves `popped` slots above the stack of the
operation when it fails. -/
def Writes (env : Env) (G H : Prop) (s₀ : SQVM) (shown : SQObject → Prop) (self : SQObject)
    (st : List SQObject) (write : Act SQVM SQRESULT) (popped : ℕ) : Prop :=
  ∀ val key, (H → shown key) → Leaves env G H s₀ (val :: key :: self :: st) write
    (fun res (above : List SQObject) => match res with | .ok => self :: st | .error => above ++ st)
    (fun _ above => above.length = popped)

theorem setWith_balanced [IntoSquirrel κ] [LawfulInto κ] [IntoSquirrel ν] [LawfulInto ν]
    {write : ℤ → Act SQVM SQRESULT} {popped : ℕ} (key : κ) (value : ν)
    (fits : H → Fits (w₀ self.sq) st.length 3) (here : N → Local self.sq (key, value))
    (writes : Writes env G H (w₀ self.sq) (LawfulInto.Shows key) self.obj st (write (-3)) popped) :
    Balanced env G H N w₀ self.sq st (Owns.handles (key, value))
      (self.setWith env write popped key value) := by
  intro L
  have apart : Owns.handles (key, value) ++ L = Owns.handles key ++ (Owns.handles value ++ L) :=
    List.append_assoc _ _ _
  rw [apart]
  refine Triple.bind (pushObject_at rfl fun h => (fits h).space [] (by simp)) fun _ => ?_
  refine Triple.bind (unwindValue_at (LawfulInto.push key
    (fun h => (fits h).space [self.obj] (by simp)) fun _ n => (here n).fst)) fun _ =>
      Triple.exists_pre fun k => Triple.of_pre fun shown => ?_
  refine Triple.bind (LawfulInto.push value (fun h => (fits h).space [k, self.obj] (by simp))
    fun _ n => (here n).snd) fun _ => Triple.exists_pre fun v => Triple.of_pre fun _ => ?_
  refine Triple.bind (At.leaves (writes v k shown)) fun ret => Triple.exists_pre fun above =>
    Triple.of_pre fun length => Later.pre fun H' less => ?_
  have space : H' → Space (w₀ self.sq) st := fun h => (fits (less h)).space [] (by simp)
  refine Triple.bind (toRuntimeError_at ret popped above (fun h => length (less h)) space)
    fun e => ?_
  cases e with
  | error e => exact Triple.pure fun _ at_ => ⟨H', less, at_⟩
  | ok _ =>
    refine Triple.of_pre fun _ => Triple.bind (pop_at 1 one_pos fun h => ?_) fun _ =>
      Triple.pure fun _ at_ => ⟨H', less, at_⟩
    have := (space h).base
    simp
    omega

/-- The exits of a C function that pushes an object above `self`. -/
def Makes (env : Env) (G H : Prop) (s₀ : SQVM) (self : SQObject) (st : List SQObject)
    (make : Act SQVM SQRESULT) (good : SQObject → Prop) : Prop :=
  Exits env G H s₀ (self :: st) make
    (fun res o => match res with | .ok => o :: self :: st | .error => self :: st)
    (fun res o => res = .ok ∧ good o)

theorem makeWith_at [FromSquirrel ν] {good : SQObject → Prop} (decodes : Decodes ν good)
    {make : ℤ → Act SQVM SQRESULT} {failed unexpected : String}
    (fits : H → Fits (w₀ self.sq) st.length 3)
    (makes : Makes env G H (w₀ self.sq) self.obj st (make (-1)) good) :
    Triple (At env G H w₀ self.sq st L) (self.makeWith env make failed unexpected)
      (fun (a : ν) => At env G H w₀ self.sq st (Owns.handles a ++ L))
      (Failed env G N w₀ self.sq L) := by
  refine Triple.bind (pushObject_at rfl fun h => (fits h).space [] (by simp)) fun _ => ?_
  refine Triple.bind (At.exits makes) fun ret => Triple.exists_pre fun o =>
    Triple.of_pre fun made => ?_
  refine Triple.bind (At.ensure fun h => (made h).1) fun _ => Triple.of_pre fun ok => ?_
  subst ok
  refine Triple.bind (takeTop_of decodes [self.obj] rfl fits) fun r =>
    Triple.of_pre fun fine => ?_
  exact expectOk_at fun h => fine h (made h).2

theorem actWith_at {act : ℤ → Act SQVM SQRESULT} {Φ : SQRESULT → Unit → Prop}
    (fits : H → Fits (w₀ self.sq) st.length 1)
    (acts : Exits env G H (w₀ self.sq) (self.obj :: st) (act (-1))
      (fun _ (_ : Unit) => self.obj :: st) Φ) :
    Triple (At env G H w₀ self.sq st L) (self.actWith env act)
      (fun r => At env G H w₀ self.sq st (Owns.handles r ++ L)) (Failed env G N w₀ self.sq L) := by
  have space : H → Space (w₀ self.sq) st := fun h => (fits h).space [] (by simp)
  refine Triple.bind (pushObject_at rfl space) fun _ => ?_
  refine Triple.bind (At.exits acts) fun ret => Triple.exists_pre fun _ =>
    Triple.of_pre fun _ => ?_
  refine Triple.bind (Triple.pre (toRuntimeError_at ret 1 (k := self.obj :: st) [self.obj]
    (fun _ => rfl) space) fun _ at_ => ?_) fun e => ?_
  · cases ret <;> exact at_
  cases e with
  | error e => exact Triple.pure fun _ at_ => at_
  | ok _ =>
    refine Triple.of_pre fun _ => Triple.bind (pop_at 1 one_pos fun h => ?_) fun _ =>
      Triple.pure fun _ at_ => at_
    have := (fits h).base
    simp
    omega

theorem doWith_at {act : ℤ → Act SQVM SQRESULT} {failed : String}
    (fits : H → Fits (w₀ self.sq) st.length 1)
    (acts : Exits env G H (w₀ self.sq) (self.obj :: st) (act (-1))
      (fun _ (_ : Unit) => self.obj :: st) (fun res _ => res = .ok)) :
    Triple (At env G H w₀ self.sq st L) (self.doWith act failed)
      (fun _ => At env G H w₀ self.sq st L) (Failed env G N w₀ self.sq L) := by
  refine Triple.bind (pushObject_at rfl fun h => (fits h).space [] (by simp)) fun _ => ?_
  refine Triple.bind (At.exits acts) fun ret => Triple.exists_pre fun _ =>
    Triple.of_pre fun done => ?_
  refine Triple.bind (At.ensure fun h => done h) fun _ => Triple.of_pre fun _ => ?_
  refine Triple.post (pop_at 1 one_pos fun h => ?_) fun _ _ at_ => at_
  have := (fits h).base
  simp
  omega

theorem len_at (fits : H → Fits (w₀ self.sq) st.length 1) :
    Triple (At env G H w₀ self.sq st L) self.len (fun _ => At env G H w₀ self.sq st L)
      (Failed env G N w₀ self.sq L) := by
  refine Triple.bind (pushObject_at rfl fun h => (fits h).space [] (by simp)) fun _ => ?_
  refine Triple.bind (At.exits (Api.sqGetsize_exits (-1))) fun len => Triple.exists_pre fun _ =>
    Triple.of_pre fun _ => ?_
  refine Triple.bind (pop_at 1 one_pos fun h => ?_) fun _ => Triple.pure fun _ at_ => at_
  have := (fits h).base
  simp
  omega

theorem takePushed_of {vm : VmId} {o : SQObject} [FromSquirrel ν]
    {P : Prop → VmId → SQObject → Except Error ν → Prop} (decoded : Decoded ν P)
    {unexpected : String} (fits : H → Fits (w₀ vm) st.length 2)
    (fine : ∀ r, P H vm o r → H → ∃ a, r = .ok a) :
    Triple (At env G H w₀ vm (o :: st) L) (takePushed env vm unexpected)
      (fun (a : ν) w => P H vm o (.ok a) ∧ At env G H w₀ vm st (Owns.handles a ++ L) w)
      (Failed env G N w₀ vm L) := by
  have base : H → (w₀ vm).stackbase ≤ st.length := fun h => (fits h).base
  refine Triple.bind (decoded (fun h => (fits h).space [o] (by simp))
    fun h => slot_top (base h)) fun r => Triple.of_pre fun read => ?_
  refine Triple.bind (unwindValue_at (pop_at 1 one_pos fun h => ?_)) fun _ => ?_
  · have := base h
    simp
    omega
  cases r with
  | ok a => exact Triple.pure fun _ at_ => ⟨read, at_⟩
  | error e => exact At.panic fun h => by simpa using fine _ read h

theorem takePushed_at {vm : VmId} {o : SQObject} [FromSquirrel ν] {good : SQObject → Prop}
    (decodes : Decodes ν good) {unexpected : String} (fits : H → Fits (w₀ vm) st.length 2)
    (fine : H → good o) :
    Triple (At env G H w₀ vm (o :: st) L) (takePushed env vm unexpected)
      (fun (a : ν) => At env G H w₀ vm st (Owns.handles a ++ L)) (Failed env G N w₀ vm L) :=
  Triple.post (takePushed_of decodes fits fun _ read h => read h (fine h)) fun _ _ at_ => at_.2

/-- `from_stack(..).expect(..)` before the slot is popped. -/
theorem expectPushed_of {vm : VmId} {o : SQObject} [FromSquirrel ν]
    {P : Prop → VmId → SQObject → Except Error ν → Prop} (decoded : Decoded ν P)
    (above : List SQObject) {n : ℕ} (count : above.length + 1 = n) {unexpected : String}
    (fits : H → Fits (w₀ vm) st.length (n + 1)) (fine : ∀ r, P H vm o r → H → ∃ a, r = .ok a) :
    Triple (At env G H w₀ vm (o :: above ++ st) L)
      (do
        let r : Except Error ν ← FromSquirrel.fromStack env (-1) vm
        let obj ← expectOk r unexpected
        (Squirrel.pop vm n).onUnwind (dropValue obj)
        pure obj)
      (fun a w => P H vm o (.ok a) ∧ At env G H w₀ vm st (Owns.handles a ++ L) w)
      (Failed env G N w₀ vm L) := by
  have top : (o :: above).length = n := by simp; omega
  have base : H → (w₀ vm).stackbase ≤ (above ++ st).length := fun h => by
    have := (fits h).base
    rw [List.length_append]
    omega
  refine Triple.bind (decoded (fun h => (fits h).space (o :: above) (by omega))
    fun h => slot_top (base h)) fun r => Triple.of_pre fun read => ?_
  cases r with
  | error e =>
    exact Triple.bind (Q := fun _ _ => False) (At.panic fun h => by simpa using fine _ read h)
      fun _ _ absurd => absurd.elim
  | ok a =>
    refine Triple.bind (Q := fun b w => b = a ∧ At env G H w₀ vm (o :: above ++ st)
      (Owns.handles a ++ L) w) (Triple.pure fun _ at_ => ⟨rfl, at_⟩) fun b =>
        Triple.of_pre fun eq => ?_
    subst eq
    refine Triple.bind (unwindValue_at (pop_at n (by omega) fun h => ?_)) fun _ =>
      Triple.pure fun _ at_ => ⟨read, ?_⟩
    · have := (fits h).base
      rw [List.length_append]
      omega
    · rwa [← top, List.drop_left] at at_

theorem expectPushed_at {vm : VmId} {o : SQObject} [FromSquirrel ν] {good : SQObject → Prop}
    (decodes : Decodes ν good) (above : List SQObject) {n : ℕ} (count : above.length + 1 = n)
    {unexpected : String} (fits : H → Fits (w₀ vm) st.length (n + 1)) (fine : H → good o) :
    Triple (At env G H w₀ vm (o :: above ++ st) L)
      (do
        let r : Except Error ν ← FromSquirrel.fromStack env (-1) vm
        let obj ← expectOk r unexpected
        (Squirrel.pop vm n).onUnwind (dropValue obj)
        pure obj)
      (fun a => At env G H w₀ vm st (Owns.handles a ++ L)) (Failed env G N w₀ vm L) :=
  Triple.post (expectPushed_of decodes above count fits fun _ read h => read h (fine h))
    fun _ _ at_ => at_.2

end Bodies

end Squirrels
