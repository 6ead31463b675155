import Squirrels.Binding.Exact

/-!
# What the conversions compute

For the types of the crate, what `from_stack` makes of an object and `from_squirrel` of a value, and
the object that `push_into_stack` pushes. The two ways to decode agree except on numbers, and
decoding undoes encoding.
-/

namespace Squirrels

open Machines

/-- A conversion that found a result or did not. -/
def expecting {α : Type} (expected : String) : Option α → Except Error α
  | some a => .ok a
  | none => .error (.type expected)

/-- What the two ways to decode compute. -/
class ExactFrom (α : Type) [Owns α] [FromSquirrel α] where
  /-- What `from_stack` makes of an object. -/
  decode : VmId → SQObject → Except Error α
  /-- What `from_squirrel` makes of a value. -/
  convert : Value → Except Error α
  read : ∀ {env : Env} {w₀ : World} {vm : VmId} {s : SQVM} {L : List Object} {idx : ℤ},
    s.ValidIdx idx → s.stackbase ≤ s.top →
    ∃ e, Yields w₀ vm s L (FromSquirrel.fromStack env idx vm) (decode vm (s.stackGet idx))
      (s.withError e) (Owns.handles (decode vm (s.stackGet idx)) ++ L)
  converted : ∀ {env : Env} {w₀ : World} {vm : VmId} {s : SQVM} {L : List Object} {v : Value},
    Local vm v →
    Yields w₀ vm s (Owns.handles v ++ L) (FromSquirrel.fromSquirrel env v vm) (convert v) s
      (Owns.handles (convert v) ++ L)

/-- What the two ways to encode compute. -/
class ExactInto (α : Type) [Owns α] [IntoSquirrel α] where
  /-- The object that `push_into_stack` pushes. -/
  encode : α → SQObject
  /-- The value that `into_squirrel` makes. -/
  value : VmId → α → Value
  slot_value : ∀ vm a, (value vm a).slot = encode a
  local_value : ∀ {vm a}, Local vm a → Local vm (value vm a)
  pushed : ∀ {env : Env} {w₀ : World} {vm : VmId} {s : SQVM} {L : List Object} {a : α},
    s.stackbase ≤ s.top → Local vm a →
    Yields w₀ vm s (Owns.handles a ++ L) (IntoSquirrel.pushIntoStack env a vm) ()
      (s.push (encode a)) L
  made : ∀ {env : Env} {w₀ : World} {vm : VmId} {s : SQVM} {L : List Object} {a : α},
    s.stackbase ≤ s.top → Local vm a →
    Yields w₀ vm s (Owns.handles a ++ L) (IntoSquirrel.intoSquirrel env a vm) (value vm a) s
      (Owns.handles (value vm a) ++ L)

section Scalars

variable {env : Env} {w₀ : World} {vm : VmId} {s s' : SQVM} {L : List Object} {idx : ℤ} {α : Type}

/-- A result without handles leaves the live ones as they are. -/
theorem handles_free [Owns α] (free : ∀ a : α, Owns.handles a = []) (r : Except Error α) :
    Owns.handles r = [] := by
  cases r with
  | ok a => exact free a
  | error e => rfl

theorem scalarFromStack_yields [Owns α] (free : ∀ a : α, Owns.handles a = []) {expected : String}
    {read : Act SQVM (Option α)} {found : Option α} (valid : s.ValidIdx idx)
    (computes : Computes read s found s') (root : s'.root = s.root) :
    Yields w₀ vm s L (scalarFromStack expected idx vm read) (expecting expected found) s'
      (Owns.handles (expecting expected found) ++ L) := by
  rw [handles_free free]
  apply Yields.bind (Yields.assertValidIdx valid)
  apply Yields.bind (Yields.machine computes root)
  cases found with
  | some a => exact Yields.pure _
  | none => exact Yields.pure _

theorem scalarFromSquirrel_yields [Owns α] (free : ∀ a : α, Owns.handles a = [])
    {expected : String} {select : Value → Option α} {v : Value} :
    Yields w₀ vm s (Owns.handles v ++ L) (scalarFromSquirrel expected select v)
      (expecting expected (select v)) s (Owns.handles (expecting expected (select v)) ++ L) := by
  rw [handles_free free]
  apply Yields.bind (Yields.dropValue v)
  cases select v with
  | some a => exact Yields.pure _
  | none => exact Yields.pure _

end Scalars

/-! ## Scalars -/

namespace SQObject

/-- What `sq_getinteger` reads. -/
def asInteger : SQObject → Option ℤ
  | .bool b => some (if b then 1 else 0)
  | o => if o.isNumeric then some (toInteger o) else none

/-- What `sq_getfloat` reads. -/
def asFloat (o : SQObject) : Option (BitVec 32) := if o.isNumeric then some (toFloat o) else none

/-- What `sq_getbool` reads. -/
def asBool : SQObject → Option Bool
  | .bool b => some b
  | _ => none

/-- What `sq_getuserpointer` reads. -/
def asUserPointer : SQObject → Option ℕ
  | .userPointer p => some p
  | _ => none

/-- Whether the object is null. -/
def asNull : SQObject → Option Unit
  | .null => some ()
  | _ => none

end SQObject

namespace Api

variable {env : Env} {s : SQVM}

theorem sqGetinteger_computes (idx : ℤ) (s : SQVM) :
    Computes (sqGetinteger idx) s (s.stackGet idx).asInteger s := by
  intro refs flag
  refine ⟨flag, ?_⟩
  unfold sqGetinteger
  rw [Act.run_bind_of_ok (Act.run_get _)]
  show (match s.stackGet idx with
    | .bool b => _
    | o => _ : Act SQVM (Option ℤ)).run _ = _
  cases s.stackGet idx <;> rfl

theorem sqGetfloat_computes (idx : ℤ) (s : SQVM) :
    Computes (sqGetfloat idx) s (s.stackGet idx).asFloat s := fun _ flag => ⟨flag, rfl⟩

theorem sqGetbool_computes (idx : ℤ) (s : SQVM) :
    Computes (sqGetbool idx) s (s.stackGet idx).asBool s := by
  intro refs flag
  refine ⟨flag, ?_⟩
  unfold sqGetbool
  rw [Act.run_bind_of_ok (Act.run_get _)]
  show (match s.stackGet idx with
    | .bool b => _
    | _ => _ : Act SQVM (Option Bool)).run _ = _
  cases s.stackGet idx <;> rfl

theorem wrongArgument_computes (expected : SQObjectType) (o : SQObject) (s : SQVM) :
    ∃ e, Computes (wrongArgument env expected o) s .error (s.withError e) :=
  ⟨_, fun _ flag => ⟨flag, rfl⟩⟩

/-- A type error is left behind when the slot holds something else. -/
theorem sqGetuserpointer_computes (env : Env) (idx : ℤ) (s : SQVM) :
    ∃ e, Computes (sqGetuserpointer env idx) s (s.stackGet idx).asUserPointer (s.withError e) := by
  have found : ∀ refs flag,
      { s with refs := refs, overflowed := flag }.stackGet idx = s.stackGet idx := fun _ _ => rfl
  obtain ⟨e, wrong⟩ := @wrongArgument_computes env .userPointer (s.stackGet idx) s
  have failed : Computes (do
      let _ ← wrongArgument env .userPointer (s.stackGet idx)
      pure (none : Option ℕ)) s none (s.withError e) := wrong.bind (Computes.pure none _)
  rcases slot : s.stackGet idx with _ | _ | _ | _ | p | _ | ⟨t, r⟩
  case userPointer =>
    refine ⟨s.lasterror, Computes.get_bind fun refs flag => ?_⟩
    rw [found refs flag, slot]
    exact ⟨flag, rfl⟩
  all_goals
    rw [slot] at failed
    refine ⟨e, Computes.get_bind fun refs flag => ?_⟩
    rw [found refs flag, slot]
    exact failed refs flag

end Api

section Instances

variable {env : Env} {w₀ : World} {vm : VmId} {s : SQVM} {L : List Object} {idx : ℤ}

instance : ExactFrom ℤ where
  decode _ o := expecting "integer" o.asInteger
  convert v := expecting "integer" (match v with | .integer n => some n | _ => none)
  read valid _ :=
    ⟨_, scalarFromStack_yields (fun _ => rfl) valid (Api.sqGetinteger_computes _ _) rfl⟩
  converted _ := scalarFromSquirrel_yields fun _ => rfl

instance : ExactFrom (BitVec 32) where
  decode _ o := expecting "float" o.asFloat
  convert v := expecting "float" (match v with | .float bits => some bits | _ => none)
  read valid _ :=
    ⟨_, scalarFromStack_yields (fun _ => rfl) valid (Api.sqGetfloat_computes _ _) rfl⟩
  converted _ := scalarFromSquirrel_yields fun _ => rfl

instance : ExactFrom Bool where
  decode _ o := expecting "bool" o.asBool
  convert v := expecting "bool" (match v with | .bool b => some b | _ => none)
  read valid _ :=
    ⟨_, scalarFromStack_yields (fun _ => rfl) valid (Api.sqGetbool_computes _ _) rfl⟩
  converted _ := scalarFromSquirrel_yields fun _ => rfl

instance : ExactFrom UserPointer where
  decode _ o := expecting "userpointer" (o.asUserPointer.map .mk)
  convert v := expecting "userpointer" (match v with | .userPointer p => some ⟨p⟩ | _ => none)
  read {env _ _ s _ idx} valid _ := by
    obtain ⟨e, computes⟩ := Api.sqGetuserpointer_computes env idx s
    exact ⟨e, scalarFromStack_yields (fun _ => rfl) valid (computes.bind (Computes.pure _ _)) rfl⟩
  converted _ := scalarFromSquirrel_yields fun _ => rfl

instance : ExactFrom Unit where
  decode _ o := expecting "null" o.asNull
  convert v := expecting "null" (match v with | .null => some () | _ => none)
  read {_ _ _ s _ idx} valid _ := by
    refine ⟨s.lasterror, ?_⟩
    rw [handles_free fun _ => rfl]
    apply Yields.bind (Yields.fromStack valid)
    apply Yields.bind (Yields.drop _)
    cases s.stackGet idx <;> exact Yields.pure _
  converted _ := scalarFromSquirrel_yields fun _ => rfl

/-! ## Handles, values and options -/

theorem assertSameVm_yields {a b : VmId} (same : a = b) :
    Yields w₀ vm s L (Squirrel.assertSameVm a b) () s L := Yields.ensure same

/-- The object as a handle, if it has the tag. -/
def SQObject.asHandle (vm : VmId) (t : RefType) : SQObject → Option (Handle t)
  | .ref t' r => if t' = t then some ⟨vm, r⟩ else none
  | _ => none

instance {t : RefType} : ExactFrom (Handle t) where
  decode vm o := expecting t.name (o.asHandle vm t)
  convert v := expecting t.name (v.ofType t)
  read {_ _ vm s _ idx} valid _ := by
    refine ⟨s.lasterror, ?_⟩
    apply Yields.bind (Yields.fromStack valid)
    have typed : (⟨vm, s.stackGet idx⟩ : Object).ofType t = (s.stackGet idx).asHandle vm t := by
      cases s.stackGet idx <;> rfl
    rw [typed]
    rcases slot : s.stackGet idx with _ | _ | _ | _ | _ | _ | ⟨t', r⟩
    case ref =>
      by_cases same : t' = t
      · subst same
        simp only [SQObject.asHandle, if_true]
        exact Yields.pure _
      · simp only [SQObject.asHandle, if_neg same]
        exact Yields.bind (Yields.drop _) (Yields.pure _)
    all_goals exact Yields.bind (Yields.drop _) (Yields.pure _)
  converted {_ _ vm s L v} here := by
    cases v with
    | handle t' h =>
      by_cases same : t' = t
      · subst same
        have own : h.sq = vm := here h.object (by simp [Owns.handles, Value.asObject])
        have typed : (Value.handle t' h).ofType t' = some h := dif_pos rfl
        simp only [FromSquirrel.fromSquirrel, typed]
        exact Yields.bind (Yields.onUnwind (assertSameVm_yields own)) (Yields.pure _)
      · have typed : (Value.handle t' h).ofType t = none := dif_neg same
        simp only [FromSquirrel.fromSquirrel, typed]
        exact Yields.bind (Yields.dropValue _) (Yields.pure _)
    | _ => exact Yields.bind (Yields.dropValue _) (Yields.pure _)

/-- The object as a string. -/
def SQObject.asString (vm : VmId) : SQObject → Option StringHandle
  | .string bytes => some ⟨vm, bytes, bytes⟩
  | _ => none

instance : ExactFrom StringHandle where
  decode vm o := expecting "string" (o.asString vm)
  convert v := expecting "string" (match v with | .string s => some s | _ => none)
  read {env _ vm s L idx} valid _ := by
    refine ⟨s.lasterror, ?_⟩
    apply Yields.bind (Yields.fromStack valid)
    rcases slot : s.stackGet idx with _ | _ | _ | _ | _ | bytes | ⟨t', r⟩
    case string =>
      apply Yields.bind (Yields.machine (Api.sqGetstringandsize_computes slot) rfl)
      exact Yields.pure _
    all_goals exact Yields.bind (Yields.drop _) (Yields.pure _)
  converted {_ _ vm s L v} here := by
    cases v with
    | string t =>
      have own : t.sq = vm := here t.object (by simp [Owns.handles, Value.asObject])
      exact Yields.bind (Yields.onUnwind (assertSameVm_yields own)) (Yields.pure _)
    | _ => exact Yields.bind (Yields.dropValue _) (Yields.pure _)

theorem valueAssertSameVm_yields {v : Value} (here : Local vm v) :
    Yields w₀ vm s L (v.assertSameVm vm) () s L := by
  cases v with
  | string t => exact assertSameVm_yields (here t.object (by simp [Owns.handles, Value.asObject]))
  | handle t h => exact assertSameVm_yields (here h.object (by simp [Owns.handles, Value.asObject]))
  | _ => exact Yields.pure _

instance : ExactFrom Value where
  decode vm o := .ok (o.toValue vm)
  convert v := .ok v
  read valid based := ⟨_, Yields.valueFromStack valid based⟩
  converted here :=
    Yields.bind (Yields.onUnwind (valueAssertSameVm_yields here)) (Yields.pure _)

/-- What `Option` makes of an object: null is nothing. -/
def decodeOption {α : Type} (decode : SQObject → Except Error α) :
    SQObject → Except Error (Option α)
  | .null => .ok none
  | o => (decode o).map some

/-- What `Option` makes of a value. -/
def convertOption {α : Type} (convert : Value → Except Error α) : Value → Except Error (Option α)
  | .null => .ok none
  | v => (convert v).map some

instance {α : Type} [Owns α] [FromSquirrel α] [ExactFrom α] : ExactFrom (Option α) where
  decode vm := decodeOption (ExactFrom.decode vm)
  convert := convertOption ExactFrom.convert
  read {env _ vm s L idx} valid based := by
    by_cases null : s.stackGet idx = .null
    · refine ⟨s.lasterror, ?_⟩
      apply Yields.bind (Yields.fromStack valid)
      rw [if_pos null, null]
      exact Yields.bind (Yields.drop _) (Yields.pure _)
    · obtain ⟨e, inner⟩ :=
        @ExactFrom.read α _ _ _ env _ vm s (⟨vm, s.stackGet idx⟩ :: L) idx valid based
      have decoded : decodeOption (ExactFrom.decode vm) (s.stackGet idx) =
          (ExactFrom.decode vm (s.stackGet idx) : Except Error α).map some := by
        cases slot : s.stackGet idx <;> first | exact absurd slot null | rfl
      refine ⟨e, ?_⟩
      apply Yields.bind (Yields.fromStack valid)
      rw [if_neg null, decoded, handles_map_some]
      apply Yields.bind (Yields.onUnwind inner)
      exact Yields.bind ((Yields.drop _).perm List.perm_middle) (Yields.pure _)
  converted {env _ vm s L v} here := by
    cases v with
    | null => exact Yields.pure _
    | _ =>
      simp only [convertOption, handles_map_some]
      exact Yields.bind (ExactFrom.converted here) (Yields.pure _)

/-! ## Encoding -/

theorem local_of_free {v : Value} (free : Owns.handles v = []) : Local vm v := by
  intro o mem
  rw [free] at mem
  exact absurd mem List.not_mem_nil

instance : ExactInto Unit where
  encode _ := .null
  value _ _ := .null
  slot_value _ _ := rfl
  local_value _ := local_of_free rfl
  pushed _ _ := Yields.push _
  made _ _ := Yields.pure _

instance : ExactInto ℤ where
  encode n := .integer n
  value _ n := .integer n
  slot_value _ _ := rfl
  local_value _ := local_of_free rfl
  pushed _ _ := Yields.push _
  made _ _ := Yields.pure _

instance : ExactInto (BitVec 32) where
  encode bits := .float bits
  value _ bits := .float bits
  slot_value _ _ := rfl
  local_value _ := local_of_free rfl
  pushed _ _ := Yields.push _
  made _ _ := Yields.pure _

instance : ExactInto Bool where
  encode b := .bool b
  value _ b := .bool b
  slot_value _ _ := rfl
  local_value _ := local_of_free rfl
  pushed _ _ := Yields.push _
  made _ _ := Yields.pure _

instance : ExactInto UserPointer where
  encode p := .userPointer p.ptr
  value _ p := .userPointer p.ptr
  slot_value _ _ := rfl
  local_value _ := local_of_free rfl
  pushed _ _ := Yields.push _
  made _ _ := Yields.pure _

instance {t : RefType} : ExactInto (Handle t) where
  encode h := h.obj
  value _ h := .handle t h
  slot_value _ _ := rfl
  local_value here := here
  pushed {_ _ _ _ _ h} _ here := by
    have own : h.sq = _ := here h.object (by simp [Owns.handles])
    subst own
    apply Yields.bind (Yields.onUnwind (assertSameVm_yields rfl))
    exact Yields.bind (Yields.push _) (Yields.dropValue h)
  made {_ _ _ _ _ h} _ here := by
    have own : h.sq = _ := here h.object (by simp [Owns.handles])
    exact Yields.bind (Yields.onUnwind (assertSameVm_yields own)) (Yields.pure _)

instance : ExactInto StringHandle where
  encode t := .string t.str
  value _ t := .string t
  slot_value _ _ := rfl
  local_value here := here
  pushed {_ _ _ _ _ t} _ here := by
    have own : t.sq = _ := here t.object (by simp [Owns.handles])
    subst own
    apply Yields.bind (Yields.onUnwind (assertSameVm_yields rfl))
    exact Yields.bind (Yields.push _) (Yields.dropValue t)
  made {_ _ _ _ _ t} _ here := by
    have own : t.sq = _ := here t.object (by simp [Owns.handles])
    exact Yields.bind (Yields.onUnwind (assertSameVm_yields own)) (Yields.pure _)

instance : ExactInto Value where
  encode v := v.slot
  value _ v := v
  slot_value _ _ := rfl
  local_value here := here
  pushed _ here := Yields.pushOwned here
  made _ here := Yields.bind (Yields.onUnwind (valueAssertSameVm_yields here)) (Yields.pure _)

instance {α : Type} [Owns α] [IntoSquirrel α] [ExactInto α] : ExactInto (Option α) where
  encode
    | none => .null
    | some a => ExactInto.encode a
  value
    | _, none => .null
    | vm, some a => ExactInto.value vm a
  slot_value vm a := by
    cases a with
    | none => rfl
    | some a => exact ExactInto.slot_value vm a
  local_value {vm a} here := by
    cases a with
    | none => exact local_of_free rfl
    | some a =>
      have inside : Local vm a := here
      exact ExactInto.local_value inside
  pushed {_ _ vm _ _ a} based here := by
    cases a with
    | none => exact Yields.push _
    | some a =>
      have inside : Local vm a := here
      exact ExactInto.pushed based inside
  made {_ _ vm _ _ a} based here := by
    cases a with
    | none => exact Yields.pure _
    | some a =>
      have inside : Local vm a := here
      exact ExactInto.made based inside

/-- A new string is interned, and its handle reads the bytes back. -/
theorem stringNew_yields {bytes : List UInt8} (based : s.stackbase ≤ s.top) :
    Yields w₀ vm s L (StringHandle.new env vm bytes) ⟨vm, bytes, bytes⟩ s
      (Owns.handles (⟨vm, bytes, bytes⟩ : StringHandle) ++ L) := by
  have top : (s.push (.string bytes)).top = s.top + 1 := rfl
  have base : (s.push (.string bytes)).stackbase = s.stackbase := rfl
  have slot : (s.push (.string bytes)).stackGet (-1) = .string bytes := rfl
  have read : Yields w₀ vm (s.push (.string bytes)) L (FromSquirrel.fromStack env (-1) vm)
      (Except.ok (⟨vm, bytes, bytes⟩ : StringHandle)) (s.push (.string bytes))
      (Owns.handles (⟨vm, bytes, bytes⟩ : StringHandle) ++ L) := by
    have found : Yields w₀ vm (s.push (.string bytes)) L (Object.fromStack (-1) vm) _ _ _ :=
      Yields.fromStack (SQVM.validIdx_top (by omega))
    rw [slot] at found
    apply Yields.bind found
    apply Yields.bind (Yields.machine (Api.sqGetstringandsize_computes slot) rfl)
    exact Yields.pure _
  apply Yields.bind (Yields.push _)
  apply Yields.bind read
  apply Yields.bind (Yields.onUnwind (Yields.pop (n := 1) one_pos (by omega)))
  exact Yields.pure _

instance : ExactInto Bytes where
  encode b := .string b.bytes
  value vm b := .string ⟨vm, b.bytes, b.bytes⟩
  slot_value _ _ := rfl
  local_value _ := by
    intro o mem
    rw [List.mem_singleton.1 mem]
    rfl
  pushed {env w₀ vm s L b} based _ := by
    have made : Yields w₀ vm s L (b.intoSquirrel env vm) _ s _ :=
      Yields.bind (stringNew_yields based) (Yields.pure _)
    apply Yields.bind made
    apply Yields.bind (Yields.onUnwind (Yields.pushValue _))
    · exact Yields.dropValue _
    · intro o mem
      rw [List.mem_singleton.1 mem]
      rfl
  made based _ := Yields.bind (stringNew_yields based) (Yields.pure _)

end Instances

end Squirrels
