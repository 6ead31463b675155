import Squirrels.Binding.Closure
import Squirrels.Binding.Codec

/-!
# What argument packs compute

The objects that `push_args` pushes, and what `from_args` makes of the arguments in the frame of a C
function. `from_args` finds the arguments above `this` and below the free variable of the function,
whatever lies below.
-/

namespace Squirrels

open Machines

/-! ## Pushing arguments -/

/-- The machine with more arguments on the stack. -/
def SQVM.pushAll (s : SQVM) (os : List SQObject) : SQVM := { s with stack := os.reverse ++ s.stack }

theorem SQVM.pushAll_cons (s : SQVM) (o : SQObject) (os : List SQObject) :
    s.pushAll (o :: os) = (s.push o).pushAll os := by
  unfold SQVM.pushAll SQVM.push
  rw [List.reverse_cons, List.append_assoc]
  rfl

theorem SQVM.push_based {s : SQVM} (based : s.stackbase ≤ s.top) (o : SQObject) :
    (s.push o).stackbase ≤ (s.push o).top := based.trans (Nat.le_succ _)

/-- The objects that `push_args` pushes. -/
class ExactIntoArgs (α : Type) [Owns α] [IntoArgs α] where
  encodeArgs : α → List SQObject
  pushed : ∀ {env : Env} {w₀ : World} {vm : VmId} {s : SQVM} {L : List Object} {a : α},
    s.stackbase ≤ s.top → Local vm a →
    Yields w₀ vm s (Owns.handles a ++ L) (IntoArgs.pushArgs env a vm) (encodeArgs a).length
      (s.pushAll (encodeArgs a)) L

/-- The objects that the fields of a tuple are pushed as. -/
class ExactTupleInto (α : Type) [Owns α] [TupleIntoArgs α] where
  encodeFields : α → List SQObject
  length_encodeFields : ∀ a : α, (encodeFields a).length = TupleIntoArgs.count α
  pushed : ∀ {env : Env} {w₀ : World} {vm : VmId} {s : SQVM} {L : List Object} {a : α},
    s.stackbase ≤ s.top → Local vm a →
    Yields w₀ vm s (Owns.handles a ++ L) (TupleIntoArgs.push env a vm) ()
      (s.pushAll (encodeFields a)) L

section Into

variable {env : Env} {w₀ : World} {vm : VmId} {s : SQVM} {L : List Object} {α β : Type} [Owns α]
  [IntoSquirrel α] [ExactInto α] [Owns β]

/-- One argument is pushed, then the others. -/
theorem pushFirst_yields {a : α} {b : β} {rest : Act World Unit} {os : List SQObject}
    (based : s.stackbase ≤ s.top) (here : Local vm (a, b))
    (after : Yields w₀ vm (s.push (ExactInto.encode a)) (Owns.handles b ++ L) rest ()
      ((s.push (ExactInto.encode a)).pushAll os) L) :
    Yields w₀ vm s (Owns.handles (a, b) ++ L) (do
      (IntoSquirrel.pushIntoStack env a vm).onUnwind (dropValue b)
      rest) () (s.pushAll (ExactInto.encode a :: os)) L := by
  have split : Owns.handles (a, b) ++ L = Owns.handles a ++ (Owns.handles b ++ L) :=
    List.append_assoc _ _ _
  rw [split, SQVM.pushAll_cons]
  exact Yields.bind (Yields.onUnwind (ExactInto.pushed based here.fst)) after

instance : ExactTupleInto Unit where
  encodeFields _ := []
  length_encodeFields _ := rfl
  pushed _ _ := Yields.pure ()

instance [TupleIntoArgs β] [ExactTupleInto β] : ExactTupleInto (α × β) where
  encodeFields a := ExactInto.encode a.1 :: ExactTupleInto.encodeFields a.2
  length_encodeFields a := congrArg (· + 1) (ExactTupleInto.length_encodeFields a.2)
  pushed based here := pushFirst_yields based here
    (ExactTupleInto.pushed (SQVM.push_based based _) here.snd)

instance : ExactIntoArgs Unit where
  encodeArgs _ := []
  pushed _ _ := Yields.pure 0

instance [TupleIntoArgs β] [ExactTupleInto β] : ExactIntoArgs (α × β) where
  encodeArgs := ExactTupleInto.encodeFields
  pushed {_ _ _ _ _ a} based here := by
    rw [ExactTupleInto.length_encodeFields a]
    exact Yields.bind (ExactTupleInto.pushed based here) (Yields.pure _)

theorem pushItems_yields (items : List α) (based : s.stackbase ≤ s.top) (here : Local vm items) :
    Yields w₀ vm s (Owns.handles items ++ L) (pushItems env vm items) ()
      (s.pushAll (items.map ExactInto.encode)) L := by
  induction items generalizing s with
  | nil => exact Yields.pure ()
  | cons item rest ih =>
    have split : Local vm (item, rest) := here
    exact pushFirst_yields based split (ih (SQVM.push_based based _) split.snd)

instance : ExactIntoArgs (List α) where
  encodeArgs items := items.map ExactInto.encode
  pushed {_ _ _ _ _ items} based here := by
    rw [List.length_map]
    exact Yields.bind (pushItems_yields items based here) (Yields.pure _)

end Into

/-! ## Reading arguments -/

/-- The frame of a C function: its free variable on top of its arguments and of `this`. -/
structure SQVM.ArgFrame (s : SQVM) (upvalue : SQObject) (args : List SQObject) : Prop where
  located : ∃ this lower, s.stack = upvalue :: (args.reverse ++ this :: lower) ∧
    s.stackbase = lower.length

namespace SQVM.ArgFrame

variable {s : SQVM} {upvalue : SQObject} {args before after : List SQObject}

theorem depth_eq (frame : s.ArgFrame upvalue args) :
    ((s.top : ℤ) - s.stackbase) = args.length + 2 := by
  obtain ⟨this, lower, stack, base⟩ := frame.located
  rw [SQVM.top, stack, base]
  simp only [List.length_cons, List.length_append, List.length_reverse]
  omega

theorem based (frame : s.ArgFrame upvalue args) : s.stackbase ≤ s.top := by
  have := frame.depth_eq
  omega

theorem withError (frame : s.ArgFrame upvalue args) (e : SQObject) :
    (s.withError e).ArgFrame upvalue args :=
  ⟨frame.located⟩

/-- The slots of the frame in the order of their indices. -/
theorem stackGet_eq (frame : s.ArgFrame upvalue args) {n : ℕ} :
    s.stackGet (2 + (n : ℤ)) = (args ++ [upvalue]).getD n .null := by
  obtain ⟨this, lower, stack, base⟩ := frame.located
  have index : (2 + (n : ℤ)).toNat + s.stackbase - 1 = (lower.reverse ++ [this]).length + n := by
    rw [List.length_append, List.length_reverse, List.length_singleton, base]
    omega
  have order : s.stack.reverse = (lower.reverse ++ [this]) ++ (args ++ [upvalue]) := by
    rw [stack]
    simp only [List.reverse_cons, List.reverse_append, List.reverse_reverse, List.append_assoc]
  unfold SQVM.stackGet
  rw [if_pos (by omega), index, order, List.getD_append_right _ _ _ _ (Nat.le_add_right _ _),
    Nat.add_sub_cancel_left]

/-- The free variable is the last slot of the frame. -/
theorem stackGet_upvalue (frame : s.ArgFrame upvalue args) :
    s.stackGet ((s.top : ℤ) - s.stackbase) = upvalue := by
  rw [frame.depth_eq, add_comm, frame.stackGet_eq, List.getD_append_right _ _ _ _ le_rfl,
    Nat.sub_self]
  rfl

theorem stackGet_arg {o : SQObject} (frame : s.ArgFrame upvalue (before ++ o :: after)) :
    s.stackGet (2 + (before.length : ℤ)) = o := by
  rw [frame.stackGet_eq, List.append_assoc, List.getD_append_right _ _ _ _ le_rfl, Nat.sub_self]
  rfl

theorem validIdx {n : ℕ} (frame : s.ArgFrame upvalue args) (inside : n ≤ args.length) :
    s.ValidIdx (2 + (n : ℤ)) := by
  refine ⟨by omega, ?_⟩
  rw [if_pos (by omega), frame.depth_eq]
  omega

end SQVM.ArgFrame

/-- What `from_args` makes of the arguments of a frame. -/
class ExactFromArgs (α : Type) [Owns α] [FromArgs α] where
  decodeArgs : VmId → List SQObject → Except Error α
  read : ∀ {env : Env} {w₀ : World} {vm : VmId} {s : SQVM} {L : List Object} {upvalue : SQObject}
    {args : List SQObject}, s.ArgFrame upvalue args →
    ∃ e, Yields w₀ vm s L (FromArgs.fromArgs env args.length vm) (decodeArgs vm args)
      (s.withError e) (Owns.handles (decodeArgs vm args) ++ L)

/-- What the fields of a tuple are read as. -/
class ExactTupleFrom (α : Type) [Owns α] [TupleFromArgs α] where
  decodeFields : VmId → List SQObject → Except Error α
  read : ∀ {env : Env} {w₀ : World} {vm : VmId} {s : SQVM} {L : List Object} {upvalue : SQObject}
    {before fields : List SQObject}, s.ArgFrame upvalue (before ++ fields) →
    fields.length = TupleFromArgs.count α →
    ∃ e, Yields w₀ vm s L (TupleFromArgs.read env before.length vm) (decodeFields vm fields)
      (s.withError e) (Owns.handles (decodeFields vm fields) ++ L)

section From

variable {env : Env} {w₀ : World} {vm : VmId} {s : SQVM} {L : List Object} {upvalue : SQObject}
  {α β : Type} [Owns α] [FromSquirrel α] [ExactFrom α] [Owns β]

/-- The next argument of a frame. -/
theorem readArg_yields {o : SQObject} {before after : List SQObject}
    (frame : s.ArgFrame upvalue (before ++ o :: after)) :
    ∃ e, Yields w₀ vm s L (FromSquirrel.fromStack env (2 + (before.length : ℤ)) vm)
      (ExactFrom.decode vm o : Except Error α) (s.withError e)
      (Owns.handles (ExactFrom.decode vm o : Except Error α) ++ L) := by
  have inside : before.length ≤ (before ++ o :: after).length := by
    rw [List.length_append]
    exact Nat.le_add_right _ _
  have read := @ExactFrom.read α _ _ _ env w₀ vm s L _ (frame.validIdx inside) frame.based
  rw [frame.stackGet_arg] at read
  exact read

/-- A field and then the others. -/
def decodeFirst (first : Except Error α) (rest : Except Error β) : Except Error (α × β) :=
  match first, rest with
  | .error e, _ => .error e
  | .ok _, .error e => .error e
  | .ok a, .ok b => .ok (a, b)

theorem readFields_yields [TupleFromArgs β] [ExactTupleFrom β] {o : SQObject}
    {before rest : List SQObject} (frame : s.ArgFrame upvalue (before ++ o :: rest))
    (count : rest.length = TupleFromArgs.count β) :
    ∃ e, Yields w₀ vm s L (TupleFromArgs.read env before.length vm)
      (decodeFirst (ExactFrom.decode vm o) (ExactTupleFrom.decodeFields vm rest) :
        Except Error (α × β)) (s.withError e)
      (Owns.handles (decodeFirst (ExactFrom.decode vm o) (ExactTupleFrom.decodeFields vm rest) :
        Except Error (α × β)) ++ L) := by
  obtain ⟨e, first⟩ := @readArg_yields env w₀ vm s L upvalue α _ _ _ o before rest frame
  rw [add_comm] at first
  have frame' : (s.withError e).ArgFrame upvalue ((before ++ [o]) ++ rest) := by
    rw [List.append_assoc]
    exact frame.withError e
  cases decoded : (ExactFrom.decode vm o : Except Error α) with
  | error err =>
    rw [decoded] at first
    exact ⟨e, Yields.bind first (Yields.pure _)⟩
  | ok a =>
    rw [decoded] at first
    obtain ⟨e', others⟩ := @ExactTupleFrom.read β _ _ _ env w₀ vm (s.withError e)
      (Owns.handles a ++ L) upvalue (before ++ [o]) rest frame' count
    rw [List.length_append, List.length_singleton] at others
    refine ⟨e', ?_⟩
    cases decoded' : (ExactTupleFrom.decodeFields vm rest : Except Error β) with
    | error err =>
      rw [decoded'] at others
      exact Yields.bind first (Yields.bind (Yields.onUnwind others)
        (Yields.bind (Yields.dropValue a) (Yields.pure _)))
    | ok b =>
      rw [decoded'] at others
      have order : (Owns.handles b ++ (Owns.handles a ++ L)).Perm (Owns.handles (a, b) ++ L) := by
        show (Owns.handles b ++ (Owns.handles a ++ L)).Perm
          ((Owns.handles a ++ Owns.handles b) ++ L)
        rw [← List.append_assoc]
        exact List.perm_append_comm.append_right L
      have read : Yields w₀ vm s L (TupleFromArgs.read env before.length vm) (.ok (a, b))
          (s.withError e') (Owns.handles b ++ (Owns.handles a ++ L)) :=
        Yields.bind first (Yields.bind (Yields.onUnwind others) (Yields.pure (Except.ok (a, b))))
      exact read.permPost order

instance : ExactTupleFrom Unit where
  decodeFields _ _ := .ok ()
  read {_ _ _ s _ _ _ _} _ _ := ⟨s.lasterror, Yields.pure _⟩

instance [TupleFromArgs β] [ExactTupleFrom β] : ExactTupleFrom (α × β) where
  decodeFields vm fields := decodeFirst (ExactFrom.decode vm (fields.headD .null))
    (ExactTupleFrom.decodeFields vm fields.tail)
  read {_ _ _ _ _ _ _ fields} frame count := by
    cases fields with
    | nil => cases count
    | cons o rest => exact readFields_yields frame (Nat.succ.inj count)

instance : ExactFromArgs Unit where
  decodeArgs _ args := if (args.length : ℤ) = 0 then .ok () else .error (.type "0 arguments")
  read {env w₀ vm s L _ args} _ := by
    refine ⟨s.lasterror, ?_⟩
    show Yields w₀ vm s L (pure (if (args.length : ℤ) = 0 then Except.ok () else _)) _ s _
    by_cases none : (args.length : ℤ) = 0
    · rw [if_pos none]
      exact Yields.pure _
    · rw [if_neg none]
      exact Yields.pure _

instance [TupleFromArgs β] [ExactTupleFrom β] : ExactFromArgs (α × β) where
  decodeArgs vm args :=
    if (args.length : ℤ) = TupleFromArgs.count (α × β) then ExactTupleFrom.decodeFields vm args
    else .error (.type "arguments")
  read {env w₀ vm s L _ args} frame := by
    show ∃ e, Yields w₀ vm s L (if (args.length : ℤ) = TupleFromArgs.count (α × β) then
      TupleFromArgs.read env 0 vm else pure (.error (.type "arguments"))) _ _ _
    by_cases fits : (args.length : ℤ) = TupleFromArgs.count (α × β)
    · rw [if_pos fits, if_pos fits]
      have count : args.length = TupleFromArgs.count (α × β) := by exact_mod_cast fits
      exact @ExactTupleFrom.read (α × β) _ _ _ env w₀ vm s L _ [] args frame count
    · rw [if_neg fits, if_neg fits]
      exact ⟨s.lasterror, Yields.pure _⟩

/-- The items of a vector, the ones in `items` before them. -/
def decodeItems (vm : VmId) : List α → List SQObject → Except Error (List α)
  | items, [] => .ok items
  | items, o :: rest =>
    match ExactFrom.decode vm o with
    | .error e => .error e
    | .ok a => decodeItems vm (items ++ [a]) rest

theorem readItems_yields {before rest : List SQObject} {items : List α}
    (frame : s.ArgFrame upvalue (before ++ rest)) (read : items.length = before.length) :
    ∃ e, Yields w₀ vm s (Owns.handles items ++ L) (readItems env vm rest.length items)
      (decodeItems vm items rest) (s.withError e)
      (Owns.handles (decodeItems vm items rest : Except Error (List α)) ++ L) := by
  induction rest generalizing s before items with
  | nil => exact ⟨s.lasterror, Yields.pure _⟩
  | cons o rest ih =>
    obtain ⟨e, first⟩ := @readArg_yields env w₀ vm s (Owns.handles items ++ L) upvalue α _ _ _ o
      before rest frame
    rw [← read] at first
    have frame' : (s.withError e).ArgFrame upvalue ((before ++ [o]) ++ rest) := by
      rw [List.append_assoc]
      exact frame.withError e
    unfold decodeItems
    cases decoded : (ExactFrom.decode vm o : Except Error α) with
    | error err =>
      rw [decoded] at first
      exact ⟨e, Yields.bind (Yields.onUnwind first)
        (Yields.bind (Yields.dropValue items) (Yields.pure _))⟩
    | ok a =>
      rw [decoded] at first
      obtain ⟨e', others⟩ := @ih (s.withError e) (before ++ [o]) (items ++ [a]) frame'
        (by rw [List.length_append, List.length_append, read]; rfl)
      have order : (Owns.handles (Except.ok a : Except Error α) ++ (Owns.handles items ++ L)).Perm
          (Owns.handles (items ++ [a]) ++ L) := by
        show (Owns.handles a ++ (items.flatMap Owns.handles ++ L)).Perm
          ((items ++ [a]).flatMap Owns.handles ++ L)
        rw [List.flatMap_append, List.flatMap_singleton, ← List.append_assoc]
        exact List.perm_append_comm.append_right L
      exact ⟨e', Yields.bind ((Yields.onUnwind first).permPost order) others⟩

instance : ExactFromArgs (List α) where
  decodeArgs vm args := decodeItems vm [] args
  read {env w₀ vm s L _ args} frame := by
    have count : (args.length : ℤ).toNat = args.length := Int.toNat_natCast _
    show ∃ e, Yields w₀ vm s L (readItems env vm (args.length : ℤ).toNat []) _ _ _
    rw [count]
    exact @readItems_yields env w₀ vm s L _ α _ _ _ [] args [] frame rfl

end From

/-! ## Packs that come back -/

/-- The value is decoded from what it is encoded to. -/
def Trips {α : Type} [Owns α] [IntoSquirrel α] [ExactInto α] [FromSquirrel α] [ExactFrom α]
    (vm : VmId) (a : α) : Prop := ExactFrom.decode vm (ExactInto.encode a) = .ok a

/-- Tuples that are decoded from what their fields are encoded to. -/
class TripTuple (α : Type) [Owns α] [TupleIntoArgs α] [ExactTupleInto α] [TupleFromArgs α]
    [ExactTupleFrom α] where
  FieldsTrip : VmId → α → Prop
  count_eq : TupleIntoArgs.count α = TupleFromArgs.count α
  decode_encode : ∀ {vm : VmId} {a : α}, FieldsTrip vm a →
    ExactTupleFrom.decodeFields vm (ExactTupleInto.encodeFields a) = .ok a

/-- Packs that are decoded from what they are pushed as. -/
class TripArgs (α : Type) [Owns α] [IntoArgs α] [ExactIntoArgs α] [FromArgs α]
    [ExactFromArgs α] where
  /-- Every item is decoded from what it is encoded to. -/
  ItemsTrip : VmId → α → Prop
  decode_encode : ∀ {vm : VmId} {a : α}, ItemsTrip vm a →
    ExactFromArgs.decodeArgs vm (ExactIntoArgs.encodeArgs a) = .ok a

section Trips

variable {α β : Type} [Owns α] [IntoSquirrel α] [ExactInto α] [FromSquirrel α] [ExactFrom α]
  [Owns β] [TupleIntoArgs β] [ExactTupleInto β] [TupleFromArgs β] [ExactTupleFrom β] [TripTuple β]

instance : TripTuple Unit where
  FieldsTrip _ _ := True
  count_eq := rfl
  decode_encode _ := rfl

instance : TripTuple (α × β) where
  FieldsTrip vm a := Trips vm a.1 ∧ TripTuple.FieldsTrip vm a.2
  count_eq := congrArg (· + 1) (TripTuple.count_eq (α := β))
  decode_encode {vm a} trips := by
    have first : ExactFrom.decode vm (ExactInto.encode a.1) = .ok a.1 := trips.1
    show decodeFirst (ExactFrom.decode vm (ExactInto.encode a.1))
      (ExactTupleFrom.decodeFields vm (ExactTupleInto.encodeFields a.2)) = .ok a
    rw [first, TripTuple.decode_encode trips.2]
    rfl

instance : TripArgs Unit where
  ItemsTrip _ _ := True
  decode_encode _ := rfl

instance : TripArgs (α × β) where
  ItemsTrip := TripTuple.FieldsTrip
  decode_encode {vm a} trips := by
    have length := ExactTupleInto.length_encodeFields a
    rw [TripTuple.count_eq (α := α × β)] at length
    show (if ((ExactTupleInto.encodeFields a).length : ℤ) = TupleFromArgs.count (α × β) then
      ExactTupleFrom.decodeFields vm (ExactTupleInto.encodeFields a) else _) = _
    rw [if_pos (congrArg _ length), TripTuple.decode_encode trips]

theorem decodeItems_encode {vm : VmId} {items rest : List α} (trips : ∀ a ∈ rest, Trips vm a) :
    decodeItems vm items (rest.map ExactInto.encode) = .ok (items ++ rest) := by
  induction rest generalizing items with
  | nil =>
    rw [List.append_nil]
    rfl
  | cons a rest ih =>
    have first : ExactFrom.decode vm (ExactInto.encode a) = .ok a := trips a List.mem_cons_self
    rw [List.map_cons, decodeItems, first]
    simp only
    rw [ih fun b mem => trips b (List.mem_cons_of_mem _ mem), List.append_assoc]
    rfl

instance : TripArgs (List α) where
  ItemsTrip vm items := ∀ a ∈ items, Trips vm a
  decode_encode trips := decodeItems_encode trips

end Trips

end Squirrels
