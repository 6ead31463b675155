import Squirrels.Binding.Slots

/-!
# Functions

Argument packs, `call_closure` and the operations of `Closure` and `NativeClosure`.
-/

namespace Squirrels

open Machines

/-- `IntoArgs`. -/
class IntoArgs (α : Type) where
  pushArgs : Env → α → VmId → Act World ℤ

/-- `FromArgs`. -/
class FromArgs (α : Type) where
  fromArgs : Env → ℤ → VmId → Act World (Except Error α)

/-! ## Tuples -/

/-- The tuples of the macro `impl_args_tuple`, as pairs that end in `Unit`. -/
class TupleIntoArgs (α : Type) where
  count : ℕ
  push : Env → α → VmId → Act World Unit

/-- The fields of a tuple, read from the stack from the given field on. -/
class TupleFromArgs (α : Type) where
  count : ℕ
  read : Env → ℕ → VmId → Act World (Except Error α)

instance : TupleIntoArgs Unit := ⟨0, fun _ _ _ => pure ()⟩

instance {α β : Type} [IntoSquirrel α] [Owns β] [TupleIntoArgs β] : TupleIntoArgs (α × β) where
  count := TupleIntoArgs.count β + 1
  push env a sq := do
    (IntoSquirrel.pushIntoStack env a.1 sq).onUnwind (dropValue a.2)
    TupleIntoArgs.push env a.2 sq

instance : TupleFromArgs Unit := ⟨0, fun _ _ _ => pure (.ok ())⟩

instance {α β : Type} [FromSquirrel α] [Owns α] [TupleFromArgs β] : TupleFromArgs (α × β) where
  count := TupleFromArgs.count β + 1
  read env field sq := do
    match ← FromSquirrel.fromStack env (field + 2) sq with
    | .error e => pure (.error e)
    | .ok (a : α) =>
      match ← (TupleFromArgs.read env (field + 1) sq).onUnwind (dropValue a) with
      | .error e => do
        dropValue a
        pure (.error e)
      | .ok (b : β) => pure (.ok (a, b))

instance : IntoArgs Unit := ⟨fun _ _ _ => pure 0⟩

instance : FromArgs Unit where
  fromArgs _ count _ := pure (if count = 0 then .ok () else .error (.type "0 arguments"))

instance {α β : Type} [IntoSquirrel α] [Owns β] [TupleIntoArgs β] : IntoArgs (α × β) where
  pushArgs env a sq := do
    TupleIntoArgs.push env a sq
    pure (TupleIntoArgs.count (α × β))

instance {α β : Type} [FromSquirrel α] [Owns α] [TupleFromArgs β] : FromArgs (α × β) where
  fromArgs env count sq :=
    if count = TupleFromArgs.count (α × β) then TupleFromArgs.read env 0 sq
    else pure (.error (.type "arguments"))

/-! ## Vectors -/

/-- Push the items of a vector; those that are left are dropped when one panics. -/
def pushItems {α : Type} [IntoSquirrel α] [Owns α] (env : Env) (sq : VmId) :
    List α → Act World Unit
  | [] => pure ()
  | item :: rest => do
    (IntoSquirrel.pushIntoStack env item sq).onUnwind (dropValue rest)
    pushItems env sq rest

instance {α : Type} [IntoSquirrel α] [Owns α] : IntoArgs (List α) where
  pushArgs env items sq := do
    pushItems env sq items
    pure items.length

/-- Read `left` more items, after the ones in `args`. -/
def readItems {α : Type} [FromSquirrel α] [Owns α] (env : Env) (sq : VmId) :
    ℕ → List α → Act World (Except Error (List α))
  | 0, args => pure (.ok args)
  | left + 1, args => do
    match ← (FromSquirrel.fromStack env (2 + args.length) sq).onUnwind (dropValue args) with
    | .error e => do
      dropValue args
      pure (.error e)
    | .ok (a : α) => readItems env sq left (args ++ [a])

instance {α : Type} [FromSquirrel α] [Owns α] : FromArgs (List α) where
  fromArgs env count sq := readItems env sq count.toNat []

/-! ## Calls -/

/-- `call_closure`, with the function and `this` pushed. -/
def callClosure {α ν : Type} [IntoArgs α] [FromSquirrel ν] [Owns ν] (env : Env) (sq : VmId)
    (args : α) : Act World (Except CallError ν) := do
  let pushed ← IntoArgs.pushArgs env args sq
  let argCount := pushed + 1
  let ret ← (Api.sqCall env argCount.toNat).on sq
  match ← ret.toRuntimeError env sq 1 with
  | .error e => pure (.error e)
  | .ok () =>
    let val ← Handle.takeTop env sq 2
    pure (liftError val)

namespace Handle

variable {t : RefType} {τ α ν : Type} [IntoArgs α] [FromSquirrel ν] [Owns ν] (env : Env)
  (self : Handle t)

/-- `call` of `Closure` and `NativeClosure`. -/
def call (args : α) : Act World (Except CallError ν) := do
  self.object.pushIntoStack
  Squirrel.pushRootTable self.sq
  callClosure env self.sq args

/-- `call_with` of `Closure` and `NativeClosure`. -/
def callWith [IntoSquirrel τ] [Owns α] (this : τ) (args : α) : Act World (Except CallError ν) := do
  self.object.pushIntoStack
  (IntoSquirrel.pushIntoStack env this self.sq).onUnwind (dropValue args)
  callClosure env self.sq args

end Handle

end Squirrels
