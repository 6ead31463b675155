import Squirrels.Binding.Arguments
import Squirrels.Binding.Payload

/-!
# Rust functions called by the machine

`create_function` boxes a Rust function in a userdata, the free variable of a native closure.
`closure_trampoline`, the C function of that closure, takes it back from the last slot of its frame,
decodes the arguments below it, runs the function and leaves its result, or throws its error. A
panic does not cross the machine: it is caught and thrown as a string.
-/

namespace Squirrels

open Machines

/-- The text of an error. -/
def Error.text : Error → List UInt8
  | .compile e =>
    ascii "compile error at " ++ e.sourceName ++ ascii ":" ++ formatInt e.line ++ ascii ":" ++
      formatInt e.column ++ ascii ": " ++ e.description
  | .type expected => ascii "expected " ++ ascii expected

/-- The message for an error of `from_args`. A text with a NUL in it is no `CString`. -/
def extractionMessage (e : Error) : List UInt8 :=
  if 0 ∈ e.text then ascii "native function arg extraction failed" else e.text

/-- A function that `create_function` accepts, with what it captures as it is when it is called. Its
arguments are decoded at every lifetime, so no handle is among them. It may work on the machine that
calls it, as long as it leaves the frame as it was, what is boxed stays, if for its borrows, and its
results belong to that machine. `invoked` records the functions it calls. -/
structure RustFunction (env : Env) (A R : Type) [Owns A] [Owns R] where
  typeId : ℕ
  run : A → VmId → Act World (Except Value R)
  args_free : ∀ a : A, Owns.handles a = []
  safe : ∀ {w₀ w : World} {vm : VmId} {s : SQVM} {L : List Object} (a : A),
    s.stackbase ≤ s.top → Exactly w₀ vm s L w →
    match (run a vm).run w with
    | (.ok r, w') => (∀ v, r = .error v → v.slot.toValue vm = v) ∧ Local vm r ∧
      ∃ s', Kept env s s' ∧ s'.root = s.root ∧ s.invoked <:+ s'.invoked ∧
        Exactly w₀ vm s' (Owns.handles r ++ L) w'
    | (.error (.panic _), w') =>
      ∃ s', Kept env s s' ∧ s'.root = s.root ∧ s.invoked <:+ s'.invoked ∧ Exactly w₀ vm s' L w'
    | (.error _, _) => True

/-- A program that returns a result or panics, and does nothing else. -/
def resultOrPanic {α : Type} : Option α → Except Stop α
  | some a => .ok a
  | none => .error (.panic "explicit panic")

/-- A function that does not touch the machine. Its results have no handles. -/
def RustFunction.ofResult {env : Env} {A R : Type} [Owns A] [Owns R] (typeId : ℕ)
    (apply : A → Option (Except Value R)) (args_free : ∀ a : A, Owns.handles a = [])
    (free : ∀ a r, apply a = some r → Owns.handles r = []) : RustFunction env A R where
  typeId := typeId
  run a _ w := (resultOrPanic (apply a), w)
  args_free := args_free
  safe {_ w vm s L} a _ start := by
    show match (resultOrPanic (apply a), w) with
      | (.ok r, w') => _
      | (.error (.panic _), w') => _
      | (.error _, _) => True
    cases result : apply a with
    | none => exact ⟨s, .refl s, rfl, List.suffix_rfl, start⟩
    | some r =>
      have none := free a r result
      refine ⟨fun v eq => ?_, fun o mem => ?_, s, .refl s, rfl, List.suffix_rfl, ?_⟩
      · subst eq
        cases v with
        | string t => cases none
        | handle t h => cases none
        | _ => rfl
      · rw [none] at mem
        cases mem
      · rw [none]
        exact start

/-! ## The trampoline -/

/-- `throw_error`. -/
def throwErrorText (message : List UInt8) (v : VmId) : Act World ℤ :=
  (Api.sqThrowerror message).on v

/-- `Squirrel::from_raw_borrowed`, for the pushes and pops it makes. -/
def Squirrel.fromRawBorrowed (v : VmId) : Act World Unit := do
  Api.sqPushroottable.on v
  let _ ← (Api.sqGetstackobj (-1)).on v
  (Api.sqPop 1).on v

/-- `UserData::payload_from_stack`, with the userdata that holds the payload. -/
def Handle.UserData.payloadFromStack (env : Env) (sq : VmId) (idx : ℤ) (typeId : ℕ) :
    Act World (Option (ℕ × Payload)) := do
  match ← (Api.sqGetuserdata env idx).on sq with
  | none => pure none
  | some (r, tag) =>
    if tag ≠ userdataTag then pure none
    else
      let w ← Act.get
      let payload := ((w sq).heap.userData.read r).payload.filter (·.typeId = typeId)
      pure (payload.map fun p => (r, p))

/-- Count more or fewer borrows of the payload of a userdata. -/
def Heap.countBorrows (h : Heap) (r : ℕ) (n : ℤ) : Heap :=
  let u := h.userData.read r
  let payload := u.payload.map fun p => { p with borrow := p.borrow + n }
  { h with userData := h.userData.write r { u with payload := payload } }

/-- Count more or fewer borrows of the payload of a userdata of the machine. -/
def countBorrows (v : VmId) (r : ℕ) (n : ℤ) : Act World Unit :=
  Act.on v (Act.modify fun s => { s with heap := s.heap.countBorrows r n })

/-- `try_borrow` succeeds: the box is not mutably borrowed, and its shared borrows can be counted.
-/
def Payload.Borrowable (p : Payload) : Prop := 0 ≤ p.borrow ∧ p.borrow < isizeMax

instance (p : Payload) : Decidable p.Borrowable := inferInstanceAs (Decidable (_ ∧ _))

/-- `UserData::borrow_mut`, at the Rust type `typeId`. The guard that it returns is alive
afterwards. -/
def Handle.UserData.borrowMut (env : Env) (self : UserData) (typeId : ℕ) :
    Act World (Except Error Unit) := do
  match ← Handle.UserData.payload env self typeId with
  | .error e => pure (.error e)
  | .ok payload =>
    if payload.borrow = 0 then do
      countBorrows self.sq self.ref (-1)
      pure (.ok ())
    else pure (.error (.type "userdata not currently immutably borrowed"))

/-- Run a program while a `Ref` of the payload is alive. -/
def borrowing {α : Type} (v : VmId) (r : ℕ) (m : Act World α) : Act World α := do
  countBorrows v r 1
  let a ← m.onUnwind (countBorrows v r (-1))
  countBorrows v r (-1)
  pure a

section Trampoline

variable {A R : Type} [Owns A] [FromArgs A] [Owns R] [IntoSquirrel R] (env : Env)
  (f : RustFunction env A R) (function : ℕ)

/-- Run the function and leave its result on the stack, or throw its error. -/
def deliverResult (args : A) (v : VmId) : Act World ℤ := do
  Act.on v (Act.modify fun s => { s with invoked := function :: s.invoked })
  match ← f.run args v with
  | .ok (r : R) => do
    IntoSquirrel.pushIntoStack env r v
    pure 1
  | .error value => do
    IntoSquirrel.pushIntoStack env value v
    Api.sqThrowobject.on v

/-- The part of the trampoline that runs while the function is borrowed. -/
def invokeBorrowed (count : ℤ) (v : VmId) : Act World ℤ := do
  match ← FromArgs.fromArgs env count v with
  | .error e => throwErrorText (extractionMessage e) v
  | .ok args => deliverResult env f function args v

/-- What `closure_trampoline` does inside `catch_unwind`. -/
def trampolineBody (v : VmId) : Act World ℤ := do
  let top ← Squirrel.stackDepth v
  Squirrel.fromRawBorrowed v
  match ← Handle.UserData.payloadFromStack env v top f.typeId with
  | none => throwErrorText (ascii "expected typed userdata value") v
  | some (r, payload) =>
    if payload.Borrowable then borrowing v r (invokeBorrowed env f function (top - 2) v)
    else throwErrorText (ascii "nativeclosure upvalue is already mutably borrowed") v

/-- `closure_trampoline`. -/
def closureTrampoline (v : VmId) : Act World ℤ := do
  match ← (trampolineBody env f function v).catchUnwind with
  | some ret => pure ret
  | none => throwErrorText (ascii "panic in native function") v

end Trampoline

end Squirrels
