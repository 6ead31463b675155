import Mathlib.Logic.Function.Basic
import Squirrels.Lib.Utf8
import Squirrels.Vm.State

/-!
# The registries of a process

Compile errors and print callbacks are kept in two tables of the process, by the address of a
machine. A process is a number of `Squirrel` instances, each somewhere between `sq_open` and
`unregister_vm`, and what they do is interleaved step by step: every access to a table is one step,
since it is made under the lock of the table. Nothing is said about threads; an instance is used by
one thread at a time, so a run of threads is a run of instances.

The allocator may hand out any address that no machine has, an address that has just been freed
included. `chosen` observes a run: it records the callbacks the instances have been given.
-/

namespace Squirrels

/-- The address of a machine. -/
abbrev Addr := ℕ

/-! ## Compile errors -/

/-- The table of `compiler_error_handler`, by address. -/
abbrev ErrorRegistry := Addr → Option (Option CompileError)

namespace ErrorRegistry

variable (errors : ErrorRegistry) (v : Addr)

/-- `register_vm`. -/
def registerVm : ErrorRegistry := Function.update errors v (some none)

/-- `unregister_vm`. -/
def unregisterVm : ErrorRegistry := Function.update errors v none

/-- `clear_error`. -/
def clearError : ErrorRegistry := Function.update errors v ((errors v).map fun _ => none)

/-- `take_error`. -/
def takeError : Option CompileError × ErrorRegistry :=
  ((errors v).join, Function.update errors v ((errors v).map fun _ => none))

/-- `compiler_error_handler`. -/
def compilerErrorHandler (e : CompileError) : ErrorRegistry :=
  Function.update errors v ((errors v).map fun _ => some e)

end ErrorRegistry

/-! ## Print callbacks -/

/-- `PrintFns`, with a number for each callback. -/
structure PrintFns where
  print : Option ℕ
  error : Option ℕ
deriving DecidableEq, Repr

/-- `PrintFns::default`. -/
instance : Inhabited PrintFns := ⟨⟨none, none⟩⟩

/-- `PrintFnType`. -/
inductive PrintFnType where
  | print
  | error
deriving DecidableEq, Repr

namespace PrintFns

/-- The callback of a kind. -/
def select (fns : PrintFns) : PrintFnType → Option ℕ
  | .print => fns.print
  | .error => fns.error

/-- Replace the callback of a kind. -/
def choose (fns : PrintFns) (f : ℕ) : PrintFnType → PrintFns
  | .print => { fns with print := some f }
  | .error => { fns with error := some f }

end PrintFns

/-- The table of print callbacks, by address. -/
abbrev PrintRegistry := Addr → Option PrintFns

namespace PrintRegistry

variable (prints : PrintRegistry) (v : Addr)

/-- `set_print_fn` and `set_error_fn`. -/
def setFn (f : ℕ) (t : PrintFnType) : PrintRegistry :=
  Function.update prints v (some (((prints v).getD default).choose f t))

/-- `clear_print_fns`. -/
def clearPrintFns : PrintRegistry := Function.update prints v none

/-- `dispatch`: the callback that is called and the string it gets, the lossy decoding of the bytes
before the first NUL. -/
def dispatch (msg : List UInt8) (t : PrintFnType) : List (ℕ × List Char) :=
  match (prints v).bind (·.select t) with
  | some f => [(f, Utf8.decodeLossy (cString msg))]
  | none => []

end PrintRegistry

/-! ## Instances -/

/-- Where an instance stands. -/
inductive Phase where
  | absent
  /-- `sq_open` has returned. -/
  | opened (a : Addr)
  /-- `register_vm` has returned. -/
  | registered (a : Addr)
  /-- `Squirrel::new` has returned and no other call is under way. -/
  | idle (a : Addr)
  /-- `compile_str` has cleared the error. -/
  | compiling (a : Addr)
  /-- The compiler has reported an error. -/
  | reported (a : Addr) (e : CompileError)
  /-- No compile error was captured. -/
  | panicked (a : Addr)
  /-- `drop` has cleared the print callbacks. -/
  | dropping (a : Addr)
  /-- `sq_close` has freed the machine. -/
  | closed (a : Addr)
deriving DecidableEq

namespace Phase

/-- The address of an instance whose machine is allocated. -/
def held : Phase → Option Addr
  | opened a | registered a | idle a | compiling a | reported a _ | panicked a
  | dropping a => some a
  | absent | closed _ => none

/-- The address of an instance that `new` has returned and whose drop has not begun. -/
def live : Phase → Option Addr
  | idle a | compiling a | reported a _ | panicked a => some a
  | _ => none

end Phase

/-- The instances of a process, the machines of their coroutines, and the two tables. -/
structure Process where
  phase : ℕ → Phase
  threads : ℕ → List Addr
  errors : ErrorRegistry
  prints : PrintRegistry
  chosen : ℕ → PrintFns

namespace Process

/-- The process before the first `Squirrel::new`. -/
def initial : Process := ⟨fun _ => .absent, fun _ => [], fun _ => none, fun _ => none, default⟩

variable (p : Process)

/-- No machine has the address. -/
def Free (a : Addr) : Prop := ∀ j, (p.phase j).held ≠ some a ∧ a ∉ p.threads j

/-- An instance goes to another phase. -/
def move (i : ℕ) (q : Phase) : Process := { p with phase := Function.update p.phase i q }

/-- A step of an instance. -/
inductive Step : Process → Process → Prop where
  | sqOpen {p : Process} (i : ℕ) (a : Addr) (absent : p.phase i = .absent) (free : p.Free a) :
      Step p { p.move i (.opened a) with
        threads := Function.update p.threads i []
        chosen := Function.update p.chosen i default }
  | registerVm {p : Process} {i : ℕ} {a : Addr} (at_ : p.phase i = .opened a) :
      Step p { p.move i (.registered a) with errors := p.errors.registerVm a }
  | installPrintShims {p : Process} {i : ℕ} {a : Addr} (at_ : p.phase i = .registered a) :
      Step p (p.move i (.idle a))
  | setFn {p : Process} {i : ℕ} {a : Addr} (f : ℕ) (t : PrintFnType) (at_ : p.phase i = .idle a) :
      Step p { p with
        prints := p.prints.setFn a f t
        chosen := Function.update p.chosen i ((p.chosen i).choose f t) }
  | newthread {p : Process} {i : ℕ} {a b : Addr} (at_ : p.phase i = .idle a) (free : p.Free b) :
      Step p { p with threads := Function.update p.threads i (b :: p.threads i) }
  | collect {p : Process} {i : ℕ} {a : Addr} (b : Addr) (at_ : p.phase i = .idle a) :
      Step p { p with threads := Function.update p.threads i ((p.threads i).erase b) }
  | clearError {p : Process} {i : ℕ} {a : Addr} (at_ : p.phase i = .idle a) :
      Step p { p.move i (.compiling a) with errors := p.errors.clearError a }
  | compiled {p : Process} {i : ℕ} {a : Addr} (at_ : p.phase i = .compiling a) :
      Step p (p.move i (.idle a))
  | compilerErrorHandler {p : Process} {i : ℕ} {a : Addr} (e : CompileError)
      (at_ : p.phase i = .compiling a) :
      Step p { p.move i (.reported a e) with errors := p.errors.compilerErrorHandler a e }
  | takeError {p : Process} {i : ℕ} {a : Addr} {e e' : CompileError}
      (at_ : p.phase i = .reported a e) (found : (p.errors.takeError a).1 = some e') :
      Step p { p.move i (.idle a) with errors := (p.errors.takeError a).2 }
  | takeNothing {p : Process} {i : ℕ} {a : Addr} {e : CompileError}
      (at_ : p.phase i = .reported a e) (nothing : (p.errors.takeError a).1 = none) :
      Step p { p.move i (.panicked a) with errors := (p.errors.takeError a).2 }
  | caught {p : Process} {i : ℕ} {a : Addr} (at_ : p.phase i = .panicked a) :
      Step p (p.move i (.idle a))
  | drop {p : Process} {i : ℕ} {a : Addr} (at_ : p.phase i = .idle a) :
      Step p { p.move i (.dropping a) with prints := p.prints.clearPrintFns a }
  | sqClose {p : Process} {i : ℕ} {a : Addr} (at_ : p.phase i = .dropping a) :
      Step p { p.move i (.closed a) with threads := Function.update p.threads i [] }
  | unregisterVm {p : Process} {i : ℕ} {a : Addr} (at_ : p.phase i = .closed a) :
      Step p { p.move i .absent with errors := p.errors.unregisterVm a }

end Process

end Squirrels
