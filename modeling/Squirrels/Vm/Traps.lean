import Mathlib.Algebra.Order.Group.Int
import Squirrels.Lib.Simulation

/-!
# Frames and exception traps

The traps of all frames are on one stack of the machine, and a frame knows only how many of them are
its own. `Execute` counts the traps of the frames it runs, to know whether an exception will be
caught: if not, it calls the error handler first, when it was called with `raiseerror`. A generator
takes its traps along when it yields, and brings them back, at another place of the stack, when it
is resumed.

`Structured` says what this is for: a frame has its handlers, and an exception goes to the innermost
handler of the frames up to the one that `Execute` was called for.
-/

namespace Squirrels

/-- What a program does with frames. -/
inductive FrameCall where
  /-- A call in `Execute`, of a closure with a frame from one place of the stack to another. -/
  | call (newbase newtop : ℤ)
  /-- A call of `Execute` for a closure. -/
  | execute (raiseerror : Bool) (newbase newtop : ℤ)
  /-- A call of `Execute` for a generator, by `sq_resume`. -/
  | executeResume (raiseerror : Bool) (g : ℕ)
  /-- Values are pushed or popped. -/
  | moveTop (top : ℤ)
  | tailCall (newtop : ℤ)
  /-- A call of a closure that makes a generator. -/
  | generator (newbase newtop : ℤ)
  /-- `_OP_RESUME`. -/
  | resume (g : ℕ)
  /-- `_OP_FOREACH`, with a generator. -/
  | foreach (g : ℕ)
  /-- `_OP_PUSHTRAP`. -/
  | pushTrap (ip extarget : ℕ)
  /-- `_OP_POPTRAP`. -/
  | popTrap (n : ℕ)
  /-- `_OP_YIELD`. -/
  | yield
  /-- `_OP_RETURN`. -/
  | ret
  /-- `sq_notifyallexceptions`. -/
  | notifyAll (enable : Bool)
  /-- An exception, up to the call of the error handler. -/
  | throw
  /-- The search for a trap, when the error handler is back. -/
  | unwind
deriving DecidableEq, Repr

/-- How it goes on. For an exception this has whether the error handler is called, and then where a
trap goes on: the stack base, the top, the instruction and the register with the error. -/
inductive FrameAnswer where
  | done
  | thrown (handler : Bool)
  | caught (stackbase top : ℤ) (ip extarget : ℕ)
  | uncaught
deriving DecidableEq, Repr

structure SQExceptionTrap where
  stackbase : ℤ
  stacksize : ℤ
  ip : ℕ
  extarget : ℕ
deriving DecidableEq, Repr

structure Frames.CallInfo where
  prevstkbase : ℤ
  prevtop : ℤ
  etraps : ℕ
  generator : Option ℕ
  root : Bool
deriving DecidableEq, Repr

inductive SQGeneratorState where
  | eRunning
  | eSuspended
  | eDead
deriving DecidableEq, Repr

/-- `SQGenerator`: its state, the size of its stack, `_ci._etraps`, `_ci._root`, and its traps, the
last one first. -/
structure SQGenerator where
  state : SQGeneratorState
  size : ℤ
  ciTraps : ℕ
  ciRoot : Bool
  etraps : List SQExceptionTrap
deriving DecidableEq, Repr

/-- The part of `SQVM` that has frames, the last one first. `traps` has the counters of the calls of
`Execute`, the innermost one first, and `raiseerrors` the flags they got. -/
structure Frames where
  stackbase : ℤ
  top : ℤ
  callsstack : List Frames.CallInfo
  etraps : List SQExceptionTrap
  generators : List SQGenerator
  traps : List ℤ
  raiseerrors : List Bool
  notifyallexceptions : Bool
deriving DecidableEq, Repr

namespace Frames

/-- No frames, and so much on the stack. -/
def new (top : ℤ) : Frames where
  stackbase := 0
  top := top
  callsstack := []
  etraps := []
  generators := []
  traps := []
  raiseerrors := []
  notifyallexceptions := false

variable (s : Frames)

/-- `EnterFrame`. -/
def enterFrame (newbase newtop : ℤ) : Frames :=
  { s with
    callsstack := ⟨newbase - s.stackbase, s.top - s.stackbase, 0, none, false⟩ :: s.callsstack
    stackbase := newbase
    top := newtop }

/-- `LeaveFrame`. -/
def leaveFrame : Option Frames :=
  match s.callsstack with
  | [] => none
  | ci :: cis =>
    some { s with
      callsstack := cis
      stackbase := s.stackbase - ci.prevstkbase
      top := s.stackbase - ci.prevstkbase + ci.prevtop }

/-- Change the frame that runs. -/
def changeFrame (f : CallInfo → CallInfo) : Option Frames :=
  match s.callsstack with
  | [] => none
  | ci :: cis => some { s with callsstack := f ci :: cis }

/-- Add to the counter of the innermost call of `Execute`. -/
def countTraps (n : ℤ) : Option Frames :=
  match s.traps with
  | [] => none
  | c :: cs => some { s with traps := (c + n) :: cs }

/-- `Kill`, for the generator of a frame. -/
def kill : Option ℕ → Frames
  | none => s
  | some g =>
    { s with
      generators := s.generators.modify g fun gen => { gen with state := .eDead, size := 0 } }

/-- `SQGenerator::Yield`: the traps of the frame go to the generator one by one, relative to the
frame. -/
def yieldTo (g : ℕ) : Option Frames :=
  match s.callsstack, s.generators[g]? with
  | ci :: _, some gen =>
    if gen.state ≠ .eRunning ∨ s.etraps.length < ci.etraps then none
    else
      some { s with
        etraps := s.etraps.drop ci.etraps
        generators := s.generators.set g {
          state := .eSuspended
          size := s.top - s.stackbase
          ciTraps := ci.etraps
          ciRoot := ci.root
          etraps := (s.etraps.take ci.etraps).foldl (fun traps et =>
            { et with
              stackbase := et.stackbase - s.stackbase
              stacksize := et.stacksize - s.stackbase } :: traps) gen.etraps } }
  | _, _ => none

/-- `SQGenerator::Resume`, of a suspended generator. -/
def resumeFrom (g : ℕ) (gen : SQGenerator) : Frames :=
  { s.enterFrame s.top (s.top + gen.size) with
    callsstack := ⟨s.top - s.stackbase, s.top - s.stackbase, gen.ciTraps, some g, gen.ciRoot⟩ ::
      s.callsstack
    etraps := (gen.etraps.take gen.ciTraps).foldl (fun traps et =>
      { et with
        stackbase := et.stackbase + s.top
        stacksize := et.stacksize + s.top } :: traps) s.etraps
    generators := s.generators.set g
      { gen with state := .eRunning, etraps := gen.etraps.drop gen.ciTraps } }

/-- A call of `Execute` begins, for the frame that has been entered. -/
def beginExecute (raiseerror : Bool) : Option Frames :=
  (s.changeFrame fun ci => { ci with root := true }).map fun s =>
    { s with traps := 0 :: s.traps, raiseerrors := raiseerror :: s.raiseerrors }

/-- A call of `Execute` ends. -/
def endExecute : Frames :=
  { s with traps := s.traps.tail, raiseerrors := s.raiseerrors.tail }

/-- `Return`: the end of a call of `Execute` asserts that no trap is left. -/
def leave : Option (FrameAnswer × Frames) :=
  match s.callsstack, s.traps with
  | ci :: _, c :: _ =>
    s.leaveFrame.bind fun s =>
      if ci.root then if c = 0 then some (.done, s.endExecute) else none
      else some (.done, s)
  | _, _ => none

/-- The loop of `exception_trap`: where the innermost trap goes on, or no trap before `Execute`
fails. -/
def unwind : List CallInfo → Frames → Option (FrameAnswer × Frames)
  | [], s => some (.uncaught, s.endExecute)
  | ci :: cis, s =>
    if 0 < ci.etraps then
      match s.etraps with
      | [] => none
      | et :: ets =>
        (({ s with stackbase := et.stackbase, top := et.stacksize, etraps := ets } :
          Frames).changeFrame fun ci => { ci with etraps := ci.etraps - 1 }).bind fun s =>
            (s.countTraps (-1)).map fun s =>
              (.caught et.stackbase et.stacksize et.ip et.extarget, s)
    else
      (s.kill ci.generator).leaveFrame.bind fun s =>
        if ci.root then some (.uncaught, s.endExecute) else unwind cis s

/-- `exception_trap`: the error handler is called for every exception, or if there are no traps and
the caller of `Execute` wants that. -/
def throw : Option (FrameAnswer × Frames) :=
  match s.callsstack, s.traps, s.raiseerrors with
  | _ :: _, c :: _, raiseerror :: _ =>
    some (.thrown (s.notifyallexceptions || (c = 0 && raiseerror)), s)
  | _, _, _ => none

/-- Answer a call. -/
def call (s : Frames) : FrameCall → Option (FrameAnswer × Frames)
  | .call newbase newtop => some (.done, s.enterFrame newbase newtop)
  | .execute raiseerror newbase newtop =>
    ((s.enterFrame newbase newtop).beginExecute raiseerror).map fun s => (.done, s)
  | .executeResume raiseerror g =>
    -- what `Resume` returns is not looked at: where it fails, `Execute` goes on with the frame of
    -- its caller
    (s.generators[g]?).bind fun gen =>
      if gen.state = .eSuspended then
        ((s.resumeFrom g gen).beginExecute raiseerror).bind fun s =>
          (s.countTraps gen.ciTraps).map fun s => (.done, s)
      else none
  | .moveTop top => some (.done, { s with top := top })
  | .tailCall newtop => some (.done, { s with top := max newtop s.top })
  | .generator newbase newtop =>
    (({ s.enterFrame newbase newtop with
      generators := s.generators ++ [⟨.eRunning, 0, 0, false, []⟩] } : Frames).yieldTo
        s.generators.length).bind fun s => s.leaveFrame.map fun s => (.done, s)
  | .resume g =>
    (s.generators[g]?).bind fun gen =>
      if gen.state = .eSuspended then
        ((s.resumeFrom g gen).countTraps gen.ciTraps).map fun s => (.done, s)
      else s.throw
  | .foreach g =>
    (s.generators[g]?).bind fun gen =>
      match gen.state with
      | .eDead => some (.done, s)
      | .eSuspended => some (.done, s.resumeFrom g gen)
      | .eRunning => s.throw
  | .pushTrap ip extarget =>
    ({ s with etraps := ⟨s.stackbase, s.top, ip, extarget⟩ :: s.etraps } : Frames).countTraps 1
      |>.bind fun s => (s.changeFrame fun ci => { ci with etraps := ci.etraps + 1 }).map fun s =>
        (.done, s)
  | .popTrap n =>
    ({ s with etraps := s.etraps.drop n } : Frames).countTraps (-n)
      |>.bind fun s => (s.changeFrame fun ci => { ci with etraps := ci.etraps - n }).map fun s =>
        (.done, s)
  | .yield =>
    match s.callsstack with
    | [] => none
    | ci :: _ =>
      match ci.generator with
      | none => s.throw
      | some g => (s.yieldTo g).bind fun s => (s.countTraps (-ci.etraps)).bind leave
  | .ret =>
    match s.callsstack with
    | [] => none
    | ci :: _ => (s.kill ci.generator).leave
  | .notifyAll enable => some (.done, { s with notifyallexceptions := enable })
  | .throw => s.throw
  | .unwind => if s.callsstack = [] then none else unwind s.callsstack s

end Frames

/-! ## What handlers are -/

/-- A handler of a frame: the size of the frame, the instruction and the register. -/
structure Handler where
  size : ℤ
  ip : ℕ
  extarget : ℕ
deriving DecidableEq, Repr

/-- A frame with its handlers, the innermost one first. If `Execute` was called for it, `root` has
the flag of that call. -/
structure Frame where
  base : ℤ
  top : ℤ
  handlers : List Handler
  generator : Option ℕ
  root : Option Bool
deriving DecidableEq, Repr

/-- A generator. One that waits knows whether `Execute` was called for it the last time it ran. -/
inductive Coroutine where
  | running
  | suspended (size : ℤ) (handlers : List Handler) (root : Bool)
  | dead
deriving DecidableEq, Repr

/-- The frames, the last one first, on so much of a stack. -/
structure Structured where
  bottom : ℤ
  frames : List Frame
  coroutines : List Coroutine
  notifyallexceptions : Bool
deriving DecidableEq, Repr

namespace Structured

def new (bottom : ℤ) : Structured := ⟨bottom, [], [], false⟩

variable (t : Structured)

/-- The top of the stack. -/
def top : ℤ :=
  match t.frames with
  | [] => t.bottom
  | f :: _ => f.top

/-- The generator of a frame has ended. -/
def kill : Option ℕ → Structured
  | none => t
  | some g => { t with coroutines := t.coroutines.set g .dead }

/-- The innermost handler of the frames up to a root takes the exception. -/
def unwind : List Frame → Structured → FrameAnswer × Structured
  | [], t => (.uncaught, { t with frames := [] })
  | f :: fs, t =>
    match f.handlers with
    | h :: hs => (.caught f.base (f.base + h.size) h.ip h.extarget,
        { t with frames := { f with handlers := hs, top := f.base + h.size } :: fs })
    | [] =>
      if f.root.isSome then (.uncaught, { t.kill f.generator with frames := fs })
      else unwind fs { t.kill f.generator with frames := fs }

/-- No frame up to the root has a handler, and the caller of `Execute` wants the error handler to be
called. -/
def unheard : List Frame → Bool
  | [] => false
  | f :: fs => f.handlers = [] && f.root.getD (unheard fs)

def throw : Option (FrameAnswer × Structured) :=
  if t.frames = [] then none
  else some (.thrown (t.notifyallexceptions || unheard t.frames), t)

/-- Answer a call. A frame ends without handlers and takes away only its own; `foreach` is not used
with a generator that has yielded where it has handlers, and a generator that yields after
`sq_resume` is resumed in this way only. -/
def call (t : Structured) : FrameCall → Option (FrameAnswer × Structured)
  | .call newbase newtop =>
    if t.frames = [] then none
    else some (.done, { t with frames := ⟨newbase, newtop, [], none, none⟩ :: t.frames })
  | .execute raiseerror newbase newtop =>
    some (.done, { t with frames := ⟨newbase, newtop, [], none, some raiseerror⟩ :: t.frames })
  | .executeResume raiseerror g =>
    (t.coroutines[g]?).bind fun co =>
      match co with
      | .suspended size handlers _ =>
        some (.done, { t with
          frames := ⟨t.top, t.top + size, handlers, some g, some raiseerror⟩ :: t.frames
          coroutines := t.coroutines.set g .running })
      | _ => none
  | .moveTop top =>
    match t.frames with
    | [] => some (.done, { t with bottom := top })
    | f :: fs => some (.done, { t with frames := { f with top := top } :: fs })
  | .tailCall newtop =>
    match t.frames with
    | [] => none
    | f :: fs => some (.done, { t with frames := { f with top := max newtop f.top } :: fs })
  | .generator newbase newtop =>
    some (.done, { t with
      coroutines := t.coroutines ++ [.suspended (newtop - newbase) [] false] })
  | .resume g =>
    (t.coroutines[g]?).bind fun co =>
      match co with
      | .suspended size handlers root =>
        if t.frames = [] ∨ root then none
        else some (.done, { t with
          frames := ⟨t.top, t.top + size, handlers, some g, none⟩ :: t.frames
          coroutines := t.coroutines.set g .running })
      | _ => t.throw
  | .foreach g =>
    (t.coroutines[g]?).bind fun co =>
      match co with
      | .suspended size handlers root =>
        if t.frames = [] ∨ handlers ≠ [] ∨ root then none
        else some (.done, { t with
          frames := ⟨t.top, t.top + size, [], some g, none⟩ :: t.frames
          coroutines := t.coroutines.set g .running })
      | .dead => some (.done, t)
      | .running => t.throw
  | .pushTrap ip extarget =>
    match t.frames with
    | [] => none
    | f :: fs => some (.done, { t with
        frames := { f with handlers := ⟨f.top - f.base, ip, extarget⟩ :: f.handlers } :: fs })
  | .popTrap n =>
    match t.frames with
    | [] => none
    | f :: fs =>
      if f.handlers.length < n then none
      else some (.done, { t with frames := { f with handlers := f.handlers.drop n } :: fs })
  | .yield =>
    match t.frames with
    | [] => none
    | f :: fs =>
      match f.generator with
      | none => t.throw
      | some g => some (.done, { t with
          frames := fs
          coroutines :=
            t.coroutines.set g (.suspended (f.top - f.base) f.handlers f.root.isSome) })
  | .ret =>
    match t.frames with
    | [] => none
    | f :: fs =>
      if f.handlers = [] then some (.done, { t.kill f.generator with frames := fs }) else none
  | .notifyAll enable => some (.done, { t with notifyallexceptions := enable })
  | .throw => t.throw
  | .unwind => if t.frames = [] then none else some (unwind t.frames t)

end Structured

end Squirrels
