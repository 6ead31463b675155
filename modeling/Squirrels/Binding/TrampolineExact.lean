import Squirrels.Binding.Trampoline

/-!
# What the trampoline does in its frame

In a frame with the userdata of a function in the last slot the trampoline decodes the arguments
and, if they fit, runs the function once. It returns 1 with the result on top, or it throws. If the
function is mutably borrowed it throws at once.
-/

namespace Squirrels

open Machines

/-! ## Borrows of the payload -/

section Borrows

variable {env : Env} {h h' : Heap} {r : ℕ}

theorem Heap.countBorrows_typeId (h : Heap) (r q : ℕ) (n : ℤ) :
    ((h.countBorrows r n).userData.read q).payload.map Payload.typeId =
      (h.userData.read q).payload.map Payload.typeId := by
  by_cases here : q = r
  · subst here
    unfold Heap.countBorrows
    simp only [Store.read_write_self, Option.map_map]
    rfl
  · exact congrArg (fun u : SQUserData => u.payload.map Payload.typeId)
      (Store.read_write_of_ne _ _ here)

theorem Heap.countBorrows_typetag (h : Heap) (r q : ℕ) (n : ℤ) :
    ((h.countBorrows r n).userData.read q).typetag = (h.userData.read q).typetag := by
  by_cases here : q = r
  · subst here
    unfold Heap.countBorrows
    simp only [Store.read_write_self]
  · exact congrArg SQUserData.typetag (Store.read_write_of_ne _ _ here)

/-- A borrow that ends leaves nothing behind. -/
theorem Heap.countBorrows_countBorrows (h : Heap) (r : ℕ) :
    (h.countBorrows r 1).countBorrows r (-1) = h := by
  have payload : ((h.userData.read r).payload.map fun p => { p with borrow := p.borrow + 1 }).map
      (fun p : Payload => { p with borrow := p.borrow + -1 }) = (h.userData.read r).payload := by
    cases (h.userData.read r).payload with
    | none => rfl
    | some p => simp
  have userData : ((h.countBorrows r 1).countBorrows r (-1)).userData = h.userData := by
    unfold Heap.countBorrows
    simp only [Store.read_write_self, payload]
    simp [Store.write, Store.read]
  exact congrArg (fun u => { h with userData := u }) userData

/-- A heap that has grown while the payload was borrowed has grown when the borrow ends. -/
theorem Heap.Grows.borrowed (grows : (h.countBorrows r 1).Grows h') :
    h.Grows (h'.countBorrows r (-1)) where
  natives_next := grows.natives_next
  natives := grows.natives
  userData_next := grows.userData_next
  payload q lt := by
    rw [Heap.countBorrows_typeId, grows.payload q lt, Heap.countBorrows_typeId]
  typetag q lt := by
    rw [Heap.countBorrows_typetag, grows.typetag q lt, Heap.countBorrows_typetag]

/-- The machine with more or fewer borrows of a payload. -/
def SQVM.countBorrows (s : SQVM) (r : ℕ) (n : ℤ) : SQVM :=
  { s with heap := s.heap.countBorrows r n }

variable {w₀ w : World} {vm : VmId} {s : SQVM} {L L' : List Object}

theorem countBorrows_yields (n : ℤ) :
    Yields w₀ vm s L (countBorrows vm r n) () (s.countBorrows r n) L :=
  Yields.machine (fun _ flag => ⟨flag, rfl⟩) rfl

/-- A program that returns while the payload is borrowed. -/
theorem borrowing_returned {α : Type} {m : Act World α} {a : α} {w' : World} {t : SQVM}
    (ran : m.run w = (.ok a, w')) (done : Exactly w₀ vm t L' w')
    {before : World} (started : (countBorrows vm r 1).run before = (.ok (), w)) :
    ∃ w'', (borrowing vm r m).run before = (.ok a, w'') ∧
      Exactly w₀ vm (t.countBorrows r (-1)) L' w'' := by
  obtain ⟨_, w'', ended, -, done'⟩ := (@countBorrows_yields r w₀ vm t L' (-1)).returns done
  refine ⟨w'', ?_, done'⟩
  unfold borrowing
  rw [Act.run_bind_of_ok started, Act.run_bind_of_ok (Act.run_onUnwind_of_ok ran),
    Act.run_bind_of_ok ended]
  rfl

/-- A program that panics while the payload is borrowed. -/
theorem borrowing_panicked {α : Type} {m : Act World α} {message : String} {w' : World} {t : SQVM}
    (ran : m.run w = (.error (.panic message), w')) (done : Exactly w₀ vm t L' w')
    {before : World} (started : (countBorrows vm r 1).run before = (.ok (), w)) :
    ∃ w'', (borrowing vm r m).run before = (.error (.panic message), w'') ∧
      Exactly w₀ vm (t.countBorrows r (-1)) L' w'' := by
  obtain ⟨_, w'', ended, -, done'⟩ := (@countBorrows_yields r w₀ vm t L' (-1)).returns done
  refine ⟨w'', ?_, done'⟩
  unfold borrowing
  rw [Act.run_bind_of_ok started,
    Act.run_bind_of_error (Act.run_onUnwind_of_panic ran ended)]

end Borrows

/-! ## The frame of a function -/

/-- The frame that `closure_trampoline` finds: the userdata in its last slot holds a function. -/
structure SQVM.FunctionFrame (s : SQVM) (r : ℕ) (p : Payload) (args : List SQObject) : Prop where
  frame : s.ArgFrame (.ref .userData r) args
  payload : (s.heap.userData.read r).payload = some p
  tag : (s.heap.userData.read r).typetag = userdataTag

section Frame

variable {env : Env} {w₀ w : World} {vm : VmId} {s : SQVM} {L : List Object} {r : ℕ} {p : Payload}
  {args : List SQObject}

theorem fromRawBorrowed_yields :
    Yields w₀ vm s L (Squirrel.fromRawBorrowed vm) () s L := by
  have top : (s.push s.rootObject).top = s.top + 1 := rfl
  have pushed : Computes Api.sqPushroottable s () (s.push s.rootObject) := fun _ _ => ⟨_, rfl⟩
  apply Yields.bind (Yields.machine pushed rfl)
  apply Yields.bind (Yields.machine (Api.sqGetstackobj_computes _ _) rfl)
  exact Yields.machine (Api.sqPop_computes (by omega)) rfl

theorem payloadFromStack_yields (frame : s.FunctionFrame r p args) :
    Yields w₀ vm s L
      (Handle.UserData.payloadFromStack env vm ((s.top : ℤ) - s.stackbase) p.typeId)
      (some (r, p)) s L := by
  have found := frame.frame.stackGet_upvalue
  have read : Computes (Api.sqGetuserdata env ((s.top : ℤ) - s.stackbase)) s
      (some (r, userdataTag)) s := by
    intro refs flag
    refine ⟨flag, ?_⟩
    have found' : { s with refs := refs, overflowed := flag }.stackGet
        ((s.top : ℤ) - s.stackbase) = .ref .userData r := found
    unfold Api.sqGetuserdata
    rw [Act.run_bind_of_ok (Act.run_get _), found']
    simp only
    rw [frame.tag]
    rfl
  apply Yields.bind (Yields.machine read rfl)
  simp only
  rw [if_neg (not_not.2 rfl)]
  intro w start
  have heap : (w vm).heap = s.heap := by rw [start.machine]
  rw [Act.run_bind_of_ok (Act.run_get _), heap, frame.payload]
  refine ⟨?_, start⟩
  simp

/-- The trampoline finds the function. -/
theorem trampolineBody_found {A R : Type} [Owns A] [FromArgs A] [Owns R] [IntoSquirrel R]
    {f : RustFunction env A R} (function : ℕ) (frame : s.FunctionFrame r p args)
    (typed : p.typeId = f.typeId) (start : Exactly w₀ vm s L w) :
    ∃ w₁, (trampolineBody env f function vm).run w =
      (if p.Borrowable then borrowing vm r (invokeBorrowed env f function args.length vm)
        else throwErrorText (ascii "nativeclosure upvalue is already mutably borrowed") vm).run w₁ ∧
      Exactly w₀ vm s L w₁ := by
  obtain ⟨_, w', depth, rfl, start⟩ := Yields.stackDepth.returns start
  obtain ⟨_, w'', root, -, start⟩ := fromRawBorrowed_yields.returns start
  obtain ⟨_, w₁, payload, rfl, start⟩ :=
    (@payloadFromStack_yields env _ _ _ _ _ _ _ frame).returns start
  refine ⟨w₁, ?_, start⟩
  have count : (s.top : ℤ) - s.stackbase - 2 = args.length := by
    rw [frame.frame.depth_eq, add_sub_cancel_right]
  rw [typed] at payload
  unfold trampolineBody
  rw [Act.run_bind_of_ok depth, Act.run_bind_of_ok root, Act.run_bind_of_ok payload, count]

/-- A function that is not mutably borrowed: the trampoline gets as far as the decoding of the
arguments, and throws neither of its own errors. -/
theorem trampolineBody_run {A R : Type} [Owns A] [FromArgs A] [ExactFromArgs A] [Owns R]
    [IntoSquirrel R] {f : RustFunction env A R} (function : ℕ) (frame : s.FunctionFrame r p args)
    (typed : p.typeId = f.typeId) (free : p.Borrowable) (start : Exactly w₀ vm s L w) :
    ∃ e w₁ w₂ w₃, (trampolineBody env f function vm).run w =
        (borrowing vm r (invokeBorrowed env f function args.length vm)).run w₁ ∧
      (countBorrows vm r 1).run w₁ = (.ok (), w₂) ∧
      (FromArgs.fromArgs env args.length vm).run w₂ =
        (.ok (ExactFromArgs.decodeArgs vm args : Except Error A), w₃) ∧
      Exactly w₀ vm ((s.countBorrows r 1).withError e)
        (Owns.handles (ExactFromArgs.decodeArgs vm args : Except Error A) ++ L) w₃ := by
  obtain ⟨w₁, body, start⟩ := trampolineBody_found function frame typed start
  obtain ⟨_, w₂, shared, -, start⟩ := (@countBorrows_yields r w₀ vm s L 1).returns start
  have frame' : (s.countBorrows r 1).ArgFrame (.ref .userData r) args := ⟨frame.frame.located⟩
  obtain ⟨e, read⟩ := @ExactFromArgs.read A _ _ _ env w₀ vm (s.countBorrows r 1) L _ args frame'
  obtain ⟨_, w₃, decoded, rfl, start⟩ := read.returns start
  rw [if_pos free] at body
  exact ⟨e, w₁, w₂, w₃, body, shared, decoded, start⟩

end Frame

/-! ## The function -/

/-- What the trampoline makes of a direct call of the function: it returns the encoding of the
result, or it throws the error of the function or, for a panic, a string. -/
def trampolineEnd {R : Type} [Owns R] [IntoSquirrel R] [ExactInto R] :
    Except Stop (Except Value R) → Option (Except SQObject SQObject)
  | .ok (.ok r) => some (.ok (ExactInto.encode r))
  | .ok (.error v) => some (.error v.slot)
  | .error (.panic _) => some (.error (.string (ascii "panic in native function")))
  | .error _ => none

/-- A C function has returned an object, or thrown one. Apart from that object the machine is as it
was, and `invoked` records the functions that have been run. -/
def NativeEnds (env : Env) (w₀ : World) (vm : VmId) (s : SQVM) (L : List Object)
    (invoked : List ℕ) (ran : Except Stop ℤ × World) : Except SQObject SQObject → Prop
  | .ok o => ∃ t, Kept env s t ∧ t.root = s.root ∧ t.invoked = invoked ∧ ran.1 = .ok 1 ∧
    Exactly w₀ vm (t.push o) L ran.2
  | .error o => ∃ t, Kept env s t ∧ t.root = s.root ∧ t.invoked = invoked ∧ ran.1 = .ok (-1) ∧
    t.lasterror = o ∧ Exactly w₀ vm t L ran.2

theorem extractionMessage_clean (e : Error) : 0 ∉ extractionMessage e := by
  unfold extractionMessage
  split
  · decide
  · assumption

section Function

variable {env : Env} {w₀ w : World} {vm : VmId} {s t : SQVM} {L : List Object} {r function : ℕ}
  {p : Payload} {args : List SQObject} {A R : Type} [Owns A] [Owns R] [IntoSquirrel R]
  {f : RustFunction env A R}

theorem throwErrorText_yields {message : List UInt8} (clean : 0 ∉ message) :
    Yields w₀ vm s L (throwErrorText message vm) (-1) (s.withError (.string message)) L := by
  have thrown : Computes (Api.sqThrowerror message) s (-1) (s.withError (.string message)) := by
    intro refs flag
    refine ⟨flag, ?_⟩
    unfold Api.sqThrowerror
    rw [(cString_eq_self_iff message).2 clean]
    rfl
  exact Yields.machine thrown rfl

/-- The run of the function is recorded. -/
def SQVM.invoke (s : SQVM) (function : ℕ) : SQVM := { s with invoked := function :: s.invoked }

/-- The function is run once. Its result is pushed, and its error is thrown. -/
theorem deliverResult_run [ExactInto R] (a : A) (based : s.stackbase ≤ s.top)
    (start : Exactly w₀ vm s L w) :
    ∃ w₁, Exactly w₀ vm (s.invoke function) L w₁ ∧
      match (f.run a vm).run w₁ with
      | (.ok (.ok r), w₂) => ∃ t w', Kept env s t ∧ t.root = s.root ∧
        t.invoked = (w₂ vm).invoked ∧ (deliverResult env f function a vm).run w = (.ok 1, w') ∧
        Exactly w₀ vm (t.push (ExactInto.encode r)) L w'
      | (.ok (.error v), w₂) => ∃ t w', Kept env s t ∧ t.root = s.root ∧
        t.invoked = (w₂ vm).invoked ∧ (deliverResult env f function a vm).run w = (.ok (-1), w') ∧
        t.lasterror = v.slot ∧ Exactly w₀ vm t L w'
      | (.error (.panic message), w₂) => ∃ t, Kept env s t ∧ t.root = s.root ∧
        t.invoked = (w₂ vm).invoked ∧
        (deliverResult env f function a vm).run w = (.error (.panic message), w₂) ∧
        Exactly w₀ vm t L w₂
      | (.error _, _) => True := by
  have recorded : Yields w₀ vm s L (Act.on vm (Act.modify fun s => s.invoke function)) ()
      (s.invoke function) L := Yields.machine (fun _ flag => ⟨flag, rfl⟩) rfl
  obtain ⟨_, w₁, invoked, -, start₁⟩ := recorded.returns start
  refine ⟨w₁, start₁, ?_⟩
  have kept : Kept env s (s.invoke function) :=
    ⟨⟨rfl, rfl, rfl, rfl, rfl, rfl, le_rfl, .refl _, fun _ => rfl⟩, rfl⟩
  have based₁ : (s.invoke function).stackbase ≤ (s.invoke function).top := based
  have safe := f.safe a based₁ start₁
  have unfolded : (deliverResult env f function a vm).run w = _ := Act.run_bind_of_ok invoked
  rcases ran : (f.run a vm).run w₁ with ⟨e | r, w₂⟩
  · rw [ran] at safe
    cases e with
    | panic message =>
      obtain ⟨t, kept', root, -, done⟩ := safe
      refine ⟨t, kept.trans kept', root, ?_, ?_, done⟩
      · rw [done.machine]
      · rw [unfolded, Act.run_bind_of_error ran]
    | abort reason => trivial
    | diverge => trivial
  · rw [ran] at safe
    obtain ⟨-, here, t, kept', root, -, done⟩ := safe
    rw [Act.run_bind_of_ok ran] at unfolded
    have based' : t.stackbase ≤ t.top := by
      rw [kept'.stackbase, SQVM.top, kept'.stack]
      exact based
    have recorded' : t.invoked = (w₂ vm).invoked := by rw [done.machine]
    cases r with
    | ok r =>
      obtain ⟨_, w', pushed, -, done'⟩ :=
        (@ExactInto.pushed R _ _ _ env _ _ _ _ r based' here).returns done
      refine ⟨t, w', kept.trans kept', root, recorded', ?_, done'⟩
      rw [unfolded]
      simp only
      rw [Act.run_bind_of_ok pushed]
      rfl
    | error v =>
      have thrown : Yields w₀ vm t (Owns.handles v ++ L) (do
          IntoSquirrel.pushIntoStack env v vm
          Api.sqThrowobject.on vm) (-1) (t.withError v.slot) L :=
        Yields.bind (Yields.pushOwned here) (Yields.machine (fun _ flag => ⟨flag, rfl⟩) rfl)
      obtain ⟨ret, w', ran', rfl, done'⟩ := thrown.returns done
      refine ⟨t.withError v.slot, w', (kept.trans kept').trans (.withError _ _), root, recorded',
        ?_, rfl, done'⟩
      rw [unfolded]
      exact ran'

/-- The machine is back as it was when the payload is no longer borrowed. -/
theorem Kept.borrowed (kept : Kept env (s.countBorrows r 1) t) :
    Kept env s (t.countBorrows r (-1)) where
  stackbase := kept.stackbase
  calls := kept.calls
  nnativecalls := kept.nnativecalls
  nmetamethodscall := kept.nmetamethodscall
  suspended := kept.suspended
  registered := kept.registered
  stackSize := kept.stackSize
  heap := kept.heap.borrowed
  overflowed := kept.overflowed
  stack := kept.stack

/-- A panic is caught and thrown as a string. -/
theorem closureTrampoline_caught [FromArgs A] {message : String} {w' : World}
    (ran : (trampolineBody env f function vm).run w = (.error (.panic message), w'))
    (done : Exactly w₀ vm t L w') :
    ∃ w'', (closureTrampoline env f function vm).run w = (.ok (-1), w'') ∧
      Exactly w₀ vm (t.withError (.string (ascii "panic in native function"))) L w'' := by
  have clean : (0 : UInt8) ∉ ascii "panic in native function" := by decide
  obtain ⟨_, w'', thrown, rfl, done'⟩ :=
    (@throwErrorText_yields w₀ vm t L _ clean).returns done
  refine ⟨w'', ?_, done'⟩
  unfold closureTrampoline
  rw [Act.run_bind_of_ok (Act.run_catchUnwind_of_panic ran)]
  exact thrown

theorem closureTrampoline_ended [FromArgs A] {ret : ℤ} {w' : World}
    (ran : (trampolineBody env f function vm).run w = (.ok ret, w')) :
    (closureTrampoline env f function vm).run w = (.ok ret, w') := by
  unfold closureTrampoline
  rw [Act.run_bind_of_ok (Act.run_catchUnwind_of_ok ran)]
  rfl

/-- The world in which the trampoline runs the function: the frame is as the trampoline found it,
the run has been recorded, and the function is borrowed. -/
structure Entered (w₀ : World) (vm : VmId) (s : SQVM) (L : List Object) (r function : ℕ)
    (w₁ : World) : Prop where
  owned : Owned L w₁
  stack : (w₁ vm).stack = s.stack
  stackbase : (w₁ vm).stackbase = s.stackbase
  heap : (w₁ vm).heap = s.heap.countBorrows r 1
  invoked : (w₁ vm).invoked = function :: s.invoked
  others : ∀ j, j ≠ vm → Apart (w₀ j) (w₁ j)

omit [Owns A] [Owns R] [IntoSquirrel R] in
theorem Entered.of_exactly {e : SQObject} {w₁ : World}
    (entered : Exactly w₀ vm (((s.countBorrows r 1).withError e).invoke function) L w₁) :
    Entered w₀ vm s L r function w₁ where
  owned := entered.owned
  stack := by rw [entered.machine]; rfl
  stackbase := by rw [entered.machine]; rfl
  heap := by rw [entered.machine]; rfl
  invoked := by rw [entered.machine]; rfl
  others := entered.others

section Trampoline

variable [FromArgs A] (frame : s.FunctionFrame r p args) (typed : p.typeId = f.typeId)
  (start : Exactly w₀ vm s L w)

include frame typed start

variable (function) in
/-- A function that is mutably borrowed: a string is thrown and no function is run. -/
theorem closureTrampoline_borrowed (borrowed : ¬ p.Borrowable) :
    NativeEnds env w₀ vm s L s.invoked ((closureTrampoline env f function vm).run w)
      (.error (.string (ascii "nativeclosure upvalue is already mutably borrowed"))) := by
  have clean : (0 : UInt8) ∉ ascii "nativeclosure upvalue is already mutably borrowed" := by decide
  obtain ⟨w₁, body, start⟩ := trampolineBody_found function frame typed start
  obtain ⟨_, w₂, thrown, rfl, start⟩ := (throwErrorText_yields clean).returns start
  rw [if_neg borrowed, thrown] at body
  rw [closureTrampoline_ended body]
  exact ⟨s.withError (.string _), .withError _ _, rfl, rfl, rfl, rfl, start⟩

variable [ExactFromArgs A] (free : p.Borrowable)

include free

variable (function) in
/-- Arguments that do not fit: a string is thrown and no function is run. -/
theorem closureTrampoline_refused {err : Error}
    (refused : ExactFromArgs.decodeArgs vm args = (.error err : Except Error A)) :
    NativeEnds env w₀ vm s L s.invoked ((closureTrampoline env f function vm).run w)
      (.error (.string (extractionMessage err))) := by
  obtain ⟨e, w₁, w₂, w₃, body, shared, decoded, start⟩ :=
    trampolineBody_run function frame typed free start
  have invoked : (invokeBorrowed env f function args.length vm).run w₂ = _ :=
    Act.run_bind_of_ok decoded
  rw [refused] at start invoked
  obtain ⟨_, w₄, thrown, rfl, start⟩ :=
    (throwErrorText_yields (extractionMessage_clean err)).returns start
  rw [thrown] at invoked
  obtain ⟨w', ended, done⟩ := borrowing_returned invoked start shared
  rw [← body] at ended
  have kept : Kept env (s.countBorrows r 1) (((s.countBorrows r 1).withError e).withError
    (.string (extractionMessage err))) := (Kept.withError _ _).trans (.withError _ _)
  rw [closureTrampoline_ended ended]
  exact ⟨_, kept.borrowed, rfl, rfl, rfl, rfl, done⟩

variable (function) in
/-- Arguments that fit: the function is run on them, and the trampoline ends as it does. -/
theorem closureTrampoline_ran [ExactInto R] {a : A}
    (fits : ExactFromArgs.decodeArgs vm args = .ok a) :
    ∃ w₁, Entered w₀ vm s L r function w₁ ∧
      (∀ v, ((f.run a vm).run w₁).1 = .ok (.error v) → v.slot.toValue vm = v) ∧
      ∀ o, trampolineEnd ((f.run a vm).run w₁).1 = some o →
        NativeEnds env w₀ vm s L (((f.run a vm).run w₁).2 vm).invoked
          ((closureTrampoline env f function vm).run w) o := by
  obtain ⟨e, w₁, w₂, w₃, body, shared, decoded, start⟩ :=
    trampolineBody_run function frame typed free start
  have invoked : (invokeBorrowed env f function args.length vm).run w₂ = _ :=
    Act.run_bind_of_ok decoded
  have free : Owns.handles (Except.ok a : Except Error A) ++ L = L := by
    show Owns.handles a ++ L = L
    rw [f.args_free a, List.nil_append]
  have based : ((s.countBorrows r 1).withError e).stackbase ≤
      ((s.countBorrows r 1).withError e).top := frame.frame.based
  rw [fits] at invoked start
  rw [free] at start
  obtain ⟨w₄, entered, delivered⟩ :=
    @deliverResult_run env w₀ w₃ vm _ L function A R _ _ _ f _ a based start
  have kept : Kept env (s.countBorrows r 1) ((s.countBorrows r 1).withError e) := .withError _ _
  refine ⟨w₄, .of_exactly entered, fun v threw => ?_, fun o ends => ?_⟩
  · have based' : (((s.countBorrows r 1).withError e).invoke function).stackbase ≤
        (((s.countBorrows r 1).withError e).invoke function).top := based
    have safe := f.safe a based' entered
    rcases ran : (f.run a vm).run w₄ with ⟨ret, w₅⟩
    rw [ran] at safe threw
    obtain rfl : ret = .ok (.error v) := threw
    exact safe.1 v rfl
  rcases ran : (f.run a vm).run w₄ with ⟨stop | ⟨v⟩ | ⟨res⟩, w₅⟩
  · rw [ran] at delivered ends
    cases stop with
    | panic message =>
      obtain ⟨t, kept', root, recorded, panicked, done⟩ := delivered
      rw [panicked] at invoked
      obtain ⟨w', ended, done'⟩ := borrowing_panicked invoked done shared
      rw [← body] at ended
      obtain ⟨w'', ran', done''⟩ := closureTrampoline_caught ended done'
      cases ends
      rw [ran']
      exact ⟨_, (kept.trans kept').borrowed.trans (.withError _ _), root, recorded, rfl,
        rfl, done''⟩
    | abort reason => cases ends
    | diverge => cases ends
  · rw [ran] at delivered ends
    obtain ⟨t, w₆, kept', root, recorded, returned, thrown, done⟩ := delivered
    rw [returned] at invoked
    obtain ⟨w', ended, done'⟩ := borrowing_returned invoked done shared
    rw [← body] at ended
    cases ends
    rw [closureTrampoline_ended ended]
    exact ⟨_, (kept.trans kept').borrowed, root, recorded, rfl, thrown, done'⟩
  · rw [ran] at delivered ends
    obtain ⟨t, w₆, kept', root, recorded, returned, done⟩ := delivered
    rw [returned] at invoked
    obtain ⟨w', ended, done'⟩ := borrowing_returned invoked done shared
    rw [← body] at ended
    cases ends
    rw [closureTrampoline_ended ended]
    exact ⟨_, (kept.trans kept').borrowed, root, recorded, rfl, done'⟩

end Trampoline

end Function

end Squirrels
