import Squirrels.Binding.References

/-!
# The root table

`Squirrel::new` reads the root table once and keeps it. A function that sets another root table, as
`setroottable` does, changes the one of the machine only. As long as no function does, the table
that is kept is the one that compiled code gets its globals from.
-/

namespace Squirrels

open Machines

/-- The program with functions that cannot set the root table. -/
def Env.rooted (env : Env) : Env where
  address := env.address
  formatFloat := env.formatFloat
  proto := env.proto
  native f s := ((env.native f s).1, { (env.native f s).2 with roottable := s.roottable })
  body s c := { env.body s c with roottable := s.roottable }
  compile := env.compile
  native_law f s := { env.native_law f s with }
  body_grows := env.body_grows
  body_suspends := env.body_suspends

/-- Nothing changes for a program that sets no root table. -/
theorem Env.rooted_eq {env : Env} (keeps : env.KeepsRoot) : env.rooted = env := by
  obtain ⟨address, formatFloat, proto, native, body, compile, law, grows, suspends⟩ := env
  have natives : (fun f s => ((native f s).1, { (native f s).2 with roottable := s.roottable })) =
      native := by
    funext f s
    have same : (native f s).2.roottable = s.roottable := keeps.native f s
    rw [← same]
  have bodies : (fun s c => { body s c with roottable := s.roottable }) = body := by
    funext s c
    have same : (body s c).roottable = s.roottable := keeps.body s c
    rw [← same]
  unfold Env.rooted
  simp only [natives, bodies]

theorem Env.rooted_keepsRoot (env : Env) : env.rooted.KeepsRoot := ⟨fun _ _ => rfl, fun _ _ => rfl⟩

/-- The root tables of all machines, and the ones that are kept, are as they were. -/
def SameRoots (w w' : World) : Prop :=
  ∀ vm, (w' vm).root = (w vm).root ∧ (w' vm).roottable = (w vm).roottable

section Operations

variable {env : Env} {N : Prop} {vm : VmId} {stack : List SQObject} {L L' : List Object} {α : Type}
  {m : Act World α} {w w' : World}

theorem SameRoots.trans {w'' : World} (first : SameRoots w w') (next : SameRoots w' w'') :
    SameRoots w w'' :=
  fun vm => ⟨(next vm).1.trans (first vm).1, (next vm).2.trans (first vm).2⟩

/-- The machine of an operation keeps its root, and the others are left alone. -/
theorem At.sameRoots {G H : Prop} (at_ : At env G H w vm stack L w') (keeps : env.KeepsRoot) :
    SameRoots w w' := by
  intro j
  by_cases here : j = vm
  · subst here
    exact ⟨at_.on.root_eq, at_.on.roottable_eq keeps⟩
  · rw [(at_.others j here).same]
    exact ⟨rfl, rfl⟩

/-- The push of any object on any machine. -/
theorem sameRoots_push (w : World) (vm : VmId) (o : SQObject) :
    SameRoots w (((Api.push o).on vm).run w).2 := by
  intro j
  show ((Function.update w vm ((w vm).apiPush o)) j).root = _ ∧
    ((Function.update w vm ((w vm).apiPush o)) j).roottable = _
  by_cases here : j = vm
  · subst here
    rw [Function.update_self]
    exact ⟨rfl, rfl⟩
  · rw [Function.update_of_ne here]
    exact ⟨rfl, rfl⟩

/-- The program keeps the root tables when it returns or panics. -/
def KeepsRoots (L : List Object) (m : Act World α) : Prop :=
  ∀ w, Owned L w → match m.run w with
    | (.ok _, w') => SameRoots w w'
    | (.error (.panic _), w') => SameRoots w w'
    | (.error _, _) => True

/-- A contract that promises nothing about the stack is one about the root tables. -/
theorem KeepsRoots.of_contract (keeps : env.KeepsRoot) (vm : VmId) (stack : List SQObject)
    (L' : List Object)
    (contract : ∀ w₀, Triple (fun w => w = w₀ ∧ At env False False w₀ vm stack L w) m
      (fun _ w => ∃ stack' L'', Later env False False w₀ vm stack' L'' w)
      (Failed env False N w₀ vm L')) :
    KeepsRoots L m := by
  intro w owned
  have done := contract w w ⟨rfl, (At.start owned vm).any id stack⟩
  rcases ran : m.run w with ⟨e | a, w'⟩ <;> rw [ran] at done
  · cases e with
    | panic message =>
      obtain ⟨H, stack', -, -, at_⟩ := done.panicked message rfl
      exact at_.sameRoots keeps
    | abort reason => trivial
    | diverge => trivial
  · obtain ⟨stack', L'', H', -, at_⟩ := done
    exact at_.sameRoots keeps

theorem KeepsRoots.after_push (keeps : ∀ L, KeepsRoots L m) (vm : VmId) (o : SQObject)
    (L : List Object) :
    KeepsRoots L (do
      (Api.push o).on vm
      m) := by
  intro w owned
  have pushed := sameRoots_push w vm o
  have owned' : Owned L (((Api.push o).on vm).run w).2 := owned.update rfl rfl
  have rest := keeps L _ owned'
  have ran : ((Api.push o).on vm).run w = (.ok (), (((Api.push o).on vm).run w).2) := rfl
  rw [Act.run_bind_of_ok ran]
  split
  · rename_i eq
    rw [eq] at rest
    exact pushed.trans rest
  · rename_i eq
    rw [eq] at rest
    exact pushed.trans rest
  · trivial

/-- The delegate may belong to another machine, on whose stack it is then pushed. -/
theorem Handle.Table.setDelegate_keepsRoots (keeps : env.KeepsRoot) (self : Table)
    (delegate : Option Table) (L : List Object) : KeepsRoots L (setDelegate env self delegate) := by
  have rest : ∀ L, KeepsRoots L (do
      let ret ← (Api.sqSetdelegate (-2)).on self.sq
      ret.finishUpdate env self.sq 2) := by
    intro L
    refine KeepsRoots.of_contract (N := False) keeps self.sq [.null] L fun w₀ =>
      Triple.pre ?_ fun _ start => start.2
    refine Triple.bind (At.exits (Api.sqSetdelegate_exits (-2) .null)) fun ret =>
      Triple.exists_pre fun _ => Triple.of_pre fun _ => ?_
    refine Triple.bind (toRuntimeError_any ret 2 Nat.two_pos [.null] False.elim) fun e => ?_
    cases e with
    | error e => exact Triple.pure fun _ ⟨_, at_⟩ => ⟨_, _, at_.later⟩
    | ok _ =>
      exact Triple.of_pre fun _ => Triple.bind (pop_at 1 one_pos False.elim) fun _ =>
        Triple.pure fun _ at_ => ⟨_, _, at_.later⟩
  apply KeepsRoots.after_push
  intro L
  cases delegate with
  | none => exact KeepsRoots.after_push rest self.sq .null L
  | some d => exact KeepsRoots.after_push rest d.sq d.obj L

/-- No operation sets a root table when no function does. -/
theorem Op.keepsRoots (keeps : env.KeepsRoot) (op : Op) (L : List Object) :
    KeepsRoots ((op.toCall env).consumed ++ L) (op.toCall env).program := by
  have own : op.OwnDelegate →
      KeepsRoots ((op.toCall env).consumed ++ L) (op.toCall env).program := by
    intro own
    have accounted : ∀ w₀, (op.toCall env).Accounted env False w₀ [] :=
      fun w₀ => op.accounted own False.elim False.elim False.elim
    exact KeepsRoots.of_contract keeps (op.toCall env).vm [] L fun w₀ =>
      Triple.post (accounted w₀ L) fun _ _ ⟨stack, later⟩ => ⟨stack, _, later⟩
  cases op with
  | table op =>
    cases op with
    | setDelegate self delegate => exact Handle.Table.setDelegate_keepsRoots keeps self delegate _
    | _ => exact own trivial
  | _ => exact own trivial

theorem Op.sameRoots_step (keeps : env.KeepsRoot) (op : Op) {x y : Session}
    (owned : Owned x.live x.world) (step : (op.toCall env).Step x y) :
    SameRoots x.world y.world := by
  cases step with
  | @returned w w' L rest r moved ran =>
    have done := op.keepsRoots keeps rest w (owned.perm moved)
    rw [ran] at done
    exact done
  | @panicked w w' L rest message moved ran =>
    have done := op.keepsRoots keeps rest w (owned.perm moved)
    rw [ran] at done
    exact done

end Operations

/-! ## Compiled code -/

section Compiled

variable {env : Env} {vm : VmId} {t : RefType} {n : ℕ} {h : Heap}

theorem pop_sameHeap (count : ℤ) :
    Triple (fun w : World => (w vm).heap = h) (Squirrel.pop vm count)
      (fun _ w => (w vm).heap = h) fun _ _ => True := by
  refine Triple.bind (Q := fun _ w => (w vm).heap = h) ?_ fun _ => ?_
  · intro w heap
    show ((Function.update w vm (w vm)) vm).heap = h
    rw [Function.update_self]
    exact heap
  have checked : ∀ {c : Prop} [Decidable c] {message : String}, Triple (fun w : World =>
      (w vm).heap = h) (Act.ensure c message) (fun _ w => (w vm).heap = h) fun _ _ => True :=
    Triple.ensure (fun _ _ heap => heap) fun _ _ _ => trivial
  refine Triple.bind checked fun _ => Triple.bind checked fun _ => ?_
  have popped : Triple (fun s : SQVM => s.heap = h) (Api.sqPop count.toNat)
      (fun _ s => s.heap = h) fun _ _ => True := by
    refine Triple.get_bind fun s heap => ?_
    split
    · exact Triple.stop fun _ _ => trivial
    · exact Triple.modify fun _ eq => eq ▸ heap
  refine Triple.on popped (fun _ heap => heap) (fun _ _ _ _ heap => ?_) fun _ _ _ _ _ => trivial
  rw [Function.update_self]
  exact heap

/-- The handle that is taken is one of the object on top. -/
theorem takePushed_top {unexpected : String} :
    Triple (fun w : World => (w vm).stackGet (-1) = .ref t n ∧ (w vm).heap = h)
      (takePushed env vm unexpected : Act World (Handle t))
      (fun taken w => taken.ref = n ∧ (w vm).heap = h) fun _ _ => True := by
  have read : Triple (fun w : World => (w vm).stackGet (-1) = .ref t n ∧ (w vm).heap = h)
      (FromSquirrel.fromStack env (-1) vm : Act World (Except Error (Handle t)))
      (fun val w => val = .ok ⟨vm, n⟩ ∧ (w vm).heap = h) fun _ _ => True := by
    refine Triple.bind (Q := fun o w => o = ⟨vm, .ref t n⟩ ∧ (w vm).heap = h) ?_ fun o =>
      Triple.of_pre fun eq => ?_
    · refine Triple.bind (Q := fun _ w => (w vm).stackGet (-1) = .ref t n ∧ (w vm).heap = h) ?_
        fun _ => ?_
      · refine Triple.bind (Q := fun _ w => (w vm).stackGet (-1) = .ref t n ∧ (w vm).heap = h) ?_
          fun _ => Triple.ensure (fun _ _ holds => holds) fun _ _ _ => trivial
        intro w holds
        show ((Function.update w vm (w vm)) vm).stackGet (-1) = _ ∧
          ((Function.update w vm (w vm)) vm).heap = h
        rw [Function.update_self]
        exact holds
      refine Triple.bind (Q := fun o w => o = .ref t n ∧ (w vm).heap = h) ?_ fun o =>
        Triple.of_pre fun eq => ?_
      · intro w ⟨top, heap⟩
        show _ ∧ ((Function.update w vm (w vm)) vm).heap = h
        rw [Function.update_self]
        exact ⟨top, heap⟩
      subst eq
      refine Triple.bind (Q := fun _ w => (w vm).heap = h) ?_ fun _ =>
        Triple.pure fun _ heap => ⟨rfl, heap⟩
      intro w heap
      show ((Function.update w vm _) vm).heap = h
      rw [Function.update_self]
      exact heap
    · subst eq
      have typed : (⟨vm, .ref t n⟩ : Object).ofType t = some ⟨vm, n⟩ := if_pos rfl
      simp only [typed]
      exact Triple.pure fun _ heap => ⟨rfl, heap⟩
  refine Triple.bind read fun val => Triple.of_pre fun eq => ?_
  subst eq
  refine Triple.bind (Q := fun _ w => (w vm).heap = h) ?_ fun _ =>
    Triple.pure fun _ heap => ⟨rfl, heap⟩
  exact Triple.onUnwind_returns (pop_sameHeap 1)

/-- Compiled code gets its globals from the root table of the machine. -/
theorem Squirrel.compileStr_root {w w' : World} {src sourceName : List UInt8} {closure : Closure}
    (ran : (compileStr env vm src sourceName).run w = (.ok (.ok closure), w')) :
    ((w' vm).heap.closures.read closure.ref).root = (w vm).roottable := by
  have contract : Triple (· = w) (compileStr env vm src sourceName)
      (fun res w' => ∀ closure, res = .ok closure →
        ((w' vm).heap.closures.read closure.ref).root = (w vm).roottable) fun _ _ => True := by
    refine Triple.bind (Q := fun _ w₁ => (w₁ vm).roottable = (w vm).roottable) ?_ fun _ => ?_
    · intro w₀ eq
      subst eq
      show ((Function.update w₀ vm _) vm).roottable = _
      rw [Function.update_self]
      rfl
    refine Triple.bind (Q := fun ret w₂ => ret = .ok → ∃ n h, (h.closures.read n).root =
      (w vm).roottable ∧ (w₂ vm).stackGet (-1) = .ref .closure n ∧ (w₂ vm).heap = h) ?_
      fun ret => ?_
    · intro w₁ kept
      rw [Act.run_on]
      unfold Api.sqCompilebuffer
      rw [Act.run_bind_of_ok (Act.run_get _)]
      cases env.compile (w₁ vm) src sourceName with
      | error e => exact fun ok => by cases ok
      | ok function =>
        cases rooted : (w₁ vm).roottable with
        | none => trivial
        | some root =>
          intro _
          show ∃ n h, _ ∧ ((Function.update w₁ vm _) vm).stackGet (-1) = _ ∧
            ((Function.update w₁ vm _) vm).heap = h
          rw [Function.update_self]
          refine ⟨(w₁ vm).heap.closures.next, _, ?_, rfl, rfl⟩
          show (((w₁ vm).heap.closures.alloc ⟨function, none, some root, none, []⟩).2.read
            (w₁ vm).heap.closures.next).root = (w vm).roottable
          rw [← kept, rooted]
          exact congrArg SQClosure.root (Store.read_alloc_self _ _)
    cases ret with
    | error =>
      refine Triple.bind (Q := fun _ _ => True) (fun _ _ => trivial) fun e => ?_
      cases e with
      | none => exact Triple.stop fun _ _ => trivial
      | some e => exact Triple.pure fun _ _ closure ok => by cases ok
    | ok =>
      have taken : Triple (fun w₂ : World => ∃ n h, (h.closures.read n).root = (w vm).roottable ∧
          (w₂ vm).stackGet (-1) = .ref .closure n ∧ (w₂ vm).heap = h)
          (do
            let closure ← takePushed env vm "expecting the closure we just compiled"
            pure (.ok closure) : Act World (Except Error Closure))
          (fun res w₃ => ∀ closure, res = .ok closure →
            ((w₃ vm).heap.closures.read closure.ref).root = (w vm).roottable) fun _ _ => True := by
        refine Triple.exists_pre fun n => Triple.exists_pre fun h => Triple.of_pre fun root => ?_
        refine Triple.bind takePushed_top fun taken => Triple.pure fun w₃ done closure ok => ?_
        obtain rfl := Except.ok.inj ok
        rw [done.1, done.2]
        exact root
      exact Triple.pre taken fun _ holds => holds rfl
  have done := contract w rfl
  rw [ran] at done
  exact done closure rfl

end Compiled

/-! ## Runs -/

/-- The table `r` is the root table that the binding hands out, the one it binds as `this`, and the
one that code compiled on the machine gets its globals from. -/
structure RootIs (env : Env) (w : World) (vm : VmId) (r : ℕ) : Prop where
  current : (w vm).roottable = some r
  handle : ∃ w', (Squirrel.rootTable vm).run w = (.ok ⟨vm, r⟩, w')
  this : ∀ {t : RefType} {α ν : Type} [IntoArgs α] [FromSquirrel ν] [Owns ν] (ref : ℕ) (args : α),
    ((⟨vm, ref⟩ : Handle t).call env args : Act World (Except CallError ν)).run w = (do
      (Api.sqPushobject (.ref t ref)).on vm
      (Api.sqPushobject (.ref .table r)).on vm
      callClosure env vm args).run w
  compiled : ∀ {src sourceName : List UInt8} {closure : Closure} {w' : World},
    (Squirrel.compileStr env vm src sourceName).run w = (.ok (.ok closure), w') →
      ((w' vm).heap.closures.read closure.ref).root = some r

/-- The functions that the operation runs do not set the root table: it goes as it would if they
could not. -/
def Op.SetsNoRoot (env : Env) (x : Session) (op : Op) : Prop :=
  ∀ y, (op.toCall env).Step x y → (op.toCall env.rooted).Step x y

/-- A step of a session in which no function sets the root table. -/
inductive Session.RootedStep (env : Env) : Session → Session → Prop where
  | call {x y : Session} (op : Op) (quiet : op.SetsNoRoot env x) (step : (op.toCall env).Step x y) :
      Session.RootedStep env x y
  | reopen {w w' : World} {L : List Object} (vm : VmId) (shared : SQSharedState) (size : ℕ)
      (unused : ∀ o ∈ L, o.sq ≠ vm) (dropped : (Squirrel.drop vm).run w = (.ok (), w')) :
      Session.RootedStep env ⟨w, L⟩ ⟨Function.update w' vm (SQVM.opened env shared size), L⟩

section Runs

variable {env : Env} {x y : Session}

theorem Session.RootedStep.step (step : Session.RootedStep env x y) : Session.Step env x y := by
  cases step with
  | call op quiet step => exact .call op step
  | reopen vm shared size unused dropped => exact .reopen vm shared size unused dropped

/-- The machine keeps the root table it has. -/
def SQVM.Rooted (s : SQVM) : Prop := s.roottable = some s.root

theorem SQVM.rooted_opened (env : Env) (shared : SQSharedState) (size : ℕ) :
    (SQVM.opened env shared size).Rooted := by
  obtain ⟨heap, -, eq⟩ := SQVM.opened_eq env shared size
  rw [eq]
  rfl

/-- A step in which no function sets the root table. -/
theorem Session.RootedStep.rooted (step : Session.RootedStep env x y)
    (owned : Owned x.live x.world) (rooted : ∀ vm, (x.world vm).Rooted) (vm : VmId) :
    (y.world vm).Rooted := by
  cases step with
  | call op quiet step =>
    obtain ⟨root, roottable⟩ := op.sameRoots_step env.rooted_keepsRoot owned (quiet y step) vm
    unfold SQVM.Rooted
    rw [root, roottable]
    exact rooted vm
  | @reopen w w' L reopened shared size unused dropped =>
    obtain ⟨w'', ran, others⟩ := Squirrel.drop_returns owned reopened
    rw [dropped] at ran
    obtain rfl := (Prod.mk.inj ran).2
    show ((Function.update w' reopened (SQVM.opened env shared size)) vm).Rooted
    by_cases here : vm = reopened
    · subst here
      rw [Function.update_self]
      exact SQVM.rooted_opened env shared size
    · rw [Function.update_of_ne here, others vm here]
      exact rooted vm

/-- What it means for the binding that the machine keeps the root table it has. -/
theorem SQVM.Rooted.rootIs {w : World} {vm : VmId} (rooted : (w vm).Rooted) :
    RootIs env w vm (w vm).root where
  current := rooted
  handle := ⟨_, rfl⟩
  this {t} _ _ _ _ _ ref args := by
    have pushed : ((Api.sqPushobject (.ref t ref)).on vm).run w =
        (.ok (), Function.update w vm ((w vm).apiPush (.ref t ref))) := rfl
    show Act.run (do
      (Api.sqPushobject (.ref t ref)).on vm
      Squirrel.pushRootTable vm
      callClosure env vm args) w = _
    rw [Act.run_bind_of_ok pushed, Act.run_bind_of_ok pushed]
    unfold Squirrel.pushRootTable
    rw [Act.bind_bind, Act.run_bind_of_ok (Act.run_get _), Function.update_self]
    rfl
  compiled ran := (Squirrel.compileStr_root ran).trans rooted

/-- In every state of every run in which no function sets the root table, the table that the binding
keeps is the root table of the machine. -/
theorem rootTable_is_current {shared : VmId → SQSharedState} {size : VmId → ℕ} {now : Session}
    (run : Relation.ReflTransGen (Session.RootedStep env) ⟨World.opened env shared size, []⟩ now)
    (vm : VmId) : ∃ r, RootIs env now.world vm r := by
  have kept : Owned now.live now.world ∧ ∀ vm, (now.world vm).Rooted := by
    induction run with
    | refl => exact ⟨owned_opened env shared size, fun _ => SQVM.rooted_opened env _ _⟩
    | tail _ step ih => exact ⟨step.step.owned ih.1, step.rooted ih.1 ih.2⟩
  exact ⟨_, (kept.2 vm).rootIs⟩

end Runs

/-- The run that evaluates a script that sets no root table. -/
theorem rootTable_is_current_eval :
    ∃ r w', (Squirrel.eval .returning 0 [] : Act World (Except CallError Value)).run
      (World.usual .returning) = (.ok r, w') ∧ ∃ root, RootIs .returning w' 0 root := by
  have ok : ((Squirrel.eval .returning 0 [] : Act World (Except CallError Value)).run
      (World.usual .returning)).1 = .ok (.ok (.integer 1)) := by decide +kernel
  obtain ⟨w', ran⟩ : ∃ w', (Squirrel.eval .returning 0 [] : Act World (Except CallError Value)).run
      (World.usual .returning) = (.ok (.ok (.integer 1)), w') := ⟨_, Prod.ext ok rfl⟩
  have keeps : Env.KeepsRoot .returning := ⟨fun _ _ => rfl, fun _ _ => rfl⟩
  have quiet : (Op.script (.eval 0 [] ⟨Value⟩)).SetsNoRoot .returning
      ⟨World.usual .returning, []⟩ := by
    intro y step
    rw [Env.rooted_eq keeps]
    exact step
  have step := @Call.Step.returned (Op.toCall .returning (.script (.eval 0 [] ⟨Value⟩)))
    (World.usual .returning) w' [] [] (.ok (.integer 1)) (.refl []) ran
  exact ⟨_, w', ran, rootTable_is_current (.single (.call _ quiet step)) 0⟩

/-- A program whose function makes a table and sets it as the root table. -/
def Env.resetting : Env where
  address := Env.returning.address
  formatFloat := Env.returning.formatFloat
  proto := Env.returning.proto
  native := Env.returning.native
  body s c := { Env.returning.body s c with
    heap := (s.heap.newTable (SQTable.create 0)).2
    roottable := some (s.heap.newTable (SQTable.create 0)).1 }
  compile := Env.returning.compile
  native_law := Env.returning.native_law
  body_grows _ _ := .of_eq rfl rfl
  body_suspends := Env.returning.body_suspends

/-- After a script has set the root table, `root_table` returns the former one. -/
theorem rootTable_is_former :
    ((do
        let _ ← (Squirrel.eval .resetting 0 [] : Act World (Except CallError Value))
        let root ← Squirrel.rootTable 0
        let w ← Act.get
        pure (root.ref, (w 0).roottable)).run (World.usual .resetting)).1 =
      .ok (0, some 1) := by
  decide +kernel

end Squirrels
