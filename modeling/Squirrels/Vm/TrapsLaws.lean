import Mathlib.Data.List.Forall2
import Mathlib.Tactic.Ring
import Squirrels.Vm.Traps

/-!
# An exception goes to the innermost handler

Whatever a program does, an exception goes where the handlers of the frames say: to the innermost
one up to the frame that `Execute` was called for, on the stack of the frame that has it, also when
the frame is of a generator that was resumed somewhere else than where it set up the handler. The
error handler is called for every exception when that is wanted, and otherwise when no handler of
the frames takes the exception and the call of `Execute` wants it.
-/

namespace Squirrels

namespace Frames

variable {s s' : Frames} {t t' : Structured} {f : Frame} {fs : List Frame} {g : ℕ}
  {gens : List SQGenerator} {cos : List Coroutine} {a : FrameAnswer}

/-! ## The relation -/

/-- The trap of a handler. -/
def trapOf (base : ℤ) (h : Handler) : SQExceptionTrap := ⟨base, base + h.size, h.ip, h.extarget⟩

/-- The traps of frames. -/
def trapsOf (frames : List Frame) : List SQExceptionTrap :=
  frames.flatMap fun f => f.handlers.map (trapOf f.base)

/-- How many handlers each call of `Execute` has. -/
def counters : List Frame → List ℤ
  | [] => []
  | f :: fs =>
    (if f.root.isSome then 0 :: counters fs else counters fs).modifyHead (· + f.handlers.length)

/-- `Execute` was called for the first frame. -/
def Rooted : List Frame → Prop
  | [] => True
  | f :: fs => (f.root = none → fs ≠ []) ∧ Rooted fs

/-- Each frame knows where the one before has its part of the stack. -/
def Stacked (bottom : ℤ) : ℤ → ℤ → List CallInfo → List Frame → Prop
  | base, top, [], [] => base = 0 ∧ top = bottom
  | base, top, ci :: cis, f :: fs =>
    base = f.base ∧ top = f.top ∧ ci.etraps = f.handlers.length ∧ ci.generator = f.generator ∧
      ci.root = f.root.isSome ∧
      Stacked bottom (base - ci.prevstkbase) (base - ci.prevstkbase + ci.prevtop) cis fs
  | _, _, _, _ => False

/-- A generator that waits has the traps of its frame, as if the frame were at the bottom. -/
def Stands (gen : SQGenerator) : Coroutine → Prop
  | .running => gen.state = .eRunning ∧ gen.etraps = []
  | .suspended size handlers root =>
    gen = ⟨.eSuspended, size, handlers.length, root, (handlers.map (trapOf 0)).reverse⟩
  | .dead => gen.state = .eDead

structure Refines (s : Frames) (t : Structured) : Prop where
  stacked : Stacked t.bottom s.stackbase s.top s.callsstack t.frames
  rooted : Rooted t.frames
  etraps : s.etraps = trapsOf t.frames
  traps : s.traps = counters t.frames
  raiseerrors : s.raiseerrors = t.frames.filterMap Frame.root
  notifyallexceptions : s.notifyallexceptions = t.notifyallexceptions
  generators : List.Forall₂ Stands s.generators t.coroutines
  running : ∀ f ∈ t.frames, ∀ g, f.generator = some g → t.coroutines[g]? = some .running
  distinct : (t.frames.filterMap Frame.generator).Nodup

theorem refines_new (top : ℤ) : Refines (new top) (Structured.new top) where
  stacked := ⟨rfl, rfl⟩
  rooted := trivial
  etraps := rfl
  traps := rfl
  raiseerrors := rfl
  notifyallexceptions := rfl
  generators := .nil
  running _ mem := absurd mem List.not_mem_nil
  distinct := List.nodup_nil

/-! ## Counters -/

theorem counters_ne_nil : ∀ {frames : List Frame}, Rooted frames → frames ≠ [] →
    counters frames ≠ []
  | f :: _, rooted, _ => by
    rw [counters, Ne, List.modifyHead_eq_nil_iff]
    cases root : f.root with
    | some raiseerror => exact List.cons_ne_nil _ _
    | none => exact counters_ne_nil rooted.2 (rooted.1 root)

theorem roots_ne_nil : ∀ {frames : List Frame}, Rooted frames → frames ≠ [] →
    frames.filterMap Frame.root ≠ []
  | f :: fs, rooted, _ => by
    cases root : f.root with
    | some raiseerror =>
      rw [List.filterMap_cons_some root]
      exact List.cons_ne_nil _ _
    | none =>
      rw [List.filterMap_cons_none root]
      exact roots_ne_nil rooted.2 (rooted.1 root)

theorem counters_nonneg : ∀ (frames : List Frame), ∀ c ∈ counters frames, 0 ≤ c
  | [], c, mem => absurd mem List.not_mem_nil
  | f :: fs, c, mem => by
    have below := counters_nonneg fs
    rw [counters] at mem
    cases root : f.root with
    | some raiseerror =>
      rw [root] at mem
      rcases List.mem_cons.1 mem with rfl | mem
      · simp
      · exact below c mem
    | none =>
      rw [root] at mem
      cases rest : counters fs with
      | nil =>
        rw [rest] at mem
        exact absurd mem List.not_mem_nil
      | cons d ds =>
        rw [rest] at mem below
        rcases List.mem_cons.1 mem with rfl | mem
        · have := below d List.mem_cons_self
          show 0 ≤ d + (f.handlers.length : ℤ)
          omega
        · exact below c (List.mem_cons_of_mem _ mem)

/-- The first counter counts the handlers of the last frame. -/
theorem length_le_counter {c : ℤ} {cs : List ℤ} (is : counters (f :: fs) = c :: cs) :
    (f.handlers.length : ℤ) ≤ c := by
  rw [counters] at is
  have below := counters_nonneg fs
  cases root : f.root with
  | some raiseerror =>
    rw [root] at is
    cases is
    simp
  | none =>
    rw [root] at is
    cases rest : counters fs with
    | nil =>
      rw [rest] at is
      cases is
    | cons d ds =>
      rw [rest] at is below
      cases is
      have := below d List.mem_cons_self
      show (f.handlers.length : ℤ) ≤ d + f.handlers.length
      omega

/-- The last frame gets other handlers. -/
theorem counters_change (hs : List Handler) (top : ℤ) :
    counters ({ f with handlers := hs, top := top } :: fs) =
      (counters (f :: fs)).modifyHead (· + ((hs.length : ℤ) - f.handlers.length)) := by
  simp only [counters, List.modifyHead_modifyHead]
  congr 1
  funext c
  simp only [Function.comp_apply]
  omega

theorem countTraps_eq (counts : s.traps ≠ []) (n : ℤ) :
    s.countTraps n = some { s with traps := s.traps.modifyHead (· + n) } := by
  unfold countTraps
  cases is : s.traps with
  | nil => exact absurd is counts
  | cons c cs => rfl

theorem Refines.counts (refines : Refines s t) (runs : t.frames ≠ []) : s.traps ≠ [] := by
  rw [refines.traps]
  exact counters_ne_nil refines.rooted runs

theorem Refines.raises (refines : Refines s t) (runs : t.frames ≠ []) : s.raiseerrors ≠ [] := by
  rw [refines.raiseerrors]
  exact roots_ne_nil refines.rooted runs

/-! ## What steps have in common -/

/-- The frame that runs. -/
theorem Refines.current (refines : Refines s t) (is : t.frames = f :: fs) :
    ∃ ci cis, s.callsstack = ci :: cis ∧ s.stackbase = f.base ∧ s.top = f.top ∧
      ci.etraps = f.handlers.length ∧ ci.generator = f.generator ∧ ci.root = f.root.isSome ∧
      Stacked t.bottom (s.stackbase - ci.prevstkbase)
        (s.stackbase - ci.prevstkbase + ci.prevtop) cis fs := by
  have stacked := refines.stacked
  rw [is] at stacked
  cases calls : s.callsstack with
  | nil =>
    rw [calls] at stacked
    exact stacked.elim
  | cons ci cis =>
    rw [calls] at stacked
    exact ⟨ci, cis, rfl, stacked⟩

/-- No frame runs. -/
theorem Refines.nothing (refines : Refines s t) (empty : t.frames = []) :
    s.callsstack = [] ∧ s.stackbase = 0 ∧ s.top = t.bottom := by
  have stacked := refines.stacked
  rw [empty] at stacked
  cases calls : s.callsstack with
  | nil =>
    rw [calls] at stacked
    exact ⟨rfl, stacked.1, stacked.2⟩
  | cons ci cis =>
    rw [calls] at stacked
    exact stacked.elim

theorem Refines.top_eq (refines : Refines s t) : s.top = t.top := by
  unfold Structured.top
  cases is : t.frames with
  | nil => exact (refines.nothing is).2.2
  | cons f fs =>
    obtain ⟨ci, cis, -, -, top, -⟩ := refines.current is
    exact top

/-- A frame is entered. -/
theorem Refines.push (refines : Refines s t) (f : Frame) (rooted : f.root = none → t.frames ≠ [])
    (stand : List.Forall₂ Stands gens cos)
    (running : ∀ g, f.generator = some g →
      cos[g]? = some .running ∧ t.coroutines[g]? ≠ some .running)
    (same : ∀ g, f.generator ≠ some g → t.coroutines[g]? = some .running →
      cos[g]? = some .running) :
    Refines
      { stackbase := f.base
        top := f.top
        callsstack := ⟨f.base - s.stackbase, s.top - s.stackbase, f.handlers.length, f.generator,
          f.root.isSome⟩ :: s.callsstack
        etraps := f.handlers.map (trapOf f.base) ++ s.etraps
        generators := gens
        traps :=
          (if f.root.isSome then 0 :: s.traps else s.traps).modifyHead (· + f.handlers.length)
        raiseerrors := f.root.toList ++ s.raiseerrors
        notifyallexceptions := s.notifyallexceptions }
      { t with frames := f :: t.frames, coroutines := cos } where
  stacked := by
    refine ⟨rfl, rfl, rfl, rfl, rfl, ?_⟩
    rw [show f.base - (f.base - s.stackbase) = s.stackbase by ring,
      show s.stackbase + (s.top - s.stackbase) = s.top by ring]
    exact refines.stacked
  rooted := ⟨rooted, refines.rooted⟩
  etraps := by rw [refines.etraps]; rfl
  traps := by rw [refines.traps]; rfl
  raiseerrors := by
    rw [refines.raiseerrors]
    cases root : f.root with
    | none => rw [List.filterMap_cons_none root]; rfl
    | some raiseerror => rw [List.filterMap_cons_some root]; rfl
  notifyallexceptions := refines.notifyallexceptions
  generators := stand
  running f' mem g is := by
    rcases List.mem_cons.1 mem with rfl | mem
    · exact (running g is).1
    · have runs := refines.running f' mem g is
      exact same g (fun is' => (running g is').2 runs) runs
  distinct := by
    cases is : f.generator with
    | none => simpa [List.filterMap_cons, is] using refines.distinct
    | some g =>
      rw [List.filterMap_cons_some is, List.nodup_cons]
      refine ⟨fun mem => ?_, refines.distinct⟩
      obtain ⟨f', mem, is'⟩ := List.mem_filterMap.1 mem
      exact (running g is).2 (refines.running f' mem g is')

/-- A frame is left, and its generator does something else. -/
theorem Refines.pop (refines : Refines s t) (is : t.frames = f :: fs)
    (stand : List.Forall₂ Stands gens cos)
    (same : ∀ g, f.generator ≠ some g → cos[g]? = t.coroutines[g]?) :
    ∃ ci cis, s.callsstack = ci :: cis ∧ ci.etraps = f.handlers.length ∧
      ci.generator = f.generator ∧ ci.root = f.root.isSome ∧
      Refines
        { stackbase := s.stackbase - ci.prevstkbase
          top := s.stackbase - ci.prevstkbase + ci.prevtop
          callsstack := cis
          etraps := trapsOf fs
          generators := gens
          traps := counters fs
          raiseerrors := fs.filterMap Frame.root
          notifyallexceptions := s.notifyallexceptions }
        { t with frames := fs, coroutines := cos } := by
  obtain ⟨ci, cis, calls, -, -, etraps, generator, root, stacked⟩ := refines.current is
  refine ⟨ci, cis, calls, etraps, generator, root, ?_⟩
  have rooted := refines.rooted
  have distinct := refines.distinct
  rw [is] at rooted distinct
  constructor
  case stacked => exact stacked
  case rooted => exact rooted.2
  case etraps => rfl
  case traps => rfl
  case raiseerrors => rfl
  case notifyallexceptions => exact refines.notifyallexceptions
  case generators => exact stand
  case running =>
    intro f' mem g is'
    have runs := refines.running f' (by rw [is]; exact List.mem_cons_of_mem _ mem) g is'
    rw [same g, runs]
    intro is''
    rw [List.filterMap_cons_some is'', List.nodup_cons] at distinct
    exact distinct.1 (List.mem_filterMap.2 ⟨f', mem, is'⟩)
  case distinct => exact distinct.sublist ((List.sublist_cons_self f fs).filterMap _)

/-- The last frame gets other handlers and another top. -/
theorem Refines.change (refines : Refines s t) (is : t.frames = f :: fs) (hs : List Handler)
    (top : ℤ) :
    ∃ ci cis, s.callsstack = ci :: cis ∧ s.stackbase = f.base ∧ ci.etraps = f.handlers.length ∧
      Refines
        { s with
          top := top
          callsstack := { ci with etraps := hs.length } :: cis
          etraps := hs.map (trapOf f.base) ++ trapsOf fs
          traps := s.traps.modifyHead (· + ((hs.length : ℤ) - f.handlers.length)) }
        { t with frames := { f with handlers := hs, top := top } :: fs } := by
  obtain ⟨ci, cis, calls, base, -, etraps, generator, root, stacked⟩ := refines.current is
  refine ⟨ci, cis, calls, base, etraps, ?_⟩
  have rooted := refines.rooted
  have distinct := refines.distinct
  rw [is] at rooted distinct
  constructor
  case stacked => exact ⟨base, rfl, rfl, generator, root, stacked⟩
  case rooted => exact rooted
  case etraps => rfl
  case traps =>
    show s.traps.modifyHead _ = _
    rw [refines.traps, is]
    exact (counters_change hs top).symm
  case raiseerrors =>
    show s.raiseerrors = _
    rw [refines.raiseerrors, is]
    cases root : f.root with
    | none => rw [List.filterMap_cons_none root]; rfl
    | some raiseerror => rw [List.filterMap_cons_some root]; rfl
  case notifyallexceptions => exact refines.notifyallexceptions
  case generators => exact refines.generators
  case running =>
    intro f' mem g is'
    rcases List.mem_cons.1 mem with rfl | mem
    · exact refines.running f (by rw [is]; exact List.mem_cons_self) g is'
    · exact refines.running f' (by rw [is]; exact List.mem_cons_of_mem _ mem) g is'
  case distinct => exact distinct

/-! ## Generators -/

/-- A generator changes. -/
theorem stand_modify {change : SQGenerator → SQGenerator} {co : Coroutine}
    (stand : List.Forall₂ Stands gens cos) (this : ∀ gen, Stands (change gen) co) :
    List.Forall₂ Stands (gens.modify g change) (cos.set g co) := by
  induction stand generalizing g with
  | nil => cases g <;> exact .nil
  | cons first rest ih =>
    cases g with
    | zero => exact .cons (this _) rest
    | succ g => exact .cons first ih

theorem stand_set {gen : SQGenerator} {co : Coroutine} (stand : List.Forall₂ Stands gens cos)
    (this : Stands gen co) : List.Forall₂ Stands (gens.set g gen) (cos.set g co) := by
  rw [List.set_eq_modify gen]
  exact stand_modify stand fun _ => this

theorem stand_get {co : Coroutine} (stand : List.Forall₂ Stands gens cos) (is : cos[g]? = some co) :
    ∃ gen, gens[g]? = some gen ∧ Stands gen co := by
  induction stand generalizing g with
  | nil => cases is
  | @cons gen _ _ _ first rest ih =>
    cases g with
    | zero =>
      cases is
      exact ⟨gen, rfl, first⟩
    | succ g => exact ih is

theorem Refines.killed (refines : Refines s t) (o : Option ℕ) :
    List.Forall₂ Stands (s.kill o).generators (t.kill o).coroutines := by
  cases o with
  | none => exact refines.generators
  | some g => exact stand_modify refines.generators fun _ => rfl

/-- A frame without handlers is left for good. -/
theorem Refines.leave (refines : Refines s t) (is : t.frames = f :: fs) (empty : f.handlers = []) :
    ∃ ci cis left, s.callsstack = ci :: cis ∧ ci.etraps = 0 ∧ ci.generator = f.generator ∧
      ci.root = f.root.isSome ∧ (s.kill ci.generator).leaveFrame = some left ∧
      left.callsstack = cis ∧ left.traps = s.traps ∧ left.raiseerrors = s.raiseerrors ∧
      Refines { left with traps := counters fs, raiseerrors := fs.filterMap Frame.root }
        { t.kill f.generator with frames := fs } := by
  have etraps : trapsOf fs = s.etraps := by
    rw [refines.etraps, is, trapsOf, trapsOf, List.flatMap_cons, empty]
    rfl
  have others : ∀ g, f.generator ≠ some g →
      (t.kill f.generator).coroutines[g]? = t.coroutines[g]? := by
    intro g other
    cases gen : f.generator with
    | none => rfl
    | some g' => exact List.getElem?_set_ne fun eq => other (by rw [gen, eq])
  obtain ⟨ci, cis, calls, count, generator, root, popped⟩ :=
    refines.pop is (refines.killed f.generator) others
  rw [etraps] at popped
  refine ⟨ci, cis, { s with
      stackbase := s.stackbase - ci.prevstkbase
      top := s.stackbase - ci.prevstkbase + ci.prevtop
      callsstack := cis
      generators := (s.kill f.generator).generators }, calls,
    by rw [count, empty]; rfl, generator, root, ?_, rfl, rfl, rfl, ?_⟩
  · rw [generator, leaveFrame]
    cases f.generator <;> simp only [kill, calls]
  · cases gen : f.generator <;> rw [gen] at popped <;> exact popped

/-! ## Exceptions -/

/-- The error handler is called for what no frame up to the root has a handler for. -/
theorem unheard_eq {c : ℤ} {cs : List ℤ} {raiseerror : Bool} {rs : List Bool} :
    ∀ {fs : List Frame}, counters fs = c :: cs → fs.filterMap Frame.root = raiseerror :: rs →
      Structured.unheard fs = (c = 0 && raiseerror)
  | f :: fs, counter, raises => by
    have most := length_le_counter counter
    rw [Structured.unheard]
    cases handlers : f.handlers with
    | cons h hs =>
      rw [handlers, List.length_cons] at most
      have positive : c ≠ 0 := by omega
      simp [positive]
    | nil =>
      rw [counters, handlers] at counter
      cases root : f.root with
      | some raiseerror' =>
        rw [root] at counter
        rw [List.filterMap_cons_some root] at raises
        cases counter
        cases raises
        simp
      | none =>
        rw [root] at counter
        rw [List.filterMap_cons_none root] at raises
        have same : counters fs = c :: cs := by
          rw [← counter]
          cases counters fs <;> simp
        simpa using unheard_eq same raises

theorem Refines.throw (refines : Refines s t) (thrown : t.call .throw = some (a, t')) :
    ∃ s', s.call .throw = some (a, s') ∧ Refines s' t' := by
  simp only [Structured.call, Structured.throw] at thrown
  split at thrown
  · cases thrown
  · next runs =>
    cases thrown
    obtain ⟨f, fs, is⟩ := List.exists_cons_of_ne_nil runs
    obtain ⟨ci, cis, calls, -⟩ := refines.current is
    obtain ⟨c, cs, counts⟩ := List.exists_cons_of_ne_nil (refines.counts runs)
    obtain ⟨raiseerror, rs, raises⟩ := List.exists_cons_of_ne_nil (refines.raises runs)
    have same := unheard_eq (refines.traps.symm.trans counts)
      (refines.raiseerrors.symm.trans raises)
    refine ⟨s, ?_, refines⟩
    simp only [Frames.call, Frames.throw, calls, counts, raises, same, refines.notifyallexceptions]

/-- Both look for a handler alike. -/
theorem Refines.unwindFrom {c : ℤ} {cs : List ℤ} :
    ∀ {fs : List Frame} {s : Frames} {t : Structured},
    Refines s t → t.frames = fs → fs ≠ [] → s.traps = c :: cs →
    ∃ s', Frames.unwind s.callsstack s = some ((Structured.unwind fs t).1, s') ∧
      Refines s' (Structured.unwind fs t).2
  | f :: fs, s, t, refines, is, _, counts => by
    have counter : counters (f :: fs) = c :: cs := by rw [← is, ← refines.traps, counts]
    cases handlers : f.handlers with
    | cons h hs =>
      obtain ⟨ci, cis, calls, base, count, changed⟩ := refines.change is hs (f.base + h.size)
      have etraps : s.etraps = trapOf f.base h :: (hs.map (trapOf f.base) ++ trapsOf fs) := by
        rw [refines.etraps, is, trapsOf, List.flatMap_cons, handlers]
        rfl
      rw [handlers, List.length_cons] at count
      rw [handlers, List.length_cons,
        show ((hs.length : ℤ) - ((hs.length + 1 : ℕ) : ℤ)) = -1 by omega] at changed
      rw [calls, Frames.unwind, if_pos (by omega), etraps, Structured.unwind, handlers]
      refine ⟨_, ?_, changed⟩
      simp only [changeFrame, calls, Option.bind_some]
      rw [countTraps_eq (by rw [counts]; exact List.cons_ne_nil _ _)]
      simp [trapOf, count, base]
    | nil =>
      obtain ⟨ci, _, left, calls, count, generator, root, leaves, rfl, counts', raises', left'⟩ :=
        refines.leave is handlers
      have raises := refines.raiseerrors
      rw [is] at raises
      rw [calls, Frames.unwind, if_neg (by omega), leaves, Structured.unwind, handlers]
      rw [counters, handlers] at counter
      cases isRoot : f.root with
      | some raiseerror =>
        rw [isRoot] at counter root
        rw [List.filterMap_cons_some isRoot] at raises
        cases counter
        refine ⟨_, ?_, left'⟩
        simp [root, endExecute, counts', counts, raises', raises]
      | none =>
        rw [isRoot] at counter root
        rw [List.filterMap_cons_none isRoot] at raises
        have same : counters fs = c :: cs := by
          rw [← counter]
          cases counters fs <;> simp
        have below : fs ≠ [] := by
          rintro rfl
          cases same
        rw [same, ← counts, ← counts', ← raises, ← raises'] at left'
        obtain ⟨s', answer, refines'⟩ :=
          Refines.unwindFrom left' rfl below (by rw [counts', counts])
        refine ⟨s', ?_, refines'⟩
        simp only [root, Option.bind_some, Option.isSome_none, Bool.false_eq_true, if_false]
        exact answer

/-- An exception goes to the same place. -/
theorem Refines.unwind (refines : Refines s t) (answered : t.call .unwind = some (a, t')) :
    ∃ s', s.call .unwind = some (a, s') ∧ Refines s' t' := by
  simp only [Structured.call] at answered
  split at answered
  · cases answered
  · next runs =>
    obtain ⟨f, fs, is⟩ := List.exists_cons_of_ne_nil runs
    obtain ⟨ci, cis, calls, -⟩ := refines.current is
    obtain ⟨c, cs, counts⟩ := List.exists_cons_of_ne_nil (refines.counts runs)
    obtain ⟨s', answer, refines'⟩ := refines.unwindFrom rfl runs counts
    rw [Option.some.inj answered] at answer refines'
    refine ⟨s', ?_, refines'⟩
    rw [Frames.call, if_neg (by rw [calls]; exact List.cons_ne_nil _ _)]
    exact answer

/-! ## The other calls -/

@[simp] theorem add_none (counts : List ℤ) :
    counts.modifyHead (· + (([] : List Handler).length : ℤ)) = counts := by
  cases counts <;> simp

theorem Refines.call (refines : Refines s t) (newbase newtop : ℤ)
    (answered : t.call (.call newbase newtop) = some (a, t')) :
    ∃ s', s.call (.call newbase newtop) = some (a, s') ∧ Refines s' t' := by
  simp only [Structured.call] at answered
  split at answered
  · cases answered
  · next runs =>
    cases answered
    have pushed := refines.push ⟨newbase, newtop, [], none, none⟩ (fun _ => runs)
      refines.generators (fun g is => nomatch is) fun _ _ runs => runs
    simp only [Option.isSome_none, Bool.false_eq_true, if_false, add_none] at pushed
    exact ⟨_, rfl, pushed⟩

theorem Refines.execute (refines : Refines s t) (raiseerror : Bool) (newbase newtop : ℤ)
    (answered : t.call (.execute raiseerror newbase newtop) = some (a, t')) :
    ∃ s', s.call (.execute raiseerror newbase newtop) = some (a, s') ∧ Refines s' t' := by
  cases answered
  have pushed := refines.push ⟨newbase, newtop, [], none, some raiseerror⟩
    (fun root => nomatch root) refines.generators (fun g is => nomatch is) fun _ _ runs => runs
  simp only [Option.isSome_some, if_true, add_none] at pushed
  exact ⟨_, rfl, pushed⟩

/-- Nothing else depends on the top of the last frame. -/
theorem Refines.moveTop (refines : Refines s t) (top : ℤ)
    (answered : t.call (.moveTop top) = some (a, t')) :
    ∃ s', s.call (.moveTop top) = some (a, s') ∧ Refines s' t' := by
  simp only [Structured.call] at answered
  split at answered
  · next is =>
    obtain ⟨calls, base, -⟩ := refines.nothing is
    cases answered
    refine ⟨_, rfl, ?_⟩
    constructor
    case stacked =>
      rw [is]
      show Stacked top s.stackbase top s.callsstack []
      rw [calls]
      exact ⟨base, rfl⟩
    case rooted => exact refines.rooted
    case etraps => exact refines.etraps
    case traps => exact refines.traps
    case raiseerrors => exact refines.raiseerrors
    case notifyallexceptions => exact refines.notifyallexceptions
    case generators => exact refines.generators
    case running => exact refines.running
    case distinct => exact refines.distinct
  · next f fs is =>
    cases answered
    obtain ⟨ci, cis, calls, -, count, changed⟩ := refines.change is f.handlers top
    rw [show ({ ci with etraps := f.handlers.length } : CallInfo) = ci by rw [← count],
      show f.handlers.map (trapOf f.base) ++ trapsOf fs = s.etraps by
        rw [refines.etraps, is]; rfl,
      show s.traps.modifyHead (· + ((f.handlers.length : ℤ) - f.handlers.length)) = s.traps by
        cases s.traps <;> simp, ← calls] at changed
    exact ⟨_, rfl, changed⟩

theorem Refines.notifyAll (refines : Refines s t) (enable : Bool)
    (answered : t.call (.notifyAll enable) = some (a, t')) :
    ∃ s', s.call (.notifyAll enable) = some (a, s') ∧ Refines s' t' := by
  cases answered
  refine ⟨_, rfl, ?_⟩
  constructor
  case stacked => exact refines.stacked
  case rooted => exact refines.rooted
  case etraps => exact refines.etraps
  case traps => exact refines.traps
  case raiseerrors => exact refines.raiseerrors
  case notifyallexceptions => rfl
  case generators => exact refines.generators
  case running => exact refines.running
  case distinct => exact refines.distinct

theorem Refines.tailCall (refines : Refines s t) (newtop : ℤ)
    (answered : t.call (.tailCall newtop) = some (a, t')) :
    ∃ s', s.call (.tailCall newtop) = some (a, s') ∧ Refines s' t' := by
  simp only [Structured.call] at answered
  split at answered
  · cases answered
  · next f fs is =>
    obtain ⟨-, -, -, -, top, -⟩ := refines.current is
    have moved : t.call (.moveTop (max newtop s.top)) = some (a, t') := by
      rw [top, ← answered, Structured.call, is]
    exact refines.moveTop _ moved

theorem Refines.pushTrap (refines : Refines s t) (ip extarget : ℕ)
    (answered : t.call (.pushTrap ip extarget) = some (a, t')) :
    ∃ s', s.call (.pushTrap ip extarget) = some (a, s') ∧ Refines s' t' := by
  simp only [Structured.call] at answered
  split at answered
  · cases answered
  · next f fs is =>
    cases answered
    obtain ⟨-, -, -, -, top, -⟩ := refines.current is
    obtain ⟨ci, cis, calls, base, count, changed⟩ :=
      refines.change is (⟨f.top - f.base, ip, extarget⟩ :: f.handlers) f.top
    refine ⟨_, ?_, changed⟩
    have etraps : s.etraps = f.handlers.map (trapOf f.base) ++ trapsOf fs := by
      rw [refines.etraps, is]
      rfl
    obtain ⟨c, cs, counts⟩ := List.exists_cons_of_ne_nil (refines.counts (by simp [is]))
    simp [Frames.call, countTraps, changeFrame, calls, counts, count, etraps, trapOf, base, top]

theorem Refines.popTrap (refines : Refines s t) (n : ℕ)
    (answered : t.call (.popTrap n) = some (a, t')) :
    ∃ s', s.call (.popTrap n) = some (a, s') ∧ Refines s' t' := by
  simp only [Structured.call] at answered
  split at answered
  · cases answered
  · next f fs is =>
    split at answered
    · cases answered
    · next enough =>
      cases answered
      obtain ⟨-, -, -, -, top, -⟩ := refines.current is
      obtain ⟨ci, cis, calls, base, count, changed⟩ :=
        refines.change is (f.handlers.drop n) f.top
      refine ⟨_, ?_, changed⟩
      have etraps : s.etraps.drop n = (f.handlers.drop n).map (trapOf f.base) ++ trapsOf fs := by
        rw [refines.etraps, is, trapsOf, List.flatMap_cons, List.drop_append_of_le_length
          (by rw [List.length_map]; omega), List.map_drop]
        rfl
      obtain ⟨c, cs, counts⟩ := List.exists_cons_of_ne_nil (refines.counts (by simp [is]))
      have fewer : -(n : ℤ) = (f.handlers.length - n : ℕ) - f.handlers.length := by omega
      simp [Frames.call, countTraps, changeFrame, calls, counts, count, etraps, fewer, top]

@[simp] theorem kill_callsstack (o : Option ℕ) : (s.kill o).callsstack = s.callsstack := by
  cases o <;> rfl

@[simp] theorem kill_traps (o : Option ℕ) : (s.kill o).traps = s.traps := by
  cases o <;> rfl

theorem Refines.ret (refines : Refines s t) (answered : t.call .ret = some (a, t')) :
    ∃ s', s.call .ret = some (a, s') ∧ Refines s' t' := by
  simp only [Structured.call] at answered
  split at answered
  · cases answered
  · next f fs is =>
    split at answered
    · next empty =>
      cases answered
      obtain ⟨ci, cis, left, calls, -, -, root, leaves, -, same, same', left'⟩ :=
        refines.leave is empty
      obtain ⟨c, cs, counts⟩ := List.exists_cons_of_ne_nil (refines.counts (by simp [is]))
      have traps := refines.traps
      have raises := refines.raiseerrors
      rw [is, counters, empty, add_none] at traps
      rw [is] at raises
      simp only [Frames.call, calls, Frames.leave, kill_callsstack, kill_traps, leaves, counts,
        Option.bind_some]
      rw [counts] at traps same
      rw [root]
      cases isRoot : f.root with
      | some raiseerror =>
        rw [isRoot] at traps
        rw [List.filterMap_cons_some isRoot] at raises
        cases traps
        refine ⟨_, rfl, ?_⟩
        rw [endExecute, same, same', raises]
        exact left'
      | none =>
        rw [isRoot] at traps
        rw [List.filterMap_cons_none isRoot] at raises
        rw [← show left.traps = counters fs from same.trans traps, ← raises, ← same'] at left'
        exact ⟨_, rfl, left'⟩
    · cases answered

/-! ## Generators that run -/

/-- A generator is resumed with its traps where its frame is now. -/
theorem resumeFrom_eq (size : ℤ) (hs : List Handler) (root : Bool) :
    s.resumeFrom g ⟨.eSuspended, size, hs.length, root, (hs.map (trapOf 0)).reverse⟩ =
      { stackbase := s.top
        top := s.top + size
        callsstack := ⟨s.top - s.stackbase, s.top - s.stackbase, hs.length, some g, root⟩ ::
          s.callsstack
        etraps := hs.map (trapOf s.top) ++ s.etraps
        generators := s.generators.set g ⟨.eRunning, size, hs.length, root, []⟩
        traps := s.traps
        raiseerrors := s.raiseerrors
        notifyallexceptions := s.notifyallexceptions } := by
  have all : ((hs.map (trapOf 0)).reverse).take hs.length = (hs.map (trapOf 0)).reverse :=
    List.take_of_length_le (by simp)
  have moved : ∀ h : Handler, ({ trapOf 0 h with
      stackbase := (trapOf 0 h).stackbase + s.top
      stacksize := (trapOf 0 h).stacksize + s.top } : SQExceptionTrap) = trapOf s.top h := by
    intro h
    simp [trapOf, add_comm]
  have rest : ((hs.map (trapOf 0)).reverse).drop hs.length = [] :=
    List.drop_of_length_le (by simp)
  simp only [resumeFrom, enterFrame, all, rest, List.foldl_flip_cons_eq_append, List.map_reverse,
    List.reverse_reverse, List.map_map, Function.comp_def, moved]

/-- A generator that yields takes its traps along. -/
theorem yieldTo_eq {ci : CallInfo} {cis : List CallInfo} {gen : SQGenerator} (hs : List Handler)
    (rest : List SQExceptionTrap) (calls : s.callsstack = ci :: cis)
    (count : ci.etraps = hs.length) (is : s.generators[g]? = some gen)
    (runs : gen.state = .eRunning) (empty : gen.etraps = [])
    (etraps : s.etraps = hs.map (trapOf s.stackbase) ++ rest) :
    s.yieldTo g = some { s with
      etraps := rest
      generators := s.generators.set g
        ⟨.eSuspended, s.top - s.stackbase, hs.length, ci.root, (hs.map (trapOf 0)).reverse⟩ } := by
  have taken : s.etraps.take hs.length = hs.map (trapOf s.stackbase) := by
    rw [etraps, List.take_append_of_le_length (by simp), List.take_of_length_le (by simp)]
  have dropped : s.etraps.drop hs.length = rest := by
    rw [etraps]
    exact List.drop_left' (by simp)
  have enough : ¬s.etraps.length < hs.length := by
    rw [etraps, List.length_append, List.length_map]
    omega
  have moved : ∀ h : Handler, ({ trapOf s.stackbase h with
      stackbase := (trapOf s.stackbase h).stackbase - s.stackbase
      stacksize := (trapOf s.stackbase h).stacksize - s.stackbase } : SQExceptionTrap) =
        trapOf 0 h := by
    intro h
    simp [trapOf]
  simp only [yieldTo, calls, is, runs, empty, count, enough, taken, dropped, ne_eq,
    not_true_eq_false, or_self, if_false, List.foldl_flip_cons_eq_append, List.map_map,
    Function.comp_def, moved, List.append_nil]

theorem Refines.yield (refines : Refines s t) (answered : t.call .yield = some (a, t')) :
    ∃ s', s.call .yield = some (a, s') ∧ Refines s' t' := by
  simp only [Structured.call] at answered
  split at answered
  · cases answered
  · next f fs is =>
    obtain ⟨ci, cis, calls, base, top, count, generator, root, -⟩ := refines.current is
    simp only [Frames.call, calls, generator]
    cases gen : f.generator with
    | none =>
      rw [gen] at answered
      exact refines.throw answered
    | some g =>
      rw [gen] at answered
      cases answered
      have runs := refines.running f (by simp [is]) g gen
      obtain ⟨gen', is', runs', empty⟩ := stand_get refines.generators runs
      obtain ⟨c, cs, counts⟩ := List.exists_cons_of_ne_nil (refines.counts (by simp [is]))
      have etraps : s.etraps = f.handlers.map (trapOf s.stackbase) ++ trapsOf fs := by
        rw [refines.etraps, is, base]
        rfl
      have traps : (c + -(ci.etraps : ℤ)) :: cs =
          if f.root.isSome then 0 :: counters fs else counters fs := by
        have traps := refines.traps
        rw [counts, is, counters] at traps
        generalize (if f.root.isSome = true then 0 :: counters fs else counters fs) = below
          at traps ⊢
        cases below with
        | nil => cases traps
        | cons d ds =>
          cases traps
          rw [count]
          simp
      have raises := refines.raiseerrors
      rw [is] at raises
      have stand : List.Forall₂ Stands (s.generators.set g ⟨.eSuspended, s.top - s.stackbase,
          f.handlers.length, f.root.isSome, (f.handlers.map (trapOf 0)).reverse⟩)
          (t.coroutines.set g (.suspended (f.top - f.base) f.handlers f.root.isSome)) :=
        stand_set refines.generators (by rw [top, base]; rfl)
      obtain ⟨ci', cis', calls', -, -, -, popped⟩ := refines.pop is stand fun g' other =>
        List.getElem?_set_ne fun eq => other (by rw [gen, eq])
      rw [calls] at calls'
      cases calls'
      simp only [yieldTo_eq _ _ calls count is' runs' empty etraps]
      cases isRoot : f.root with
      | some raiseerror =>
        rw [isRoot] at traps root popped
        rw [List.filterMap_cons_some isRoot] at raises
        obtain ⟨zero, rfl⟩ := List.cons_eq_cons.1 traps
        refine ⟨_, ?_, popped⟩
        simp [countTraps, counts, Frames.leave, leaveFrame, calls, root, zero, endExecute, raises]
      | none =>
        rw [isRoot] at traps root popped
        rw [List.filterMap_cons_none isRoot] at raises
        simp only [Option.isSome_none, Bool.false_eq_true, if_false] at traps
        rw [← traps, ← raises] at popped
        refine ⟨_, ?_, popped⟩
        simp [countTraps, counts, Frames.leave, leaveFrame, calls, root]

theorem Refines.generator (refines : Refines s t) (newbase newtop : ℤ)
    (answered : t.call (.generator newbase newtop) = some (a, t')) :
    ∃ s', s.call (.generator newbase newtop) = some (a, s') ∧ Refines s' t' := by
  cases answered
  let gen : SQGenerator := ⟨.eSuspended, newtop - newbase, 0, false, []⟩
  refine ⟨{ s with generators := s.generators ++ [gen] }, ?_, ?_⟩
  · have yields := yieldTo_eq (s := { s.enterFrame newbase newtop with
      generators := s.generators ++ [⟨.eRunning, 0, 0, false, []⟩] }) (g := s.generators.length)
      [] s.etraps rfl rfl List.getElem?_concat_length rfl rfl rfl
    simp only [Frames.call, yields]
    simp [leaveFrame, enterFrame, gen]
  · constructor
    case stacked => exact refines.stacked
    case rooted => exact refines.rooted
    case etraps => exact refines.etraps
    case traps => exact refines.traps
    case raiseerrors => exact refines.raiseerrors
    case notifyallexceptions => exact refines.notifyallexceptions
    case generators => exact List.rel_append refines.generators (.cons rfl .nil)
    case running =>
      intro f mem g is
      have runs := refines.running f mem g is
      exact List.getElem?_append_left (List.getElem?_eq_some_iff.1 runs).1 ▸ runs
    case distinct => exact refines.distinct

/-- The frame of a generator is entered again. -/
theorem Refines.resumed (refines : Refines s t) {size : ℤ} {hs : List Handler} {root : Bool}
    (is : t.coroutines[g]? = some (.suspended size hs root)) (flag : Option Bool)
    (runs : flag = none → t.frames ≠ []) :
    ∃ gen, s.generators[g]? = some gen ∧ gen.state = .eSuspended ∧ gen.ciTraps = hs.length ∧
      gen.ciRoot = root ∧
      Refines
        { s.resumeFrom g gen with
          callsstack := ⟨s.top - s.stackbase, s.top - s.stackbase, hs.length, some g,
            flag.isSome⟩ :: s.callsstack
          traps := (if flag.isSome then 0 :: s.traps else s.traps).modifyHead (· + hs.length)
          raiseerrors := flag.toList ++ s.raiseerrors }
        { t with
          frames := ⟨t.top, t.top + size, hs, some g, flag⟩ :: t.frames
          coroutines := t.coroutines.set g .running } := by
  obtain ⟨gen, is', rfl⟩ := stand_get refines.generators is
  refine ⟨_, is', rfl, rfl, rfl, ?_⟩
  have stand : List.Forall₂ Stands
      (s.generators.set g ⟨.eRunning, size, hs.length, root, []⟩) (t.coroutines.set g .running) :=
    stand_set refines.generators ⟨rfl, rfl⟩
  have lt : g < t.coroutines.length := (List.getElem?_eq_some_iff.1 is).1
  have pushed := refines.push ⟨t.top, t.top + size, hs, some g, flag⟩ runs stand
    (fun g' eq => by
      cases eq
      exact ⟨List.getElem?_set_self lt, by simp [is]⟩)
    fun g' other runs => by
      rw [List.getElem?_set_ne fun eq => other (by rw [eq]), runs]
  rw [resumeFrom_eq, refines.top_eq]
  rw [refines.top_eq] at pushed
  exact pushed

theorem Refines.resume (refines : Refines s t) (answered : t.call (.resume g) = some (a, t')) :
    ∃ s', s.call (.resume g) = some (a, s') ∧ Refines s' t' := by
  simp only [Structured.call] at answered
  obtain ⟨co, is, answered⟩ := Option.bind_eq_some_iff.1 answered
  cases co with
  | suspended size hs root =>
    simp only at answered
    split at answered
    · cases answered
    · next allowed =>
      obtain ⟨runs, inner⟩ := not_or.1 allowed
      cases answered
      obtain ⟨gen, is', waits, count, stale, resumed⟩ := refines.resumed is none fun _ => runs
      rw [Bool.not_eq_true] at inner
      refine ⟨_, ?_, resumed⟩
      have counts : (s.resumeFrom g gen).traps ≠ [] := refines.counts runs
      simp only [Frames.call, is', Option.bind_some, waits, if_true, countTraps_eq counts, count]
      rw [resumeFrom, count, stale, inner]
      rfl
  | running =>
    obtain ⟨gen, is', runs, -⟩ := stand_get refines.generators is
    obtain ⟨s', thrown, refines'⟩ := refines.throw answered
    exact ⟨s', by simpa [Frames.call, is', runs] using thrown, refines'⟩
  | dead =>
    obtain ⟨gen, is', dead⟩ := stand_get refines.generators is
    obtain ⟨s', thrown, refines'⟩ := refines.throw answered
    exact ⟨s', by simpa [Frames.call, is', show gen.state = .eDead from dead] using thrown,
      refines'⟩

/-- A generator that is resumed by `sq_resume` has a call of `Execute` of its own. -/
theorem Refines.executeResume (refines : Refines s t) (raiseerror : Bool)
    (answered : t.call (.executeResume raiseerror g) = some (a, t')) :
    ∃ s', s.call (.executeResume raiseerror g) = some (a, s') ∧ Refines s' t' := by
  simp only [Structured.call] at answered
  obtain ⟨co, is, answered⟩ := Option.bind_eq_some_iff.1 answered
  cases co with
  | suspended size hs root =>
    cases answered
    obtain ⟨gen, is', waits, count, -, resumed⟩ :=
      refines.resumed is (some raiseerror) fun eq => nomatch eq
    refine ⟨_, ?_, resumed⟩
    simp only [Frames.call, is', Option.bind_some, waits, if_true, beginExecute, changeFrame,
      resumeFrom, Option.map_some, countTraps, count]
    rfl
  | running => cases answered
  | dead => cases answered

theorem Refines.foreach (refines : Refines s t) (answered : t.call (.foreach g) = some (a, t')) :
    ∃ s', s.call (.foreach g) = some (a, s') ∧ Refines s' t' := by
  simp only [Structured.call] at answered
  obtain ⟨co, is, answered⟩ := Option.bind_eq_some_iff.1 answered
  cases co with
  | suspended size hs root =>
    simp only at answered
    split at answered
    · cases answered
    · next allowed =>
      obtain ⟨runs, rest⟩ := not_or.1 allowed
      obtain ⟨empty, inner⟩ := not_or.1 rest
      obtain rfl : hs = [] := not_not.1 empty
      cases answered
      obtain ⟨gen, is', waits, count, stale, resumed⟩ := refines.resumed is none fun _ => runs
      simp only [Option.isSome_none, Bool.false_eq_true, if_false, add_none] at resumed
      rw [Bool.not_eq_true] at inner
      refine ⟨_, ?_, resumed⟩
      simp only [Frames.call, is', Option.bind_some, waits]
      rw [resumeFrom, count, stale, inner]
      rfl
  | running =>
    obtain ⟨gen, is', runs, -⟩ := stand_get refines.generators is
    obtain ⟨s', thrown, refines'⟩ := refines.throw answered
    exact ⟨s', by simpa [Frames.call, is', runs] using thrown, refines'⟩
  | dead =>
    obtain ⟨gen, is', dead⟩ := stand_get refines.generators is
    cases answered
    exact ⟨s, by simp [Frames.call, is', show gen.state = .eDead from dead], refines⟩

/-! ## Runs -/

/-- One call. -/
theorem simulates : Calls.Simulates Refines Frames.call Structured.call := by
  intro s t call a t' refines answered
  cases call with
  | call newbase newtop => exact refines.call newbase newtop answered
  | execute raiseerror newbase newtop => exact refines.execute raiseerror newbase newtop answered
  | executeResume raiseerror g => exact refines.executeResume raiseerror answered
  | moveTop top => exact refines.moveTop top answered
  | tailCall newtop => exact refines.tailCall newtop answered
  | generator newbase newtop => exact refines.generator newbase newtop answered
  | resume g => exact refines.resume answered
  | foreach g => exact refines.foreach answered
  | pushTrap ip extarget => exact refines.pushTrap ip extarget answered
  | popTrap n => exact refines.popTrap n answered
  | yield => exact refines.yield answered
  | ret => exact refines.ret answered
  | notifyAll enable => exact refines.notifyAll enable answered
  | throw => exact refines.throw answered
  | unwind => exact refines.unwind answered

end Frames

/-- Whatever a program does, exceptions go to the handlers of its frames, and the error handler is
called for those that have none, or for all. -/
theorem frames_run (top : ℤ) (calls : List FrameCall) (answers : List FrameAnswer) (t : Structured)
    (answered : Calls.run Structured.call (.new top) calls = some (answers, t)) :
    ∃ s, Calls.run Frames.call (.new top) calls = some (answers, s) ∧ Frames.Refines s t :=
  Frames.simulates.run (Frames.refines_new top) answered

/-- A generator yields in a handler and is resumed by a frame that has one as well. Four exceptions
go out of an `Execute` that does not want to hear of them, to the generator, to the frame, and out
of the first `Execute`, which calls the error handler. Another generator is resumed by `sq_resume`.
-/
theorem frames_run_generator : ∃ s, Calls.run Frames.call (.new 2)
    [.execute true 2 10, .generator 10 14, .resume 0, .pushTrap 7 1, .yield, .call 6 20,
      .pushTrap 9 2, .resume 0, .execute false 24 30, .throw, .unwind, .throw, .unwind, .throw,
      .unwind, .throw, .unwind, .generator 2 8, .moveTop 3, .executeResume false 1, .pushTrap 3 1,
      .yield, .notifyAll true, .executeResume true 1, .throw, .execute false 11 14, .ret, .unwind,
      .ret] =
    some ([.done, .done, .done, .done, .done, .done, .done, .done, .done,
      .thrown false, .uncaught, .thrown false, .caught 20 24 7 1, .thrown false, .caught 6 20 9 2,
      .thrown true, .uncaught, .done, .done, .done, .done, .done, .done, .done, .thrown true, .done,
      .done, .caught 3 9 3 1, .done], s) ∧
    Frames.Refines s ⟨3, [], [.dead, .dead], true⟩ :=
  frames_run 2 _ _ _ (by decide +kernel)

/-- `_OP_FOREACH` does not count the traps that a generator brings back, so the end of `Execute`
finds that `traps` is not zero. -/
example : Calls.run Frames.call (.new 2) [.execute true 2 10, .generator 10 14, .resume 0,
    .pushTrap 7 1, .yield, .foreach 0, .popTrap 1, .ret, .ret] = none := by
  decide

/-- A generator that `sq_resume` has resumed keeps the mark of that in its frame. An exception in it
stops there when `_OP_RESUME` has resumed it, and not at the handler of the frame below. -/
example : (Calls.run Frames.call (.new 2) [.execute true 2 10, .generator 10 14,
    .executeResume false 0, .yield, .pushTrap 7 1, .resume 0, .throw, .unwind]).map
      (fun r => r.1.getLast?) = some (some .uncaught) := by
  decide

end Squirrels
