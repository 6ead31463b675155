import Squirrels.Vm.AccessContract

/-!
# Lookup along delegates

A key that no table of a chain of delegates has is left to the `_get` functions of the chain, from
the deepest to the shallowest. `documentedGet` is the rule as it is documented: an error that is not
null ends the lookup. `Get` only sees that its own delegate has failed, so it goes on
(`fetchedGets`); the error of a delegate gets lost.
-/

namespace Squirrels

open Machines

/-! ## The rule and the code -/

/-- How a call of `_get` ends. -/
inductive Ending where
  | returns (v : SQObject)
  /-- It throws null. -/
  | notFound
  | throws (e : SQObject) (nonnull : e ≠ .null)
deriving DecidableEq

/-- A table of a chain: what it has for the key itself, and how the `_get` of its delegate, if that
defines one, ends when it is called with the table as `this`. -/
structure Level where
  table : ℕ
  slot : Option SQObject
  getter : Option Ending
deriving DecidableEq

/-- The `_get` functions of levels, the deepest first: how the lookup ends, and the tables for which
one is called. -/
def documentedGets : List Level → Ending × List ℕ
  | [] => (.notFound, [])
  | l :: shallower =>
    match l.getter with
    | none => documentedGets shallower
    | some .notFound => ((documentedGets shallower).1, l.table :: (documentedGets shallower).2)
    | some ending => (ending, [l.table])

/-- The lookup in a chain as it is documented. -/
def documentedGet (chain : List Level) : Ending × List ℕ :=
  match chain.findSome? Level.slot with
  | some v => (.returns v, [])
  | none => documentedGets chain.reverse

/-- What `Get` makes of a chain in which no table has the key. It follows the delegate of a table
first, and of a failure of the delegate it knows nothing but that. -/
def fetchedGets : List Level → Ending × List ℕ
  | [] => (.notFound, [])
  | l :: deeper =>
    match (fetchedGets deeper).1, l.getter with
    | .returns v, _ => (.returns v, (fetchedGets deeper).2)
    | _, none => (.notFound, (fetchedGets deeper).2)
    | _, some ending => (ending, (fetchedGets deeper).2 ++ [l.table])

/-- What `Get` makes of a chain. -/
def fetchedGet (chain : List Level) : Ending × List ℕ :=
  match chain.findSome? Level.slot with
  | some v => (.returns v, [])
  | none => fetchedGets chain

/-- No `_get` of these levels finds the key or fails. -/
def Undecided (levels : List Level) : Prop :=
  ∀ l ∈ levels, l.getter = none ∨ l.getter = some .notFound

/-- A `_get` that decides the lookup by throwing is the shallowest possible one, or no `_get` is
shallower and it throws what `error`, the error for a key that is not found, is anyway. -/
def ErrorsKept (error : SQObject) (chain : List Level) : Prop :=
  ∀ shallower l deeper e nonnull, chain = shallower ++ l :: deeper → Undecided deeper →
    l.getter = some (.throws e nonnull) →
    shallower = [] ∨ (e = error ∧ ∀ d ∈ shallower, d.getter = none)

section Levels

variable {chain shallower deeper : List Level} {l : Level} {ending : Ending}

theorem documentedGets_append_undecided (first rest : List Level) (undecided : Undecided first) :
    documentedGets (first ++ rest) =
      ((documentedGets rest).1, (documentedGets first).2 ++ (documentedGets rest).2) := by
  induction first with
  | nil => rfl
  | cons l first ih =>
    have ih := ih fun d mem => undecided d (List.mem_cons_of_mem l mem)
    rcases undecided l List.mem_cons_self with none | notFound
    · simp only [List.cons_append, documentedGets, none]
      exact ih
    · simp only [List.cons_append, documentedGets, notFound, ih]

theorem documentedGets_undecided (undecided : Undecided chain) :
    documentedGets chain = (.notFound, (documentedGets chain).2) := by
  have all := documentedGets_append_undecided chain [] undecided
  rw [List.append_nil] at all
  rw [all]
  rfl

theorem Undecided.reverse (undecided : Undecided chain) : Undecided chain.reverse :=
  fun l mem => undecided l (List.mem_reverse.1 mem)

/-- The deepest `_get` that does not throw null decides. -/
theorem documentedGets_decided (undecided : Undecided deeper) (getter : l.getter = some ending)
    (decides : ending ≠ .notFound) :
    documentedGets (shallower ++ l :: deeper).reverse =
      (ending, (documentedGets deeper.reverse).2 ++ [l.table]) := by
  have at_ : documentedGets (l :: shallower.reverse) = (ending, [l.table]) := by
    cases ending with
    | notFound => exact absurd rfl decides
    | returns v => simp only [documentedGets, getter]
    | throws e nonnull => simp only [documentedGets, getter]
  rw [List.reverse_append, List.reverse_cons, List.append_assoc,
    documentedGets_append_undecided _ _ undecided.reverse]
  show ((documentedGets (l :: shallower.reverse)).1,
    _ ++ (documentedGets (l :: shallower.reverse)).2) = _
  rw [at_]

/-- A value that the delegate returns is returned. -/
theorem fetchedGets_cons_returns {v : SQObject} (found : (fetchedGets deeper).1 = .returns v) :
    fetchedGets (l :: deeper) = fetchedGets deeper := by
  rw [fetchedGets, found]
  exact Prod.ext found.symm rfl

/-- After a failure of the delegate, whichever it is, the table calls its own `_get`. -/
theorem fetchedGets_cons_failed (failed : ∀ v, (fetchedGets deeper).1 ≠ .returns v) :
    fetchedGets (l :: deeper) = (l.getter.getD .notFound,
      (fetchedGets deeper).2 ++ if l.getter.isSome then [l.table] else []) := by
  rw [fetchedGets]
  cases here : (fetchedGets deeper).1 with
  | returns v => exact absurd here (failed v)
  | notFound =>
    cases l.getter with
    | none => exact Prod.ext rfl (List.append_nil _).symm
    | some ending => rfl
  | throws e nonnull =>
    cases l.getter with
    | none => exact Prod.ext rfl (List.append_nil _).symm
    | some ending => rfl

/-- The code follows the rule as long as nothing is decided. -/
theorem fetchedGets_undecided (undecided : Undecided chain) :
    fetchedGets chain = documentedGets chain.reverse := by
  induction chain with
  | nil => rfl
  | cons l deeper ih =>
    have rest : Undecided deeper := fun d mem => undecided d (List.mem_cons_of_mem l mem)
    have ih := ih rest
    rw [documentedGets_undecided rest.reverse] at ih
    have failed : ∀ v, (fetchedGets deeper).1 ≠ .returns v := fun v eq => by
      rw [ih] at eq
      cases eq
    rw [fetchedGets_cons_failed failed, List.reverse_cons,
      documentedGets_append_undecided _ _ rest.reverse, ih]
    rcases undecided l List.mem_cons_self with none | notFound
    · simp only [none, documentedGets]
      rfl
    · simp only [notFound, documentedGets]
      rfl

theorem fetchedGets_decided (undecided : Undecided deeper) (getter : l.getter = some ending) :
    fetchedGets (l :: deeper) = (ending, (documentedGets deeper.reverse).2 ++ [l.table]) := by
  have rest := fetchedGets_undecided undecided
  have failed : ∀ v, (fetchedGets deeper).1 ≠ .returns v := fun v eq => by
    rw [rest, documentedGets_undecided undecided.reverse] at eq
    cases eq
  rw [fetchedGets_cons_failed failed, getter, rest]
  rfl

/-- A value that is found below is what the table returns. -/
theorem fetchedGets_append_returns {v : SQObject} (found : (fetchedGets deeper).1 = .returns v) :
    fetchedGets (shallower ++ deeper) = fetchedGets deeper := by
  induction shallower with
  | nil => rfl
  | cons l shallower ih =>
    rw [List.cons_append, fetchedGets_cons_returns (ih ▸ found), ih]

/-- An error gets lost where no `_get` is called. -/
theorem fetchedGets_append_none (quiet : ∀ l ∈ shallower, l.getter = none)
    (nonempty : shallower ≠ []) (failed : ∀ v, (fetchedGets deeper).1 ≠ .returns v) :
    fetchedGets (shallower ++ deeper) = (.notFound, (fetchedGets deeper).2) := by
  induction shallower with
  | nil => exact absurd rfl nonempty
  | cons l shallower ih =>
    have none := quiet l List.mem_cons_self
    by_cases last : shallower = []
    · rw [last, List.cons_append, List.nil_append, fetchedGets_cons_failed failed, none]
      exact Prod.ext rfl (List.append_nil _)
    · have ih := ih (fun d mem => quiet d (List.mem_cons_of_mem l mem)) last
      have failed' : ∀ v, (fetchedGets (shallower ++ deeper)).1 ≠ .returns v := fun v eq => by
        rw [ih] at eq
        cases eq
      rw [List.cons_append, fetchedGets_cons_failed failed', none, ih]
      exact Prod.ext rfl (List.append_nil _)

theorem fetchedGets_calls_le (shallower deeper : List Level) :
    (fetchedGets deeper).2.length ≤ (fetchedGets (shallower ++ deeper)).2.length := by
  induction shallower with
  | nil => exact le_rfl
  | cons l shallower ih =>
    refine ih.trans ?_
    rw [List.cons_append, fetchedGets]
    split
    · exact le_rfl
    · exact le_rfl
    · rw [List.length_append]
      exact Nat.le_add_right _ _

/-- Another `_get` is called after a failure. -/
theorem fetchedGets_calls_lt (more : ∃ l ∈ shallower, l.getter ≠ none)
    (failed : ∀ v, (fetchedGets deeper).1 ≠ .returns v) :
    (fetchedGets deeper).2.length < (fetchedGets (shallower ++ deeper)).2.length := by
  induction shallower with
  | nil =>
    obtain ⟨l, mem, -⟩ := more
    exact absurd mem List.not_mem_nil
  | cons l shallower ih =>
    by_cases later : ∃ d ∈ shallower, d.getter ≠ none
    · exact (ih later).trans_le (fetchedGets_calls_le [l] (shallower ++ deeper))
    · have quiet : ∀ d ∈ shallower, d.getter = none := fun d mem => by
        by_contra some
        exact later ⟨d, mem, some⟩
      have some : l.getter ≠ none := by
        obtain ⟨d, mem, some⟩ := more
        rcases List.mem_cons.1 mem with rfl | mem
        · exact some
        · exact absurd (quiet d mem) some
      obtain ⟨ending, getter⟩ := Option.ne_none_iff_exists'.1 some
      have below : ∀ v, (fetchedGets (shallower ++ deeper)).1 ≠ .returns v := by
        intro v
        by_cases last : shallower = []
        · rw [last]
          exact failed v
        · rw [fetchedGets_append_none quiet last failed]
          exact fun absurd => by cases absurd
      rw [List.cons_append, fetchedGets_cons_failed below, getter, List.length_append]
      exact Nat.lt_succ_of_le (fetchedGets_calls_le shallower deeper)

/-- Either nothing decides the lookup, or the deepest `_get` that does not throw null does. -/
theorem undecided_or_decided (chain : List Level) :
    Undecided chain ∨ ∃ shallower l deeper ending, chain = shallower ++ l :: deeper ∧
      l.getter = some ending ∧ ending ≠ .notFound ∧ Undecided deeper := by
  induction chain with
  | nil => exact .inl fun l mem => absurd mem List.not_mem_nil
  | cons l chain ih =>
    rcases ih with undecided | ⟨shallower, d, deeper, ending, rfl, getter, decides, undecided⟩
    · by_cases here : l.getter = none ∨ l.getter = some .notFound
      · refine .inl fun d mem => ?_
        rcases List.mem_cons.1 mem with rfl | mem
        · exact here
        · exact undecided d mem
      · cases getter : l.getter with
        | none => exact absurd (.inl getter) here
        | some ending =>
          refine .inr ⟨[], l, chain, ending, rfl, getter, fun eq => ?_, undecided⟩
          rw [eq] at getter
          exact here (.inr getter)
    · exact .inr ⟨l :: shallower, d, deeper, ending, rfl, getter, decides, undecided⟩

/-- Where errors are kept the code follows the rule, or replaces an error by the same one. -/
theorem fetchedGets_of_errorsKept {error : SQObject} (kept : ErrorsKept error chain) :
    fetchedGets chain = documentedGets chain.reverse ∨
      ∃ nonnull, documentedGets chain.reverse = (.throws error nonnull, (fetchedGets chain).2) ∧
        (fetchedGets chain).1 = .notFound := by
  rcases undecided_or_decided chain with
    undecided | ⟨shallower, l, deeper, ending, rfl, getter, decides, undecided⟩
  · exact .inl (fetchedGets_undecided undecided)
  · rw [documentedGets_decided undecided getter decides]
    have here := fetchedGets_decided undecided getter
    cases ending with
    | notFound => exact absurd rfl decides
    | returns v => exact .inl ((fetchedGets_append_returns (congrArg Prod.fst here)).trans here)
    | throws e nonnull =>
      rcases kept shallower l deeper e nonnull rfl undecided getter with rfl | ⟨rfl, quiet⟩
      · exact .inl here
      · by_cases first : shallower = []
        · subst first
          exact .inl here
        · have failed : ∀ v, (fetchedGets (l :: deeper)).1 ≠ .returns v := fun v eq => by
            rw [here] at eq
            cases eq
          rw [fetchedGets_append_none quiet first failed, here]
          exact .inr ⟨nonnull, rfl, rfl⟩

/-- Where one is not, the code calls another `_get` or reports another error. -/
theorem fetchedGets_of_not_errorsKept {error : SQObject} (lost : ¬ ErrorsKept error chain) :
    ∃ e nonnull calls, documentedGets chain.reverse = (.throws e nonnull, calls) ∧
      ((fetchedGets chain).2 ≠ calls ∨ (fetchedGets chain).1 = .notFound ∧ e ≠ error) := by
  unfold ErrorsKept at lost
  push Not at lost
  obtain ⟨shallower, l, deeper, e, nonnull, rfl, undecided, getter, nonempty, other⟩ := lost
  have here := fetchedGets_decided undecided getter
  have failed : ∀ v, (fetchedGets (l :: deeper)).1 ≠ .returns v := fun v eq => by
    rw [here] at eq
    cases eq
  refine ⟨e, nonnull, _, documentedGets_decided undecided getter (fun eq => by cases eq), ?_⟩
  by_cases more : ∃ d ∈ shallower, d.getter ≠ none
  · have longer := fetchedGets_calls_lt more failed
    rw [here] at longer
    exact .inl fun eq => longer.ne (congrArg List.length eq).symm
  · have quiet : ∀ d ∈ shallower, d.getter = none := fun d mem => by
      by_contra some
      exact more ⟨d, mem, some⟩
    refine .inr ⟨congrArg Prod.fst (fetchedGets_append_none quiet nonempty failed), fun eq => ?_⟩
    obtain ⟨d, mem, some⟩ := other eq
    exact some (quiet d mem)

end Levels

/-! ## Chains of a machine -/

/-- What a call that ends like this stores. -/
def Ending.result : Ending → CallResult
  | .returns v => .returned v
  | .notFound => .failed
  | .throws _ _ => .failed

/-- What a call that ends like this throws. -/
def Ending.error : Ending → Option SQObject
  | .returns _ => none
  | .notFound => some .null
  | .throws e _ => some e

namespace SQVM

variable (env : Env)

/-- From the table `r`, if there is one, the delegates are those of the levels, and each table has
what its level says for the key. -/
def Linked (h : Heap) (key : SQObject) : Option ℕ → List Level → Prop
  | r, [] => r = none
  | r, l :: deeper => r = some l.table ∧ h.tableGet env.hash l.table key = l.slot ∧
    Linked h key (h.delegates l.table) deeper

/-- The `_get` of a level, if there is one, ends as the level says and is back at its caller in the
state `s'`. -/
def Calls (key : SQObject) (l : Level) (s s' : SQVM) : Prop :=
  match l.getter with
  | none => s.getMetaMethod env (.ref .table l.table) .get = none ∧ s' = s
  | some ending => ∃ closure, s.getMetaMethod env (.ref .table l.table) .get = some closure ∧
    s.callMetaMethod env closure [.ref .table l.table, key] = (ending.result, s') ∧
    Kept env s s' ∧ ∀ e, ending.error = some e → s'.lasterror = e

/-- The `_get` functions of a chain, called from the deepest to the shallowest, take the machine
from `s` to `s'`. The key is not the name of a default method of tables. -/
def Behaves (key : SQObject) : List Level → SQVM → SQVM → Prop
  | [], s, s' => s' = s
  | l :: deeper, s, s' => ∃ s₁, Behaves key deeper s s₁ ∧ Calls env key l s₁ s' ∧
    s'.invokeDefaultDelegate env (.ref .table l.table) key = none

/-- The tables for which `getAt` calls a `_get`, in the order of the calls: a table calls its own
when its delegate has failed. -/
def getCalls (key : SQObject) : ℕ → ℕ → SQVM → List ℕ
  | 0, _, _ => []
  | fuel + 1, r, s =>
    match s.heap.tableGet env.hash r key, s.heap.delegates r with
    | none, some d =>
      getCalls key fuel d s ++
        match (getAt env fuel false (.ref .table d) key).run s with
        | (.ok (false, _), s₁) =>
          if (s₁.getMetaMethod env (.ref .table r) .get).isSome then [r] else []
        | _ => []
    | _, _ => []

/-- The error of `Raise_IdxError`. -/
def idxError (key : SQObject) : SQObject :=
  .string ((ascii "the index '" ++ (printObjVal env key).take 50 ++ ascii "' does not exist").take
    ("the index '%.50s' does not exist".length + 99))

/-- How `getAt` ends, given how the lookup does and the state after all calls of `_get`. -/
inductive Gets (key : SQObject) (raising : Bool) (s s' : SQVM) :
    Ending → Except Stop (Bool × SQObject) × SQVM → Prop
  | returns {v : SQObject} {s₁ : SQVM} (kept : Kept env s s₁) (same : SameRefs env s s₁) :
    Gets key raising s s' (.returns v) (.ok (true, v), s₁)
  | notFound :
    Gets key raising s s' .notFound
      (.ok (false, key), if raising then s'.raiseIdxError env key else s')
  | throws {e : SQObject} {nonnull : e ≠ .null} (thrown : s'.lasterror = e) :
    Gets key raising s s' (.throws e nonnull) (.ok (false, key), s')

variable {env} {key : SQObject} {s s₁ s' : SQVM} {l : Level} {deeper chain : List Level} {fuel : ℕ}

theorem Calls.kept (calls : Calls env key l s s') : Kept env s s' := by
  unfold Calls at calls
  split at calls
  · rw [calls.2]
    exact .refl s
  · obtain ⟨closure, -, -, kept, -⟩ := calls
    exact kept

theorem Calls.refs (calls : Calls env key l s s') : SameRefs env s s' := by
  unfold Calls at calls
  split at calls
  · rw [calls.2]
    exact .refl s
  · obtain ⟨closure, -, called, -⟩ := calls
    have same := s.callMetaMethod_refs env closure [.ref .table l.table, key]
    rw [called] at same
    exact same

theorem Calls.isSome (calls : Calls env key l s s') :
    (s.getMetaMethod env (.ref .table l.table) .get).isSome = l.getter.isSome := by
  unfold Calls at calls
  split at calls
  · rename_i getter
    rw [calls.1, getter]
    rfl
  · rename_i getter
    obtain ⟨closure, defined, -⟩ := calls
    rw [defined, getter]
    rfl

theorem Behaves.kept (behaves : Behaves env key chain s s') :
    Kept env s s' ∧ SameRefs env s s' := by
  induction chain generalizing s' with
  | nil =>
    obtain rfl := behaves
    exact ⟨.refl _, .refl _⟩
  | cons l deeper ih =>
    obtain ⟨s₁, rest, calls, -⟩ := behaves
    exact ⟨(ih rest).1.trans calls.kept, (ih rest).2.trans calls.refs⟩

/-- What the table itself finds. -/
theorem getDirect_table (s : SQVM) (r : ℕ) (key : SQObject) :
    s.getDirect env (.ref .table r) key = (s.heap.tableGet env.hash r key, true) := rfl

/-- The `_get` of a level, as `FallBackGet` calls it. -/
theorem metaGet_run (calls : Calls env key l s s') :
    (metaGet env (.ref .table l.table) key).run s =
      match l.getter with
      | none => (.ok (.noMatch, key), s')
      | some (.returns v) => (.ok (.ok, v), s')
      | some .notFound => (.ok (.noMatch, key), s')
      | some (.throws _ _) => (.ok (.error, key), s') := by
  unfold Calls at calls
  unfold metaGet
  rw [Act.run_bind_of_ok (Act.run_get s)]
  cases getter : l.getter with
  | none =>
    rw [getter] at calls
    obtain ⟨undefined, rfl⟩ := calls
    rw [undefined]
    rfl
  | some ending =>
    rw [getter] at calls
    obtain ⟨closure, defined, called, -, thrown⟩ := calls
    have ran : (runMetaMethod env closure [.ref .table l.table, key]).run s =
        (.ok ending.result, s') := by
      unfold runMetaMethod
      rw [Act.run_step, called]
    rw [defined]
    simp only
    rw [Act.run_bind_of_ok ran]
    cases ending with
    | returns v => rfl
    | notFound =>
      have null : ¬ s'.lasterror ≠ .null := not_not.2 (thrown _ rfl)
      show (if s'.lasterror ≠ .null then _ else _ : Act SQVM (Fallback × SQObject)).run s' = _
      rw [if_neg null]
      rfl
    | throws e nonnull =>
      have failed : s'.lasterror ≠ .null := (thrown _ rfl) ▸ nonnull
      show (if s'.lasterror ≠ .null then _ else _ : Act SQVM (Fallback × SQObject)).run s' = _
      rw [if_pos failed]
      rfl

/-- A table without the key and without a default method of that name. -/
theorem getRest_run {self : SQObject} (raising : Bool)
    (default : s.invokeDefaultDelegate env self key = none) :
    (getRest env self key raising).run s =
      (.ok (false, key), if raising then s.raiseIdxError env key else s) := by
  unfold getRest
  rw [Act.run_bind_of_ok (Act.run_get s), default]
  cases raising <;> rfl

/-- Levels on which a table has the key. -/
theorem getAt_slot {r : ℕ} {v : SQObject} (raising : Bool)
    (linked : Linked env s.heap key (some r) chain)
    (found : chain.findSome? Level.slot = some v) (climbs : s.Climbs fuel (.ref .table r)) :
    (getAt env fuel raising (.ref .table r) key).run s = (.ok (true, v), s) ∧
      getCalls env key fuel r s = [] := by
  induction chain generalizing r fuel raising with
  | nil => cases found
  | cons l deeper ih =>
    obtain ⟨here, slot, rest⟩ := linked
    cases here
    obtain ⟨n, rfl, -⟩ := id climbs
    cases own : l.slot with
    | some o =>
      rw [List.findSome?_cons, own] at found
      cases found
      rw [own] at slot
      unfold getAt getCalls
      rw [Act.run_bind_of_ok (Act.run_get s), getDirect_table, slot]
      exact ⟨rfl, rfl⟩
    | none =>
      rw [List.findSome?_cons, own] at found
      rw [own] at slot
      cases delegate : s.heap.delegates l.table with
      | none =>
        rw [delegate] at rest
        cases deeper with
        | nil => cases found
        | cons d deeper => cases rest.1
      | some d =>
        rw [delegate] at rest
        obtain ⟨ran, calls⟩ := ih false rest found (climbs.delegate delegate)
        have fallback : (fallBackGet env (getAt env n false) (.ref .table l.table) key).run s =
            (.ok (.ok, v), s) := by
          unfold fallBackGet
          have parent : s.delegateOf (.ref .table l.table) = some d := delegate
          simp only
          rw [Act.run_bind_of_ok (Act.run_get s), parent]
          simp only
          rw [Act.run_bind_of_ok ran]
          rfl
        constructor
        · unfold getAt
          rw [Act.run_bind_of_ok (Act.run_get s), getDirect_table, slot]
          simp only
          rw [Act.run_bind_of_ok fallback]
          rfl
        · unfold getCalls
          rw [slot, delegate]
          simp only [ran, calls, List.append_nil]

/-- A chain on which no table has the key ends at a table that has no delegate. -/
theorem Calls.getter_eq_none (calls : Calls env key l s s')
    (last : s.heap.delegates l.table = none) : l.getter = none := by
  have none : s.getMetaMethod env (.ref .table l.table) .get = none := by
    have parent : s.delegateOf (.ref .table l.table) = none := last
    unfold getMetaMethod
    simp only [parent]
    rfl
  rw [← Option.isNone_iff_eq_none, ← Option.not_isSome, ← calls.isSome, none]
  simp

/-- What `getAt` does with the outcome of `FallBackGet`. -/
theorem getAt_of_fallBack {n r : ℕ} {raising : Bool} {fallback : Fallback} {o : SQObject}
    (absent : s.heap.tableGet env.hash r key = none)
    (ran : (fallBackGet env (getAt env n false) (.ref .table r) key).run s =
      (.ok (fallback, o), s₁)) :
    (getAt env (n + 1) raising (.ref .table r) key).run s =
      (match fallback with
        | .ok => pure (true, o)
        | .error => pure (false, o)
        | .noMatch => getRest env (.ref .table r) o raising : Act SQVM (Bool × SQObject)).run
          s₁ := by
  rw [getAt, Act.run_bind_of_ok (Act.run_get s), getDirect_table, absent]
  simp only
  rw [Act.run_bind_of_ok ran]
  cases fallback <;> rfl

/-- A table without a delegate has no fallback. -/
theorem fallBackGet_last {n r : ℕ} (last : s.heap.delegates r = none) :
    (fallBackGet env (getAt env n false) (.ref .table r) key).run s = (.ok (.noMatch, key), s) := by
  have parent : s.delegateOf (.ref .table r) = none := last
  unfold fallBackGet
  simp only
  rw [Act.run_bind_of_ok (Act.run_get s), parent]
  rfl

/-- The delegate is asked before the `_get` of the table is called. -/
theorem fallBackGet_delegate {n r d : ℕ} {found : Bool} {o : SQObject}
    (delegate : s.heap.delegates r = some d)
    (ran : (getAt env n false (.ref .table d) key).run s = (.ok (found, o), s₁)) :
    (fallBackGet env (getAt env n false) (.ref .table r) key).run s =
      (if found then pure (.ok, o) else metaGet env (.ref .table r) o :
        Act SQVM (Fallback × SQObject)).run s₁ := by
  have parent : s.delegateOf (.ref .table r) = some d := delegate
  unfold fallBackGet
  simp only
  rw [Act.run_bind_of_ok (Act.run_get s), parent]
  simp only
  rw [Act.run_bind_of_ok ran]

/-- A table whose delegate has failed calls its own `_get`. -/
theorem getAt_failed {n d : ℕ} (raising : Bool)
    (absent : s.heap.tableGet env.hash l.table key = none)
    (delegate : s.heap.delegates l.table = some d)
    (ran : (getAt env n false (.ref .table d) key).run s = (.ok (false, key), s₁))
    (before : Kept env s s₁ ∧ SameRefs env s s₁) (calls : Calls env key l s₁ s')
    (default : s'.invokeDefaultDelegate env (.ref .table l.table) key = none) :
    Gets env key raising s s' (l.getter.getD .notFound)
      ((getAt env (n + 1) raising (.ref .table l.table) key).run s) := by
  have fallback := fallBackGet_delegate delegate ran
  rw [if_neg Bool.false_ne_true, metaGet_run calls] at fallback
  have thrown := calls
  unfold Calls at thrown
  cases getter : l.getter with
  | none =>
    rw [getter] at fallback
    rw [getAt_of_fallBack absent fallback, getRest_run raising default]
    exact .notFound
  | some ending =>
    rw [getter] at fallback thrown
    obtain ⟨closure, -, -, -, thrown⟩ := thrown
    cases ending with
    | returns v =>
      rw [getAt_of_fallBack absent fallback]
      exact .returns (before.1.trans calls.kept) (before.2.trans calls.refs)
    | notFound =>
      rw [getAt_of_fallBack absent fallback]
      show Gets env key raising s s' .notFound ((getRest env _ key raising).run s')
      rw [getRest_run raising default]
      exact .notFound
    | throws e nonnull =>
      rw [getAt_of_fallBack absent fallback]
      exact .throws (thrown e rfl)

/-- `Get` on a chain in which no table has the key. The induction follows the recursion of `Get` to
the delegate; what the delegate has failed with is in the machine only. -/
theorem getAt_run {r : ℕ} (raising : Bool) (linked : Linked env s.heap key (some r) chain)
    (absent : ∀ l ∈ chain, l.slot = none) (behaves : Behaves env key chain s s')
    (climbs : s.Climbs fuel (.ref .table r)) :
    Gets env key raising s s' (fetchedGets chain).1
        ((getAt env fuel raising (.ref .table r) key).run s) ∧
      getCalls env key fuel r s = (fetchedGets chain).2 := by
  induction chain generalizing r fuel raising s' with
  | nil => cases linked
  | cons l deeper ih =>
    obtain ⟨here, slot, rest⟩ := linked
    cases here
    obtain ⟨s₁, before, calls, default⟩ := behaves
    rw [absent l List.mem_cons_self] at slot
    obtain ⟨n, rfl, -⟩ := id climbs
    cases delegate : s.heap.delegates l.table with
    | none =>
      rw [delegate] at rest
      cases deeper with
      | cons d deeper => cases rest.1
      | nil =>
        obtain rfl := before
        have getter := calls.getter_eq_none delegate
        unfold Calls at calls
        rw [getter] at calls
        obtain rfl := calls.2
        rw [getAt_of_fallBack slot (fallBackGet_last delegate), getRest_run raising default]
        simp only [fetchedGets, getter]
        refine ⟨.notFound, ?_⟩
        unfold getCalls
        rw [slot, delegate]
    | some d =>
      rw [delegate] at rest
      obtain ⟨gets, called⟩ := ih false rest (fun d mem => absent d (List.mem_cons_of_mem l mem))
        before (climbs.delegate delegate)
      unfold getCalls
      rw [slot, delegate]
      simp only [called]
      generalize ran : (getAt env n false (.ref .table d) key).run s = outcome at gets ⊢
      generalize ended : (fetchedGets deeper).1 = ending at gets
      have after := before.kept
      -- after a failure the machine has run all calls below
      have failed : (∀ v, ending ≠ .returns v) → outcome = (.ok (false, key), s₁) →
          Gets env key raising s s' (fetchedGets (l :: deeper)).1
              ((getAt env (n + 1) raising (.ref .table l.table) key).run s) ∧
            (fetchedGets deeper).2 ++ (match outcome with
              | (.ok (false, _), s₁) =>
                if (s₁.getMetaMethod env (.ref .table l.table) .get).isSome then [l.table] else []
              | _ => []) = (fetchedGets (l :: deeper)).2 := by
        intro fails eq
        subst eq
        rw [fetchedGets_cons_failed fun v => ended ▸ fails v, ← calls.isSome]
        exact ⟨getAt_failed raising slot delegate ran after calls default, rfl⟩
      cases gets with
      | returns kept same =>
        rw [fetchedGets_cons_returns ended, ended]
        have found : (fallBackGet env (getAt env n false) (.ref .table l.table) key).run s =
            (.ok (.ok, _), _) := fallBackGet_delegate delegate ran
        rw [getAt_of_fallBack slot found]
        exact ⟨.returns kept same, List.append_nil _⟩
      | notFound => exact failed (fun v absurd => by cases absurd) rfl
      | throws thrown => exact failed (fun v absurd => by cases absurd) rfl

end SQVM

end Squirrels
