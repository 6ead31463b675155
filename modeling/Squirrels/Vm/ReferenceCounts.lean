import Squirrels.Vm.Open
import Squirrels.Vm.RefTable

/-!
# Reference counts

The machine keeps a number for each object that `sq_addref` adds one to and `sq_release` takes one
from. The table with its buckets, its free list and its growth answers every run of these calls in
the same way, without failing an assertion or following a null pointer; a release too many fails the
assertion of `RefTable::Release`.
-/

namespace Squirrels

open Machines

/-- A call that reads or changes the reference table. -/
inductive RefCall where
  | addRef (o : SQObject)
  | release (o : SQObject)
  | getRefCount (o : SQObject)
deriving DecidableEq, Repr

/-- What such a call returns. -/
inductive RefAnswer where
  | none
  | released (last : Bool)
  | count (n : ℕ)
deriving DecidableEq, Repr

namespace RefTable

variable (hash : SQObject → ℕ) (t : RefTable)

/-- `sq_addref`, `sq_release` and `sq_getrefcount`: objects without a count are left alone. -/
def call : RefCall → Option (RefAnswer × RefTable)
  | .addRef o =>
    if o.isRefCounted then (t.addRef hash o).map fun t => (.none, t) else some (.none, t)
  | .release o =>
    if o.isRefCounted then (t.release hash o).map fun r => (.released r.1, r.2)
    else some (.released true, t)
  | .getRefCount o =>
    if o.isRefCounted then (t.getRefCount hash o).map fun r => (.count r.1, r.2)
    else some (.count 0, t)

end RefTable

/-- The calls on plain numbers. There is no answer for a release too many, for a count that does not
fit, and for the count of an object without references, which would put the object into the table.
-/
def RefCall.spec (counts : SQObject → ℕ) : RefCall → Option (RefAnswer × (SQObject → ℕ))
  | .addRef o =>
    if o.isRefCounted then
      if counts o + 1 < unsignedModulus then
        some (.none, Function.update counts o (counts o + 1))
      else none
    else some (.none, counts)
  | .release o =>
    if o.isRefCounted then
      if counts o = 0 then none
      else some (.released (counts o = 1), Function.update counts o (counts o - 1))
    else some (.released true, counts)
  | .getRefCount o =>
    if o.isRefCounted then
      if counts o = 0 then none else some (.count (counts o), counts)
    else some (.count 0, counts)

section Refinement

variable {hash : SQObject → ℕ} {t : RefTable} {counts counts' : SQObject → ℕ} {o : SQObject}

/-- No count has wrapped. -/
def CountsFit (counts : SQObject → ℕ) : Prop := ∀ o, counts o < unsignedModulus

theorem CountsFit.update (fit : CountsFit counts) {n : ℕ} (small : n < unsignedModulus) :
    CountsFit (Function.update counts o n) := by
  intro o'
  by_cases same : o' = o
  · rw [same, Function.update_self]
    exact small
  · rw [Function.update_of_ne same]
    exact fit o'

theorem ne_null_of_isRefCounted (counted : o.isRefCounted = true) : o ≠ .null := by
  rintro rfl
  cases counted

/-- The table answers each call as the counts do. -/
theorem RefTable.call_simulates : Calls.Simulates
    (fun t counts => t.Counts hash counts ∧ CountsFit counts) (RefTable.call hash)
    RefCall.spec := by
  rintro t counts call answer counts' ⟨keeps, fit⟩ spec
  cases call with
  | addRef o =>
    unfold RefCall.spec at spec
    unfold RefTable.call
    by_cases is : o.isRefCounted = true
    · simp only [if_pos is] at spec
      split at spec
      · rename_i fits
        cases spec
        obtain ⟨t', ran, keeps'⟩ := keeps.addRef (ne_null_of_isRefCounted is) fits
        exact ⟨t', by simp only [if_pos is, ran, Option.map_some], keeps', fit.update fits⟩
      · cases spec
    · simp only [if_neg is] at spec
      cases spec
      exact ⟨t, by simp only [if_neg is], keeps, fit⟩
  | release o =>
    unfold RefCall.spec at spec
    unfold RefTable.call
    by_cases is : o.isRefCounted = true
    · simp only [if_pos is] at spec
      split at spec
      · cases spec
      · rename_i live
        cases spec
        obtain ⟨t', ran, keeps'⟩ := keeps.release (ne_null_of_isRefCounted is) live (fit o)
        have small : counts o - 1 < unsignedModulus := lt_of_le_of_lt (Nat.sub_le _ _) (fit o)
        exact ⟨t', by simp only [if_pos is, ran, Option.map_some], keeps', fit.update small⟩
    · simp only [if_neg is] at spec
      cases spec
      exact ⟨t, by simp only [if_neg is], keeps, fit⟩
  | getRefCount o =>
    unfold RefCall.spec at spec
    unfold RefTable.call
    by_cases is : o.isRefCounted = true
    · simp only [if_pos is] at spec
      split at spec
      · cases spec
      · rename_i live
        cases spec
        obtain ⟨t', ran, keeps'⟩ := keeps.getRefCount (ne_null_of_isRefCounted is) live
        exact ⟨t', by simp only [if_pos is, ran, Option.map_some], keeps', fit⟩
    · simp only [if_neg is] at spec
      cases spec
      exact ⟨t, by simp only [if_neg is], keeps, fit⟩

/-- From the new table on, every run that the counts answer (no release too many, no count of an
object without references) is answered alike by the table, and a release too many ends the
process. -/
theorem RefTable.run_counts {calls : List RefCall} {answers : List RefAnswer}
    (ran : Calls.run RefCall.spec (fun _ => 0) calls = some (answers, counts)) :
    ∃ t, Calls.run (RefTable.call hash) RefTable.new calls = some (answers, t) ∧
      t.Counts hash counts ∧
      ∀ o, o.isRefCounted = true → counts o = 0 → RefTable.call hash t (.release o) = none := by
  obtain ⟨t, ran', keeps, -⟩ := RefTable.call_simulates.run
    ⟨RefTable.counts_new, fun _ => by show 0 < unsignedModulus; decide⟩ ran
  refine ⟨t, ran', keeps, fun o is gone => ?_⟩
  unfold RefTable.call
  simp only [if_pos is, keeps.release_missing (ne_null_of_isRefCounted is) gone, Option.map_none]

/-- Five objects in a table for four, one of them with two references. -/
def fiveObjects : List RefCall :=
  (List.range 5).map (fun k => .addRef (.string [UInt8.ofNat k])) ++
    [.addRef (.string [2]), .release (.string [2]), .release (.string [0])]

theorem RefTable.run_counts_five : ∃ t,
    Calls.run (RefTable.call fun _ => 0) RefTable.new fiveObjects =
      some ([.none, .none, .none, .none, .none, .none, .released false, .released true], t) ∧
    t.Counts (fun _ => 0) (Calls.run RefCall.spec (fun _ => 0) fiveObjects).get!.2 ∧
    ∀ o, o.isRefCounted = true →
      (Calls.run RefCall.spec (fun _ => 0) fiveObjects).get!.2 o = 0 →
      RefTable.call (fun _ => 0) t (.release o) = none :=
  RefTable.run_counts rfl

end Refinement

/-! ## The counts of the machine -/

/-- The calls of the binding on the machine. -/
def RefCall.act : RefCall → Act SQVM Unit
  | .addRef o => Api.sqAddref o
  | .release o => Api.sqRelease o
  | .getRefCount _ => pure ()

/-- The calls of the binding one after the other. -/
def RefCall.acts : List RefCall → Act SQVM Unit
  | [] => pure ()
  | call :: calls => do
    call.act
    acts calls

/-- The call changes a count. -/
def RefCall.changes : RefCall → Bool
  | .getRefCount _ => false
  | _ => true

section Machine

variable {hash : SQObject → ℕ} {t : RefTable} {s : SQVM} {call : RefCall} {calls : List RefCall}

/-- One call on the machine and on the table: both go on with the same counts, or both end. -/
theorem RefCall.act_agrees (keeps : t.Counts hash s.refs) (changes : call.changes = true)
    (fits : ∀ o, s.refs o + 1 < unsignedModulus) :
    (∃ answer t' refs, RefTable.call hash t call = some (answer, t') ∧
        call.act.run s = (.ok (), { s with refs := refs }) ∧ t'.Counts hash refs ∧
        ∀ o, refs o ≤ s.refs o + 1) ∨
      RefTable.call hash t call = none ∧ call.act.run s = (.error Api.overRelease, s) := by
  cases call with
  | addRef o =>
    left
    unfold RefTable.call
    by_cases is : o.isRefCounted = true
    · obtain ⟨t', ran, keeps'⟩ := keeps.addRef (ne_null_of_isRefCounted is) (fits o)
      refine ⟨.none, t', _, by simp only [if_pos is, ran, Option.map_some], ?_, keeps',
        fun o' => ?_⟩
      · show (_, if o.isRefCounted then _ else _) = _
        rw [if_pos is]
      · by_cases same : o' = o
        · rw [same, Function.update_self]
        · rw [Function.update_of_ne same]
          exact Nat.le_succ _
    · refine ⟨.none, t, s.refs, by simp only [if_neg is], ?_, keeps, fun _ => Nat.le_succ _⟩
      show (_, if o.isRefCounted then _ else _) = _
      rw [if_neg is]
  | release o =>
    unfold RefTable.call RefCall.act Api.sqRelease
    rw [Act.run_bind_of_ok (Act.run_get s)]
    by_cases is : o.isRefCounted = true
    · have counted : ¬ (!o.isRefCounted) = true := by simp [is]
      rw [if_neg counted]
      by_cases gone : s.refs o = 0
      · right
        rw [if_pos gone]
        exact ⟨by simp only [if_pos is,
          keeps.release_missing (ne_null_of_isRefCounted is) gone, Option.map_none], rfl⟩
      · left
        rw [if_neg gone]
        obtain ⟨t', ran, keeps'⟩ := keeps.release (ne_null_of_isRefCounted is) gone
          (lt_of_le_of_lt (Nat.le_succ _) (fits o))
        refine ⟨.released (s.refs o = 1), t', _, by simp only [if_pos is, ran, Option.map_some],
          rfl, keeps', fun o' => ?_⟩
        by_cases same : o' = o
        · rw [same, Function.update_self]
          omega
        · rw [Function.update_of_ne same]
          exact Nat.le_succ _
    · left
      have plain : (!o.isRefCounted) = true := by simpa using is
      rw [if_pos plain]
      exact ⟨.released true, t, s.refs, by simp only [if_neg is], rfl, keeps,
        fun _ => Nat.le_succ _⟩
  | getRefCount o => exact absurd changes Bool.false_ne_true

/-- A run of the calls on the machine and on the table: both end with the same counts, or a release
too many ends both. -/
theorem RefCall.acts_agree (keeps : t.Counts hash s.refs)
    (changes : ∀ call ∈ calls, call.changes = true)
    (fits : ∀ o, s.refs o + calls.length < unsignedModulus) :
    (∃ answers t' refs, Calls.run (RefTable.call hash) t calls = some (answers, t') ∧
        (RefCall.acts calls).run s = (.ok (), { s with refs := refs }) ∧ t'.Counts hash refs) ∨
      Calls.run (RefTable.call hash) t calls = none ∧
        ∃ s', (RefCall.acts calls).run s = (.error Api.overRelease, s') := by
  induction calls generalizing t s with
  | nil => exact .inl ⟨[], t, s.refs, rfl, rfl, keeps⟩
  | cons call calls ih =>
    simp only [List.length_cons] at fits
    have one : ∀ o, s.refs o + 1 < unsignedModulus := fun o => by
      have := fits o
      omega
    unfold RefCall.acts
    rcases RefCall.act_agrees keeps (changes call List.mem_cons_self) one with
      ⟨answer, t₁, refs, called, acted, keeps₁, grown⟩ | ⟨failed, stopped⟩
    · have more : ∀ o, refs o + calls.length < unsignedModulus := fun o => by
        have := fits o
        have := grown o
        omega
      rw [Act.run_bind_of_ok acted]
      rcases @ih t₁ { s with refs := refs } keeps₁
        (fun call mem => changes call (List.mem_cons_of_mem _ mem)) more with
        ⟨answers, t₂, refs', ran, acted', keeps₂⟩ | ⟨failed, stopped⟩
      · exact .inl ⟨answer :: answers, t₂, refs',
          Calls.run_cons_eq_some_iff.2 ⟨_, _, _, called, ran, rfl⟩, acted', keeps₂⟩
      · refine .inr ⟨?_, stopped⟩
        rw [Calls.run, called, Option.bind_some, failed, Option.map_none]
    · refine .inr ⟨by rw [Calls.run, failed, Option.bind_none], s, ?_⟩
      rw [Act.run_bind_of_error stopped]

/-- The numbers that the machine keeps for its objects are those of the reference table, as long as
there are fewer calls than a count can hold. -/
theorem machine_refs_agree (fresh : ∀ o, s.refs o = 0)
    (changes : ∀ call ∈ calls, call.changes = true) (few : calls.length < unsignedModulus) :
    (∃ answers t refs, Calls.run (RefTable.call hash) RefTable.new calls = some (answers, t) ∧
        (RefCall.acts calls).run s = (.ok (), { s with refs := refs }) ∧ t.Counts hash refs) ∨
      Calls.run (RefTable.call hash) RefTable.new calls = none ∧
        ∃ s', (RefCall.acts calls).run s = (.error Api.overRelease, s') := by
  have start : RefTable.new.Counts hash s.refs := by
    rw [show s.refs = fun _ => 0 from funext fresh]
    exact RefTable.counts_new
  exact RefCall.acts_agree start changes fun o => by rw [fresh o, Nat.zero_add]; exact few

/-- A run in which the table grows. -/
theorem machine_refs_agree_five :
    (∃ answers t refs,
        Calls.run (RefTable.call fun _ => 0) RefTable.new fiveObjects = some (answers, t) ∧
        (RefCall.acts fiveObjects).run (SQVM.init .empty 16) =
          (.ok (), { SQVM.init .empty 16 with refs := refs }) ∧ t.Counts (fun _ => 0) refs) ∨
      Calls.run (RefTable.call fun _ => 0) RefTable.new fiveObjects = none ∧
        ∃ s', (RefCall.acts fiveObjects).run (SQVM.init .empty 16) =
          (.error Api.overRelease, s') :=
  machine_refs_agree (fun _ => rfl) (by decide) (by decide)

end Machine

end Squirrels
