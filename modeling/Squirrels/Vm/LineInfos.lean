import Mathlib.Data.List.Basic
import Squirrels.Vm.ClosureStreamLaws

/-!
# Lines of instructions

A function has the line of each place in its instructions where another line starts. `GetLine` looks
for the last place before an instruction, by halves as long as it can, and then one by one.
-/

namespace Squirrels

namespace ClosureStream

variable {infos : List SQLineInfo} {info : SQLineInfo} {op high : ℤ} {fuel low mid : ℕ}

/-! ## The loops -/

/-- `_lineinfos[i]._op`. -/
def opAt (infos : List SQLineInfo) (i : ℕ) : Option ℤ := infos[i]?.map fun info => info.op.toInt

/-- The first loop of `GetLine`, in at most so many turns. -/
def searchLine (infos : List SQLineInfo) (op : ℤ) : ℕ → ℕ → ℤ → ℕ → Option ℕ
  | 0, _, _, _ => none
  | fuel + 1, low, high, mid =>
    if low ≤ high then
      let mid := low + ((high - low) / 2).toNat
      (opAt infos mid).bind fun curop =>
        if op < curop then searchLine infos op fuel low (mid - 1) mid
        else if curop < op then
          if mid < infos.length - 1 then
            (opAt infos (mid + 1)).bind fun next =>
              if op ≤ next then some mid else searchLine infos op fuel (mid + 1) high mid
          else searchLine infos op fuel (mid + 1) high mid
        else some mid
    else some mid

/-- The second loop of `GetLine`. -/
def backToLine (infos : List SQLineInfo) (op : ℤ) : ℕ → Option ℕ
  | 0 => some 0
  | mid + 1 =>
    (opAt infos (mid + 1)).bind fun curop =>
      if op ≤ curop then backToLine infos op mid else some (mid + 1)

/-- `GetLine`, of the instruction with this place; no result when it reads beside the line infos. -/
def ProtoData.getLine (p : ProtoData) (op : ℤ) : Option (BitVec 64) :=
  p.lineinfos.head?.bind fun _ =>
    (searchLine p.lineinfos op (p.lineinfos.length + 1) 0 (p.lineinfos.length - 1) 0).bind
      fun mid => (backToLine p.lineinfos op mid).bind fun mid =>
        p.lineinfos[mid]?.map SQLineInfo.line

/-! ## Where they end -/

/-- The places are in order. -/
def Ordered (infos : List SQLineInfo) : Prop :=
  infos.Pairwise fun info info' => info.op.toInt ≤ info'.op.toInt

/-- What is behind a place is not before the instruction. -/
def PastLine (infos : List SQLineInfo) (op : ℤ) (mid : ℕ) : Prop :=
  ∀ j info, mid < j → infos[j]? = some info → op ≤ info.op.toInt

theorem opAt_of_lt (lt : mid < infos.length) : opAt infos mid = some infos[mid].op.toInt := by
  rw [opAt, List.getElem?_eq_getElem lt, Option.map_some]

/-- What is behind a place that is not before the instruction is not before it either. -/
theorem Ordered.past (ordered : Ordered infos) (lt : mid < infos.length)
    (le : op ≤ infos[mid].op.toInt) {j : ℕ} (behind : mid ≤ j) (is : infos[j]? = some info) :
    op ≤ info.op.toInt := by
  obtain ⟨ltJ, rfl⟩ := List.getElem?_eq_some_iff.1 is
  rcases Nat.eq_or_lt_of_le behind with rfl | behind
  · exact le
  · exact Int.le_trans le (List.pairwise_iff_getElem.1 ordered mid j lt ltJ behind)

/-- The first loop ends at a place behind which nothing is before the instruction. What is behind
the range that is left is not before it, and once the range is empty the place it looked at last is
not in front of its end. -/
theorem searchLine_past (ordered : Ordered infos) (ltMid : mid < infos.length)
    (ltHigh : high < infos.length) (near : low ≤ high + 1) (reached : low ≤ high ∨ high ≤ mid)
    (past : ∀ j info, high < (j : ℕ) → infos[j]? = some info → op ≤ info.op.toInt)
    (enough : high + 1 < low + fuel) :
    ∃ mid', searchLine infos op fuel low high mid = some mid' ∧ mid' < infos.length ∧
      PastLine infos op mid' := by
  induction fuel generalizing low high mid with
  | zero => omega
  | succ fuel ih =>
    rw [searchLine]
    split
    · rename_i le
      obtain ⟨half, isHalf⟩ : ∃ half, half = low + ((high - low) / 2).toNat := ⟨_, rfl⟩
      have lt : half < infos.length := by omega
      simp only [← isHalf, opAt_of_lt lt, Option.bind_some]
      split
      · rename_i before
        -- the upper half goes
        refine ih lt (by omega) (by omega) (by omega) (fun j info behind is => ?_) (by omega)
        exact ordered.past lt (Int.le_of_lt before) (by omega) is
      · split
        · rename_i notBefore after
          split
          · rename_i more
            have lt' : half + 1 < infos.length := by omega
            simp only [opAt_of_lt lt', Option.bind_some]
            split
            · rename_i next
              exact ⟨half, rfl, lt, fun j info behind is => ordered.past lt' next behind is⟩
            · exact ih lt ltHigh (by omega) (by omega) past (by omega)
          · exact ih lt ltHigh (by omega) (by omega) past (by omega)
        · rename_i notBefore notAfter
          exact ⟨half, rfl, lt, fun j info behind is =>
            ordered.past lt (Int.not_lt.1 notAfter) (Nat.le_of_lt behind) is⟩
    · rename_i empty
      refine ⟨mid, rfl, ltMid, fun j info behind is => past j info ?_ is⟩
      omega

/-- The second loop goes back to a place before the instruction, or to the first one. -/
theorem backToLine_ends (lt : mid < infos.length) (past : PastLine infos op mid) :
    ∃ i info, backToLine infos op mid = some i ∧ infos[i]? = some info ∧
      (i = 0 ∨ info.op.toInt < op) ∧ PastLine infos op i := by
  induction mid with
  | zero => exact ⟨0, infos[0], rfl, List.getElem?_eq_getElem lt, .inl rfl, past⟩
  | succ mid ih =>
    rw [backToLine, opAt_of_lt lt, Option.bind_some]
    split
    · rename_i le
      refine ih (by omega) fun j info behind is => ?_
      rcases Nat.eq_or_lt_of_le behind with rfl | behind
      · rw [List.getElem?_eq_getElem lt] at is
        cases is
        exact le
      · exact past j info behind is
    · rename_i before
      exact ⟨mid + 1, _, rfl, List.getElem?_eq_getElem lt, .inr (Int.not_le.1 before), past⟩

/-- The line of an instruction is that of the last place before it, and the first line when there is
none; no place is read that is not there. -/
theorem getLine_last (p : ProtoData) (op : ℤ) (lines : p.lineinfos ≠ [])
    (ordered : Ordered p.lineinfos) : ∃ i info, p.getLine op = some info.line ∧
      p.lineinfos[i]? = some info ∧ (i = 0 ∨ info.op.toInt < op) ∧
      ∀ j info', i < j → p.lineinfos[j]? = some info' → op ≤ info'.op.toInt := by
  have positive := List.length_pos_iff.2 lines
  obtain ⟨mid, searched, lt, past⟩ : ∃ mid, searchLine p.lineinfos op (p.lineinfos.length + 1) 0
      (p.lineinfos.length - 1) 0 = some mid ∧ mid < p.lineinfos.length ∧
      PastLine p.lineinfos op mid := by
    refine searchLine_past ordered positive (by omega) (by omega) (by omega) ?_ (by omega)
    intro j info behind is
    have := (List.getElem?_eq_some_iff.1 is).1
    omega
  obtain ⟨i, info, back, is, first, past'⟩ := backToLine_ends lt past
  refine ⟨i, info, ?_, is, first, past'⟩
  rw [ProtoData.getLine, List.head?_eq_getElem?, List.getElem?_eq_getElem positive]
  simp only [Option.bind_some, searched, back, is, Option.map_some]

/-- A function with three lines. -/
def threeLines : ProtoData := { outerData with lineinfos := [⟨1, 0⟩, ⟨2, 3⟩, ⟨5, 7⟩] }

theorem getLine_last_three : threeLines.getLine 7 = some 2 ∧ ∃ i info,
    threeLines.getLine 7 = some info.line ∧ threeLines.lineinfos[i]? = some info ∧
    (i = 0 ∨ info.op.toInt < 7) ∧
    ∀ j info', i < j → threeLines.lineinfos[j]? = some info' → 7 ≤ info'.op.toInt :=
  ⟨by decide, getLine_last threeLines 7 (by decide) (by unfold Ordered; decide)⟩

end ClosureStream

end Squirrels
