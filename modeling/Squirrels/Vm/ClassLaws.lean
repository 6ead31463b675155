import Mathlib.Data.Nat.Bitwise
import Squirrels.Vm.Class
import Squirrels.Vm.TableLaws

/-!
# The laws of classes

The members of a class are numbered: its fields by their default values, its methods and static
members by the entries they have. In a class that is reached by the operations of the machine every
number below the length of the list belongs to one key, so a write to a member changes no other. An
instance has as many values as its class has fields, because a class with instances gets no more
fields.
-/

namespace Squirrels

variable {hash : SQObject → ℕ}

/-! ## Member indices -/

theorem memberIdx_makeFieldIdx {i : ℕ} (small : i < memberMaxCount) :
    memberIdx (makeFieldIdx i) = i := by
  unfold memberMaxCount at small
  have sum : memberTypeField ||| i = 2 ^ 24 * 2 + i :=
    (Nat.two_pow_add_eq_or_of_lt (show i < 2 ^ 24 by omega) 2).symm
  show (memberTypeField ||| i) &&& (2 ^ 24 - 1) = i
  rw [Nat.and_two_pow_sub_one_eq_mod, sum]
  omega

theorem memberIdx_makeMethodIdx {i : ℕ} (small : i < memberMaxCount) :
    memberIdx (makeMethodIdx i) = i := by
  unfold memberMaxCount at small
  have sum : memberTypeMethod ||| i = 2 ^ 24 * 1 + i :=
    (Nat.two_pow_add_eq_or_of_lt (show i < 2 ^ 24 by omega) 1).symm
  show (memberTypeMethod ||| i) &&& (2 ^ 24 - 1) = i
  rw [Nat.and_two_pow_sub_one_eq_mod, sum]
  omega

@[simp] theorem isField_makeFieldIdx (i : ℕ) : isField (makeFieldIdx i) = true := by
  have bit : (memberTypeField ||| i).testBit 25 = true := by
    rw [Nat.testBit_or]
    exact Bool.or_eq_true_iff.2 (.inl (by decide))
  show decide ((memberTypeField ||| i) &&& 2 ^ 25 ≠ 0) = true
  rw [Nat.and_two_pow, bit]
  decide

theorem isField_makeMethodIdx {i : ℕ} (small : i < memberMaxCount) :
    isField (makeMethodIdx i) = false := by
  unfold memberMaxCount at small
  have sum : memberTypeMethod ||| i = 2 ^ 24 * 1 + i :=
    (Nat.two_pow_add_eq_or_of_lt (show i < 2 ^ 24 by omega) 1).symm
  have bit : (memberTypeMethod ||| i).testBit 25 = false := by
    rw [sum]
    apply Nat.testBit_lt_two_pow
    omega
  show decide ((memberTypeMethod ||| i) &&& 2 ^ 25 ≠ 0) = false
  rw [Nat.and_two_pow, bit]
  decide

namespace SQClass

variable {c c' : SQClass} {key val : SQObject} {fieldKey methodKey : ℕ → SQObject}

/-! ## Well-formed classes -/

/-- The members of a class, with the key each number was given out for. A key that was made a method
and then a field has left its method behind. -/
structure Indexed (hash : SQObject → ℕ) (c : SQClass) (fieldKey methodKey : ℕ → SQObject) :
    Prop where
  members : c.members.WellFormed hash
  count : c.members.countUsed ≤ memberMaxCount
  index : ∀ key v, key ≠ .null → c.members.Holds key v →
    (∃ i < c.defaultvalues.length, v = makeFieldIdx i ∧ fieldKey i = key) ∨
      ∃ i < c.methods.length, v = makeMethodIdx i ∧ methodKey i = key
  field : ∀ i < c.defaultvalues.length, fieldKey i ≠ .null ∧
    c.members.Holds (fieldKey i) (makeFieldIdx i)
  fieldInj : ∀ i < c.defaultvalues.length, ∀ j < c.defaultvalues.length,
    fieldKey i = fieldKey j → i = j
  method : ∀ i < c.methods.length, methodKey i ≠ .null ∧ ∃ v, c.members.Holds (methodKey i) v
  methodInj : ∀ i < c.methods.length, ∀ j < c.methods.length, methodKey i = methodKey j → i = j

/-- What the operations on classes keep. -/
def WellFormed (hash : SQObject → ℕ) (c : SQClass) : Prop :=
  ∃ fieldKey methodKey, Indexed hash c fieldKey methodKey

/-- Numbers that belong to different keys are not more than the keys. -/
theorem le_countUsed {t : SQTable} (wf : t.WellFormed hash) {n : ℕ} {keyOf : ℕ → SQObject}
    (held : ∀ i < n, keyOf i ∈ t.keys)
    (injective : ∀ i < n, ∀ j < n, keyOf i = keyOf j → i = j) : n ≤ t.countUsed := by
  rw [← wf.card_keys, ← Finset.card_range n]
  apply Finset.card_le_card_of_injOn keyOf
  · intro i mem
    exact held i (Finset.mem_range.1 mem)
  · intro i mem j mem' eq
    exact injective i (Finset.mem_range.1 mem) j (Finset.mem_range.1 mem') eq

theorem Indexed.fields_le (indexed : Indexed hash c fieldKey methodKey) :
    c.defaultvalues.length ≤ c.members.countUsed := by
  refine le_countUsed indexed.members (fun i lt => ?_) indexed.fieldInj
  obtain ⟨nonnull, holds⟩ := indexed.field i lt
  exact SQTable.mem_keys.2 ⟨nonnull, _, holds⟩

theorem Indexed.methods_le (indexed : Indexed hash c fieldKey methodKey) :
    c.methods.length ≤ c.members.countUsed :=
  le_countUsed indexed.members (fun i lt => SQTable.mem_keys.2 (indexed.method i lt))
    indexed.methodInj

/-- The member of a key is a field with its default value or a method with its entry. -/
theorem Indexed.get_cases (indexed : Indexed hash c fieldKey methodKey) {idx : SQObject}
    (found : c.members.get hash key = some idx) :
    key ≠ .null ∧
      ((∃ i < c.defaultvalues.length, isField idx = true ∧ memberIdx idx = i ∧ fieldKey i = key) ∨
        ∃ i < c.methods.length, isField idx = false ∧ memberIdx idx = i ∧ methodKey i = key) := by
  have nonnull : key ≠ .null := by
    rintro rfl
    rw [SQTable.get, if_pos rfl] at found
    cases found
  have count := indexed.count
  have fields := indexed.fields_le
  have methods := indexed.methods_le
  refine ⟨nonnull, ?_⟩
  rcases indexed.index key idx nonnull ((indexed.members.get_eq_some_iff nonnull).1 found) with
    ⟨i, lt, rfl, isKey⟩ | ⟨i, lt, rfl, isKey⟩
  · exact .inl ⟨i, lt, isField_makeFieldIdx i, memberIdx_makeFieldIdx (by omega), isKey⟩
  · exact .inr ⟨i, lt, isField_makeMethodIdx (by omega), memberIdx_makeMethodIdx (by omega), isKey⟩

/-! ## Writing a member -/

/-- The key names a field. -/
def IsField (hash : SQObject → ℕ) (c : SQClass) (key : SQObject) : Prop :=
  ∃ idx, c.members.get hash key = some idx ∧ isField idx = true

/-- `NewSlot` refuses the member: the class has instances and the member is to be a field, or there
are too many members. -/
def Refuses (hash : SQObject → ℕ) (c : SQClass) (key val : SQObject) (bstatic : Bool) : Prop :=
  (c.locked = true ∧ val.isFunction = false ∧ bstatic = false) ∨
    (¬ c.IsField hash key ∧ memberMaxCount ≤ c.members.countUsed)

/-- What `NewSlot` makes of a class when it stores the member. -/
inductive Written (hash : SQObject → ℕ) (c : SQClass) (key val : SQObject) : SQClass → Prop where
  | overridden {idx : SQObject} (found : c.members.get hash key = some idx)
      (field : isField idx = true) :
      Written hash c key val { c with
        defaultvalues := c.defaultvalues.set (memberIdx idx)
          { c.defaultValue (memberIdx idx) with val := val } }
  | metamethod (mm : SQMetaMethod) (function : val.isFunction = true) :
      Written hash c key val { c with metamethods := Function.update c.metamethods mm val }
  | entered (constructoridx : Option ℕ) (absent : c.members.get hash key = none)
      (room : c.members.countUsed < memberMaxCount) :
      Written hash c key val { c with
        constructoridx := constructoridx
        members := c.members.newSlot hash key (makeMethodIdx c.methods.length)
        methods := c.methods ++ [⟨val, .null⟩] }
  | replaced {idx : SQObject} (found : c.members.get hash key = some idx)
      (method : isField idx = false) :
      Written hash c key val { c with
        methods := c.methods.set (memberIdx idx) { c.method (memberIdx idx) with val := val } }
  | added (other : ¬ c.IsField hash key) (room : c.members.countUsed < memberMaxCount)
      (unlocked : c.locked = false) :
      Written hash c key val { c with
        members := c.members.newSlot hash key (makeFieldIdx c.defaultvalues.length)
        defaultvalues := c.defaultvalues ++ [⟨val, .null⟩] }

/-- A class with the same members, as many fields and as many methods. -/
theorem Indexed.congr (indexed : Indexed hash c fieldKey methodKey)
    (members : c'.members = c.members) (fields : c'.defaultvalues.length = c.defaultvalues.length)
    (methods : c'.methods.length = c.methods.length) : Indexed hash c' fieldKey methodKey := by
  refine ⟨?_, ?_, ?_, ?_, ?_, ?_, ?_⟩
  · rw [members]
    exact indexed.members
  · rw [members]
    exact indexed.count
  · rw [members, fields, methods]
    exact indexed.index
  · rw [members, fields]
    exact indexed.field
  · rw [fields]
    exact indexed.fieldInj
  · rw [members, methods]
    exact indexed.method
  · rw [methods]
    exact indexed.methodInj

theorem isField_iff {fieldKey methodKey : ℕ → SQObject}
    (indexed : Indexed hash c fieldKey methodKey) (nonnull : key ≠ .null) :
    c.IsField hash key ↔ ∃ i < c.defaultvalues.length, fieldKey i = key := by
  constructor
  · rintro ⟨idx, found, field⟩
    rcases (indexed.get_cases found).2 with ⟨i, lt, -, -, isKey⟩ | ⟨i, lt, method, -⟩
    · exact ⟨i, lt, isKey⟩
    · rw [field] at method
      cases method
  · rintro ⟨i, lt, rfl⟩
    exact ⟨_, (indexed.members.get_eq_some_iff nonnull).2 (indexed.field i lt).2,
      isField_makeFieldIdx i⟩

/-- A new member leaves room for the ones there may be. -/
theorem Indexed.count_newSlot (indexed : Indexed hash c fieldKey methodKey) (nonnull : key ≠ .null)
    (room : c.members.countUsed < memberMaxCount) (idx : SQObject) :
    (c.members.newSlot hash key idx).countUsed ≤ memberMaxCount := by
  obtain ⟨wf, put⟩ := indexed.members.newSlot nonnull idx
  rw [← wf.card_keys, put.keys_eq nonnull]
  have most := Finset.card_insert_le key c.members.keys
  rw [indexed.members.card_keys] at most
  omega

theorem Indexed.entered (indexed : Indexed hash c fieldKey methodKey) (nonnull : key ≠ .null)
    (absent : c.members.get hash key = none) (room : c.members.countUsed < memberMaxCount)
    (members : c'.members = c.members.newSlot hash key (makeMethodIdx c.methods.length))
    (fields : c'.defaultvalues.length = c.defaultvalues.length)
    (methods : c'.methods.length = c.methods.length + 1) :
    Indexed hash c' fieldKey (Function.update methodKey c.methods.length key) := by
  obtain ⟨wf, put⟩ := indexed.members.newSlot nonnull (makeMethodIdx c.methods.length)
  have none : ∀ v, ¬ c.members.Holds key v := by
    intro v holds
    rw [← indexed.members.get_eq_some_iff nonnull, absent] at holds
    cases holds
  have freshMethod : ∀ i < c.methods.length, methodKey i ≠ key := by
    rintro i lt rfl
    obtain ⟨-, v, holds⟩ := indexed.method i lt
    exact none v holds
  refine ⟨?_, ?_, ?_, ?_, ?_, ?_, ?_⟩
  · rw [members]
    exact wf
  · rw [members]
    exact indexed.count_newSlot nonnull room _
  · intro k v nonnull' holds
    rw [members, put k v nonnull'] at holds
    by_cases same : k = key
    · rw [if_pos same] at holds
      exact .inr ⟨c.methods.length, by omega, holds, by rw [Function.update_self, same]⟩
    · rw [if_neg same] at holds
      rcases indexed.index k v nonnull' holds with ⟨i, lt, eq, isKey⟩ | ⟨i, lt, eq, isKey⟩
      · exact .inl ⟨i, by omega, eq, isKey⟩
      · exact .inr ⟨i, by omega, eq, by rw [Function.update_of_ne (by omega), isKey]⟩
  · intro i lt
    obtain ⟨nonnull', holds⟩ := indexed.field i (by omega)
    refine ⟨nonnull', ?_⟩
    rw [members, put _ _ nonnull', if_neg (fun eq => none _ (eq ▸ holds))]
    exact holds
  · intro i lt j lt'
    exact indexed.fieldInj i (by omega) j (by omega)
  · intro i lt
    by_cases last : i = c.methods.length
    · subst last
      rw [Function.update_self, members]
      exact ⟨nonnull, _, (put key _ nonnull).2 (by rw [if_pos rfl])⟩
    · have lt' : i < c.methods.length := by omega
      rw [Function.update_of_ne last, members]
      obtain ⟨nonnull', v, holds⟩ := indexed.method i lt'
      exact ⟨nonnull', v, (put _ v nonnull').2 (by rw [if_neg (freshMethod i lt')]; exact holds)⟩
  · intro i lt j lt' eq
    by_cases last : i = c.methods.length <;> by_cases last' : j = c.methods.length
    · omega
    · rw [last, Function.update_self, Function.update_of_ne last'] at eq
      exact absurd eq.symm (freshMethod j (by omega))
    · rw [last', Function.update_self, Function.update_of_ne last] at eq
      exact absurd eq (freshMethod i (by omega))
    · rw [Function.update_of_ne last, Function.update_of_ne last'] at eq
      exact indexed.methodInj i (by omega) j (by omega) eq

theorem Indexed.added (indexed : Indexed hash c fieldKey methodKey) (nonnull : key ≠ .null)
    (other : ¬ c.IsField hash key) (room : c.members.countUsed < memberMaxCount)
    (members : c'.members = c.members.newSlot hash key (makeFieldIdx c.defaultvalues.length))
    (fields : c'.defaultvalues.length = c.defaultvalues.length + 1)
    (methods : c'.methods.length = c.methods.length) :
    Indexed hash c' (Function.update fieldKey c.defaultvalues.length key) methodKey := by
  obtain ⟨wf, put⟩ := indexed.members.newSlot nonnull (makeFieldIdx c.defaultvalues.length)
  have freshField : ∀ i < c.defaultvalues.length, fieldKey i ≠ key := fun i lt eq =>
    other ((isField_iff indexed nonnull).2 ⟨i, lt, eq⟩)
  refine ⟨?_, ?_, ?_, ?_, ?_, ?_, ?_⟩
  · rw [members]
    exact wf
  · rw [members]
    exact indexed.count_newSlot nonnull room _
  · intro k v nonnull' holds
    rw [members, put k v nonnull'] at holds
    by_cases same : k = key
    · rw [if_pos same] at holds
      exact .inl ⟨c.defaultvalues.length, by omega, holds, by rw [Function.update_self, same]⟩
    · rw [if_neg same] at holds
      rcases indexed.index k v nonnull' holds with ⟨i, lt, eq, isKey⟩ | ⟨i, lt, eq, isKey⟩
      · exact .inl ⟨i, by omega, eq, by rw [Function.update_of_ne (by omega), isKey]⟩
      · exact .inr ⟨i, by omega, eq, isKey⟩
  · intro i lt
    by_cases last : i = c.defaultvalues.length
    · subst last
      rw [Function.update_self, members]
      exact ⟨nonnull, (put key _ nonnull).2 (by rw [if_pos rfl])⟩
    · have lt' : i < c.defaultvalues.length := by omega
      rw [Function.update_of_ne last, members]
      obtain ⟨nonnull', holds⟩ := indexed.field i lt'
      exact ⟨nonnull', (put _ _ nonnull').2 (by rw [if_neg (freshField i lt')]; exact holds)⟩
  · intro i lt j lt' eq
    by_cases last : i = c.defaultvalues.length <;> by_cases last' : j = c.defaultvalues.length
    · omega
    · rw [last, Function.update_self, Function.update_of_ne last'] at eq
      exact absurd eq.symm (freshField j (by omega))
    · rw [last', Function.update_self, Function.update_of_ne last] at eq
      exact absurd eq (freshField i (by omega))
    · rw [Function.update_of_ne last, Function.update_of_ne last'] at eq
      exact indexed.fieldInj i (by omega) j (by omega) eq
  · intro i lt
    obtain ⟨nonnull', v, holds⟩ := indexed.method i (by omega)
    rw [members]
    refine ⟨nonnull', ?_⟩
    by_cases same : methodKey i = key
    · exact ⟨_, (put _ _ nonnull').2 (by rw [if_pos same])⟩
    · exact ⟨v, (put _ v nonnull').2 (by rw [if_neg same]; exact holds)⟩
  · intro i lt j lt'
    exact indexed.methodInj i (by omega) j (by omega)

/-- Writing a member keeps a class well formed, and a class with instances keeps its number of
fields. -/
theorem Written.wellFormed (written : Written hash c key val c') (wf : c.WellFormed hash)
    (nonnull : key ≠ .null) :
    c'.WellFormed hash ∧ c'.locked = c.locked ∧
      (c.locked = true → c'.defaultvalues.length = c.defaultvalues.length) := by
  obtain ⟨fieldKey, methodKey, indexed⟩ := wf
  cases written with
  | overridden found field =>
    exact ⟨⟨_, _, indexed.congr rfl List.length_set rfl⟩, rfl, fun _ => List.length_set⟩
  | metamethod mm function => exact ⟨⟨_, _, indexed.congr rfl rfl rfl⟩, rfl, fun _ => rfl⟩
  | entered constructoridx absent room =>
    exact ⟨⟨_, _, indexed.entered nonnull absent room rfl rfl List.length_append⟩, rfl,
      fun _ => rfl⟩
  | replaced found method =>
    exact ⟨⟨_, _, indexed.congr rfl rfl List.length_set⟩, rfl, fun _ => rfl⟩
  | added other room unlocked =>
    refine ⟨⟨_, _, indexed.added nonnull other room rfl List.length_append rfl⟩, rfl, ?_⟩
    intro locked
    rw [unlocked] at locked
    cases locked

/-- A member that has been written is found again. -/
theorem Written.found (written : Written hash c key val c') (wf : c.WellFormed hash)
    (nonnull : key ≠ .null) (plain : val.isFunction = false) :
    ∃ idx, c'.members.get hash key = some idx ∧
      (if isField idx then (c'.defaultValue (memberIdx idx)).val
        else (c'.method (memberIdx idx)).val) = val := by
  obtain ⟨fieldKey, methodKey, indexed⟩ := wf
  have count := indexed.count
  have fields := indexed.fields_le
  have methods := indexed.methods_le
  cases written with
  | @overridden idx found field =>
    refine ⟨idx, found, ?_⟩
    rw [if_pos field]
    rcases (indexed.get_cases found).2 with ⟨i, lt, -, eq, -⟩ | ⟨i, lt, method, -⟩
    · rw [eq]
      simp [defaultValue, lt]
    · rw [field] at method
      cases method
  | metamethod mm function =>
    rw [plain] at function
    cases function
  | entered constructoridx absent room =>
    obtain ⟨wf, put⟩ := indexed.members.newSlot nonnull (makeMethodIdx c.methods.length)
    have small : c.methods.length < memberMaxCount := by omega
    refine ⟨makeMethodIdx c.methods.length, ?_, ?_⟩
    · rw [wf.get_eq_some_iff nonnull, put key _ nonnull, if_pos rfl]
    · rw [isField_makeMethodIdx small, memberIdx_makeMethodIdx small]
      simp [SQClass.method]
  | @replaced idx found method =>
    refine ⟨idx, found, ?_⟩
    rw [method]
    rcases (indexed.get_cases found).2 with ⟨i, lt, field, -⟩ | ⟨i, lt, -, eq, -⟩
    · rw [method] at field
      cases field
    · rw [eq]
      simp [SQClass.method, lt]
  | added other room unlocked =>
    obtain ⟨wf, put⟩ := indexed.members.newSlot nonnull (makeFieldIdx c.defaultvalues.length)
    have small : c.defaultvalues.length < memberMaxCount := by omega
    refine ⟨makeFieldIdx c.defaultvalues.length, ?_, ?_⟩
    · rw [wf.get_eq_some_iff nonnull, put key _ nonnull, if_pos rfl]
    · rw [isField_makeFieldIdx, memberIdx_makeFieldIdx small]
      simp [defaultValue]

/-- A class without members. -/
theorem wellFormed_default (hash : SQObject → ℕ) : (default : SQClass).WellFormed hash := by
  have members : (default : SQClass).members.WellFormed hash := SQTable.wellFormed_create hash 0
  refine ⟨fun _ => .null, fun _ => .null, members, Nat.zero_le _, ?_, ?_, ?_, ?_, ?_⟩
  · intro k v nonnull holds
    exact absurd holds (SQTable.not_holds_allocNodes nonnull)
  all_goals exact fun i lt => absurd lt (Nat.not_lt_zero i)

/-- A derived class has the members of its base. -/
theorem WellFormed.derived (wf : c.WellFormed hash) (base : ℕ) :
    (SQClass.derived hash base c).WellFormed hash := by
  obtain ⟨fieldKey, methodKey, indexed⟩ := wf
  obtain ⟨members, same⟩ := indexed.members.clone
  have keys : (c.members.clone hash).keys = c.members.keys := by
    ext k
    rw [SQTable.mem_keys, SQTable.mem_keys]
    exact and_congr_right fun nonnull => exists_congr fun v => same k v nonnull
  refine ⟨fieldKey, methodKey, members, ?_, ?_, ?_, indexed.fieldInj, ?_, indexed.methodInj⟩
  · show (c.members.clone hash).countUsed ≤ _
    rw [← members.card_keys, keys, indexed.members.card_keys]
    exact indexed.count
  · intro k v nonnull holds
    exact indexed.index k v nonnull ((same k v nonnull).1 holds)
  · intro i lt
    obtain ⟨nonnull, holds⟩ := indexed.field i lt
    exact ⟨nonnull, (same _ _ nonnull).2 holds⟩
  · intro i lt
    obtain ⟨nonnull, v, holds⟩ := indexed.method i lt
    exact ⟨nonnull, v, (same _ _ nonnull).2 holds⟩

theorem WellFormed.congr (wf : c.WellFormed hash) (members : c'.members = c.members)
    (fields : c'.defaultvalues.length = c.defaultvalues.length)
    (methods : c'.methods.length = c.methods.length) : c'.WellFormed hash := by
  obtain ⟨fieldKey, methodKey, indexed⟩ := wf
  exact ⟨fieldKey, methodKey, indexed.congr members fields methods⟩

/-- Attributes are kept beside the values of the members. -/
theorem setAttributes_spec (hash : SQObject → ℕ) (c : SQClass) (key attrs : SQObject) :
    (c.setAttributes hash key attrs).members = c.members ∧
      (∀ i, ((c.setAttributes hash key attrs).defaultValue i).val = (c.defaultValue i).val) ∧
      ∀ i, ((c.setAttributes hash key attrs).method i).val = (c.method i).val := by
  have beside : ∀ (xs : List SQClassMember) (i j : ℕ),
      ((xs.set i { xs.getD i default with attrs := attrs }).getD j default).val =
        (xs.getD j default).val := by
    intro xs i j
    by_cases same : i = j
    · subst same
      by_cases inside : i < xs.length
      · simp [inside]
      · simp [List.set_eq_of_length_le (Nat.le_of_not_lt inside)]
    · simp [List.getElem?_set_ne same]
  unfold SQClass.setAttributes
  cases c.members.get hash key with
  | none => exact ⟨rfl, fun _ => rfl, fun _ => rfl⟩
  | some idx =>
    simp only
    split
    · exact ⟨rfl, fun _ => beside _ _ _, fun _ => rfl⟩
    · exact ⟨rfl, fun _ => rfl, fun _ => beside _ _ _⟩

end SQClass

namespace Heap

variable {h : Heap} {r : ℕ} {key val : SQObject} {bstatic : Bool}

theorem any_isField_iff {c : SQClass} :
    (c.members.get hash key).any isField = true ↔ c.IsField hash key := by
  unfold SQClass.IsField
  cases c.members.get hash key <;> simp

/-- The function stored for a member: classes and instances stay, and what is not a function is not
copied. -/
theorem memberFunction_spec (h : Heap) (base : Option ℕ) (val : SQObject) :
    (h.memberFunction base val).2.classes = h.classes ∧
      (h.memberFunction base val).2.instances = h.instances ∧
      (val.isFunction = false → h.memberFunction base val = (val, h)) := by
  unfold memberFunction
  split
  · exact ⟨rfl, rfl, fun function => by cases function⟩
  · exact ⟨rfl, rfl, fun _ => rfl⟩

/-- `SQClass::NewSlot` refuses the member or writes it, and the class only. -/
theorem classNewSlot_cases (hash : SQObject → ℕ) (h : Heap) (r : ℕ) (key val : SQObject)
    (bstatic : Bool) :
    ((h.classes.read r).Refuses hash key val bstatic ∧
      h.classNewSlot hash r key val bstatic = (false, h)) ∨
    (¬ (h.classes.read r).Refuses hash key val bstatic ∧
      (h.classNewSlot hash r key val bstatic).1 = true ∧
      ∃ theval c', (h.classes.read r).Written hash key theval c' ∧
        (h.classNewSlot hash r key val bstatic).2.classes = h.classes.write r c' ∧
        (h.classNewSlot hash r key val bstatic).2.instances = h.instances ∧
        (val.isFunction = false → theval = val ∧
          (h.classNewSlot hash r key val bstatic).2 = h.writeClass r c')) := by
  unfold classNewSlot
  generalize h.classes.read r = c
  simp only
  by_cases locked : (c.locked && !(val.isFunction || bstatic)) = true
  · rw [if_pos locked]
    refine .inl ⟨.inl ?_, rfl⟩
    simpa using locked
  rw [if_neg locked]
  have unlocked : ¬ (c.locked = true ∧ val.isFunction = false ∧ bstatic = false) := by
    simpa using locked
  by_cases field : (c.members.get hash key).any isField = true
  · rw [if_pos field]
    have isField_ := any_isField_iff.1 field
    obtain ⟨idx, found, isField'⟩ := isField_
    refine .inr ⟨?_, rfl, val, _, .overridden found isField', ?_, rfl, fun _ => ⟨rfl, ?_⟩⟩
    · rintro (refused | ⟨other, -⟩)
      · exact unlocked refused
      · exact other ⟨idx, found, isField'⟩
    · rw [found]
      rfl
    · rw [found]
      rfl
  rw [if_neg field]
  have other : ¬ c.IsField hash key := fun isField_ => field (any_isField_iff.2 isField_)
  by_cases full : memberMaxCount ≤ c.members.countUsed
  · rw [if_pos full]
    exact .inl ⟨.inr ⟨other, full⟩, rfl⟩
  rw [if_neg full]
  have accepted : ¬ c.Refuses hash key val bstatic := by
    rintro (refused | ⟨-, refused⟩)
    · exact unlocked refused
    · exact full refused
  have room : c.members.countUsed < memberMaxCount := by omega
  by_cases static : (val.isFunction || bstatic) = true
  · rw [if_pos static]
    split
    · -- a function under the name of a metamethod
      rename_i mm named
      have function : val.isFunction = true := by
        by_contra plain
        rw [if_neg plain] at named
        cases named
      refine .inr ⟨accepted, rfl, val, _, .metamethod mm function, rfl, rfl, fun plain => ?_⟩
      rw [function] at plain
      cases plain
    · obtain ⟨classes, instances, plain⟩ := memberFunction_spec h c.base val
      cases found : c.members.get hash key with
      | none =>
        refine .inr ⟨accepted, rfl, (h.memberFunction c.base val).1, _,
          .entered (if key = constructorKey then some c.methods.length else c.constructoridx) found
            room, ?_, instances, fun function => ?_⟩
        · show (h.memberFunction c.base val).2.classes.write r _ = _
          rw [classes]
        · simp only [plain function, and_self]
      | some idx =>
        have method : isField idx = false := by
          rw [Bool.eq_false_iff]
          exact fun isField' => other ⟨idx, found, isField'⟩
        refine .inr ⟨accepted, rfl, (h.memberFunction c.base val).1, _, .replaced found method, ?_,
          instances, fun function => ?_⟩
        · show (h.memberFunction c.base val).2.classes.write r _ = _
          rw [classes]
        · simp only [plain function, and_self]
  · rw [if_neg static]
    have free : c.locked = false := by
      rw [Bool.eq_false_iff]
      intro isLocked
      exact unlocked ⟨isLocked, by simpa using static⟩
    exact .inr ⟨accepted, rfl, val, _, .added other room free, rfl, rfl, fun _ => ⟨rfl, rfl⟩⟩

/-! ## Heaps -/

/-- The instance has a value for each field of its class, which gets no more of them. -/
def Fits (classes : Store SQClass) (n : SQInstance) : Prop :=
  n.cls < classes.next ∧ (classes.read n.cls).locked = true ∧
    n.values.length = (classes.read n.cls).defaultvalues.length

/-- What holds of the classes and instances of a heap. -/
structure ClassesOk (hash : SQObject → ℕ) (h : Heap) : Prop where
  classes : h.classes.All (SQClass.WellFormed hash)
  instances : h.instances.All (Fits h.classes)

/-- A change of classes that leaves those with instances their fields. -/
theorem ClassesOk.congr {h' : Heap} (ok : ClassesOk hash h)
    (next : h.classes.next ≤ h'.classes.next)
    (instances : h'.instances = h.instances)
    (classes : h'.classes.All (SQClass.WellFormed hash))
    (kept : ∀ r < h.classes.next, (h.classes.read r).locked = true →
      (h'.classes.read r).locked = true ∧ (h'.classes.read r).defaultvalues.length =
        (h.classes.read r).defaultvalues.length) : ClassesOk hash h' := by
  refine ⟨classes, ?_⟩
  rw [instances]
  intro i lt
  obtain ⟨made, locked, values⟩ := ok.instances i lt
  obtain ⟨locked', length⟩ := kept _ made locked
  exact ⟨made.trans_le next, locked', values.trans length.symm⟩

theorem ClassesOk.write {h' : Heap} {c' : SQClass} (ok : ClassesOk hash h)
    (classes : h'.classes = h.classes.write r c') (instances : h'.instances = h.instances)
    (wf : r < h.classes.next → c'.WellFormed hash)
    (kept : (h.classes.read r).locked = true → c'.locked = true ∧
      c'.defaultvalues.length = (h.classes.read r).defaultvalues.length) : ClassesOk hash h' := by
  refine ok.congr (by rw [classes]; exact le_rfl) instances ?_ fun q lt locked => ?_ <;>
    rw [classes]
  · exact ok.classes.write wf
  · by_cases same : q = r
    · subst same
      rw [Store.read_write_self]
      exact kept locked
    · rw [Store.read_write_of_ne _ _ same]
      exact ⟨locked, rfl⟩

/-- Locking classes does nothing else to them. -/
theorem lock_spec (fuel : ℕ) (h : Heap) (r : ℕ) :
    (lock fuel h r).instances = h.instances ∧ (lock fuel h r).classes.next = h.classes.next ∧
      ∀ q, ∃ flag, (lock fuel h r).classes.read q = { h.classes.read q with locked := flag } ∧
        ((h.classes.read q).locked = true → flag = true) := by
  induction fuel generalizing h r with
  | zero => exact ⟨rfl, rfl, fun q => ⟨_, rfl, id⟩⟩
  | succ fuel ih =>
    have first : ∀ q, ∃ flag, (h.writeClass r { h.classes.read r with locked := true }).classes.read
        q = { h.classes.read q with locked := flag } ∧
        ((h.classes.read q).locked = true → flag = true) := by
      intro q
      by_cases same : q = r
      · subst same
        exact ⟨true, Store.read_write_self _ _ _, fun _ => rfl⟩
      · exact ⟨_, Store.read_write_of_ne _ _ same, id⟩
    unfold lock
    simp only
    split
    · exact ⟨rfl, rfl, first⟩
    · rename_i b _
      obtain ⟨instances, next, later⟩ :=
        ih (h.writeClass r { h.classes.read r with locked := true }) b
      refine ⟨instances, next, fun q => ?_⟩
      obtain ⟨flag, eq, keeps⟩ := first q
      obtain ⟨flag', eq', keeps'⟩ := later q
      refine ⟨flag', by rw [eq', eq], fun locked => keeps' ?_⟩
      rw [eq]
      exact keeps locked

/-- The class itself is locked. -/
theorem lock_locked (fuel : ℕ) (h : Heap) (r : ℕ) :
    ((lock (fuel + 1) h r).classes.read r).locked = true := by
  have here : ((h.writeClass r { h.classes.read r with locked := true }).classes.read r).locked =
      true := by
    unfold writeClass
    rw [Store.read_write_self]
  unfold lock
  simp only
  split
  · exact here
  · rename_i b _
    obtain ⟨flag, eq, keeps⟩ := (lock_spec fuel _ b).2.2 r
    rw [eq]
    exact keeps here

/-- The classes and instances that the operations of the machine make. -/
inductive Reachable (hash : SQObject → ℕ) : Heap → Prop where
  | start {h : Heap} (classes : h.classes = .empty) (instances : h.instances = .empty) :
      Reachable hash h
  | newClass {h : Heap} {base : Option ℕ} (before : Reachable hash h)
      (made : ∀ b, base = some b → b < h.classes.next) : Reachable hash (h.newClass hash base).2
  | newSlot {h : Heap} {r : ℕ} {key : SQObject} (before : Reachable hash h)
      (made : r < h.classes.next) (nonnull : key ≠ .null) (val : SQObject) (bstatic : Bool) :
      Reachable hash (h.classNewSlot hash r key val bstatic).2
  | adjust {h : Heap} {r : ℕ} {c' : SQClass} (before : Reachable hash h)
      (members : c'.members = (h.classes.read r).members)
      (fields : c'.defaultvalues.length = (h.classes.read r).defaultvalues.length)
      (methods : c'.methods.length = (h.classes.read r).methods.length)
      (locked : c'.locked = (h.classes.read r).locked) : Reachable hash (h.writeClass r c')
  | createInstance {h : Heap} {r : ℕ} (before : Reachable hash h) (made : r < h.classes.next) :
      Reachable hash (h.createInstance r).2
  | cloneInstance {h : Heap} {i : ℕ} (before : Reachable hash h) (made : i < h.instances.next) :
      Reachable hash (h.cloneInstance i).2
  | instanceSet {h h' : Heap} {i : ℕ} {key val : SQObject} (before : Reachable hash h)
      (done : h.instanceSet hash i key val = some h') : Reachable hash h'
  | other {h h' : Heap} (before : Reachable hash h) (classes : h'.classes = h.classes)
      (instances : h'.instances = h.instances) : Reachable hash h'

theorem ClassesOk.newClass (ok : ClassesOk hash h) {base : Option ℕ}
    (made : ∀ b, base = some b → b < h.classes.next) : ClassesOk hash (h.newClass hash base).2 := by
  refine ok.congr (Nat.le_succ _) rfl (ok.classes.alloc ?_) fun q lt locked => ?_
  · cases base with
    | none => exact SQClass.wellFormed_default hash
    | some b => exact (ok.classes b (made b rfl)).derived b
  · have same : (h.newClass hash base).2.classes.read q = h.classes.read q :=
      Store.read_alloc_of_ne h.classes _ lt.ne
    rw [same]
    exact ⟨locked, rfl⟩

theorem ClassesOk.createInstance (ok : ClassesOk hash h) (made : r < h.classes.next) :
    ClassesOk hash (h.createInstance r).2 := by
  have prepared : ∃ h', (if (h.classes.read r).locked then h else lock (h.classes.next + 1) h r) =
      h' ∧ ClassesOk hash h' ∧ r < h'.classes.next ∧ (h'.classes.read r).locked = true := by
    by_cases locked : (h.classes.read r).locked = true
    · exact ⟨h, if_pos locked, ok, made, locked⟩
    · obtain ⟨instances, next, flags⟩ := lock_spec (h.classes.next + 1) h r
      refine ⟨_, if_neg locked, ok.congr next.ge instances (fun q lt => ?_)
        fun q _ isLocked => ?_, next.symm ▸ made, lock_locked _ h r⟩
      · obtain ⟨flag, eq, -⟩ := flags q
        rw [eq]
        exact (ok.classes q (next ▸ lt)).congr rfl rfl rfl
      · obtain ⟨flag, eq, keeps⟩ := flags q
        rw [eq]
        exact ⟨keeps isLocked, rfl⟩
  obtain ⟨h', eq, ok', made', locked'⟩ := prepared
  unfold Heap.createInstance
  simp only [eq]
  exact ⟨ok'.classes, ok'.instances.alloc ⟨made', locked', List.length_map _⟩⟩

theorem ClassesOk.cloneInstance {i : ℕ} (ok : ClassesOk hash h) (made : i < h.instances.next) :
    ClassesOk hash (h.cloneInstance i).2 :=
  ⟨ok.classes, ok.instances.alloc (ok.instances i made)⟩

/-- What a write to a field of an instance does. -/
theorem instanceSet_eq {h' : Heap} {i : ℕ} (done : h.instanceSet hash i key val = some h') :
    ∃ idx, (h.classes.read (h.instances.read i).cls).members.get hash key = some idx ∧
      isField idx = true ∧ h' = { h with instances := h.instances.write i { h.instances.read i with
        values := (h.instances.read i).values.set (memberIdx idx) val } } := by
  unfold Heap.instanceSet at done
  simp only at done
  split at done
  · rename_i idx found
    split at done
    · rename_i field
      exact ⟨idx, found, field, (Option.some.inj done).symm⟩
    · cases done
  · cases done

theorem ClassesOk.instanceSet {h' : Heap} {i : ℕ} (ok : ClassesOk hash h)
    (done : h.instanceSet hash i key val = some h') : ClassesOk hash h' := by
  obtain ⟨idx, -, -, rfl⟩ := instanceSet_eq done
  refine ⟨ok.classes, ok.instances.write fun made => ?_⟩
  obtain ⟨cls, locked, values⟩ := ok.instances i made
  exact ⟨cls, locked, List.length_set.trans values⟩

/-- Every reachable heap has well-formed classes, and instances with a value for each field. -/
theorem Reachable.ok (reachable : Reachable hash h) : ClassesOk hash h := by
  induction reachable with
  | start classes instances =>
    refine ⟨?_, ?_⟩
    · rw [classes]
      exact fun r lt => absurd lt (Nat.not_lt_zero r)
    · rw [instances]
      exact fun i lt => absurd lt (Nat.not_lt_zero i)
  | newClass before made ih => exact ih.newClass made
  | @newSlot h r key before made nonnull val bstatic ih =>
    rcases classNewSlot_cases hash h r key val bstatic with
      ⟨-, eq⟩ | ⟨-, -, theval, c', written, classes, instances, -⟩
    · rw [eq]
      exact ih
    · obtain ⟨wf, locked, kept⟩ := written.wellFormed (ih.classes r made) nonnull
      exact ih.write classes instances (fun _ => wf)
        fun isLocked => ⟨locked.trans isLocked, kept isLocked⟩
  | @adjust h r c' before members fields methods locked ih =>
    exact ih.write rfl rfl (fun made => (ih.classes r made).congr members fields methods)
      fun isLocked => ⟨locked.trans isLocked, fields⟩
  | createInstance before made ih => exact ih.createInstance made
  | cloneInstance before made ih => exact ih.cloneInstance made
  | instanceSet before done ih => exact ih.instanceSet done
  | other before classes instances ih =>
    refine ih.congr (by rw [classes]) instances ?_ fun q _ isLocked => ?_ <;> rw [classes]
    · exact ih.classes
    · exact ⟨isLocked, rfl⟩

/-- A member that is stored is found again. -/
theorem Reachable.classGet_stored (reachable : Reachable hash h) (made : r < h.classes.next)
    (nonnull : key ≠ .null) (plain : val.isFunction = false) (strong : val.isWeakRef = false)
    {bstatic : Bool} (accepted : ¬ (h.classes.read r).Refuses hash key val bstatic) :
    ∃ h', h.classNewSlot hash r key val bstatic = (true, h') ∧
      h'.classGet hash r key = some val := by
  obtain ⟨refused, -⟩ | ⟨-, stored, theval, c', written, -, -, exact_⟩ :=
    classNewSlot_cases hash h r key val bstatic
  · exact absurd refused accepted
  obtain ⟨rfl, heap⟩ := exact_ plain
  obtain ⟨idx, found, member⟩ := written.found (reachable.ok.classes r made) nonnull plain
  refine ⟨h.writeClass r c', Prod.ext stored heap, ?_⟩
  unfold classGet writeClass
  simp only [Store.read_write_self, found, Option.map_some]
  cases field : isField idx
  · rw [field] at member
    exact congrArg some member
  · rw [field] at member
    rw [if_pos rfl] at member ⊢
    rw [member, realval_of_strong _ strong]

/-! ## Fields of instances -/

/-- The class of an instance. -/
def classOf (h : Heap) (r : ℕ) : SQClass := h.classes.read (h.instances.read r).cls

/-- The value that an instance has in a field. -/
def fieldValue (hash : SQObject → ℕ) (h : Heap) (r : ℕ) (key : SQObject) : Option SQObject :=
  (((h.classOf r).members.get hash key).filter isField).map fun idx =>
    (h.instances.read r).values.getD (memberIdx idx) .null

/-- Exactly one field of one instance has changed. -/
structure FieldWritten (hash : SQObject → ℕ) (h h' : Heap) (r : ℕ) (key val : SQObject) : Prop where
  field : h'.fieldValue hash r key = some val
  fields : ∀ k, k ≠ key → h'.fieldValue hash r k = h.fieldValue hash r k
  only : ∃ values, h' = { h with
    instances := h.instances.write r { h.instances.read r with values := values } }

theorem instanceSet_eq_none_iff {i : ℕ} :
    h.instanceSet hash i key val = none ↔ ¬ (h.classOf i).IsField hash key := by
  unfold Heap.instanceSet SQClass.IsField classOf
  cases found : (h.classes.read (h.instances.read i).cls).members.get hash key with
  | none => simp [found]
  | some idx => cases field : isField idx <;> simp [found, field]

theorem not_isField_null (h : Heap) (i : ℕ) : ¬ (h.classOf i).IsField hash .null := by
  rintro ⟨idx, found, -⟩
  rw [SQTable.get, if_pos rfl] at found
  cases found

/-- A write to a field changes this field only. -/
theorem Reachable.instanceSet_field (reachable : Reachable hash h) {i : ℕ}
    (made : i < h.instances.next) (isKey : (h.classOf i).IsField hash key) (val : SQObject) :
    ∃ h', h.instanceSet hash i key val = some h' ∧ h.FieldWritten hash h' i key val := by
  obtain ⟨h', done⟩ := Option.ne_none_iff_exists'.1
    (fun none_ => instanceSet_eq_none_iff.1 none_ isKey : h.instanceSet hash i key val ≠ none)
  obtain ⟨idx, found, field, rfl⟩ := instanceSet_eq done
  obtain ⟨cls, -, values⟩ := reachable.ok.instances i made
  obtain ⟨fieldKey, methodKey, indexed⟩ := reachable.ok.classes _ cls
  have owner : ∀ {k idx' : SQObject},
      (h.classes.read (h.instances.read i).cls).members.get hash k = some idx' →
      isField idx' = true → memberIdx idx' < (h.instances.read i).values.length ∧
        fieldKey (memberIdx idx') = k := by
    intro k idx' found' field'
    obtain ⟨-, ⟨j, lt, -, rfl, isKey'⟩ | ⟨j, -, method, -⟩⟩ := indexed.get_cases found'
    · exact ⟨values ▸ lt, isKey'⟩
    · rw [field'] at method
      cases method
  refine ⟨_, done, ⟨?_, fun k ne => ?_, _, rfl⟩⟩
  · unfold fieldValue classOf
    simp only [Store.read_write_self, found, Option.filter_some, field, if_true, Option.map_some]
    rw [List.getD_eq_getElem?_getD, List.getElem?_set_self (owner found field).1]
    rfl
  · unfold fieldValue classOf
    simp only [Store.read_write_self]
    cases found' : (h.classes.read (h.instances.read i).cls).members.get hash k with
    | none => rfl
    | some idx' =>
      cases field' : isField idx'
      · simp only [Option.filter_some, field', Bool.false_eq_true, if_false, Option.map_none]
      · have apart : memberIdx idx ≠ memberIdx idx' := by
          intro same
          apply ne
          rw [← (owner found' field').2, ← same, (owner found field).2]
        simp only [Option.filter_some, field', if_true, Option.map_some,
          List.getD_eq_getElem?_getD, List.getElem?_set_ne apart]

end Heap

end Squirrels
