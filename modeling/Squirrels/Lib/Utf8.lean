import Mathlib.Data.List.Basic

/-!
# Lossy decoding of UTF-8

Bytes are read one at a time. A sequence that cannot be continued is replaced as a whole by U+FFFD,
and the byte that does not continue it is read again as the first one of the next sequence.
-/

namespace Utf8

/-- Where the decoder stands: between two characters, or inside a sequence that has the value `acc`
so far, owes a number of bytes and takes the next one from a range. -/
inductive State where
  | between
  | within (acc owed low high : ℕ)
deriving DecidableEq, Repr

/-- U+FFFD, the replacement character. -/
def replacement : Char := Char.ofNat 0xFFFD

/-- The first byte of a sequence. -/
def start (b : ℕ) : List Char × State :=
  if b ≤ 0x7F then ([Char.ofNat b], .between)
  else if b ≤ 0xC1 then ([replacement], .between)
  else if b ≤ 0xDF then ([], .within (b - 0xC0) 1 0x80 0xBF)
  else if b = 0xE0 then ([], .within 0 2 0xA0 0xBF)
  else if b = 0xED then ([], .within 0xD 2 0x80 0x9F)
  else if b ≤ 0xEF then ([], .within (b - 0xE0) 2 0x80 0xBF)
  else if b = 0xF0 then ([], .within 0 3 0x90 0xBF)
  else if b ≤ 0xF3 then ([], .within (b - 0xF0) 3 0x80 0xBF)
  else if b = 0xF4 then ([], .within 4 3 0x80 0x8F)
  else ([replacement], .between)

/-- The characters that a byte completes, and where the decoder stands after it. -/
def step : State → ℕ → List Char × State
  | .between, b => start b
  | .within acc owed low high, b =>
    if low ≤ b ∧ b ≤ high then
      if owed ≤ 1 then ([Char.ofNat (64 * acc + (b - 0x80))], .between)
      else ([], .within (64 * acc + (b - 0x80)) (owed - 1) 0x80 0xBF)
    else (replacement :: (start b).1, (start b).2)

/-- The characters of the rest of the bytes. -/
def run : State → List UInt8 → List Char
  | .between, [] => []
  | .within .., [] => [replacement]
  | q, b :: rest => (step q b.toNat).1 ++ run (step q b.toNat).2 rest

/-- The characters of a byte string. -/
def decodeLossy (bytes : List UInt8) : List Char := run .between bytes

/-- The bytes of a character string. -/
def encode (chars : List Char) : List UInt8 := chars.flatMap String.utf8EncodeChar

theorem run_cons (q : State) (b : UInt8) (rest : List UInt8) :
    run q (b :: rest) = (step q b.toNat).1 ++ run (step q b.toNat).2 rest := by
  cases q <;> rfl

/-- A byte that is owed. -/
theorem step_within {acc owed low high b : ℕ} (more : 1 < owed) (fits : low ≤ b ∧ b ≤ high) :
    step (.within acc owed low high) b =
      ([], .within (64 * acc + (b - 0x80)) (owed - 1) 0x80 0xBF) := by
  rw [step, if_pos fits, if_neg (by omega)]

/-- The last byte of a sequence. -/
theorem step_last {acc low high b : ℕ} (fits : low ≤ b ∧ b ≤ high) :
    step (.within acc 1 low high) b = ([Char.ofNat (64 * acc + (b - 0x80))], .between) := by
  rw [step, if_pos fits, if_pos (Nat.le_refl 1)]

theorem toNat_ofNat {n : ℕ} (small : n < 256) : (UInt8.ofNat n).toNat = n := by
  rw [UInt8.toNat_ofNat', Nat.mod_eq_of_lt small]

/-- The first of two bytes. -/
theorem start_two {v : ℕ} (above : 0x7F < v) (below : v ≤ 0x7FF) :
    start (v / 64 % 0x20 + 0xC0) = ([], .within (v / 64) 1 0x80 0xBF) := by
  have value : v / 64 % 0x20 + 0xC0 - 0xC0 = v / 64 := by omega
  rw [start, if_neg (by omega), if_neg (by omega), if_pos (by omega), value]

/-- The first of three bytes bounds the second one, so that nothing shorter and no surrogate is
encoded. -/
theorem start_three {v : ℕ} (above : 0x7FF < v) (below : v ≤ 0xFFFF)
    (valid : v < 0xD800 ∨ 0xDFFF < v) :
    ∃ low high, start (v / 4096 % 0x10 + 0xE0) = ([], .within (v / 4096) 2 low high) ∧
      low ≤ v / 64 % 0x40 + 0x80 ∧ v / 64 % 0x40 + 0x80 ≤ high := by
  have value : v / 4096 % 0x10 + 0xE0 - 0xE0 = v / 4096 := by omega
  rw [start, if_neg (by omega), if_neg (by omega), if_neg (by omega)]
  by_cases least : v / 4096 = 0
  · exact ⟨0xA0, 0xBF, by rw [if_pos (by omega), least], by omega, by omega⟩
  rw [if_neg (by omega)]
  by_cases surrogate : v / 4096 = 0xD
  · exact ⟨0x80, 0x9F, by rw [if_pos (by omega), surrogate], by omega, by omega⟩
  · exact ⟨0x80, 0xBF, by rw [if_neg (by omega), if_pos (by omega), value], by omega, by omega⟩

/-- The first of four bytes bounds the second one, so that the value stays below `0x110000`. -/
theorem start_four {v : ℕ} (above : 0xFFFF < v) (below : v < 0x110000) :
    ∃ low high, start (v / 262144 % 0x08 + 0xF0) = ([], .within (v / 262144) 3 low high) ∧
      low ≤ v / 4096 % 0x40 + 0x80 ∧ v / 4096 % 0x40 + 0x80 ≤ high := by
  have value : v / 262144 % 0x08 + 0xF0 - 0xF0 = v / 262144 := by omega
  rw [start, if_neg (by omega), if_neg (by omega), if_neg (by omega), if_neg (by omega),
    if_neg (by omega), if_neg (by omega)]
  by_cases least : v / 262144 = 0
  · exact ⟨0x90, 0xBF, by rw [if_pos (by omega), least], by omega, by omega⟩
  rw [if_neg (by omega)]
  by_cases most : v / 262144 = 4
  · exact ⟨0x80, 0x8F, by rw [if_neg (by omega), if_pos (by omega), most], by omega, by omega⟩
  · exact ⟨0x80, 0xBF, by rw [if_pos (by omega), value], by omega, by omega⟩

/-- The bytes of a character are decoded to it. -/
theorem run_encodeChar (c : Char) (rest : List UInt8) :
    run .between (String.utf8EncodeChar c ++ rest) = c :: run .between rest := by
  have back : ∀ n, n = c.val.toNat → Char.ofNat n = c := by
    rintro n rfl
    exact Char.ofNat_toNat c
  have valid : c.val.toNat < 0xD800 ∨ 0xDFFF < c.val.toNat ∧ c.val.toNat < 0x110000 := c.valid
  unfold String.utf8EncodeChar
  generalize c.val.toNat = v at back valid ⊢
  simp only
  split
  · rename_i one
    rw [List.cons_append, run_cons, toNat_ofNat (by omega), step, start, if_pos one, back v rfl]
    rfl
  split
  · rename_i many two
    rw [List.cons_append, run_cons, toNat_ofNat (by omega), step, start_two (by omega) two,
      List.cons_append, run_cons, toNat_ofNat (by omega), step_last (by omega), back _ (by omega)]
    rfl
  split
  · rename_i many three
    obtain ⟨low, high, first, fits⟩ := start_three (v := v) (by omega) three (by omega)
    rw [List.cons_append, run_cons, toNat_ofNat (by omega), step, first,
      List.cons_append, run_cons, toNat_ofNat (by omega), step_within (by omega) fits,
      List.cons_append, run_cons, toNat_ofNat (by omega), step_last (by omega), back _ (by omega)]
    rfl
  · obtain ⟨low, high, first, fits⟩ := start_four (v := v) (by omega) (by omega)
    rw [List.cons_append, run_cons, toNat_ofNat (by omega), step, first,
      List.cons_append, run_cons, toNat_ofNat (by omega), step_within (by omega) fits,
      List.cons_append, run_cons, toNat_ofNat (by omega), step_within (by omega) (by omega),
      List.cons_append, run_cons, toNat_ofNat (by omega), step_last (by omega), back _ (by omega)]
    rfl

/-- Text that is valid UTF-8 is decoded without loss. -/
theorem decodeLossy_encode (chars : List Char) : decodeLossy (encode chars) = chars := by
  induction chars with
  | nil => rfl
  | cons c chars ih =>
    unfold decodeLossy encode at *
    rw [List.flatMap_cons, run_encodeChar, ih]

/-! ## Texts with a NUL -/

/-- A state in which no sequence can be continued by a NUL. -/
def State.Bounded : State → Prop
  | .between => True
  | .within _ _ low _ => 0 < low

theorem start_bounded (b : ℕ) : (start b).2.Bounded := by
  unfold start
  repeat' split
  all_goals simp [State.Bounded]

theorem step_bounded (q : State) (b : ℕ) : (step q b).2.Bounded := by
  cases q with
  | between => exact start_bounded b
  | within acc owed low high =>
    show (if low ≤ b ∧ b ≤ high then _ else _ : List Char × State).2.Bounded
    split
    · split <;> simp [State.Bounded]
    · exact start_bounded b

/-- A NUL ends the sequence before it. -/
theorem run_append_nul {q : State} (bounded : q.Bounded) (bytes rest : List UInt8) :
    run q (bytes ++ 0 :: rest) = run q bytes ++ Char.ofNat 0 :: run .between rest := by
  induction bytes generalizing q with
  | nil =>
    cases q with
    | between => rfl
    | within acc owed low high =>
      have below : ¬ (low ≤ (0 : UInt8).toNat ∧ (0 : UInt8).toNat ≤ high) := fun fits =>
        absurd fits.1 (Nat.not_le.2 bounded)
      rw [List.nil_append, run_cons, step, if_neg below]
      rfl
  | cons b bytes ih =>
    rw [List.cons_append, run_cons, run_cons, ih (step_bounded q b.toNat), List.append_assoc]

/-- What is decoded up to a NUL is less than the whole text. -/
theorem decodeLossy_append_nul_ne (bytes rest : List UInt8) :
    decodeLossy (bytes ++ 0 :: rest) ≠ decodeLossy bytes := by
  unfold decodeLossy
  rw [run_append_nul (q := .between) trivial]
  exact fun same => List.cons_ne_nil _ _ (List.append_right_eq_self.1 same)

/-- A text is decoded without loss exactly when it is valid UTF-8. -/
theorem encode_decodeLossy_iff {bytes : List UInt8} :
    encode (decodeLossy bytes) = bytes ↔ ∃ chars, encode chars = bytes := by
  constructor
  · exact fun same => ⟨_, same⟩
  · rintro ⟨chars, rfl⟩
    rw [decodeLossy_encode]

end Utf8
