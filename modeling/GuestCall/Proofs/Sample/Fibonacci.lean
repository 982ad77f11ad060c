/-
# Fibonacci numbers in the guest

The numbers that the guest computes are the true ones up to the greatest number that fits, and stay there.
Their digits are counted by one loop and written by another one, from the right, so the second loop comes
to the left end of the buffer just when nothing of the number is left, and the buffer has the digits then
and nothing else. The list of numbers takes eight bytes for each; a list whose size would not be a word is
refused.

Key definitions: `Ceiling.number`, `digitCount`, `numbers`.
Key theorems: `runs_count`, `runs_countDigits`, `runs_writeDigits`, `runs_listNumbers`, `invoke_fib`,
`fibText_presents`, `all_presents`.
-/
import GuestCall.Proofs.Draft.Results
import GuestCall.Proofs.Json.Lines
import GuestCall.Sample.Fibonacci
import GuestCall.ScalarArray
import Mathlib.Data.Nat.Fib.Basic
import Mathlib.Data.Nat.Log

namespace GuestCall.Sample.Fibonacci

open Wasm Code Allocator

/-! ### Numbers -/

namespace Ceiling

/-- The greatest number. -/
def greatest : Ceiling → Nat
  | .signed => 0x7FFFFFFFFFFFFFFF
  | .unsigned => 0xFFFFFFFFFFFFFFFF

/-- The Fibonacci number of an index, or the greatest number where that is less. -/
def number (c : Ceiling) (i : Nat) : Nat := min (Nat.fib i) c.greatest

/-- A sum as the guest computes it: where it wraps around, it is the greatest number. -/
def sum (c : Ceiling) (x y : UInt64) : UInt64 :=
  match c with
  | .signed => if y.toInt64 ≤ (x + y).toInt64 then x + y else 0x7FFFFFFFFFFFFFFF
  | .unsigned => if y ≤ x + y then x + y else -1

theorem number_le (c : Ceiling) (i : Nat) : c.number i ≤ c.greatest := Nat.min_le_right ..

theorem greatest_lt (c : Ceiling) : c.greatest < 2 ^ 64 := by
  cases c <;> decide

theorem number_add_two (c : Ceiling) (i : Nat) :
    c.number (i + 2) = min (c.number i + c.number (i + 1)) c.greatest := by
  have hfib : Nat.fib (i + 2) = Nat.fib i + Nat.fib (i + 1) := Nat.fib_add_two
  unfold number
  rw [hfib]
  omega

theorem le_signed {x y : Nat} (hx : x < 2 ^ 63) (hy : y < 2 ^ 63) :
    (UInt64.ofNat y).toInt64 ≤ (UInt64.ofNat (x + y)).toInt64 ↔ x + y < 2 ^ 63 := by
  rw [Int64.le_iff_toInt_le, UInt64.toInt64_ofNat', UInt64.toInt64_ofNat', Int64.toInt_ofNat',
    Int64.toInt_ofNat', Int.bmod_def, Int.bmod_def]
  simp [Int64.size]
  omega

theorem le_unsigned {x y : Nat} (hx : x < 2 ^ 64) (hy : y < 2 ^ 64) :
    UInt64.ofNat y ≤ UInt64.ofNat (x + y) ↔ x + y < 2 ^ 64 := by
  rw [UInt64.le_iff_toNat_le, UInt64.toNat_ofNat', UInt64.toNat_ofNat']
  omega

/-- The sum of two numbers that follow each other is the next one. -/
theorem sum_number (c : Ceiling) (i : Nat) :
    c.sum (.ofNat (c.number i)) (.ofNat (c.number (i + 1))) = .ofNat (c.number (i + 2)) := by
  have hx := c.number_le i
  have hy := c.number_le (i + 1)
  rw [number_add_two]
  generalize c.number i = x at *
  generalize c.number (i + 1) = y at *
  cases c with
  | signed =>
    unfold sum
    dsimp only [greatest] at *
    have hle := le_signed (x := x) (y := y) (by omega) (by omega)
    simp only [← UInt64.ofNat_add, hle]
    split
    · rw [Nat.min_eq_left (by omega)]
    · rw [Nat.min_eq_right (by omega)]
      rfl
  | unsigned =>
    unfold sum
    dsimp only [greatest] at *
    have hle := le_unsigned (x := x) (y := y) (by omega) (by omega)
    simp only [← UInt64.ofNat_add, hle]
    split
    · rw [Nat.min_eq_left (by omega)]
    · rw [Nat.min_eq_right (by omega)]
      rfl

end Ceiling

section

variable {env : Env} {stack locals : List Val} {st : Store}

/-- A step moves one number on and puts the sum of both behind it. -/
theorem run_step {a b next : Nat} (c : Ceiling) {x y : UInt64} (ha : locals[a]? = some (.i64 x))
    (hb : locals[b]? = some (.i64 y)) (hnext : next < locals.length) (hna : next ≠ a)
    (hnb : next ≠ b) : runCode env (step a b next c) stack locals st =
      .next stack (((locals.set next (.i64 (c.sum x y))).set a (.i64 y)).set b (.i64 (c.sum x y)))
        st := by
  cases c <;> simp [step, ha, hb, hnext, hna.symm, hnb, Ceiling.constant, Ceiling.less, Ceiling.sum]

/-- **The loop comes to the number of the index**, and to the next one. -/
theorem runs_count (c : Ceiling) {n : Nat} (hn : n < 2 ^ 32) (hbudget : n < env.budget)
    (a b i next : Val) (more : List Val) : ∃ i' next',
      runCode env (count 3 1 2 4 c) [] (.i32 (.ofNat n) :: a :: b :: i :: next :: more) st =
        .next [] (.i32 (.ofNat n) :: .i64 (.ofNat (c.number n)) ::
          .i64 (.ofNat (c.number (n + 1))) :: i' :: next' :: more) st := by
  let Inv : Nat → List Val → Store → Prop := fun k locals s => s = st ∧ ∃ next',
    locals = .i32 (.ofNat n) :: .i64 (.ofNat (c.number k)) :: .i64 (.ofNat (c.number (k + 1))) ::
      .i32 (.ofNat k) :: next' :: more
  have hround : ∀ k locals s, k < n → Inv k locals s → ∃ locals' s',
      runCode env (step 1 2 4 c) [] locals s = .next [] locals' s' ∧
        locals'[3]? = some (.i32 (.ofNat k)) ∧
        Inv (k + 1) (locals'.set 3 (.i32 (.ofNat (k + 1)))) s' := by
    rintro k locals s hk ⟨rfl, next', rfl⟩
    refine ⟨_, s, run_step c rfl rfl (by simp) (by decide) (by decide), rfl, rfl, ?_⟩
    rw [c.sum_number k]
    exact ⟨_, rfl⟩
  have hstart : runCode env (count 3 1 2 4 c) []
      (.i32 (.ofNat n) :: a :: b :: i :: next :: more) st =
        runCode env (forEach 3 0 (step 1 2 4 c) ++ []) []
          (.i32 (.ofNat n) :: .i64 0 :: .i64 1 :: i :: next :: more) st := by
    rw [List.append_nil]
    simp [count]
  have hzero : Inv 0 (.i32 (.ofNat n) :: .i64 0 :: .i64 1 :: .i32 0 :: next :: more) st := by
    refine ⟨rfl, next, ?_⟩
    cases c <;> rfl
  have hloop : ∃ locals' st', runCode env (forEach 3 0 (step 1 2 4 c) ++ []) []
      (.i32 (.ofNat n) :: .i64 0 :: .i64 1 :: i :: next :: more) st =
        runCode env [] [] locals' st' ∧ Inv n locals' st' :=
    runs_forEach Inv hn hbudget
      (fun k locals s h => by obtain ⟨-, next', rfl⟩ := h; exact ⟨rfl, rfl⟩) hround hzero
  obtain ⟨locals', st', hrun, rfl, next', rfl⟩ := hloop
  exact ⟨_, next', hstart.trans hrun⟩

/-! ### Digits -/

/-- How many decimal digits a number has. -/
def digitCount (n : Nat) : Nat := Nat.log 10 n + 1

theorem digitCount_of_lt {n : Nat} (h : n < 10) : digitCount n = 1 := by
  unfold digitCount
  rw [Nat.log_of_lt h]

theorem digitCount_of_le {n : Nat} (h : 10 ≤ n) : digitCount n = digitCount (n / 10) + 1 := by
  unfold digitCount
  rw [Nat.log_of_one_lt_of_le (by decide) h]

theorem digitCount_le {n : Nat} (h : n < 2 ^ 64) : digitCount n ≤ 20 := by
  unfold digitCount
  have hlog : Nat.log 10 n < 20 := Nat.log_lt_of_lt_pow' (by decide) (Nat.lt_trans h (by decide))
  omega

/-- The text of a number has as many digits as are counted. -/
theorem length_digits (n : Nat) : (Json.digits n).length = digitCount n := by
  induction n using Nat.strongRecOn with
  | ind n ih =>
    simp only [Json.digits, List.length_map] at ih ⊢
    by_cases hlt : n < 10
    · rw [Nat.toDigits_of_lt_base hlt, digitCount_of_lt hlt]
      rfl
    · have hle := Nat.le_of_not_lt hlt
      have hless : n / 10 < n := Nat.div_lt_self (by omega) (by decide)
      rw [Nat.toDigits_of_base_le (by decide) hle, List.length_append, ih (n / 10) hless,
        digitCount_of_le hle]
      rfl

/-- The last digit of a number, and the others in front of it. Nothing is left of a number of one digit. -/
theorem digits_split (n : Nat) :
    Json.digits n = (Json.digits (n / 10)).take (digitCount n - 1) ++ [.ofNat (n % 10 + 48)] := by
  have hdigit : ∀ k < 10, (Nat.digitChar k).toNat.toUInt8 = .ofNat (k + 48) := by decide
  by_cases hlt : n < 10
  · rw [digitCount_of_lt hlt, Nat.mod_eq_of_lt hlt, ← hdigit n hlt, Json.digits, Nat.toDigits_of_lt_base hlt]
    rfl
  · have hle := Nat.le_of_not_lt hlt
    rw [digitCount_of_le hle, Nat.add_sub_cancel, ← length_digits, List.take_length,
      ← hdigit _ (Nat.mod_lt n (by decide)), Json.digits, Nat.toDigits_of_base_le (by decide) hle,
      List.map_append]
    rfl

/-- Taking a digit off a number goes back to the start of the loop if there is another one. -/
theorem run_nextDigit {x : Nat} (hx : x < 2 ^ 64) (v₀ v₁ v₂ v₃ v₄ : Val) (more : List Val) :
    runCode env nextDigit [] (v₀ :: v₁ :: v₂ :: v₃ :: v₄ :: .i64 (.ofNat x) :: more) st =
      if x < 10 then .next [] (v₀ :: v₁ :: v₂ :: v₃ :: v₄ :: .i64 0 :: more) st
      else .branch 0 [] (v₀ :: v₁ :: v₂ :: v₃ :: v₄ :: .i64 (.ofNat (x / 10)) :: more) st := by
  have hdiv : UInt64.ofNat x / 10 = .ofNat (x / 10) := by
    rw [← UInt64.toNat_inj, UInt64.toNat_div, UInt64.toNat_ofNat_of_lt' (by simpa using hx),
      UInt64.toNat_ofNat_of_lt' (by unfold UInt64.size; omega)]
    rfl
  have hzero : UInt64.ofNat (x / 10) = 0 ↔ x < 10 := by
    rw [← UInt64.toNat_inj, UInt64.toNat_ofNat_of_lt' (by unfold UInt64.size; omega)]
    simp
  by_cases hlt : x < 10
  · rw [if_pos hlt]
    simp [nextDigit, hdiv, hzero.mpr hlt]
  · rw [if_neg hlt]
    simp [nextDigit, hdiv, mt hzero.mp hlt]

/-- A loop that takes one digit after the other off a number, with something done before each, as long as
that keeps an invariant of the count of digits and of the number that are left. -/
theorem runs_digits {code : List Instr} (Inv : Nat → Nat → Val → Val → Val → Store → Prop)
    (hbudget : 20 < env.budget) {n : Nat} (hn : n < 2 ^ 64) (v₀ v₁ v₂ v₃ v₄ : Val)
    (hround : ∀ x w₆ w₇ w₈ s, x < 2 ^ 64 → Inv (digitCount x) x w₆ w₇ w₈ s → ∃ w₆' w₇' w₈' s',
      runCode env code [] [v₀, v₁, v₂, v₃, v₄, .i64 (.ofNat x), w₆, w₇, w₈] s =
        .next [] [v₀, v₁, v₂, v₃, v₄, .i64 (.ofNat x), w₆', w₇', w₈'] s' ∧
      Inv (digitCount x - 1) (x / 10) w₆' w₇' w₈' s')
    {w₆ w₇ w₈ : Val} (hstart : Inv (digitCount n) n w₆ w₇ w₈ st) : ∃ w₆' w₇' w₈' st',
      (Instr.loop .empty (code ++ nextDigit)).run env []
        [v₀, v₁, v₂, v₃, v₄, .i64 (.ofNat n), w₆, w₇, w₈] st =
          .next [] [v₀, v₁, v₂, v₃, v₄, .i64 0, w₆', w₇', w₈'] st' ∧
      Inv 0 0 w₆' w₇' w₈' st' := by
  have hends : ∃ w₆' w₇' w₈' st', iterate 0 (runCode env (code ++ nextDigit)) env.budget []
      [v₀, v₁, v₂, v₃, v₄, .i64 (.ofNat n), w₆, w₇, w₈] st =
        .next [] [v₀, v₁, v₂, v₃, v₄, .i64 0, w₆', w₇', w₈'] st' ∧ Inv 0 0 w₆' w₇' w₈' st' := by
    refine iterate_ends (fun k locals s => ∃ x w₆ w₇ w₈, k = digitCount x ∧ x < 2 ^ 64 ∧
        locals = [v₀, v₁, v₂, v₃, v₄, .i64 (.ofNat x), w₆, w₇, w₈] ∧ Inv k x w₆ w₇ w₈ s)
      (fun o => ∃ w₆' w₇' w₈' st', o = .next [] [v₀, v₁, v₂, v₃, v₄, .i64 0, w₆', w₇', w₈'] st' ∧
        Inv 0 0 w₆' w₇' w₈' st')
      ?_ (Nat.lt_of_le_of_lt (digitCount_le hn) hbudget) ⟨n, w₆, w₇, w₈, rfl, hn, rfl, hstart⟩
    rintro k locals s ⟨x, w₆, w₇, w₈, rfl, hx, rfl, hinv⟩
    obtain ⟨w₆', w₇', w₈', s', hrun, hinv'⟩ := hround x w₆ w₇ w₈ s hx hinv
    rw [runCode_append, hrun, resume_next, run_nextDigit hx]
    by_cases hlt : x < 10
    · right
      rw [digitCount_of_lt hlt, Nat.div_eq_of_lt hlt] at hinv'
      rw [if_pos hlt]
      exact ⟨fun _ _ _ h => (nomatch h), w₆', w₇', w₈', s', rfl, hinv'⟩
    · left
      have hcount := digitCount_of_le (Nat.le_of_not_lt hlt)
      rw [hcount, Nat.add_sub_cancel] at hinv'
      rw [if_neg hlt]
      exact ⟨_, _, s', rfl, by omega, x / 10, w₆', w₇', w₈', rfl, by omega, rfl, hinv'⟩
  obtain ⟨w₆', w₇', w₈', st', hiterate, hinv⟩ := hends
  refine ⟨w₆', w₇', w₈', st', ?_, hinv⟩
  rw [run_loop, hiterate, leave_next, List.nil_append]

/-- The code of the first loop. -/
def countDigits : List Instr :=
  [val 1, put 5, .loop .empty ([val 6, word 1, add, put 6] ++ nextDigit), val 6]

/-- **The first loop counts the digits** of a number. -/
theorem runs_countDigits (st : Store) (hbudget : 20 < env.budget) {x : Nat} (hx : x < 2 ^ 64)
    (v₀ v₂ v₃ v₄ v₇ v₈ : Val) :
    runCode env countDigits [] [v₀, .i64 (.ofNat x), v₂, v₃, v₄, .i64 0, .i32 0, v₇, v₈] st =
        .next [.i32 (.ofNat (digitCount x))] [v₀, .i64 (.ofNat x), v₂, v₃, v₄, .i64 0,
          .i32 (.ofNat (digitCount x)), v₇, v₈] st := by
  let Inv : Nat → Nat → Val → Val → Val → Store → Prop := fun k _ w₆ w₇ w₈ s =>
    k ≤ digitCount x ∧ w₆ = .i32 (.ofNat (digitCount x - k)) ∧ w₇ = v₇ ∧ w₈ = v₈ ∧ s = st
  have hround : ∀ z w₆ w₇ w₈ s, z < 2 ^ 64 → Inv (digitCount z) z w₆ w₇ w₈ s → ∃ w₆' w₇' w₈' s',
      runCode env [val 6, word 1, add, put 6] []
        [v₀, .i64 (.ofNat x), v₂, v₃, v₄, .i64 (.ofNat z), w₆, w₇, w₈] s =
        .next [] [v₀, .i64 (.ofNat x), v₂, v₃, v₄, .i64 (.ofNat z), w₆', w₇', w₈'] s' ∧
      Inv (digitCount z - 1) (z / 10) w₆' w₇' w₈' s' := by
    rintro z w₆ w₇ w₈ s - ⟨hle, rfl, rfl, rfl, rfl⟩
    have hpos : 0 < digitCount z := Nat.succ_pos _
    have hnext : UInt32.ofNat (digitCount x - digitCount z) + 1 =
        .ofNat (digitCount x - (digitCount z - 1)) := by
      rw [show digitCount x - (digitCount z - 1) = digitCount x - digitCount z + 1 by omega,
        UInt32.ofNat_add]
      rfl
    refine ⟨.i32 (.ofNat (digitCount x - (digitCount z - 1))), _, _, s, ?_, by omega, rfl, rfl, rfl, rfl⟩
    simp [hnext]
  have hstart : Inv (digitCount x) x (.i32 0) v₇ v₈ st := by
    refine ⟨Nat.le_refl _, ?_, rfl, rfl, rfl⟩
    rw [Nat.sub_self]
    rfl
  obtain ⟨w₆, w₇, w₈, st', hrun, -, rfl, rfl, rfl, rfl⟩ :=
    runs_digits Inv hbudget hx v₀ (.i64 (.ofNat x)) v₂ v₃ v₄ hround hstart
  unfold countDigits
  generalize Instr.loop .empty ([val 6, word 1, add, put 6] ++ nextDigit) = loop at hrun ⊢
  simp [hrun]

/-- The byte that the second loop writes for a number. -/
theorem digit_byte {z : Nat} (hz : z < 2 ^ 64) :
    ((UInt64.ofNat z % 10).toUInt32 + 48).toUInt8 = .ofNat (z % 10 + 48) := by
  have hdigit : (UInt64.ofNat z % 10).toNat = z % 10 := by
    rw [UInt64.toNat_mod, UInt64.toNat_ofNat_of_lt' hz]
    rfl
  have hcode : (48 : UInt32).toNat = 48 := rfl
  rw [← UInt8.toNat_inj, UInt32.toNat_toUInt8, UInt32.toNat_add, UInt64.toNat_toUInt32, hdigit, hcode,
    UInt8.toNat_ofNat']
  omega

/-- What the second loop does for a digit. -/
def writeDigit : List Instr :=
  [val 8, word 1, sub, put 8] ++ elementAt 7 8 0 ++
    [val 5, long 10, num .i64RemU, num .i32WrapI64, word 0x30, add, store .i32Byte 0 0]

/-- The code of the second loop. -/
def writeDigits : List Instr :=
  [val 6, put 8, val 1, put 5, .loop .empty (writeDigit ++ nextDigit)]

/-- The last digit of the number that is left comes in front of what is written. -/
theorem run_writeDigit {z target : Nat} (hz : z < 2 ^ 64) (hst : st.memory.IsGuest) {written : List UInt8}
    (hroom : target + digitCount z + written.length ≤ st.memory.size) (v₀ v₁ v₂ v₃ v₄ w₆ : Val) :
    runCode env writeDigit [] [v₀, v₁, v₂, v₃, v₄, .i64 (.ofNat z), w₆, .i32 (.ofNat target),
      .i32 (.ofNat (digitCount z))] (st.write (target + digitCount z) written.toByteArray) =
        .next [] [v₀, v₁, v₂, v₃, v₄, .i64 (.ofNat z), w₆, .i32 (.ofNat target),
          .i32 (.ofNat (digitCount z - 1))] (st.write (target + (digitCount z - 1))
            ([UInt8.ofNat (z % 10 + 48)] ++ written).toByteArray) := by
  have hpos : 0 < digitCount z := Nat.succ_pos _
  have hbound := hst.bounds.2
  have hbefore : UInt32.ofNat (digitCount z) - 1 = .ofNat (digitCount z - 1) :=
    (UInt32.ofNat_sub hpos).symm
  have hwrite : (UInt32.ofNat target + .ofNat (digitCount z - 1)).toNat = target + (digitCount z - 1) := by
    rw [← UInt32.ofNat_add, toNat_ofNat_heap (by omega)]
  have hwriteIn : target + (digitCount z - 1) + 1 ≤ st.memory.size := by omega
  have hprepend := st.write_prepend (target + (digitCount z - 1)) [.ofNat (z % 10 + 48)] written (by
    rw [List.length_singleton]
    omega)
  rw [List.length_singleton, show target + (digitCount z - 1) + 1 = target + digitCount z by omega]
    at hprepend
  rw [← hprepend]
  simp [writeDigit, elementAt, hbefore, hwrite, hwriteIn, digit_byte hz, -UInt32.toNat_ofNat',
    -UInt32.toNat_add, -UInt32.toUInt8_add, -UInt64.toUInt8_toUInt32]

/-- **The second loop writes the digits**, the last one first. -/
theorem runs_writeDigits (hbudget : 20 < env.budget) {x target : Nat} (hx : x < 2 ^ 64)
    (hst : st.memory.IsGuest) (htarget : target + digitCount x ≤ st.memory.size)
    (v₀ v₂ v₃ v₄ v₅ v₈ : Val) : ∃ w₈,
    runCode env writeDigits []
      [v₀, .i64 (.ofNat x), v₂, v₃, v₄, v₅, .i32 (.ofNat (digitCount x)), .i32 (.ofNat target), v₈] st =
        .next [] [v₀, .i64 (.ofNat x), v₂, v₃, v₄, .i64 0, .i32 (.ofNat (digitCount x)),
          .i32 (.ofNat target), w₈] (st.write target (Json.digits x).toByteArray) := by
  -- what is written is the end of the text, and the number that is left is its start
  let Inv : Nat → Nat → Val → Val → Val → Store → Prop := fun k z w₆ w₇ w₈ s =>
    w₆ = .i32 (.ofNat (digitCount x)) ∧ w₇ = .i32 (.ofNat target) ∧ w₈ = .i32 (.ofNat k) ∧
      ∃ written, Json.digits x = (Json.digits z).take k ++ written ∧
        s = st.write (target + k) written.toByteArray
  have hround : ∀ z w₆ w₇ w₈ s, z < 2 ^ 64 → Inv (digitCount z) z w₆ w₇ w₈ s → ∃ w₆' w₇' w₈' s',
      runCode env writeDigit [] [v₀, .i64 (.ofNat x), v₂, v₃, v₄, .i64 (.ofNat z), w₆, w₇, w₈] s =
        .next [] [v₀, .i64 (.ofNat x), v₂, v₃, v₄, .i64 (.ofNat z), w₆', w₇', w₈'] s' ∧
      Inv (digitCount z - 1) (z / 10) w₆' w₇' w₈' s' := by
    rintro z w₆ w₇ w₈ s hz ⟨rfl, rfl, rfl, written, hwritten, rfl⟩
    have hlength : digitCount z + written.length = digitCount x := by
      rw [← length_digits x, hwritten, List.length_append, ← length_digits z, List.take_length]
    refine ⟨_, _, _, _, run_writeDigit hz hst (by omega) .., rfl, rfl, rfl, _, ?_, rfl⟩
    rw [hwritten, ← length_digits z, List.take_length, length_digits, ← List.append_assoc, ← digits_split]
  have hstart : Inv (digitCount x) x (.i32 (.ofNat (digitCount x))) (.i32 (.ofNat target))
      (.i32 (.ofNat (digitCount x))) st := by
    refine ⟨rfl, rfl, rfl, [], ?_, (Store.write_nil ..).symm⟩
    rw [← length_digits, List.take_length, List.append_nil]
  obtain ⟨w₆, w₇, w₈, st', hrun, rfl, rfl, rfl, written, hwritten, rfl⟩ :=
    runs_digits Inv hbudget hx v₀ (.i64 (.ofNat x)) v₂ v₃ v₄ hround hstart
  rw [List.take_zero, List.nil_append] at hwritten
  rw [hwritten]
  unfold writeDigits
  generalize Instr.loop .empty (writeDigit ++ nextDigit) = loop at hrun ⊢
  refine ⟨.i32 0, ?_⟩
  simp [hrun]

/-! ### Lists -/

/-- The numbers from the first one on. -/
def numbers (n : Nat) : List Int64 := (List.range n).map fun i => .ofNat (Ceiling.signed.number (i + 1))

@[simp] theorem length_numbers (n : Nat) : (numbers n).length = n := by
  rw [numbers, List.length_map, List.length_range]

theorem number_of_getElem? {n i : Nat} {x : Int64} (h : (numbers n)[i]? = some x) :
    x = .ofNat (Ceiling.signed.number (i + 1)) := by
  obtain ⟨hi, rfl⟩ := List.getElem?_eq_some_iff.mp h
  simp only [numbers, List.getElem_map, List.getElem_range]

/-- The numbers as they stand in a buffer. -/
def numberBytes (n : Nat) : List UInt8 :=
  (ScalarArray.ofElements .i64 (numbers n)).items.flatMap LittleEndian.encode

theorem numberBytes_succ (n : Nat) : numberBytes (n + 1) =
    numberBytes n ++ LittleEndian.put64 (.ofNat (Ceiling.signed.number (n + 1))) := by
  unfold numberBytes numbers ScalarArray.ofElements
  simp only [List.range_succ, List.map_append, List.flatMap_append]
  rfl

theorem length_numberBytes (n : Nat) : (numberBytes n).length = n * 8 := by
  induction n with
  | zero => rfl
  | succ n ih =>
    rw [numberBytes_succ, List.length_append, ih, Nat.add_mul]
    rfl

/-- The size of so many numbers is a shift of their count. -/
theorem shiftLeft_three (n : Nat) : UInt32.ofNat n <<< 3 = .ofNat (n * 8) := by
  have hthree : (3 : UInt32).toNat % 32 = 3 := rfl
  rw [← UInt32.toNat_inj, UInt32.toNat_shiftLeft, UInt32.toNat_ofNat', UInt32.toNat_ofNat', hthree,
    Nat.shiftLeft_eq]
  omega

/-- The code in front, which leaves the size of the buffer unless that is no word. -/
def checkCount : List Instr :=
  [val 0, word 0x1FFFFFFF, num .i32GtU, returnZeroIf, val 0, word 3, num .i32Shl]

/-- A count whose size is no word makes the export return no buffer, and any other one leaves its size. -/
theorem run_checkCount {n : Nat} (hn : n < 2 ^ 32) (locals : List Val) :
    runCode env checkCount [] (.i32 (.ofNat n) :: locals) st =
      if 0x1FFFFFFF < n then .ret [.i32 0] st
      else .next [.i32 (.ofNat (n * 8))] (.i32 (.ofNat n) :: locals) st := by
  have hword : (UInt32.ofNat n).toNat = n := UInt32.toNat_ofNat_of_lt' hn
  have hlarge : 0x1FFFFFFF < UInt32.ofNat n ↔ 0x1FFFFFFF < n := by
    rw [UInt32.lt_iff_toNat_lt, hword]
    rfl
  by_cases hlt : 0x1FFFFFFF < n
  · rw [if_pos hlt]
    simp [checkCount, hlarge.mpr hlt]
  · rw [if_neg hlt]
    simp [checkCount, UInt32.not_lt.mp (mt hlarge.mp hlt), shiftLeft_three, -UInt32.ofNat_mul]

/-- What the loop does for a number. -/
def listNumber : List Instr := elementAt 1 4 3 ++ [val 3, store .i64 0 3] ++ step 2 3 5 .signed

/-- The code that fills the buffer. -/
def listNumbers : List Instr := [long 0, put 2, long 1, put 3] ++ forEach 4 0 listNumber

/-- The next number comes behind what is in the buffer, and the pair of numbers moves on. -/
theorem run_listNumber {target k : Nat} (hst : st.memory.IsGuest)
    (hroom : target + k * 8 + 8 ≤ st.memory.size) (v₀ next : Val) :
    runCode env listNumber [] [v₀, .i32 (.ofNat target), .i64 (.ofNat (Ceiling.signed.number k)),
      .i64 (.ofNat (Ceiling.signed.number (k + 1))), .i32 (.ofNat k), next]
      (st.write target (numberBytes k).toByteArray) =
        .next [] [v₀, .i32 (.ofNat target), .i64 (.ofNat (Ceiling.signed.number (k + 1))),
          .i64 (.ofNat (Ceiling.signed.number (k + 2))), .i32 (.ofNat k),
          .i64 (.ofNat (Ceiling.signed.number (k + 2)))]
          (st.write target (numberBytes (k + 1)).toByteArray) := by
  have hbound := hst.bounds.2
  obtain ⟨a, ha⟩ : ∃ a, a = UInt64.ofNat (Ceiling.signed.number k) := ⟨_, rfl⟩
  obtain ⟨b, hb⟩ : ∃ b, b = UInt64.ofNat (Ceiling.signed.number (k + 1)) := ⟨_, rfl⟩
  have hsum : Ceiling.signed.sum a b = .ofNat (Ceiling.signed.number (k + 2)) := by
    rw [ha, hb]
    exact Ceiling.sum_number .signed k
  have hwrite : (UInt32.ofNat target + .ofNat (k * 8)).toNat = target + k * 8 := by
    rw [← UInt32.ofNat_add, toNat_ofNat_heap (by omega)]
  have hput : runCode env (elementAt 1 4 3 ++ [val 3, store .i64 0 3]) []
      [v₀, .i32 (.ofNat target), .i64 a, .i64 b, .i32 (.ofNat k), next]
      (st.write target (numberBytes k).toByteArray) =
        .next [] [v₀, .i32 (.ofNat target), .i64 a, .i64 b, .i32 (.ofNat k), next]
          ((st.write target (numberBytes k).toByteArray).write (target + k * 8)
            (LittleEndian.put64 b).toByteArray) := by
    simp [elementAt, shiftLeft_three, hwrite, hroom, -UInt32.toNat_ofNat', -UInt32.toNat_add,
      -UInt32.ofNat_mul]
  have happend := st.write_append target (numberBytes k) (LittleEndian.put64 b)
    (by rw [length_numberBytes]; exact hroom)
  rw [length_numberBytes, hb, ← numberBytes_succ, ← hb] at happend
  have hstep : runCode env (step 2 3 5 .signed) []
      [v₀, .i32 (.ofNat target), .i64 a, .i64 b, .i32 (.ofNat k), next]
      (st.write target (numberBytes (k + 1)).toByteArray) = _ :=
    run_step .signed rfl rfl (by simp) (by decide) (by decide)
  rw [hsum] at hstep
  rw [listNumber, ← ha, ← hb, runCode_append, hput, resume_next, happend]
  exact hstep

/-- **One number after the other is put into the buffer.** -/
theorem runs_listNumbers {target n : Nat} (hn : n < 2 ^ 29) (hbudget : n < env.budget)
    (hst : st.memory.IsGuest) (htarget : target + n * 8 ≤ st.memory.size) (a b i next : Val) :
    ∃ a' b' i' next',
      runCode env listNumbers [] [.i32 (.ofNat n), .i32 (.ofNat target), a, b, i, next] st =
        .next [] [.i32 (.ofNat n), .i32 (.ofNat target), a', b', i', next']
          (st.write target (numberBytes n).toByteArray) := by
  let Inv : Nat → List Val → Store → Prop := fun k locals s =>
    s = st.write target (numberBytes k).toByteArray ∧ ∃ next', locals = [.i32 (.ofNat n),
      .i32 (.ofNat target), .i64 (.ofNat (Ceiling.signed.number k)),
      .i64 (.ofNat (Ceiling.signed.number (k + 1))), .i32 (.ofNat k), next']
  have hround : ∀ k locals s, k < n → Inv k locals s → ∃ locals' s',
      runCode env listNumber [] locals s = .next [] locals' s' ∧
        locals'[4]? = some (.i32 (.ofNat k)) ∧
        Inv (k + 1) (locals'.set 4 (.i32 (.ofNat (k + 1)))) s' := by
    rintro k locals s hk ⟨rfl, next', rfl⟩
    exact ⟨_, _, run_listNumber hst (by omega) .., rfl, rfl, _, rfl⟩
  have hstart : Inv 0 [.i32 (.ofNat n), .i32 (.ofNat target), .i64 0, .i64 1, .i32 0, next] st :=
    ⟨(st.write_nil target).symm, next, rfl⟩
  have hloop : ∃ locals' st', runCode env (forEach 4 0 listNumber ++ []) []
      [.i32 (.ofNat n), .i32 (.ofNat target), .i64 0, .i64 1, i, next] st =
        runCode env [] [] locals' st' ∧ Inv n locals' st' :=
    runs_forEach Inv (by omega) hbudget
      (fun k locals s h => by obtain ⟨-, next', rfl⟩ := h; exact ⟨rfl, rfl⟩) hround hstart
  obtain ⟨locals', st', hrun, rfl, next', rfl⟩ := hloop
  rw [List.append_nil, runCode_nil] at hrun
  have hsetup : ∀ rest, runCode env ([long 0, put 2, long 1, put 3] ++ rest) []
      [.i32 (.ofNat n), .i32 (.ofNat target), a, b, i, next] st =
        runCode env rest [] [.i32 (.ofNat n), .i32 (.ofNat target), .i64 0, .i64 1, i, next] st :=
    fun rest => by simp
  exact ⟨_, _, _, next', (hsetup _).trans hrun⟩

end

/-! ### The exports -/

section

variable {d : Draft} {m : GuestModule} {memory : Memory} {heap : Nat} {live : UInt32}

/-- **The number of an index is returned**, and nothing else happens. -/
theorem invoke_fib (hd : d.Loads m) {f : Nat} {type : FuncType} {visibility : Visibility}
    (hf : d.functions[f]? = some ⟨type, visibility, fib⟩) (htype : type.results = [.i64])
    {n : Nat} (hn : n < 2 ^ 32) (st : Store) (depth : Nat) :
    m.program.invoke (depth + 1) f [.i32 (.ofNat n)] st =
      .results [.i64 (.ofNat (Ceiling.signed.number n))] st := by
  have hcode := hd.code hf rfl
  have hloops : 2 ^ 32 < loopBudget := by decide
  obtain ⟨i, next, hcount⟩ : ∃ i next, runCode (m.program.envAt depth) (count 3 1 2 4 .signed)
      [] [.i32 (.ofNat n), .i64 0, .i64 0, .i32 0, .i64 0] st = .next [] [.i32 (.ofNat n),
        .i64 (.ofNat (Ceiling.signed.number n)), .i64 (.ofNat (Ceiling.signed.number (n + 1))), i, next] st :=
    runs_count .signed hn (Nat.lt_trans hn hloops) ..
  rw [m.program.invoke_succ hcode, htype]
  change Outcome.reply [.num .i64] (runCode (m.program.envAt depth) (count 3 1 2 4 .signed ++ [val 1]) []
    [.i32 (.ofNat n), .i64 0, .i64 0, .i32 0, .i64 0] st) = _
  rw [runCode_append, hcount, resume_next]
  simp
  rfl

/-- **The digits of a number are returned**, in a buffer with room for just as many. -/
theorem fibText_presents (hd : d.Loads m) {f : Nat} {type : FuncType} {visibility : Visibility}
    (hf : d.functions[f]? = some ⟨type, visibility, fibText⟩) (htype : type.results = [.i32])
    (hm : memory.IsGuest) (hheap : heapStart ≤ heap) (hinside : heap ≤ memory.size) (depth : Nat)
    {n : Nat} (hn : n < 2 ^ 32) : Presents memory heap live (digitCount (Ceiling.unsigned.number n)) 1
      (Json.digits (Ceiling.unsigned.number n)) (m.program.invoke (depth + 3) f [.i32 (.ofNat n)]
        (guestStore memory (.ofNat heap) live)) := by
  have hp := Program.isGuest_of_loads hd
  have hcode := hd.code hf rfl
  have hloops : 2 ^ 32 < loopBudget := by decide
  obtain ⟨x, hx⟩ : ∃ x, x = Ceiling.unsigned.number n := ⟨_, rfl⟩
  have hlt : x < 2 ^ 64 := by
    rw [hx]
    exact Nat.lt_of_le_of_lt (Ceiling.number_le ..) (Ceiling.greatest_lt _)
  have hdigits := digitCount_le hlt
  obtain ⟨i, next, hcount⟩ : ∃ i next, runCode (m.program.envAt (depth + 2)) (count 3 1 2 4 .unsigned)
      [] [.i32 (.ofNat n), .i64 0, .i64 0, .i32 0, .i64 0, .i64 0, .i32 0, .i32 0, .i32 0]
      (guestStore memory (.ofNat heap) live) = .next [] [.i32 (.ofNat n), .i64 (.ofNat x),
        .i64 (.ofNat (Ceiling.unsigned.number (n + 1))), i, next, .i64 0, .i32 0, .i32 0, .i32 0]
        (guestStore memory (.ofNat heap) live) := by
    rw [hx]
    exact runs_count .unsigned hn (Nat.lt_trans hn hloops) ..
  obtain ⟨y, hy⟩ : ∃ y, y = Val.i64 (.ofNat (Ceiling.unsigned.number (n + 1))) := ⟨_, rfl⟩
  rw [← hy] at hcount
  have hbudget : 20 < (m.program.envAt (depth + 2)).budget := by
    have hsmall : 20 < loopBudget := by decide
    exact hsmall
  have hbefore := runs_countDigits (guestStore memory (.ofNat heap) live) hbudget hlt
    (.i32 (.ofNat n)) y i next (.i32 0) (.i32 0)
  rw [m.program.invoke_succ hcode, htype, ← hx]
  change Presents memory heap live (digitCount x) 1 (Json.digits x) (Outcome.reply [.num .i32] (runCode _
    (count 3 1 2 4 .unsigned ++ (countDigits ++ (allocInto 7 ++ (writeDigits ++ describe 7 6)))) []
    [.i32 (.ofNat n), .i64 0, .i64 0, .i32 0, .i64 0, .i64 0, .i32 0, .i32 0, .i32 0] _))
  rw [runCode_append, hcount, resume_next, runCode_append, hbefore, resume_next]
  have hword : (UInt32.ofNat (digitCount x)).toNat = digitCount x * 1 := by
    rw [Nat.mul_one]
    exact UInt32.toNat_ofNat_of_lt' (by unfold UInt32.size; omega)
  have hlength : (Json.digits x).length = digitCount x * 1 := by rw [length_digits, Nat.mul_one]
  refine presents_of_fill hp hm hheap hinside hlength (fun _ => hword) (fun hfull => by rwa [hword]) rfl
    fun st _ hst _ hroom => ?_
  rw [Nat.mul_one] at hroom
  obtain ⟨w, hrun⟩ := runs_writeDigits hbudget hlt hst hroom (.i32 (.ofNat n)) y i next (.i64 0) (.i32 0)
  refine ⟨_, hrun, ?_⟩
  simp [describe]

/-- **The numbers up to an index are returned**, in a buffer of eight bytes for each. -/
theorem all_presents (hd : d.Loads m) {f : Nat} {type : FuncType} {visibility : Visibility}
    (hf : d.functions[f]? = some ⟨type, visibility, all⟩) (htype : type.results = [.i32])
    (hm : memory.IsGuest) (hheap : heapStart ≤ heap) (hinside : heap ≤ memory.size) (depth : Nat)
    {n : Nat} (hn : n < 2 ^ 32) : Presents memory heap live n 8 (numberBytes n)
      (m.program.invoke (depth + 3) f [.i32 (.ofNat n)] (guestStore memory (.ofNat heap) live)) := by
  have hp := Program.isGuest_of_loads hd
  have hcode := hd.code hf rfl
  rw [m.program.invoke_succ hcode, htype]
  change Presents memory heap live n 8 (numberBytes n) (Outcome.reply [.num .i32]
    (runCode _ (checkCount ++ (allocInto 1 ++ (listNumbers ++ describe 1 0))) []
      [.i32 (.ofNat n), .i32 0, .i64 0, .i64 0, .i32 0, .i64 0] _))
  rw [runCode_append, run_checkCount hn]
  by_cases hlarge : 0x1FFFFFFF < n
  · have hfull : heapCapacity < heap + blockSize (n * 8) := by
      unfold heapCapacity blockSize pageSize
      omega
    rw [if_pos hlarge, resume_ret, reply_ret]
    refine ⟨length_numberBytes n, .full hfull, fun _ _ => rfl, fun hroom => ?_⟩
    rw [length_numberBytes] at hroom
    omega
  · have hbytes : (UInt32.ofNat (n * 8)).toNat = n * 8 :=
      UInt32.toNat_ofNat_of_lt' (by unfold UInt32.size; omega)
    have hbudget : n < (m.program.envAt (depth + 2)).budget := by
      have hloops : 2 ^ 32 < loopBudget := by decide
      exact Nat.lt_trans hn hloops
    rw [if_neg hlarge, resume_next]
    refine presents_of_fill hp hm hheap hinside (length_numberBytes n) (fun _ => hbytes)
      (fun hfull => by rwa [hbytes]) rfl fun st _ hst _ hroom => ?_
    obtain ⟨a, b, i, next, hrun⟩ :=
      runs_listNumbers (by omega) hbudget hst hroom (.i64 0) (.i64 0) (.i32 0) (.i64 0)
    refine ⟨_, hrun, ?_⟩
    simp [describe]

end

end GuestCall.Sample.Fibonacci
