/-
# Conversions of scalars

A scalar goes through four conversions on its way: a host value becomes a scalar, the scalar a machine value,
and both ways back. They widen differently, and they do not accept the same values, but no number is lost in
any of them: what comes of a value says what the value said, and what comes back of a machine value is that
machine value, but that there is one way only to say that something is true.

Key definition: `Value.datum?`, what a host value says.
Key theorems: `Scalar.ofInt?_eq_some`, `Scalar.datum_ofValue?`, `Scalar.exists_ofValue?`, `Scalar.lift_lower`,
`Scalar.lower_of_lift`, `Scalar.exists_lift`.
-/
import GuestCall.Call.Result

namespace GuestCall

/-! ### What values say -/

/-- What a value says, however wide it is. -/
inductive Datum where
  | integer (n : Int)
  | truth (v : Bool)
  | single (x : Binary32)
  | double (x : Binary64)
  deriving DecidableEq

/-- What a host value says, if it is not made of several ones. -/
def Value.datum? : Value → Option Datum
  | .bool v => some (.truth v)
  | .i32 v => some (.integer v.toInt)
  | .i64 v => some (.integer v.toInt)
  | .f32 x => some (.single x)
  | .f64 x => some (.double x)
  | .unit | .str _ | .array _ | .bigDecimal _ => none

/-- The integer kinds that are narrower than a word. -/
def ScalarKind.isNarrow (kind : ScalarKind) : Bool := kind.isInteger && kind.width < 4

namespace Scalar

variable {kind : ScalarKind} {n : Int} {s : Scalar} {v : Value} {name : String} {raw : CoreValue}

theorem kind_ofInt? (h : ofInt? kind n = some s) : s.kind = kind := by
  unfold ofInt? at h
  split at h
  · cases h
  · split at h
    · cases h
    · cases kind <;> cases h <;> rfl

theorem toInt?_ofInt? (h : ofInt? kind n = some s) : s.toInt? = some n := by
  unfold ofInt? at h
  split at h
  · cases h
  rename_i low high hrange
  split at h
  · cases h
  rename_i hin
  cases kind with
  | bool | f32 | f64 => cases hrange
  | u8 | u16 | u32 =>
    cases hrange
    cases h
    refine congrArg some ?_
    simp only [UInt8.toNat_ofNat', UInt16.toNat_ofNat', UInt32.toNat_ofNat']
    omega
  | i8 =>
    cases hrange
    cases h
    exact congrArg some (Int8.toInt_ofInt_of_le (by omega) (by omega))
  | i16 =>
    cases hrange
    cases h
    exact congrArg some (Int16.toInt_ofInt_of_le (by omega) (by omega))
  | i32 =>
    cases hrange
    cases h
    exact congrArg some (Int32.toInt_ofInt_of_le (by omega) (by omega))
  | i64 =>
    cases hrange
    cases h
    exact congrArg some (Int64.toInt_ofInt_of_le (by omega) (by omega))

/-- **The scalar of a number** is the one of its kind with that number. -/
theorem ofInt?_eq_some : ofInt? kind n = some s ↔ s.kind = kind ∧ s.toInt? = some n := by
  constructor
  · intro h
    exact ⟨kind_ofInt? h, toInt?_ofInt? h⟩
  · rintro ⟨rfl, h⟩
    exact ofInt?_toInt? h

/-- There is one just for the numbers in the range of the kind. -/
theorem exists_ofInt? : (∃ s, ofInt? kind n = some s) ↔
    ∃ low high, kind.range? = some (low, high) ∧ low ≤ n ∧ n ≤ high := by
  constructor
  · rintro ⟨s, h⟩
    obtain ⟨rfl, hn⟩ := ofInt?_eq_some.mp h
    exact toInt?_range hn
  · rintro ⟨low, high, hrange, hlow, hhigh⟩
    unfold ofInt?
    rw [hrange]
    dsimp only
    rw [if_neg (by omega)]
    cases kind with
    | bool | f32 | f64 => cases hrange
    | u8 | i8 | u16 | i16 | u32 | i32 | i64 => exact ⟨_, rfl⟩

/-! ### Host values -/

theorem kind_ofValue? (h : ofValue? kind v = some s) : s.kind = kind := by
  unfold ofValue? at h
  split at h
  · cases h
    rfl
  · cases h
    rfl
  · cases h
    rfl
  · exact kind_ofInt? h
  · exact kind_ofInt? h
  · cases h

theorem datum_toValue (h : s.toInt? = some n) : s.toValue.datum? = some (.integer n) := by
  cases s with
  | bool | f32 | f64 => cases h
  | u8 v =>
    cases h
    have hv := v.toNat_lt
    exact congrArg (some <| Datum.integer ·) (Int32.toInt_ofInt_of_le (by omega) (by omega))
  | u16 v =>
    cases h
    have hv := v.toNat_lt
    exact congrArg (some <| Datum.integer ·) (Int32.toInt_ofInt_of_le (by omega) (by omega))
  | u32 v =>
    cases h
    have hv := v.toNat_lt
    exact congrArg (some <| Datum.integer ·) (Int64.toInt_ofInt_of_le (by omega) (by omega))
  | i8 v =>
    cases h
    exact congrArg (some <| Datum.integer ·) v.toInt_toInt32
  | i16 v =>
    cases h
    exact congrArg (some <| Datum.integer ·) v.toInt_toInt32
  | i32 | i64 =>
    cases h
    rfl

/-- **A host value that is accepted keeps what it says.** -/
theorem datum_ofValue? (h : ofValue? kind v = some s) :
    ∃ x, v.datum? = some x ∧ s.toValue.datum? = some x := by
  unfold ofValue? at h
  split at h
  · cases h
    exact ⟨_, rfl, rfl⟩
  · cases h
    exact ⟨_, rfl, rfl⟩
  · cases h
    exact ⟨_, rfl, rfl⟩
  · exact ⟨_, rfl, datum_toValue (toInt?_ofInt? h)⟩
  · exact ⟨_, rfl, datum_toValue (toInt?_ofInt? h)⟩
  · cases h

/-- A host value is accepted as an integer just if it is one that is in range. -/
theorem exists_ofValue? (hkind : kind.isInteger = true) : (∃ s, ofValue? kind v = some s) ↔
    ∃ n low high, v.datum? = some (.integer n) ∧ kind.range? = some (low, high) ∧ low ≤ n ∧ n ≤ high := by
  have hinteger : ∀ {n : Int}, v.datum? = some (.integer n) → ofValue? kind v = ofInt? kind n := by
    intro n hv
    cases kind with
    | bool | f32 | f64 => cases hkind
    | u8 | i8 | u16 | i16 | u32 | i32 | i64 =>
      cases v with
      | i32 | i64 =>
        cases hv
        rfl
      | unit | bool | f32 | f64 | str | array | bigDecimal => cases hv
  constructor
  · rintro ⟨s, hs⟩
    obtain ⟨x, hv, -⟩ := datum_ofValue? hs
    obtain ⟨n, rfl⟩ : ∃ n, x = .integer n := by
      cases kind with
      | bool | f32 | f64 => cases hkind
      | u8 | i8 | u16 | i16 | u32 | i32 | i64 =>
        cases v with
        | i32 | i64 =>
          cases hv
          exact ⟨_, rfl⟩
        | unit | bool | f32 | f64 | str | array | bigDecimal => cases hs
    rw [hinteger hv] at hs
    obtain ⟨low, high, hrange⟩ := exists_ofInt?.mp ⟨s, hs⟩
    exact ⟨n, low, high, hv, hrange⟩
  · rintro ⟨n, low, high, hv, hrange⟩
    rw [hinteger hv]
    exact exists_ofInt?.mpr ⟨low, high, hrange⟩

/-! ### Machine values -/

/-- A word travels as the signed number that it would be as one. -/
theorem lower_of_toInt? (h : s.toInt? = some n) (hkind : s.kind ≠ .i64) :
    s.lower = .ofInt32 (Int32.ofInt n) := by
  have hnat : ∀ k : Nat, (Int32.ofInt k).toUInt32 = UInt32.ofNat k := fun k => by
    rw [Int32.ofInt_eq_ofNat]
    rfl
  cases s with
  | bool | f32 | f64 => cases h
  | i64 => exact absurd rfl hkind
  | u8 v | u16 v | u32 v =>
    cases h
    refine congrArg CoreValue.i32 ((hnat _).trans ?_).symm
    simp
  | i8 v | i16 v | i32 v =>
    cases h
    simp [lower]

theorem narrow_eq_ok {w : UInt32} : narrow name kind w = .ok s ↔ ofInt? kind w.toInt32.toInt = some s := by
  unfold narrow
  rcases ofInt? kind w.toInt32.toInt with _ | t
  · simp
  · simp

theorem ne_of_isNarrow (h : kind.isNarrow = true) : kind ≠ .i64 := by
  rintro rfl
  cases h

theorem lift_narrow (h : kind.isNarrow = true) (name : String) (w : UInt32) :
    lift name kind (.i32 w) = narrow name kind w := by
  cases kind with
  | u8 | i8 | u16 | i16 => rfl
  | bool | u32 | i32 | i64 | f32 | f64 => cases h

/-- **A scalar that travelled is lifted again.** -/
theorem lift_lower (name : String) (s : Scalar) : lift name s.kind s.lower = .ok s := by
  have hnarrow : ∀ {n : Int}, s.toInt? = some n → s.kind.isNarrow = true →
      -2 ^ 31 ≤ n → n < 2 ^ 31 → lift name s.kind s.lower = .ok s := by
    intro n hn hkind hlow hhigh
    rw [lower_of_toInt? hn (ne_of_isNarrow hkind), CoreValue.ofInt32, lift_narrow hkind, narrow_eq_ok,
      Int32.toInt32_toUInt32, Int32.toInt_ofInt_of_le hlow hhigh]
    exact ofInt?_toInt? hn
  cases s with
  | bool v => cases v <;> rfl
  | u8 v | u16 v =>
    have hv := v.toNat_lt
    exact hnarrow rfl rfl (by omega) (by omega)
  | i8 v | i16 v =>
    have hlow := v.le_toInt
    have hhigh := v.toInt_lt
    exact hnarrow rfl rfl (by omega) (by omega)
  | u32 | i32 | i64 | f32 | f64 => rfl

/-- **A machine value that is lifted travels back as it was**, but that there is one way only to say that
something is true. -/
theorem lower_of_lift (h : lift name kind raw = .ok s) :
    if kind = .bool then ∃ w, raw = .i32 w ∧ s.lower = .i32 (if w = 0 then 0 else 1) else s.lower = raw := by
  have hnarrow : ∀ w, kind.isNarrow = true → raw = .i32 w → s.lower = raw := by
    rintro w hkind rfl
    rw [lift_narrow hkind, narrow_eq_ok] at h
    obtain ⟨rfl, hn⟩ := ofInt?_eq_some.mp h
    rw [lower_of_toInt? hn (ne_of_isNarrow hkind), Int32.ofInt_toInt]
    rfl
  cases kind with
  | bool =>
    rw [if_pos rfl]
    cases raw with
    | i32 w =>
      cases h
      refine ⟨w, rfl, ?_⟩
      by_cases hw : w = 0 <;> simp [lower, hw]
    | i64 | f32 | f64 => cases h
  | u8 | i8 | u16 | i16 =>
    cases raw with
    | i32 w => exact hnarrow w rfl rfl
    | i64 | f32 | f64 => cases h
  | u32 | i32 | i64 | f32 | f64 =>
    cases raw <;> cases h
    rfl

/-- A machine value is lifted into a narrow kind just if it is a word that is in range. -/
theorem exists_lift (hkind : kind.isNarrow = true) : (∃ s, lift name kind raw = .ok s) ↔
    ∃ w low high, raw = .i32 w ∧ kind.range? = some (low, high) ∧
      low ≤ w.toInt32.toInt ∧ w.toInt32.toInt ≤ high := by
  have hword : ∀ w, (∃ s, lift name kind (.i32 w) = .ok s) ↔
      ∃ low high, kind.range? = some (low, high) ∧ low ≤ w.toInt32.toInt ∧ w.toInt32.toInt ≤ high := by
    intro w
    simp only [lift_narrow hkind, narrow_eq_ok]
    exact exists_ofInt?
  cases raw with
  | i32 w =>
    rw [hword]
    constructor
    · rintro ⟨low, high, hrange⟩
      exact ⟨w, low, high, rfl, hrange⟩
    · rintro ⟨_, low, high, hraw, hrange⟩
      cases hraw
      exact ⟨low, high, hrange⟩
  | i64 | f32 | f64 =>
    refine iff_of_false ?_ fun ⟨_, _, _, hraw, _⟩ => by cases hraw
    rintro ⟨s, hs⟩
    cases kind with
    | u8 | i8 | u16 | i16 => cases hs
    | bool | u32 | i32 | i64 | f32 | f64 => cases hkind

end Scalar

end GuestCall
