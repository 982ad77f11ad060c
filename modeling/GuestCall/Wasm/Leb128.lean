/-
# Numbers of variable length

Numbers are kept in groups of seven bits, least significant first; the top bit of a byte says that
another group follows. Writing uses as few groups as possible. Reading also takes more of them, as
long as they fit the width: a group that holds bits beyond it is refused.

Key definitions:
* `Leb128.unsigned` and `Leb128.signed`, the bytes of a number;
* `Leb128.readUnsigned` and `Leb128.readSigned`, the number at the front of some bytes.

Key theorems: `readUnsigned_unsigned` and `readSigned_signed`, what is written is read back.
-/

namespace GuestCall.Wasm.Leb128

/-- The groups of a number without a sign; `fuel` bounds their count. -/
def unsignedGroups : Nat → Nat → List UInt8
  | 0, _ => []
  | fuel + 1, n =>
    if n < 128 then [n.toUInt8] else (n % 128 + 128).toUInt8 :: unsignedGroups fuel (n / 128)

/-- The bytes of a number without a sign. -/
def unsigned (n : Nat) : List UInt8 := unsignedGroups (n.log2 / 7 + 1) n

/-- The groups of a number with a sign; `fuel` bounds their count. -/
def signedGroups : Nat → Int → List UInt8
  | 0, _ => []
  | fuel + 1, n =>
    if -64 ≤ n ∧ n < 64 then [(n % 128).toNat.toUInt8]
    else (n % 128 + 128).toNat.toUInt8 :: signedGroups fuel (n / 128)

/-- The bytes of a number with a sign. -/
def signed (n : Int) : List UInt8 := signedGroups (n.natAbs.log2 / 7 + 2) n

/-- A number of at most `bits` bits without a sign, and the bytes after it. -/
def readUnsigned : Nat → List UInt8 → Option (Nat × List UInt8)
  | _, [] => none
  | bits, b :: rest =>
    if b.toNat < 128 then
      if b.toNat < Nat.pow 2 bits then some (b.toNat, rest) else none
    else if 7 < bits then
      match readUnsigned (bits - 7) rest with
      | some (high, rest) => some (b.toNat - 128 + 128 * high, rest)
      | none => none
    else none

/-- The number of one group with its sign. -/
def groupValue (b : Nat) : Int := if b < 64 then b else (b : Int) - 128

/-- A number of at most `bits` bits with a sign, and the bytes after it. -/
def readSigned : Nat → List UInt8 → Option (Int × List UInt8)
  | _, [] => none
  | bits, b :: rest =>
    if b.toNat < 128 then
      if -(Nat.pow 2 (bits - 1) : Int) ≤ groupValue b.toNat ∧
          groupValue b.toNat < (Nat.pow 2 (bits - 1) : Int) then
        some (groupValue b.toNat, rest)
      else none
    else if 7 < bits then
      match readSigned (bits - 7) rest with
      | some (high, rest) => some ((b.toNat : Int) - 128 + 128 * high, rest)
      | none => none
    else none

theorem toNat_toUInt8 {n : Nat} (h : n < 256) : n.toUInt8.toNat = n :=
  UInt8.toNat_ofNat_of_lt' h

theorem readUnsigned_unsignedGroups (fuel : Nat) : ∀ (bits n : Nat) (rest : List UInt8),
    n < Nat.pow 128 (fuel + 1) → n < Nat.pow 2 bits →
    readUnsigned bits (unsignedGroups (fuel + 1) n ++ rest) = some (n, rest) := by
  induction fuel with
  | zero =>
    intro bits n rest h hb
    have h : n < 128 := h
    simp only [unsignedGroups, readUnsigned, List.cons_append, List.nil_append, h, if_true,
      toNat_toUInt8 (show n < 256 by omega), hb]
  | succ fuel ih =>
    intro bits n rest h hb
    rw [unsignedGroups]
    split
    · rename_i h
      simp only [readUnsigned, List.cons_append, List.nil_append, h, if_true,
        toNat_toUInt8 (show n < 256 by omega), hb]
    · rename_i hn
      have hbits : 7 < bits := by
        apply Nat.lt_of_not_le
        intro hle
        have h7 : Nat.pow 2 bits ≤ 128 := Nat.pow_le_pow_right (show 0 < 2 by omega) hle
        omega
      have hdiv : n / 128 < Nat.pow 128 (fuel + 1) :=
        (Nat.div_lt_iff_lt_mul (by omega)).2 h
      have hdiv' : n / 128 < Nat.pow 2 (bits - 7) := by
        rw [Nat.div_lt_iff_lt_mul (by omega)]
        have hpow : Nat.pow 2 (bits - 7 + 7) = Nat.pow 2 (bits - 7) * 128 := Nat.pow_add 2 _ 7
        rw [Nat.sub_add_cancel (by omega)] at hpow
        omega
      simp only [List.cons_append, readUnsigned, toNat_toUInt8 (show n % 128 + 128 < 256 by omega),
        show ¬ (n % 128 + 128 < 128) by omega, hbits, ih _ _ rest hdiv hdiv', if_false, if_true]
      congr 2
      omega

theorem lt_pow_groups (n : Nat) : n < Nat.pow 128 (n.log2 / 7 + 1) := by
  have h1 : n < Nat.pow 2 (n.log2 + 1) := Nat.lt_log2_self
  have h2 : Nat.pow 2 (n.log2 + 1) ≤ Nat.pow 2 (7 * (n.log2 / 7 + 1)) :=
    Nat.pow_le_pow_right (by omega) (by omega)
  have h3 : Nat.pow 2 (7 * (n.log2 / 7 + 1)) = Nat.pow 128 (n.log2 / 7 + 1) := Nat.pow_mul 2 7 _
  omega

/-- A number without a sign is read back. -/
theorem readUnsigned_unsigned {bits n : Nat} (h : n < Nat.pow 2 bits) (rest : List UInt8) :
    readUnsigned bits (unsigned n ++ rest) = some (n, rest) :=
  readUnsigned_unsignedGroups _ _ _ _ (lt_pow_groups n) h

theorem groupValue_mod {n : Int} (h : -64 ≤ n ∧ n < 64) : groupValue (n % 128).toNat = n := by
  unfold groupValue; split <;> omega

theorem readSigned_signedGroups (fuel : Nat) : ∀ (bits : Nat) (n : Int) (rest : List UInt8),
    -((64 * Nat.pow 128 fuel : Nat) : Int) ≤ n ∧ n < (64 * Nat.pow 128 fuel : Nat) →
    -(Nat.pow 2 (bits - 1) : Int) ≤ n → n < (Nat.pow 2 (bits - 1) : Int) →
    readSigned bits (signedGroups (fuel + 1) n ++ rest) = some (n, rest) := by
  induction fuel with
  | zero =>
    intro bits n rest h hlo hhi
    have h1 : 64 * Nat.pow 128 0 = 64 := rfl
    have h : -64 ≤ n ∧ n < 64 := by omega
    simp only [signedGroups, h, if_true, and_self, List.cons_append, List.nil_append, readSigned,
      toNat_toUInt8 (show (n % 128).toNat < 256 by omega), show (n % 128).toNat < 128 by omega,
      groupValue_mod h, hlo, hhi]
  | succ fuel ih =>
    intro bits n rest h hlo hhi
    rw [signedGroups]
    split
    · rename_i h
      simp only [List.cons_append, List.nil_append, readSigned,
        toNat_toUInt8 (show (n % 128).toNat < 256 by omega), show (n % 128).toNat < 128 by omega,
        groupValue_mod h, hlo, hhi, if_true, and_self]
    · rename_i hn
      have hbits : 7 < bits := by
        apply Nat.lt_of_not_le
        intro hle
        have h2 : Nat.pow 2 (bits - 1) ≤ 64 :=
          Nat.pow_le_pow_right (show 0 < 2 by omega) (show bits - 1 ≤ 6 by omega)
        omega
      obtain ⟨k, rfl⟩ : ∃ k, bits = k + 8 := ⟨bits - 8, by omega⟩
      have hpow : Nat.pow 2 (k + 8 - 1) = Nat.pow 2 (k + 1 - 1) * 128 := by
        rw [show k + 8 - 1 = k + 7 by omega, show k + 1 - 1 = k by omega]
        exact Nat.pow_add 2 k 7
      have hsucc : Nat.pow 128 (fuel + 1) = Nat.pow 128 fuel * 128 := rfl
      have hdiv : -((64 * Nat.pow 128 fuel : Nat) : Int) ≤ n / 128 ∧
          n / 128 < (64 * Nat.pow 128 fuel : Nat) := by omega
      simp only [List.cons_append, readSigned,
        toNat_toUInt8 (show (n % 128 + 128).toNat < 256 by omega),
        show ¬ ((n % 128 + 128).toNat < 128) by omega, hbits, if_false, if_true,
        show k + 8 - 7 = k + 1 by omega]
      rw [ih (k + 1) (n / 128) rest hdiv (by omega) (by omega)]
      simp only [Option.some.injEq, Prod.mk.injEq, and_true]
      omega

/-- A number with a sign is read back. -/
theorem readSigned_signed {bits : Nat} {n : Int} (hlo : -(Nat.pow 2 (bits - 1) : Int) ≤ n)
    (hhi : n < (Nat.pow 2 (bits - 1) : Int)) (rest : List UInt8) :
    readSigned bits (signed n ++ rest) = some (n, rest) := by
  refine readSigned_signedGroups (n.natAbs.log2 / 7 + 1) _ _ _ ?_ hlo hhi
  have h := lt_pow_groups n.natAbs
  omega

end GuestCall.Wasm.Leb128
