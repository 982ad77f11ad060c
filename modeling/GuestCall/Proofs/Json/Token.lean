/-
# Strings and numbers in JSON texts

A string that is written with its escapes is read back byte by byte, and a number that is written by its
digits is read back, so long as what follows cannot be taken for the rest of it.

Key definition: `Json.Apart`, what may follow a number.
Key theorems: `Json.readString_quoted`, `Json.readUnsigned_digits`.
-/
import GuestCall.Json.Reader
import GuestCall.Proofs.Wasm.Reading

namespace GuestCall.Json

/-! ### Strings -/

/-- The digits by which a control is written are read as its code point. -/
theorem unit_control {b : UInt8} (h : b < 0x20) :
    hexValue? (if b < 0x10 then 0x30 else 0x31) = some (b.toNat / 16) ∧
      hexValue? (Hex.digit (b.toNat % 16)).toNat.toUInt8 = some (b.toNat % 16) ∧
      String.utf8EncodeChar (Char.ofNat b.toNat) = [b] := by
  have hall : ∀ n : Fin 32, let b : UInt8 := n.val.toUInt8
      hexValue? (if b < 0x10 then 0x30 else 0x31) = some (b.toNat / 16) ∧
        hexValue? (Hex.digit (b.toNat % 16)).toNat.toUInt8 = some (b.toNat % 16) ∧
        String.utf8EncodeChar (Char.ofNat b.toNat) = [b] := by
    decide +kernel
  have hb : b.toNat < 32 := UInt8.lt_iff_toNat_lt.mp h
  have hword : b.toNat.toUInt8 = b := UInt8.ofNat_toNat
  have hfound := hall ⟨b.toNat, hb⟩
  rw [hword] at hfound
  exact hfound

/-- The code point of a control is no half of a pair. -/
theorem pushUnit_control {b : UInt8} (h : b < 0x20) (reversed : List UInt8) :
    Contents.pushUnit ⟨reversed, true, none⟩ b.toNat = ⟨b :: reversed, true, none⟩ := by
  have hb : b.toNat < 32 := UInt8.lt_iff_toNat_lt.mp h
  have hlead : isLead b.toNat = false := by
    simp [isLead]
    omega
  have htrail : isTrail b.toNat = false := by
    simp [isTrail]
    omega
  simp [Contents.pushUnit, Contents.pushFirstUnit, Contents.pushCodePoint, hlead, htrail,
    (unit_control h).2.2]

/-- One byte of a string is read from its form. -/
theorem readString_escapeByte (b : UInt8) (reversed rest : List UInt8) :
    readString (escapeByte b ++ rest) .none ⟨reversed, true, none⟩ =
      readString rest .none ⟨b :: reversed, true, none⟩ := by
  unfold escapeByte
  by_cases h22 : b = 0x22
  · subst h22
    rfl
  by_cases h5C : b = 0x5C
  · subst h5C
    rfl
  by_cases h08 : b = 0x08
  · subst h08
    rfl
  by_cases h0C : b = 0x0C
  · subst h0C
    rfl
  by_cases h0A : b = 0x0A
  · subst h0A
    rfl
  by_cases h0D : b = 0x0D
  · subst h0D
    rfl
  by_cases h09 : b = 0x09
  · subst h09
    rfl
  rw [if_neg h22, if_neg h5C, if_neg h08, if_neg h0C, if_neg h0A, if_neg h0D, if_neg h09]
  by_cases hcontrol : b < 0x20
  · obtain ⟨hhigh, hlow, -⟩ := unit_control hcontrol
    have hzero : hexValue? 0x30 = some 0 := rfl
    have hvalue : b.toNat / 16 * 16 + b.toNat % 16 = b.toNat := by omega
    simp [hcontrol, readString, hzero, hhigh, hlow, hvalue, pushUnit_control hcontrol]
  · simp [hcontrol, readString, h22, h5C, Contents.push, Contents.settle]

theorem readString_escaped : ∀ bytes reversed rest : List UInt8,
    readString (bytes.flatMap escapeByte ++ 0x22 :: rest) .none ⟨reversed, true, none⟩ =
      some (⟨bytes.reverse ++ reversed, true, none⟩, rest)
  | [], _, _ => rfl
  | b :: bytes, reversed, rest => by
    rw [List.flatMap_cons, List.append_assoc, readString_escapeByte, readString_escaped bytes,
      List.reverse_cons, List.append_assoc]
    rfl

/-- A string is read after its opening quote, and its contents are the string. -/
theorem readString_quoted (s : String) (rest : List UInt8) :
    ∃ c, readString ((quoted s).tail ++ rest) .none .empty = some (c, rest) ∧ c.text? = some s := by
  refine ⟨⟨s.toUTF8.data.toList.reverse ++ [], true, none⟩, ?_, ?_⟩
  · rw [quoted, List.cons_append, List.tail_cons, List.append_assoc]
    exact readString_escaped _ [] rest
  · simp only [Contents.text?, Contents.settle, List.append_nil, List.reverse_reverse, if_true]
    exact Wasm.fromUTF8_toUTF8 s

/-! ### Numbers -/

/-- What may follow a number: nothing that goes on with it. -/
def Apart (rest : List UInt8) : Prop :=
  ∀ b ∈ rest.head?, isDigit b = false ∧ b ≠ 0x2E ∧ b ≠ 0x65 ∧ b ≠ 0x45

theorem apart_nil : Apart [] := fun _ hb => nomatch hb

theorem apart_cons {b : UInt8} (h : isDigit b = false ∧ b ≠ 0x2E ∧ b ≠ 0x65 ∧ b ≠ 0x45)
    (rest : List UInt8) : Apart (b :: rest) := by
  intro x hx
  cases hx
  exact h

theorem isDigit_digits (n : Nat) : ∀ b ∈ digits n, isDigit b = true := by
  intro b hb
  obtain ⟨c, hc, rfl⟩ := List.mem_map.mp hb
  have hdigit := Nat.isDigit_of_mem_toDigits (by decide) (by decide) hc
  have hrange : 48 ≤ c.toNat ∧ c.toNat ≤ 57 := by
    simpa [Char.isDigit, UInt32.le_iff_toNat_le] using hdigit
  simp only [isDigit, Bool.and_eq_true, decide_eq_true_eq, UInt8.le_iff_toNat_le,
    Wasm.Leb128.toNat_toUInt8 (show c.toNat < 256 by omega)]
  exact hrange

/-- The digits of a number are those of a number. -/
theorem digitsValue_digits (n : Nat) : digitsValue (digits n) = n := by
  have hchars : ∀ (cs : List Char) (init : Nat), (∀ c ∈ cs, c.isDigit = true) →
      (cs.map fun c => c.toNat.toUInt8).foldl (fun n b => n * 10 + (b.toNat - 0x30)) init =
        Nat.ofDigitChars 10 cs init := by
    intro cs
    induction cs with
    | nil => exact fun init _ => rfl
    | cons c cs ih =>
      intro init hcs
      have hc : c.toNat < 256 := by
        have hdigit := hcs c List.mem_cons_self
        simp [Char.isDigit, UInt32.le_iff_toNat_le] at hdigit
        exact Nat.lt_of_le_of_lt hdigit.2 (by decide)
      rw [List.map_cons, List.foldl_cons, ih _ fun c hc => hcs c (List.mem_cons_of_mem _ hc),
        Wasm.Leb128.toNat_toUInt8 hc, Nat.ofDigitChars_cons, Nat.mul_comm]
      rfl
  have hdigits : ∀ c ∈ Nat.toDigits 10 n, c.isDigit = true :=
    fun c hc => Nat.isDigit_of_mem_toDigits (by decide) (by decide) hc
  rw [digitsValue, digits, hchars _ _ hdigits, Nat.ofDigitChars_toDigits (by decide) (by decide)]

theorem toDigits_first {n : Nat} (h : 0 < n) : ∃ c cs, Nat.toDigits 10 n = c :: cs ∧ c ≠ '0' := by
  induction n using Nat.strongRecOn with
  | ind n ih =>
    by_cases hlt : n < 10
    · have hdigit : ∀ k : Fin 10, 0 < k.val → k.val.digitChar ≠ '0' := by decide
      exact ⟨n.digitChar, [], Nat.toDigits_of_lt_base hlt, hdigit ⟨n, hlt⟩ h⟩
    · obtain ⟨c, cs, hcs, hne⟩ := ih (n / 10) (by omega) (by omega)
      refine ⟨c, cs ++ [(n % 10).digitChar], ?_, hne⟩
      rw [Nat.toDigits_of_base_le (by decide) (Nat.le_of_not_lt hlt), hcs]
      rfl

/-- A number has digits, and only zero starts with a zero. -/
theorem digits_first (n : Nat) : ∃ first more, digits n = first :: more ∧
    ¬ (first = 0x30 ∧ more ≠ []) := by
  rcases Nat.eq_zero_or_pos n with rfl | hn
  · exact ⟨0x30, [], by decide, fun h => h.2 rfl⟩
  · obtain ⟨c, cs, hcs, hne⟩ := toDigits_first hn
    refine ⟨c.toNat.toUInt8, cs.map fun c => c.toNat.toUInt8, by rw [digits, hcs, List.map_cons],
      fun h => hne ?_⟩
    have hmem : c ∈ Nat.toDigits 10 n := by
      rw [hcs]
      exact List.mem_cons_self
    have hdigit := Nat.isDigit_of_mem_toDigits (by decide) (by decide) hmem
    have hc : c.toNat < 256 := by
      simp [Char.isDigit, UInt32.le_iff_toNat_le] at hdigit
      exact Nat.lt_of_le_of_lt hdigit.2 (by decide)
    have hzero : c.toNat = 48 := by
      rw [← Wasm.Leb128.toNat_toUInt8 hc, h.1]
      rfl
    exact Char.toNat_inj.mp hzero

theorem takeWhile_digits (n : Nat) {rest : List UInt8} (h : Apart rest) :
    (digits n ++ rest).takeWhile isDigit = digits n ∧
      (digits n ++ rest).dropWhile isDigit = rest := by
  have hall := isDigit_digits n
  have hrest : rest.takeWhile isDigit = [] ∧ rest.dropWhile isDigit = rest := by
    cases rest with
    | nil => exact ⟨rfl, rfl⟩
    | cons b rest =>
      have hb := (h b rfl).1
      exact ⟨List.takeWhile_cons_of_neg (by simp [hb]), List.dropWhile_cons_of_neg (by simp [hb])⟩
  rw [List.takeWhile_append_of_pos hall, List.dropWhile_append_of_pos hall, hrest.1, hrest.2,
    List.append_nil]
  exact ⟨rfl, rfl⟩

theorem skipTail?_apart {rest : List UInt8} (h : Apart rest) : skipTail? rest = some rest := by
  cases rest with
  | nil => rfl
  | cons b rest =>
    obtain ⟨-, hpoint, he, hE⟩ := h b rfl
    simp [skipTail?, skipFraction?, skipExponent?, hpoint, he, hE]

/-- A number is read from its digits. -/
theorem readUnsigned_digits (n : Nat) {rest : List UInt8} (h : Apart rest) :
    readUnsigned (digits n ++ rest) = some (.number n, rest) := by
  obtain ⟨first, more, hdigits, hfirst⟩ := digits_first n
  obtain ⟨htake, hdrop⟩ := takeWhile_digits n h
  have hwhole : readWhole? (digits n ++ rest) = some (n, rest) := by
    unfold readWhole?
    rw [htake, hdrop, hdigits]
    dsimp only
    rw [if_neg hfirst, ← hdigits, digitsValue_digits]
  unfold readUnsigned
  rw [hwhole]
  dsimp only
  rw [skipTail?_apart h]
  dsimp only
  rw [if_pos rfl]

end GuestCall.Json
