/-
# What is written is read back, or refused

A writer puts no limit on the numbers, names and lists that it is given, and a reader refuses those
that are too large. So the two are related in one direction: from what was written, whatever follows
it, a reader takes just that, and if it does not refuse it, it finds what was written (`Reads`). A
module that is accepted is then the module that was written, without a word about limits.

Key definition: `Reads`.
Key theorems: `readUnsigned_reads`, `readSigned_reads`, `readVector_reads`, `readBlob_reads`,
`readName_reads`, `readToEnd_flatMap`.
-/
import GuestCall.Wasm.Reader
import Mathlib.Data.List.Forall2

namespace GuestCall.Wasm

open Leb128

/-- Whatever follows some bytes, a reader takes these and no more, and finds something with a
property, unless it refuses. -/
def Reads {α : Type} (read : Read α) (bytes : List UInt8) (P : α → Prop) : Prop :=
  ∀ rest x rest', read (bytes ++ rest) = some (x, rest') → P x ∧ rest' = rest

variable {α : Type} {read : Read α} {bytes : List UInt8}

theorem Reads.mono {P Q : α → Prop} (h : Reads read bytes P) (hpq : ∀ x, P x → Q x) :
    Reads read bytes Q :=
  fun rest x rest' hr => ⟨hpq x (h rest x rest' hr).1, (h rest x rest' hr).2⟩

/-- The two ways in which a reader can end that finds one thing only. -/
theorem Reads.cases {y : α} (h : Reads read bytes (· = y)) (rest : List UInt8) :
    read (bytes ++ rest) = none ∨ read (bytes ++ rest) = some (y, rest) := by
  rcases hr : read (bytes ++ rest) with _ | ⟨x, rest'⟩
  · exact .inl rfl
  · obtain ⟨rfl, rfl⟩ := h rest x rest' hr
    exact .inr rfl

/-- What is made of the one thing that a reader can find. -/
theorem Reads.map {β : Type} {f : α × List UInt8 → β} {y : α} (h : Reads read bytes (· = y))
    {rest : List UInt8} {z : β} (hr : (read (bytes ++ rest)).map f = some z) : f (y, rest) = z := by
  obtain h | h := h.cases rest
  · rw [h] at hr
    cases hr
  · rw [h] at hr
    exact Option.some.inj hr

/-- A reader that uses up what was written. -/
theorem Reads.readAll {P : α → Prop} (h : Reads read bytes P) {x : α}
    (hr : readAll? read bytes = some x) : P x := by
  unfold readAll? at hr
  split at hr
  · rename_i y hy
    cases hr
    exact (h [] _ _ (by rw [List.append_nil]; exact hy)).1
  · cases hr

/-! ### Numbers -/

theorem readUnsigned_groups (fuel : Nat) : ∀ (bits n : Nat), n < Nat.pow 128 (fuel + 1) →
    Reads (readUnsigned bits) (unsignedGroups (fuel + 1) n) (· = n) := by
  induction fuel with
  | zero =>
    intro bits n h rest x rest' hr
    have h : n < 128 := h
    simp only [unsignedGroups, if_pos h, List.cons_append, List.nil_append, readUnsigned,
      toNat_toUInt8 (show n < 256 by omega)] at hr
    split at hr <;> cases hr
    exact ⟨rfl, rfl⟩
  | succ fuel ih =>
    intro bits n h rest x rest' hr
    rw [unsignedGroups] at hr
    by_cases hn : n < 128
    · simp only [if_pos hn, List.cons_append, List.nil_append, readUnsigned,
        toNat_toUInt8 (show n < 256 by omega)] at hr
      split at hr <;> cases hr
      exact ⟨rfl, rfl⟩
    · have hdiv : n / 128 < Nat.pow 128 (fuel + 1) := (Nat.div_lt_iff_lt_mul (by omega)).2 h
      simp only [if_neg hn, List.cons_append, readUnsigned,
        toNat_toUInt8 (show n % 128 + 128 < 256 by omega),
        show ¬ (n % 128 + 128 < 128) by omega, if_false] at hr
      split at hr
      · rcases hh : readUnsigned (bits - 7) (unsignedGroups (fuel + 1) (n / 128) ++ rest) with
          _ | ⟨high, r⟩
        · rw [hh] at hr
          cases hr
        · obtain ⟨rfl, rfl⟩ := ih _ _ hdiv _ _ _ hh
          rw [hh] at hr
          cases hr
          exact ⟨by omega, rfl⟩
      · cases hr

/-- A number without a sign. -/
theorem readUnsigned_reads (bits n : Nat) : Reads (readUnsigned bits) (unsigned n) (· = n) :=
  readUnsigned_groups _ _ _ (lt_pow_groups n)

theorem readWord_reads (n : Nat) : Reads readWord (unsigned n) (· = n) := readUnsigned_reads 32 n

theorem readSigned_groups (fuel : Nat) : ∀ (bits : Nat) (n : Int),
    -((64 * Nat.pow 128 fuel : Nat) : Int) ≤ n ∧ n < (64 * Nat.pow 128 fuel : Nat) →
    Reads (readSigned bits) (signedGroups (fuel + 1) n) (· = n) := by
  have hone : ∀ (bits : Nat) (n : Int), -64 ≤ n ∧ n < 64 →
      Reads (readSigned bits) [(n % 128).toNat.toUInt8] (· = n) := by
    intro bits n h rest x rest' hr
    simp only [List.cons_append, List.nil_append, readSigned,
      toNat_toUInt8 (show (n % 128).toNat < 256 by omega), show (n % 128).toNat < 128 by omega,
      groupValue_mod h, if_true] at hr
    split at hr <;> cases hr
    exact ⟨rfl, rfl⟩
  induction fuel with
  | zero =>
    intro bits n h
    have h1 : 64 * Nat.pow 128 0 = 64 := rfl
    have h : -64 ≤ n ∧ n < 64 := by omega
    rw [signedGroups, if_pos h]
    exact hone bits n h
  | succ fuel ih =>
    intro bits n h
    rw [signedGroups]
    by_cases hn : -64 ≤ n ∧ n < 64
    · rw [if_pos hn]
      exact hone bits n hn
    · intro rest x rest' hr
      have hsucc : Nat.pow 128 (fuel + 1) = Nat.pow 128 fuel * 128 := rfl
      have hdiv : -((64 * Nat.pow 128 fuel : Nat) : Int) ≤ n / 128 ∧
          n / 128 < (64 * Nat.pow 128 fuel : Nat) := by omega
      simp only [if_neg hn, List.cons_append, readSigned,
        toNat_toUInt8 (show (n % 128 + 128).toNat < 256 by omega),
        show ¬ ((n % 128 + 128).toNat < 128) by omega, if_false] at hr
      split at hr
      · rcases hh : readSigned (bits - 7) (signedGroups (fuel + 1) (n / 128) ++ rest) with
          _ | ⟨high, r⟩
        · rw [hh] at hr
          cases hr
        · obtain ⟨rfl, rfl⟩ := ih _ _ hdiv _ _ _ hh
          rw [hh] at hr
          cases hr
          exact ⟨by omega, rfl⟩
      · cases hr

/-- A number with a sign. -/
theorem readSigned_reads (bits : Nat) (n : Int) : Reads (readSigned bits) (signed n) (· = n) := by
  refine readSigned_groups (n.natAbs.log2 / 7 + 1) _ _ ?_
  have h := lt_pow_groups n.natAbs
  omega

/-- The first group of a number that is not negative is none of the bytes from `0x40` to `0x7F`. -/
theorem signed_first {n : Int} (hn : 0 ≤ n) :
    ∃ b rest, signed n = b :: rest ∧ (b.toNat < 0x40 ∨ 0x80 ≤ b.toNat) := by
  unfold signed
  rw [show n.natAbs.log2 / 7 + 2 = (n.natAbs.log2 / 7 + 1) + 1 from rfl, signedGroups]
  split
  · refine ⟨_, _, rfl, .inl ?_⟩
    rw [toNat_toUInt8 (by omega)]
    omega
  · refine ⟨_, _, rfl, .inr ?_⟩
    rw [toNat_toUInt8 (by omega)]
    omega

/-! ### Lists -/

theorem readMany_reads {β : Type} {write : β → List UInt8} {R : β → α → Prop} :
    ∀ items : List β, (∀ y ∈ items, Reads read (write y) (R y)) →
      Reads (readMany read items.length) (items.flatMap write) (List.Forall₂ R items)
  | [], _, rest, x, rest', hr => by
    cases hr
    exact ⟨.nil, rfl⟩
  | y :: items, h, rest, x, rest', hr => by
    rw [List.flatMap_cons, List.append_assoc, List.length_cons, readMany] at hr
    rcases h1 : read (write y ++ (items.flatMap write ++ rest)) with _ | ⟨z, r⟩
    · rw [h1] at hr
      cases hr
    obtain ⟨hz, rfl⟩ := h y List.mem_cons_self _ _ _ h1
    rcases h2 : readMany read items.length (items.flatMap write ++ rest) with _ | ⟨zs, r⟩
    · simp only [h1, h2] at hr
      cases hr
    obtain ⟨hzs, rfl⟩ :=
      readMany_reads items (fun y hy => h y (List.mem_cons_of_mem _ hy)) _ _ _ h2
    simp only [h1, h2] at hr
    cases hr
    exact ⟨.cons hz hzs, rfl⟩

/-- Items with their count in front, each with what is read of it. -/
theorem readVector_reads {β : Type} {write : β → List UInt8} {R : β → α → Prop} (limit : Nat)
    {items : List β} (h : ∀ y ∈ items, Reads read (write y) (R y)) :
    Reads (readVector limit read) (vectorBytes write items) (List.Forall₂ R items) := by
  intro rest x rest' hr
  rw [vectorBytes, List.append_assoc, readVector] at hr
  rcases h1 : readWord (unsigned items.length ++ (items.flatMap write ++ rest)) with _ | ⟨n, r⟩
  · rw [h1] at hr
    cases hr
  obtain ⟨rfl, rfl⟩ := readWord_reads _ _ _ _ h1
  simp only [h1] at hr
  split at hr
  · exact readMany_reads items h _ _ _ hr
  · cases hr

theorem forall₂_eq {xs ys : List α} (h : List.Forall₂ (fun x y => y = x) xs ys) : ys = xs := by
  induction h with
  | nil => rfl
  | cons h _ ih => rw [h, ih]

/-- Items with their count in front, if each is read back. -/
theorem readVector_eq {write : α → List UInt8} (limit : Nat) (items : List α)
    (h : ∀ y ∈ items, Reads read (write y) (· = y)) :
    Reads (readVector limit read) (vectorBytes write items) (· = items) :=
  (readVector_reads limit h).mono fun _ => forall₂_eq

/-- Bytes with their count in front. -/
theorem readBlob_reads (contents : List UInt8) : Reads readBlob (blobBytes contents) (· = contents) := by
  intro rest x rest' hr
  rw [blobBytes, List.append_assoc, readBlob] at hr
  rcases h1 : readWord (unsigned contents.length ++ (contents ++ rest)) with _ | ⟨n, r⟩
  · rw [h1] at hr
    cases hr
  obtain ⟨rfl, rfl⟩ := readWord_reads _ _ _ _ h1
  simp only [h1, List.length_append, Nat.le_add_right, if_true, List.take_left, List.drop_left] at hr
  cases hr
  exact ⟨rfl, rfl⟩

theorem fromUTF8_toUTF8 (s : String) :
    String.fromUTF8? s.toUTF8.data.toList.toByteArray = some s := by
  have h : s.toUTF8.data.toList.toByteArray = s.toUTF8 := by
    apply ByteArray.ext
    rw [List.data_toByteArray, Array.toArray_toList]
  rw [h, String.toUTF8_eq_toByteArray]
  unfold String.fromUTF8?
  rw [dif_pos s.isValidUTF8]
  rfl

/-- A name with the count of its bytes in front. -/
theorem readName_reads (name : String) : Reads readName (nameBytes name) (· = name) := by
  intro rest x rest' hr
  rw [readName] at hr
  rcases h1 : readBlob (nameBytes name ++ rest) with _ | ⟨b, r⟩
  · rw [h1] at hr
    cases hr
  obtain ⟨rfl, rfl⟩ := readBlob_reads _ _ _ _ h1
  simp only [h1, fromUTF8_toUTF8] at hr
  split at hr <;> cases hr
  exact ⟨rfl, rfl⟩

/-- One byte that a table gives a meaning. -/
theorem readCode_reads {meaning? : UInt8 → Option α} {b : UInt8} {y : α} (h : meaning? b = some y) :
    Reads (readCode meaning?) [b] (· = y) := by
  intro rest x rest' hr
  simp only [List.cons_append, List.nil_append, readCode, h, Option.map_some] at hr
  cases hr
  exact ⟨rfl, rfl⟩

/-- Items one after the other up to the end. -/
theorem readToEnd_flatMap {write : α → List UInt8} : ∀ (items : List α) {fuel : Nat} {xs : List α},
    (∀ y ∈ items, Reads read (write y) (· = y) ∧ write y ≠ []) →
    readToEnd? read fuel (items.flatMap write) = some xs → xs = items
  | [], 0, _, _, hr | [], _ + 1, _, _, hr => by cases hr; rfl
  | y :: items, fuel, xs, h, hr => by
    obtain ⟨hy, hne⟩ := h y List.mem_cons_self
    obtain ⟨b, bs, hb⟩ := List.exists_cons_of_ne_nil hne
    rw [List.flatMap_cons, hb, List.cons_append] at hr
    cases fuel with
    | zero => cases hr
    | succ fuel =>
      rw [readToEnd?, ← List.cons_append, ← hb] at hr
      rcases h1 : read (write y ++ items.flatMap write) with _ | ⟨z, r⟩
      · rw [h1] at hr
        cases hr
      obtain ⟨rfl, rfl⟩ := hy _ _ _ h1
      simp only [h1] at hr
      obtain ⟨zs, hzs, rfl⟩ := Option.map_eq_some_iff.mp hr
      rw [readToEnd_flatMap items (fun y hy => h y (List.mem_cons_of_mem _ hy)) hzs]

end GuestCall.Wasm
