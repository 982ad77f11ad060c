/-
# JSON in lines

Every text of a JSON value is a text, since a string is escaped one character at a time: a character of
ASCII by other such characters, and any other one by itself. What the writer makes of an object that goes by
lines is one of its texts, if what it makes of the values is.

Key definition: `Json.IsText`, bytes that are the UTF-8 form of a text.
Key theorems: `Json.isText_quoted`, `Json.Spells.isText`, `Json.toUTF8_textOf`, `Json.spells_lines`.
-/
import GuestCall.Proofs.Json.Spelling

namespace GuestCall.Json

/-! ### Texts -/

/-- Some bytes are the UTF-8 form of a text. -/
def IsText (bytes : List UInt8) : Prop := ∃ cs : List Char, cs.flatMap String.utf8EncodeChar = bytes

theorem isText_nil : IsText [] := ⟨[], rfl⟩

theorem IsText.append {first second : List UInt8} (h : IsText first) (h' : IsText second) :
    IsText (first ++ second) := by
  obtain ⟨cs, rfl⟩ := h
  obtain ⟨cs', rfl⟩ := h'
  exact ⟨cs ++ cs', List.flatMap_append⟩

theorem isText_flatMap {α : Type} {write : α → List UInt8} : ∀ {items : List α},
    (∀ x ∈ items, IsText (write x)) → IsText (items.flatMap write)
  | [], _ => isText_nil
  | x :: items, h => by
    rw [List.flatMap_cons]
    exact (h x List.mem_cons_self).append
      (isText_flatMap fun y hy => h y (List.mem_cons_of_mem x hy))

theorem isText_byte {b : UInt8} (h : b < 0x80) : IsText [b] := by
  have hall : ∀ n : Fin 128, String.utf8EncodeChar (Char.ofNat n.val) = [n.val.toUInt8] := by decide
  refine ⟨[Char.ofNat b.toNat], ?_⟩
  rw [List.flatMap_cons, List.flatMap_nil, List.append_nil, hall ⟨b.toNat, UInt8.lt_iff_toNat_lt.mp h⟩]
  exact congrArg ([·]) UInt8.ofNat_toNat

/-- Bytes of ASCII are a text. -/
theorem isText_ascii {bytes : List UInt8} (h : ∀ b ∈ bytes, b < 0x80) : IsText bytes := by
  have hmap : IsText (bytes.flatMap fun b => [b]) := isText_flatMap fun b hb => isText_byte (h b hb)
  rw [List.flatMap_singleton'] at hmap
  exact hmap

theorem IsText.cons {b : UInt8} {bytes : List UInt8} (hb : b < 0x80) (h : IsText bytes) :
    IsText (b :: bytes) :=
  (isText_byte hb).append h

theorem toUTF8_eq_flatMap (s : String) :
    s.toUTF8.data.toList = s.toList.flatMap String.utf8EncodeChar := by
  rw [String.toUTF8_eq_toByteArray, ← String.utf8Encode_toList]
  exact congrArg Array.toList List.data_toByteArray

/-- The digits of a number are its text. -/
theorem toUTF8_toString (n : Nat) : (toString n).toUTF8.data.toList = digits n := by
  have hall : ∀ k : Fin 128, String.utf8EncodeChar (Char.ofNat k.val) = [k.val.toUInt8] := by decide
  have htext : (toString n).toList = Nat.toDigits 10 n := String.toList_ofList
  rw [toUTF8_eq_flatMap, htext, digits, List.map_eq_flatMap]
  refine List.flatMap_congr fun c hc => ?_
  have hdigit := Nat.isDigit_of_mem_toDigits (by decide) (by decide) hc
  have hrange : 48 ≤ c.toNat ∧ c.toNat ≤ 57 := by
    simpa [Char.isDigit, UInt32.le_iff_toNat_le] using hdigit
  have hchar := hall ⟨c.toNat, by omega⟩
  rwa [Char.ofNat_toNat] at hchar

theorem isText_literal (s : String) : IsText (ascii s) := ⟨s.toList, (toUTF8_eq_flatMap s).symm⟩

/-- **Bytes that are a text are its UTF-8 form.** -/
theorem toUTF8_textOf {bytes : List UInt8} (h : IsText bytes) :
    (textOf bytes).toUTF8.data.toList = bytes := by
  obtain ⟨cs, rfl⟩ := h
  have hbytes := toUTF8_eq_flatMap (String.ofList cs)
  rw [String.toList_ofList] at hbytes
  unfold textOf
  rw [← hbytes, Wasm.fromUTF8_toUTF8]
  rfl

/-! ### Texts of values -/

/-- A byte of ASCII is escaped by ASCII, and any other one stands for itself. -/
theorem escapeByte_cases (b : UInt8) :
    (b < 0x80 → ∀ x ∈ escapeByte b, x < 0x80) ∧ (¬ b < 0x80 → escapeByte b = [b]) := by
  have hall : ∀ n : Fin 256, (n.val.toUInt8 < 0x80 → (escapeByte n.val.toUInt8).all (· < 0x80) = true) ∧
      (¬ n.val.toUInt8 < 0x80 → escapeByte n.val.toUInt8 = [n.val.toUInt8]) := by
    decide +kernel
  obtain ⟨hascii, hother⟩ := hall ⟨b.toNat, b.toNat_lt⟩
  have hword : b.toNat.toUInt8 = b := UInt8.ofNat_toNat
  rw [hword] at hascii hother
  refine ⟨fun hb x hx => ?_, hother⟩
  exact of_decide_eq_true (List.all_eq_true.mp (hascii hb) x hx)

/-- A character is one byte of ASCII, or none of its bytes is. -/
theorem utf8EncodeChar_cases (c : Char) :
    (∃ b : UInt8, b < 0x80 ∧ String.utf8EncodeChar c = [b]) ∨
      ∀ b ∈ String.utf8EncodeChar c, ¬ b < 0x80 := by
  -- what marks a byte of a longer character is a high bit
  have hhigh : ∀ {n mark : Nat}, 128 ≤ mark → n + mark < 256 → ¬ UInt8.ofNat (n + mark) < 0x80 := by
    intro n mark hmark hlt
    rw [UInt8.lt_iff_toNat_lt, UInt8.toNat_ofNat_of_lt' hlt]
    exact Nat.not_lt.mpr (Nat.le_trans hmark (Nat.le_add_left mark n))
  fun_cases String.utf8EncodeChar c with
  | case1 v hv =>
    refine .inl ⟨_, ?_, rfl⟩
    rw [UInt8.lt_iff_toNat_lt, UInt8.toNat_ofNat_of_lt' (Nat.lt_of_le_of_lt hv (by decide))]
    exact Nat.lt_succ_of_le hv
  | case2 v =>
    refine .inr ?_
    simp only [List.forall_mem_cons, List.not_mem_nil, false_imp_iff, implies_true, and_true]
    exact ⟨hhigh (by decide) (by omega), hhigh (by decide) (by omega)⟩
  | case3 v =>
    refine .inr ?_
    simp only [List.forall_mem_cons, List.not_mem_nil, false_imp_iff, implies_true, and_true]
    exact ⟨hhigh (by decide) (by omega), hhigh (by decide) (by omega),
      hhigh (by decide) (by omega)⟩
  | case4 v =>
    refine .inr ?_
    simp only [List.forall_mem_cons, List.not_mem_nil, false_imp_iff, implies_true, and_true]
    exact ⟨hhigh (by decide) (by omega), hhigh (by decide) (by omega), hhigh (by decide) (by omega),
      hhigh (by decide) (by omega)⟩

/-- **A string in quotes is a text.** -/
theorem isText_quoted (s : String) : IsText (quoted s) := by
  have hescaped : IsText (s.toUTF8.data.toList.flatMap escapeByte) := by
    rw [toUTF8_eq_flatMap, List.flatMap_assoc]
    refine isText_flatMap fun c _ => ?_
    rcases utf8EncodeChar_cases c with ⟨b, hb, hc⟩ | hc
    · rw [hc, List.flatMap_singleton]
      exact isText_ascii ((escapeByte_cases b).1 hb)
    · have hsame : (String.utf8EncodeChar c).flatMap escapeByte = String.utf8EncodeChar c := by
        have hbytes := List.flatMap_congr fun b hb => (escapeByte_cases b).2 (hc b hb)
        exact hbytes.trans (List.flatMap_singleton' _)
      rw [hsame]
      exact ⟨[c], List.flatMap_singleton ..⟩
  exact .cons (by decide) (hescaped.append (isText_byte (by decide)))

theorem Blanks.isText {gap : List UInt8} (h : Blanks gap) : IsText gap := by
  refine isText_ascii fun b hb => ?_
  have hblank := h b hb
  simp only [isBlank, Bool.or_eq_true, beq_iff_eq] at hblank
  rcases hblank with ((rfl | rfl) | rfl) | rfl <;> decide

theorem isText_digits (n : Nat) : IsText (digits n) := by
  refine isText_ascii fun b hb => ?_
  have hdigit := isDigit_digits n b hb
  simp only [isDigit, Bool.and_eq_true, decide_eq_true_eq] at hdigit
  exact UInt8.lt_of_le_of_lt hdigit.2 (by decide)

mutual

/-- **Every text of a value is a text.** -/
theorem Spells.isText {j : Json} {bytes : List UInt8} (h : Spells j bytes) : IsText bytes := by
  cases h with
  | null => exact isText_literal "null"
  | bool b => cases b <;> exact isText_literal _
  | number n => exact isText_digits n
  | string s => exact isText_quoted s
  | emptyArray hgap => exact .cons (by decide) (hgap.isText.append (isText_byte (by decide)))
  | array hitems => exact .cons (by decide) hitems.isText
  | emptyObject hgap => exact .cons (by decide) (hgap.isText.append (isText_byte (by decide)))
  | object hmembers => exact .cons (by decide) hmembers.isText

@[inherit_doc Spells.isText]
theorem SpellsItems.isText {items : List Json} {bytes : List UInt8} (h : SpellsItems items bytes) :
    IsText bytes := by
  cases h with
  | last hbefore hitem hafter =>
    exact ((hbefore.isText.append hitem.isText).append hafter.isText).append (isText_byte (by decide))
  | cons hbefore hitem hafter hrest =>
    exact ((hbefore.isText.append hitem.isText).append hafter.isText).append
      (.cons (by decide) hrest.isText)

@[inherit_doc Spells.isText]
theorem SpellsMembers.isText {members : List (String × Json)} {bytes : List UInt8}
    (h : SpellsMembers members bytes) : IsText bytes := by
  cases h with
  | last hbefore hcolon hvalue hafter =>
    exact ((((hbefore.isText.append (isText_quoted _)).append (.cons (by decide) hcolon.isText)).append
      hvalue.isText).append hafter.isText).append (isText_byte (by decide))
  | cons hbefore hcolon hvalue hafter hrest =>
    exact ((((hbefore.isText.append (isText_quoted _)).append (.cons (by decide) hcolon.isText)).append
      hvalue.isText).append hafter.isText).append (.cons (by decide) hrest.isText)

end

/-! ### What the writer makes -/

theorem blanks_newLine (level : Nat) : Blanks (newLine level) := by
  intro b hb
  rcases List.mem_cons.mp hb with rfl | hb
  · rfl
  · rw [(List.mem_replicate.mp hb).2]
    rfl

theorem blanks_space : Blanks [0x20] := by
  intro b hb
  rw [List.mem_singleton.mp hb]
  rfl

theorem spellsMembers_lines {level : Nat} : ∀ {members : List (String × Json)}, members ≠ [] →
    (∀ m ∈ members, Spells m.2 (prettyAt level m.2)) →
    ∀ below, SpellsMembers members (prettyMembers level members ++ newLine below ++ [0x7D])
  | [], hne, _, _ => absurd rfl hne
  | [(key, value)], _, h, below => by
    have hlast : SpellsMembers [(key, value)] _ := .last (blanks_newLine level) blanks_space
      (h (key, value) List.mem_cons_self) (blanks_newLine below)
    rw [prettyMembers]
    simpa only [List.append_assoc, List.cons_append, List.nil_append] using hlast
  | (key, value) :: next :: members, _, h, below => by
    have hrest := spellsMembers_lines (List.cons_ne_nil next members)
      (fun m hm => h m (List.mem_cons_of_mem _ hm)) below
    have hcons : SpellsMembers ((key, value) :: next :: members) _ :=
      .cons (blanks_newLine level) blanks_space
      (h (key, value) List.mem_cons_self) blanks_nil hrest
    rw [prettyMembers.eq_3 _ _ _ _ (List.cons_ne_nil next members)]
    simpa only [List.append_assoc, List.cons_append, List.nil_append] using hcons

/-- An object goes by lines as a text of it if its values do. -/
theorem spells_lines {members : List (String × Json)} (level : Nat)
    (h : ∀ m ∈ members, Spells m.2 (prettyAt (level + 1) m.2)) :
    Spells (.object members) (prettyAt level (.object members)) := by
  cases members with
  | nil =>
    rw [prettyAt]
    exact .emptyObject blanks_nil
  | cons m members =>
    rw [prettyAt, List.cons_append, List.cons_append]
    exact .object (spellsMembers_lines (List.cons_ne_nil m members) h level)

end GuestCall.Json
