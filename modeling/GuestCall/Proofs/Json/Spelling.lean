/-
# Texts of JSON values

A value has many texts: blanks may stand between the tokens. Whatever blanks there are, the reader finds
the value again, and takes no more than its text, so long as what follows cannot be taken for the rest of a
number. What the compact writer makes of a value is one of its texts.

Key definitions: `Json.Spells`, the texts of a value, with `Json.Blanks`.
Key theorems: `Json.readValue_spelled`, `Json.ofBytes?_spelled`, `Json.spells_array`, `Json.spells_object`.
-/
import GuestCall.Proofs.Json.Token

namespace GuestCall.Json

/-! ### Values -/

/-- Bytes that may stand between tokens. -/
def Blanks (bytes : List UInt8) : Prop := ∀ b ∈ bytes, isBlank b = true

mutual

/-- Some bytes are a text of a value, without blanks around it. -/
inductive Spells : Json → List UInt8 → Prop
  | null : Spells .null (ascii "null")
  | bool (b : Bool) : Spells (.bool b) (compact (.bool b))
  | number (n : Nat) : Spells (.number n) (digits n)
  | string (s : String) : Spells (.string s) (quoted s)
  | emptyArray {gap : List UInt8} (h : Blanks gap) : Spells (.array []) (0x5B :: gap ++ [0x5D])
  | array {items : List Json} {bytes : List UInt8} (h : SpellsItems items bytes) :
    Spells (.array items) (0x5B :: bytes)
  | emptyObject {gap : List UInt8} (h : Blanks gap) : Spells (.object []) (0x7B :: gap ++ [0x7D])
  | object {members : List (String × Json)} {bytes : List UInt8} (h : SpellsMembers members bytes) :
    Spells (.object members) (0x7B :: bytes)

/-- Some bytes are a text of items up to the bracket that closes them. -/
inductive SpellsItems : List Json → List UInt8 → Prop
  | last {item : Json} {before bytes after : List UInt8} (hbefore : Blanks before)
    (hitem : Spells item bytes) (hafter : Blanks after) :
    SpellsItems [item] (before ++ bytes ++ after ++ [0x5D])
  | cons {item : Json} {items : List Json} {before bytes after rest : List UInt8}
    (hbefore : Blanks before) (hitem : Spells item bytes) (hafter : Blanks after)
    (hrest : SpellsItems items rest) :
    SpellsItems (item :: items) (before ++ bytes ++ after ++ 0x2C :: rest)

/-- Some bytes are a text of members up to the brace that closes them. -/
inductive SpellsMembers : List (String × Json) → List UInt8 → Prop
  | last {key : String} {value : Json} {before colon bytes after : List UInt8}
    (hbefore : Blanks before) (hcolon : Blanks colon) (hvalue : Spells value bytes)
    (hafter : Blanks after) :
    SpellsMembers [(key, value)] (before ++ quoted key ++ 0x3A :: colon ++ bytes ++ after ++ [0x7D])
  | cons {key : String} {value : Json} {members : List (String × Json)}
    {before colon bytes after rest : List UInt8} (hbefore : Blanks before) (hcolon : Blanks colon)
    (hvalue : Spells value bytes) (hafter : Blanks after) (hrest : SpellsMembers members rest) :
    SpellsMembers ((key, value) :: members)
      (before ++ quoted key ++ 0x3A :: colon ++ bytes ++ after ++ 0x2C :: rest)

end

theorem skipBlanks_append {gap rest : List UInt8} (h : Blanks gap) :
    skipBlanks (gap ++ rest) = skipBlanks rest := by
  induction gap with
  | nil => rfl
  | cons b gap ih =>
    rw [List.cons_append, skipBlanks, if_pos (h b List.mem_cons_self),
      ih fun b hb => h b (List.mem_cons_of_mem _ hb)]

theorem blanks_nil : Blanks [] := fun _ hb => nomatch hb

/-- Blanks go on with no number. -/
theorem apart_blanks {gap rest : List UInt8} (h : Blanks gap) (hrest : Apart rest) :
    Apart (gap ++ rest) := by
  cases gap with
  | nil => exact hrest
  | cons g gap =>
    refine apart_cons ?_ _
    have hg := h g List.mem_cons_self
    simp only [isBlank, Bool.or_eq_true, beq_iff_eq] at hg
    rcases hg with ((rfl | rfl) | rfl) | rfl <;> decide

/-- The first byte of a text says which kind of value it is. -/
theorem Spells.first {j : Json} {bytes : List UInt8} (h : Spells j bytes) : ∃ b tail,
    bytes = b :: tail ∧ isBlank b = false ∧ b ≠ 0x5D := by
  cases h with
  | null => exact ⟨_, _, rfl, by decide⟩
  | bool b => cases b <;> exact ⟨_, _, rfl, by decide⟩
  | number n =>
    obtain ⟨first, more, hdigits, -⟩ := digits_first n
    have hfirst := isDigit_digits n first (by rw [hdigits]; exact List.mem_cons_self)
    refine ⟨first, more, hdigits, ?_⟩
    simp only [isDigit, Bool.and_eq_true, decide_eq_true_eq, UInt8.le_iff_toNat_le] at hfirst
    have hne : ∀ b : UInt8, b.toNat < 48 ∨ 57 < b.toNat → first ≠ b := by
      rintro b hb rfl
      have hlo : 48 ≤ first.toNat := hfirst.1
      have hhi : first.toNat ≤ 57 := hfirst.2
      omega
    refine ⟨?_, hne _ (by decide)⟩
    simp [isBlank, hne]
  | string s => exact ⟨_, _, rfl, by decide⟩
  | emptyArray h => exact ⟨_, _, rfl, by decide⟩
  | array h => exact ⟨_, _, rfl, by decide⟩
  | emptyObject h => exact ⟨_, _, rfl, by decide⟩
  | object h => exact ⟨_, _, rfl, by decide⟩

/-- The text of a value starts with its first byte, whatever blanks are passed over. -/
theorem Spells.skip {j : Json} {bytes : List UInt8} (h : Spells j bytes) (rest : List UInt8) :
    skipBlanks (bytes ++ rest) = bytes ++ rest := by
  obtain ⟨b, tail, rfl, hb, -⟩ := h.first
  rw [List.cons_append, skipBlanks, hb]
  rfl

theorem skipBlanks_cons {b : UInt8} (h : isBlank b = false) (rest : List UInt8) :
    skipBlanks (b :: rest) = b :: rest := by
  rw [skipBlanks, h]
  rfl

theorem skipBlanks_skipBlanks (bytes : List UInt8) :
    skipBlanks (skipBlanks bytes) = skipBlanks bytes := by
  induction bytes with
  | nil => rfl
  | cons b bytes ih =>
    cases hb : isBlank b with
    | true => rw [skipBlanks, if_pos hb, ih]
    | false => rw [skipBlanks_cons hb, skipBlanks_cons hb]

/-- Blanks in front of a value are passed over. -/
theorem readValue_skip {bytes bytes' : List UInt8} (h : skipBlanks bytes = skipBlanks bytes')
    (fuel : Nat) : readValue fuel bytes = readValue fuel bytes' := by
  cases fuel with
  | zero => rw [readValue, readValue]
  | succ fuel => rw [readValue, readValue, h]

@[inherit_doc readValue_skip]
theorem readItems_skip {bytes bytes' : List UInt8} (h : skipBlanks bytes = skipBlanks bytes')
    (fuel : Nat) : readItems fuel bytes = readItems fuel bytes' := by
  cases fuel with
  | zero => rw [readItems, readItems]
  | succ fuel => rw [readItems, readItems, readValue_skip h]

@[inherit_doc readValue_skip]
theorem readMembers_skip {bytes bytes' : List UInt8} (h : skipBlanks bytes = skipBlanks bytes')
    (fuel : Nat) : readMembers fuel bytes = readMembers fuel bytes' := by
  cases fuel with
  | zero => rw [readMembers, readMembers]
  | succ fuel => rw [readMembers, readMembers, readKey, readKey, h]

/-- The key of a member is read with the colon after it. -/
theorem readKey_spelled {before : List UInt8} (h : Blanks before) (key : String) (rest : List UInt8) :
    readKey (before ++ (quoted key ++ 0x3A :: rest)) = some (some key, rest) := by
  obtain ⟨c, hc, htext⟩ := readString_quoted key (0x3A :: rest)
  have hskip : skipBlanks (before ++ (quoted key ++ 0x3A :: rest)) =
      0x22 :: ((quoted key).tail ++ 0x3A :: rest) := by
    rw [skipBlanks_append h, (Spells.string key).skip]
    rfl
  have hcolon : skipBlanks (0x3A :: rest) = 0x3A :: rest := rfl
  simp only [readKey, hskip, hc, hcolon, htext, if_true]

theorem objectOf_map (members : List (String × Json)) :
    objectOf (members.map fun m => (some m.1, m.2)) = .object members := by
  have hkeys : (members.map fun m => (some m.1, m.2)).mapM
      (fun m : Option String × Json => m.1.map fun key => (key, m.2)) = some members := by
    induction members with
    | nil => rfl
    | cons m members ih =>
      rw [List.map_cons, List.mapM_cons, ih]
      rfl
  unfold objectOf
  rw [hkeys]

/-- The items of an array do not start with the bracket that closes it. -/
theorem SpellsItems.first {items : List Json} {bytes : List UInt8} (h : SpellsItems items bytes)
    (rest : List UInt8) : ∃ b tail, skipBlanks (bytes ++ rest) = b :: tail ∧ b ≠ 0x5D := by
  have hfirst : ∀ {item : Json} {before bytes : List UInt8}, Blanks before → Spells item bytes →
      ∀ rest, ∃ b tail, skipBlanks (before ++ (bytes ++ rest)) = b :: tail ∧ b ≠ 0x5D := by
    intro item before bytes hbefore hitem rest
    obtain ⟨b, tail, hb, -, hne⟩ := hitem.first
    refine ⟨b, tail ++ rest, ?_, hne⟩
    rw [skipBlanks_append hbefore, hitem.skip, hb, List.cons_append]
  cases h with
  | last hbefore hitem =>
    simp only [List.append_assoc]
    exact hfirst hbefore hitem _
  | cons hbefore hitem =>
    simp only [List.append_assoc]
    exact hfirst hbefore hitem _

/-- The members of an object start with the quote of a key. -/
theorem SpellsMembers.first {members : List (String × Json)} {bytes : List UInt8}
    (h : SpellsMembers members bytes) (rest : List UInt8) :
    ∃ tail, skipBlanks (bytes ++ rest) = 0x22 :: tail := by
  have hfirst : ∀ {before : List UInt8}, Blanks before → ∀ (key : String) (rest : List UInt8),
      ∃ tail, skipBlanks (before ++ (quoted key ++ rest)) = 0x22 :: tail := by
    intro before hbefore key rest
    refine ⟨(quoted key).tail ++ rest, ?_⟩
    rw [skipBlanks_append hbefore, (Spells.string key).skip]
    rfl
  cases h with
  | last hbefore =>
    simp only [List.append_assoc]
    exact hfirst hbefore _ _
  | cons hbefore =>
    simp only [List.append_assoc]
    exact hfirst hbefore _ _

mutual

/-- **A value is read from each of its texts**, and no more is taken than the text. -/
theorem readValue_spelled {j : Json} {bytes : List UInt8} (h : Spells j bytes) (fuel : Nat)
    (hfuel : 2 * bytes.length ≤ fuel) {rest : List UInt8} (hrest : Apart rest) :
    readValue fuel (bytes ++ rest) = some (j, rest) := by
  obtain ⟨b, tail, hb, -⟩ := h.first
  have hlength : bytes.length = tail.length + 1 := congrArg List.length hb
  obtain ⟨fuel, rfl⟩ : ∃ n, fuel = n + 1 := ⟨fuel - 1, by omega⟩
  rw [readValue, h.skip]
  cases h with
  | null => rfl
  | bool b => cases b <;> rfl
  | number n =>
    -- A digit is the first byte of nothing but a number.
    have hdigit := isDigit_digits n b (by rw [hb]; exact List.mem_cons_self)
    have hne : ∀ x : UInt8, isDigit x = false → b ≠ x := by
      rintro x hx rfl
      rw [hx] at hdigit
      cases hdigit
    have hread := readUnsigned_digits n hrest
    rw [hb, List.cons_append] at hread ⊢
    simp only [hne 0x6E rfl, hne 0x74 rfl, hne 0x66 rfl, hne 0x22 rfl, hne 0x5B rfl, hne 0x7B rfl,
      if_false, readNumber, hne 0x2D rfl, hread]
  | string s =>
    obtain ⟨c, hc, htext⟩ := readString_quoted s rest
    have hbytes : quoted s ++ rest = 0x22 :: ((quoted s).tail ++ rest) := rfl
    rw [hbytes]
    simp only [hc, htext, Option.map_some]
    rfl
  | @emptyArray gap hgap =>
    have hskip : skipBlanks (gap ++ 0x5D :: rest) = 0x5D :: rest := by
      rw [skipBlanks_append hgap, skipBlanks_cons (by decide)]
    simp only [List.cons_append, List.append_assoc, List.nil_append, hskip]
    rfl
  | array hitems =>
    cases hb
    obtain ⟨first, more, hskip, hfirst⟩ := hitems.first rest
    have hsame : skipBlanks (first :: more) = skipBlanks (tail ++ rest) := by
      rw [← hskip, skipBlanks_skipBlanks]
    have hread := readItems_spelled hitems fuel (by omega) rest
    rw [← readItems_skip hsame] at hread
    simp only [List.cons_append, hskip, if_neg hfirst, hread]
    rfl
  | @emptyObject gap hgap =>
    have hskip : skipBlanks (gap ++ 0x7D :: rest) = 0x7D :: rest := by
      rw [skipBlanks_append hgap, skipBlanks_cons (by decide)]
    simp only [List.cons_append, List.append_assoc, List.nil_append, hskip]
    rfl
  | object hmembers =>
    cases hb
    obtain ⟨more, hskip⟩ := hmembers.first rest
    have hsame : skipBlanks (0x22 :: more) = skipBlanks (tail ++ rest) := by
      rw [← hskip, skipBlanks_skipBlanks]
    have hread := readMembers_spelled hmembers fuel (by omega) rest
    rw [← readMembers_skip hsame] at hread
    simp only [List.cons_append, hskip, hread, Option.map_some, objectOf_map]
    rfl
termination_by bytes.length

/-- Items are read up to the bracket that closes them. -/
theorem readItems_spelled {items : List Json} {bytes : List UInt8} (h : SpellsItems items bytes)
    (fuel : Nat) (hfuel : 2 * bytes.length < fuel) (rest : List UInt8) :
    readItems fuel (bytes ++ rest) = some (items, rest) := by
  obtain ⟨fuel, rfl⟩ : ∃ n, fuel = n + 1 := ⟨fuel - 1, by omega⟩
  cases h with
  | @last item before bytes after hbefore hitem hafter =>
    have hvalue := readValue_spelled hitem fuel
      (by simp only [List.length_append, List.length_singleton] at hfuel; omega)
      (apart_blanks hafter (apart_cons (b := 0x5D) (by decide) rest))
    rw [readItems]
    simp only [List.append_assoc, List.singleton_append,
      readValue_skip (skipBlanks_append hbefore), hvalue, skipBlanks_append hafter]
    rfl
  | @cons item items before bytes after more hbefore hitem hafter hmore =>
    have hlength := hfuel
    simp only [List.length_append, List.length_cons] at hlength
    have hvalue := readValue_spelled hitem fuel (by omega)
      (apart_blanks hafter (apart_cons (b := 0x2C) (by decide) (more ++ rest)))
    have hitems := readItems_spelled hmore fuel (by omega) rest
    rw [readItems]
    simp only [List.append_assoc, List.cons_append, readValue_skip (skipBlanks_append hbefore), hvalue,
      skipBlanks_append hafter, skipBlanks_cons (show isBlank 0x2C = false from rfl), hitems]
    rfl
termination_by bytes.length

/-- Members are read up to the brace that closes them. -/
theorem readMembers_spelled {members : List (String × Json)} {bytes : List UInt8}
    (h : SpellsMembers members bytes) (fuel : Nat) (hfuel : 2 * bytes.length < fuel)
    (rest : List UInt8) :
    readMembers fuel (bytes ++ rest) = some (members.map fun m => (some m.1, m.2), rest) := by
  obtain ⟨fuel, rfl⟩ : ∃ n, fuel = n + 1 := ⟨fuel - 1, by omega⟩
  cases h with
  | @last key value before colon bytes after hbefore hcolon hvalue hafter =>
    have hlength := hfuel
    simp only [List.length_append, List.length_cons, List.length_nil] at hlength
    have hread := readValue_spelled hvalue fuel (by omega)
      (apart_blanks hafter (apart_cons (b := 0x7D) (by decide) rest))
    rw [readMembers]
    simp only [List.append_assoc, List.cons_append, List.nil_append, readKey_spelled hbefore,
      readValue_skip (skipBlanks_append hcolon), hread, skipBlanks_append hafter,
      skipBlanks_cons (show isBlank 0x7D = false from rfl)]
    rfl
  | @cons key value members before colon bytes after more hbefore hcolon hvalue hafter hmore =>
    have hlength := hfuel
    simp only [List.length_append, List.length_cons] at hlength
    have hread := readValue_spelled hvalue fuel (by omega)
      (apart_blanks hafter (apart_cons (b := 0x2C) (by decide) (more ++ rest)))
    have hmembers := readMembers_spelled hmore fuel (by omega) rest
    rw [readMembers]
    simp only [List.append_assoc, List.cons_append, readKey_spelled hbefore,
      readValue_skip (skipBlanks_append hcolon), hread, skipBlanks_append hafter,
      skipBlanks_cons (show isBlank 0x2C = false from rfl), hmembers]
    rfl
termination_by bytes.length

end

/-- **Some bytes are read as the value that they are a text of**, whatever blanks are around it. -/
theorem ofBytes?_spelled {j : Json} {before bytes after : List UInt8} (hbefore : Blanks before)
    (h : Spells j bytes) (hafter : Blanks after) : ofBytes? (before ++ (bytes ++ after)) = some j := by
  have hrest := apart_blanks hafter apart_nil
  rw [List.append_nil] at hrest
  have hread := readValue_spelled h (2 * (before ++ (bytes ++ after)).length + 2)
    (by simp only [List.length_append]; omega) hrest
  have hend : skipBlanks (after ++ []) = skipBlanks [] := skipBlanks_append hafter
  rw [List.append_nil] at hend
  unfold ofBytes?
  rw [readValue_skip (skipBlanks_append hbefore), hread]
  dsimp only
  rw [hend]
  rfl

/-! ### What the writers make -/

theorem spellsItems_compact : ∀ {items : List Json}, items ≠ [] →
    (∀ item ∈ items, Spells item item.compact) → SpellsItems items (compactItems items ++ [0x5D])
  | [], hne, _ => absurd rfl hne
  | [item], _, h => by
    have hlast := SpellsItems.last blanks_nil (h item List.mem_cons_self) blanks_nil
    rw [List.nil_append, List.append_nil] at hlast
    exact hlast
  | item :: next :: items, _, h => by
    have hrest := spellsItems_compact (List.cons_ne_nil next items)
      fun item hitem => h item (List.mem_cons_of_mem _ hitem)
    have hcons := SpellsItems.cons blanks_nil (h item List.mem_cons_self) blanks_nil hrest
    rw [List.nil_append, List.append_nil] at hcons
    rw [compactItems.eq_3 _ _ (List.cons_ne_nil next items), List.append_assoc, List.cons_append]
    exact hcons

theorem spellsMembers_compact : ∀ {members : List (String × Json)}, members ≠ [] →
    (∀ m ∈ members, Spells m.2 m.2.compact) →
    SpellsMembers members (compactMembers members ++ [0x7D])
  | [], hne, _ => absurd rfl hne
  | [(key, value)], _, h => by
    have hlast : SpellsMembers [(key, value)] _ := .last blanks_nil blanks_nil
      (h (key, value) List.mem_cons_self) blanks_nil
    rw [compactMembers]
    simpa only [List.append_assoc, List.cons_append, List.nil_append] using hlast
  | (key, value) :: next :: members, _, h => by
    have hrest := spellsMembers_compact (List.cons_ne_nil next members)
      fun m hm => h m (List.mem_cons_of_mem _ hm)
    have hcons : SpellsMembers ((key, value) :: next :: members) _ := .cons blanks_nil blanks_nil
      (h (key, value) List.mem_cons_self) blanks_nil hrest
    rw [compactMembers.eq_3 _ _ _ (List.cons_ne_nil next members)]
    simpa only [List.append_assoc, List.cons_append, List.nil_append] using hcons

/-- An array is written as a text of it if its items are. -/
theorem spells_array {items : List Json} (h : ∀ item ∈ items, Spells item item.compact) :
    Spells (.array items) (compact (.array items)) := by
  rw [compact, List.cons_append]
  cases items with
  | nil => exact .emptyArray blanks_nil
  | cons item items => exact .array (spellsItems_compact (List.cons_ne_nil item items) h)

/-- An object is written as a text of it if the values of its members are. -/
theorem spells_object {members : List (String × Json)} (h : ∀ m ∈ members, Spells m.2 m.2.compact) :
    Spells (.object members) (compact (.object members)) := by
  rw [compact, List.cons_append]
  cases members with
  | nil => exact .emptyObject blanks_nil
  | cons m members => exact .object (spellsMembers_compact (List.cons_ne_nil m members) h)

end GuestCall.Json
