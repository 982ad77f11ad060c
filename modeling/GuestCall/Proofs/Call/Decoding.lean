/-
# Buffer results are decoded exactly

A buffer result is an address that the guest returns. What comes of it depends on the bytes of the memory
alone, and on nothing that the host assumes of them: the descriptor has to lie in the memory, its capacity has
to fit the address space and cover its length, the memory has to cover the data, and a text has to be one. The
first of these that fails is the error. If none does, the value has just the elements that stand in the memory.

Nothing is assumed here but that the memory does not take up all addresses.

Key definitions: `Memory.wordAt`, `Memory.descriptorAt`; `Descriptor.Covered`, `Descriptor.uncovered`,
`Descriptor.Legible`, and `Descriptor.Reads`, what the data of a descriptor is read as.
Key theorems: `Descriptor.read_inside`, `Descriptor.read_cut`, `isDecimal_iff`, `decodeResult_reads`,
`buffer_result_is_decoded`.
-/
import GuestCall.Proofs.Call.Descriptor
import GuestCall.Proofs.Call.Staleness
import GuestCall.Proofs.Memory.Runs

namespace GuestCall

open Ledger GuestCall.Action

/-! ### The descriptor in the memory -/

/-- The word that stands at a place of a memory, lowest byte first. -/
def Memory.wordAt (m : Memory) (start : Nat) : UInt32 := LittleEndian.get32 fun i => m.byteAt (start + i)

/-- The descriptor that stands at a place of a memory. -/
def Memory.descriptorAt (m : Memory) (start : Nat) : Descriptor :=
  ⟨m.wordAt start, m.wordAt (start + 4), m.wordAt (start + 8)⟩

theorem Memory.elementsAt_words (style : AccessStyle) (m : Memory) (count start : Nat) :
    m.elementsAt style .u32 count start = (List.range count).map fun i => m.wordAt (start + i * 4) :=
  List.map_congr_left fun _ _ => style.decode_eq .u32 _

namespace Descriptor

variable {style : AccessStyle} {m : Memory} {address : UInt32}

/-- The fields of a descriptor are three words one after the other. -/
theorem read_of_words {items : List UInt32} {e? : Option BindError}
    (h : m.readElements style .u32 3 address = (items, e?)) :
    (∃ e, e? = some e ∧ read style m address = .error e) ∨
      ∃ d : Descriptor, e? = none ∧ items = [d.ptr, d.len, d.cap] ∧ read style m address = .ok d := by
  have hfirst : address + ptrOffset = address := UInt32.add_zero address
  have hthird : address + ScalarKind.u32.width.toUInt32 + ScalarKind.u32.width.toUInt32 =
      address + capOffset := UInt32.add_assoc ..
  revert h
  unfold Memory.readElements Memory.readElementsFrom Memory.readElementsFrom Memory.readElementsFrom read
  rw [hthird, show ScalarKind.u32.width.toUInt32 = lenOffset from rfl, hfirst]
  rcases m.readElement style address .u32 with e | ptr
  · rintro ⟨⟩
    exact .inl ⟨e, rfl, rfl⟩
  rcases m.readElement style (address + lenOffset) .u32 with e | len
  · rintro ⟨⟩
    exact .inl ⟨e, rfl, rfl⟩
  rcases m.readElement style (address + capOffset) .u32 with e | cap
  · rintro ⟨⟩
    exact .inl ⟨e, rfl, rfl⟩
  · rintro ⟨⟩
    exact .inr ⟨⟨ptr, len, cap⟩, rfl, rfl, rfl⟩

theorem read_of_three {ptr len cap : UInt32}
    (h : m.readElements style .u32 3 address = ([ptr, len, cap], none)) :
    read style m address = .ok ⟨ptr, len, cap⟩ := by
  rcases read_of_words h with ⟨e, he, -⟩ | ⟨d, -, hitems, hread⟩
  · cases he
  · obtain ⟨ptr', len', cap'⟩ := d
    cases hitems
    exact hread

/-- A descriptor that lies in the memory is the one that stands there. -/
theorem read_inside (style : AccessStyle) (hsize : m.size ≤ 2 ^ 32)
    (hinside : address.toNat + width.toNat ≤ m.size) :
    read style m address = .ok (m.descriptorAt address.toNat) := by
  have hwords : m.readElements style .u32 3 address = (m.elementsAt style .u32 3 address.toNat, none) :=
    Memory.readElements_eq_ok style hsize hinside
  rw [Memory.elementsAt_words] at hwords
  exact read_of_three hwords

/-- A descriptor that the memory is too short for is out of bounds, at its first field that does not fit. -/
theorem read_cut (style : AccessStyle) (hsize : m.size ≤ 2 ^ 32)
    (hcut : m.size < address.toNat + width.toNat)
    (hend : address.toNat + m.roomFor .u32 address.toNat * 4 < 2 ^ 32) : read style m address =
      .error (.outOfBounds (address.toNat + m.roomFor .u32 address.toNat * 4) 4 m.size) := by
  have hwords := Memory.readElements_short style hsize (show 0 < 3 by decide) hcut hend
  rcases read_of_words hwords with ⟨e, he, hread⟩ | ⟨d, hnone, -⟩
  · cases he
    exact hread
  · cases hnone

end Descriptor

/-! ### What the data is read as -/

/-- An optional minus sign and at least one digit. -/
def IsDecimal (cs : List Char) : Prop :=
  ∃ sign digits, cs = sign ++ digits ∧ (sign = [] ∨ sign = ['-']) ∧ digits ≠ [] ∧
    ∀ c ∈ digits, '0' ≤ c ∧ c ≤ '9'

theorem isDigit_iff (c : Char) : c.isDigit = true ↔ '0' ≤ c ∧ c ≤ '9' := by
  unfold Char.isDigit
  rw [Bool.and_eq_true, decide_eq_true_eq, decide_eq_true_eq]
  exact Iff.rfl

theorem isDecimal_iff {cs : List Char} : isDecimal cs = true ↔ IsDecimal cs := by
  have hdigits : ∀ digits : List Char, (!digits.isEmpty && digits.all Char.isDigit) = true ↔
      digits ≠ [] ∧ ∀ c ∈ digits, '0' ≤ c ∧ c ≤ '9' := fun digits => by
    rw [Bool.and_eq_true, List.all_eq_true, Bool.not_eq_true', List.isEmpty_eq_false_iff]
    simp only [isDigit_iff]
  unfold isDecimal
  dsimp only
  rw [hdigits]
  constructor
  · intro h
    by_cases hminus : cs.head? = some '-'
    · rw [if_pos hminus] at h
      exact ⟨['-'], cs.tail, List.eq_cons_of_mem_head? hminus, .inr rfl, h⟩
    · rw [if_neg hminus] at h
      exact ⟨[], cs, rfl, .inl rfl, h⟩
  · rintro ⟨sign, digits, rfl, rfl | rfl, h⟩
    · have hminus : digits.head? ≠ some '-' := fun hhead =>
        absurd (h.2 '-' (List.mem_of_mem_head? hhead)) (by decide)
      rwa [List.nil_append, if_neg hminus]
    · rwa [List.singleton_append, List.head?_cons, if_pos rfl, List.tail_cons]

theorem Memory.elementsAt_style (style : AccessStyle) (m : Memory) (kind : ScalarKind) (count start : Nat) :
    m.elementsAt style kind count start = m.elementsAt .littleEndian kind count start :=
  List.map_congr_left fun _ _ => style.decode_eq kind _

namespace Descriptor

/-- The data of a descriptor is the UTF-8 form of a text. -/
def Spells (m : Memory) (d : Descriptor) (text : String) : Prop :=
  text.toUTF8 = (m.bytesAt d.len.toNat d.ptr.toNat).toByteArray

/-- The memory covers the data of a descriptor. An array without elements may be anywhere. -/
def Covered (m : Memory) (d : Descriptor) (ret : ReturnKind) : Prop :=
  d.ptr.toNat + d.len.toNat * ret.elementWidth ≤ m.size ∨ d.len = 0 ∧ ∃ kind, ret = .vec kind

/-- The places of the elements stay below the end of all addresses, up to the first that does not fit. -/
def StaysBelow (m : Memory) (d : Descriptor) (ret : ReturnKind) : Prop :=
  ∀ kind, ret = .vec kind → d.ptr.toNat + m.roomFor kind d.ptr.toNat * kind.width < 2 ^ 32

theorem covered_text {m : Memory} {d : Descriptor} {ret : ReturnKind} (hret : ret = .str ∨ ret = .bigDecimal) :
    d.Covered m ret ↔ d.ptr.toNat + d.len.toNat ≤ m.size := by
  have hwidth : d.len.toNat * ret.elementWidth = d.len.toNat := by
    rcases hret with rfl | rfl <;> exact Nat.mul_one _
  unfold Covered
  rw [hwidth, or_iff_left]
  rintro ⟨-, kind, rfl⟩
  rcases hret with hret | hret <;> cases hret

/-- An array that the memory does not cover has elements, and they reach out of it. -/
theorem short_of_not_covered {m : Memory} {d : Descriptor} {kind : ScalarKind}
    (h : ¬ d.Covered m (.vec kind)) :
    0 < d.len.toNat ∧ m.size < d.ptr.toNat + d.len.toNat * kind.width := by
  rw [Covered, not_or] at h
  refine ⟨Nat.pos_of_ne_zero fun hzero => ?_, Nat.lt_of_not_le h.1⟩
  exact h.2 ⟨UInt32.toNat_inj.mp hzero, kind, rfl⟩

/-- The error of data that the memory does not cover: the first element that does not fit is out of bounds, or
the text as a whole. -/
def uncovered (m : Memory) (d : Descriptor) : ReturnKind → BindError
  | .vec kind =>
    .outOfBounds (d.ptr.toNat + m.roomFor kind d.ptr.toNat * kind.width) kind.width m.size
  | _ => .outOfBounds d.ptr.toNat d.len.toNat m.size

/-- Whether the data of a descriptor, which the memory covers, is good for a result of some kind. -/
def Legible (m : Memory) (d : Descriptor) : ReturnKind → Prop
  | .str => ∃ text, d.Spells m text
  | .bigDecimal => ∃ text, d.Spells m text ∧ IsDecimal text.toList
  | _ => True

/-- What the data of a descriptor, which the memory covers, is read as: just the elements that stand there, or
the text whose UTF-8 form stands there. -/
inductive Reads (name : String) (m : Memory) (d : Descriptor) : ReturnKind → Except BindError Value → Prop
  | vec (kind : ScalarKind) : Reads name m d (.vec kind)
    (.ok (.array (.ofElements kind (m.elementsAt .littleEndian kind d.len.toNat d.ptr.toNat))))
  | str {text : String} (spells : d.Spells m text) : Reads name m d .str (.ok (.str text))
  | bigDecimal {text : String} (spells : d.Spells m text) (decimal : IsDecimal text.toList) :
    Reads name m d .bigDecimal (.ok (.bigDecimal text))
  | noText {ret : ReturnKind} (buffer : ret = .str ∨ ret = .bigDecimal) (none : ∀ text, ¬ d.Spells m text)
    (fault : Utf8.Fault) : Reads name m d ret (.error (.encoding name (.utf8 fault)))
  | noDecimal {text : String} (spells : d.Spells m text) (other : ¬ IsDecimal text.toList) :
    Reads name m d .bigDecimal (.error (.encoding name (.noDecimal text)))

variable {style : AccessStyle} {name : String} {m : Memory} {d : Descriptor} {ret : ReturnKind}

theorem fits_iff (d : Descriptor) {width : Nat} : d.Fits width ↔ d.cap.toNat * width < 2 ^ 32 :=
  Nat.lt_succ_iff.symm

theorem decode_slice (h : d.ptr.toNat + d.len.toNat ≤ m.size) (text : String) :
    Utf8.decode (m.slice d.ptr.toNat d.len.toNat) = .ok text ↔ d.Spells m text := by
  rw [Utf8.decode_eq_ok_iff, Memory.slice_eq h]
  rfl

/-- Data is read just if it is good for the result. -/
theorem Reads.ok_iff {result : Except BindError Value} (h : d.Reads name m ret result) :
    (∃ v, result = .ok v) ↔ d.Legible m ret := by
  cases h with
  | vec kind => exact ⟨fun _ => trivial, fun _ => ⟨_, rfl⟩⟩
  | str spells => exact ⟨fun _ => ⟨_, spells⟩, fun _ => ⟨_, rfl⟩⟩
  | bigDecimal spells decimal => exact ⟨fun _ => ⟨_, spells, decimal⟩, fun _ => ⟨_, rfl⟩⟩
  | noText buffer none fault =>
    refine ⟨nofun, fun hlegible => ?_⟩
    rcases buffer with rfl | rfl
    · obtain ⟨text, spells⟩ := hlegible
      exact absurd spells (none text)
    · obtain ⟨text, spells, -⟩ := hlegible
      exact absurd spells (none text)
  | noDecimal spells other =>
    refine ⟨nofun, fun ⟨text, spells', decimal⟩ => ?_⟩
    have hsame := Utf8.decode_eq_ok_iff.mpr (spells'.trans spells.symm)
    rw [Utf8.decode_eq_ok_iff.mpr rfl] at hsame
    cases hsame
    exact absurd decimal other

end Descriptor

/-! ### Decoding -/

section

variable {style : AccessStyle} {name : String} {b b' : Books Instance} {ret : ReturnKind}

theorem lookAt_eq {α : Type} (f : Memory → Except BindError α) (b : Books Instance) :
    lookAt f b = (f b.guest.store.memory, b) := rfl

/-- Only the first machine result counts. -/
theorem decodeResult_cons (style : AccessStyle) (name : String) (ret : ReturnKind) (raw : CoreValue)
    (rest : List CoreValue) : decodeResult style name ret (raw :: rest) = decodeResult style name ret [raw] := by
  cases ret <;> rfl

section

variable {raw : CoreValue} {x : Handle} {d : Descriptor} {m : Memory}

/-- Text is taken as a whole, if the memory covers it. -/
theorem takeText_reads (hadopt : adoptBuffer style name 1 raw b = (.ok (x, d.len), b')) (hx : x.ptr = d.ptr)
    (hmemory : b'.guest.store.memory = m) :
    if d.ptr.toNat + d.len.toNat ≤ m.size then
      (∃ text, takeText style name raw b = (.ok text, b') ∧ d.Spells m text) ∨
      ∃ fault, takeText style name raw b = (.error (.encoding name (.utf8 fault)), b') ∧
        ∀ text, ¬ d.Spells m text
    else takeText style name raw b = (.error (.outOfBounds d.ptr.toNat d.len.toNat m.size), b') := by
  unfold takeText
  rw [Action.bind_ok hadopt]
  dsimp only
  rw [hx]
  by_cases hinside : d.ptr.toNat + d.len.toNat ≤ m.size
  · have hread : lookAt (fun memory => memory.readBytes d.ptr d.len) b' =
        (.ok (m.slice d.ptr.toNat d.len.toNat), b') := by
      rw [lookAt_eq, hmemory, Memory.readBytes_eq_ok hinside]
    have hspells := d.decode_slice hinside
    rw [if_pos hinside, Action.bind_ok hread]
    rcases hdecode : Utf8.decode (m.slice d.ptr.toNat d.len.toNat) with fault | text
    · exact .inr ⟨fault, rfl, fun text spells => nomatch hdecode.symm.trans ((hspells text).mpr spells)⟩
    · exact .inl ⟨text, rfl, (hspells text).mp hdecode⟩
  · have hread : lookAt (fun memory => memory.readBytes d.ptr d.len) b' =
        (.error (.outOfBounds d.ptr.toNat d.len.toNat m.size), b') := by
      rw [lookAt_eq, hmemory, Memory.readBytes_eq_error (Nat.lt_of_not_le hinside)]
    rw [if_neg hinside, Action.bind_error hread]

/-- Elements are taken one after the other, up to the first that the memory does not cover. -/
theorem takeElements_reads {kind : ScalarKind}
    (hadopt : adoptBuffer style name kind.width raw b = (.ok (x, d.len), b')) (hx : x.ptr = d.ptr)
    (hmemory : b'.guest.store.memory = m) (hsize : m.size ≤ 2 ^ 32) :
    (d.Covered m (.vec kind) → takeElements style name kind raw b =
      (.ok (.ofElements kind (m.elementsAt .littleEndian kind d.len.toNat d.ptr.toNat)), b')) ∧
    (¬ d.Covered m (.vec kind) → d.StaysBelow m (.vec kind) →
      takeElements style name kind raw b = (.error (d.uncovered m (.vec kind)), b')) := by
  unfold takeElements
  rw [Action.bind_ok hadopt]
  dsimp only
  rw [lookAt_eq, hmemory, hx]
  constructor
  · intro hcovered
    have hread : m.readElements style kind d.len.toNat d.ptr =
        (m.elementsAt style kind d.len.toNat d.ptr.toNat, none) := by
      rcases hcovered with hinside | ⟨hnone, -⟩
      · exact Memory.readElements_eq_ok style hsize hinside
      · rw [hnone]
        rfl
    rw [hread, Memory.elementsAt_style]
  · intro hcovered hbelow
    obtain ⟨hcount, hshort⟩ := Descriptor.short_of_not_covered hcovered
    rw [Memory.readElements_short style hsize hcount hshort (hbelow kind rfl)]
    rfl

end

/-- **What comes of a descriptor that was followed**: its data is read, if the memory covers it. -/
theorem decodeResult_reads (hret : ret.isBuffer = true) {raw : CoreValue} {x : Handle} {d : Descriptor}
    (hadopt : adoptBuffer style name ret.elementWidth raw b = (.ok (x, d.len), b')) (hx : x.ptr = d.ptr)
    {m : Memory} (hmemory : b'.guest.store.memory = m) (hsize : m.size ≤ 2 ^ 32) :
    (d.Covered m ret → ∃ result, decodeResult style name ret [raw] b = (result, b') ∧
      d.Reads name m ret result) ∧
    (¬ d.Covered m ret → d.StaysBelow m ret →
      decodeResult style name ret [raw] b = (.error (d.uncovered m ret), b')) := by
  have hfirst : ∀ ret, (Action.ofExcept (firstResult name ret [raw])) b = (.ok raw, b) := fun _ => rfl
  unfold decodeResult
  cases ret with
  | unit | scalar => cases hret
  | vec kind =>
    obtain ⟨hread, hshort⟩ := takeElements_reads hadopt hx hmemory hsize
    dsimp only
    rw [Action.bind_ok (hfirst _)]
    refine ⟨fun hcovered => ⟨_, Action.bind_ok (hread hcovered), .vec kind⟩, fun hcovered hbelow => ?_⟩
    exact Action.bind_error (hshort hcovered hbelow)
  | str =>
    have htake := takeText_reads hadopt hx hmemory
    dsimp only
    rw [Action.bind_ok (hfirst _), Descriptor.covered_text (.inl rfl)]
    refine ⟨fun hcovered => ?_, fun hcovered _ => ?_⟩
    · rw [if_pos hcovered] at htake
      rcases htake with ⟨text, htake, spells⟩ | ⟨fault, htake, none⟩
      · exact ⟨_, Action.bind_ok htake, .str spells⟩
      · exact ⟨_, Action.bind_error htake, .noText (.inl rfl) none fault⟩
    · rw [if_neg hcovered] at htake
      exact Action.bind_error htake
  | bigDecimal =>
    have htake := takeText_reads hadopt hx hmemory
    dsimp only
    rw [Action.bind_ok (hfirst _), Descriptor.covered_text (.inr rfl)]
    refine ⟨fun hcovered => ?_, fun hcovered _ => ?_⟩
    · rw [if_pos hcovered] at htake
      rcases htake with ⟨text, htake, spells⟩ | ⟨fault, htake, none⟩
      · rw [Action.bind_ok htake]
        by_cases hdecimal : isDecimal text.toList = true
        · rw [if_pos hdecimal]
          exact ⟨_, rfl, .bigDecimal spells (isDecimal_iff.mp hdecimal)⟩
        · rw [if_neg hdecimal]
          exact ⟨_, rfl, .noDecimal spells (mt isDecimal_iff.mpr hdecimal)⟩
      · exact ⟨_, Action.bind_error htake, .noText (.inr rfl) none fault⟩
    · rw [if_neg hcovered] at htake
      exact Action.bind_error htake

/-- A descriptor that is not read is not followed. -/
theorem adoptBuffer_unread (style : AccessStyle) (name : String) (width : Nat) {address : UInt32}
    (hne : address ≠ 0) {e : BindError}
    (hread : Descriptor.read style b.guest.store.memory address = .error e) :
    adoptBuffer style name width (.i32 address) b = (.error e, b) := by
  have haddress : Action.ofExcept (descriptorAddress name (.i32 address)) b = (.ok address, b) := by
    rw [descriptorAddress_of_ne hne]
    rfl
  unfold adoptBuffer
  rw [Action.bind_ok haddress]
  exact Action.bind_error (congrArg (·, b) hread)

theorem Books.memory_followed (b : Books Instance) (d : Descriptor) (width : Nat) (address : UInt32) :
    (b.followed d width address).guest.store.memory = b.guest.store.memory :=
  congrArg Wasm.Store.memory b.guest.store_observe

/-- **Buffer results are decoded exactly**, in a memory of any contents that does not take up all addresses.
Each of the checks counts only if the ones before it have passed, and decoding works just if all of them have.
The memory stays as it is. -/
theorem buffer_result_is_decoded (style : AccessStyle) (name : String) (hret : ret.isBuffer = true)
    (hpages : b.guest.store.memory.pages < pageCeiling) (p : UInt32) (rest : List CoreValue) :
    let m := b.guest.store.memory
    let d := m.descriptorAt p.toNat
    let decoded := decodeResult style name ret (.i32 p :: rest) b
    (if p = 0 then decoded.1 = .error (.allocation 0 (.nullDescriptor name))
      else if m.size < p.toNat + 12 then
        decoded.1 = .error (.outOfBounds (p.toNat + m.roomFor .u32 p.toNat * 4) 4 m.size)
      else if 2 ^ 32 ≤ d.cap.toNat * ret.elementWidth then
        decoded.1 = .error (.encoding name (.capacityOverflow d.cap))
      else if d.cap < d.len then decoded.1 = .error (.encoding name (.lengthExceedsCapacity d.len d.cap))
      else (d.Covered m ret → d.Reads name m ret decoded.1) ∧
        (¬ d.Covered m ret → decoded.1 = .error (d.uncovered m ret))) ∧
    ((∃ v, decoded.1 = .ok v) ↔ p ≠ 0 ∧ p.toNat + 12 ≤ m.size ∧ d.cap.toNat * ret.elementWidth < 2 ^ 32 ∧
      d.len ≤ d.cap ∧ d.Covered m ret ∧ d.Legible m ret) ∧
    decoded.2.guest.store.memory = m := by
  intro m d decoded
  have hsize : m.size < 2 ^ 32 := by
    have hbelow : m.size / pageSize < pageCeiling := hpages
    unfold pageSize pageCeiling at hbelow
    omega
  have hone : decoded = decodeResult style name ret [.i32 p] b := congrFun (decodeResult_cons ..) b
  have hfails : ∀ {e : BindError} {b₁ : Books Instance} {P : Prop}, decoded = (.error e, b₁) →
      b₁.guest.store.memory = m → ¬ P →
      ((∃ v, decoded.1 = .ok v) ↔ P) ∧ decoded.2.guest.store.memory = m := fun he hm hP => by
    rw [he]
    exact ⟨⟨nofun, fun h => absurd h hP⟩, hm⟩
  by_cases hp : p = 0
  · have hnull : decoded = (.error (.allocation 0 (.nullDescriptor name)), b) := by
      rw [hone, hp]
      exact Plan.decodeResult_null style name hret b
    rw [if_pos hp]
    exact ⟨congrArg (·.1) hnull, hfails hnull rfl fun h => h.1 hp⟩
  rw [if_neg hp]
  by_cases hcut : m.size < p.toNat + 12
  · have hread := Descriptor.read_cut style hsize.le hcut (Memory.roomFor_end .u32 hsize p.toNat_lt)
    have hunread := hone.trans (decodeResult_refused hret (adoptBuffer_unread style name _ hp hread))
    rw [if_pos hcut]
    exact ⟨congrArg (·.1) hunread, hfails hunread rfl fun h => Nat.not_le.mpr hcut h.2.1⟩
  rw [if_neg hcut]
  have hread : Descriptor.read style m p = .ok d :=
    Descriptor.read_inside style hsize.le (Nat.le_of_not_lt hcut)
  have hadopt := adoptBuffer_eq style name ret.elementWidth hp hread
  by_cases hfits : 2 ^ 32 ≤ d.cap.toNat * ret.elementWidth
  · rw [if_neg fun hroom => Nat.not_le.mpr (d.fits_iff.mp hroom) hfits] at hadopt
    have hrefused := hone.trans (decodeResult_refused hret hadopt)
    rw [if_pos hfits]
    exact ⟨congrArg (·.1) hrefused, hfails hrefused rfl fun h => Nat.not_le.mpr h.2.2.1 hfits⟩
  rw [if_neg hfits]
  rw [if_pos (d.fits_iff.mpr (Nat.lt_of_not_le hfits))] at hadopt
  have hmemory : (b.followed d ret.elementWidth p).guest.store.memory = m := b.memory_followed d _ p
  by_cases hlength : d.cap < d.len
  · rw [if_pos hlength] at hadopt
    have hrefused := hone.trans (decodeResult_refused hret hadopt)
    rw [if_pos hlength]
    exact ⟨congrArg (·.1) hrefused, hfails hrefused hmemory fun h => UInt32.not_le.mpr hlength h.2.2.2.1⟩
  rw [if_neg hlength] at hadopt ⊢
  obtain ⟨hreads, hshort⟩ := decodeResult_reads hret hadopt rfl hmemory hsize.le
  by_cases hcovered : d.Covered m ret
  · obtain ⟨result, hresult, hreads⟩ := hreads hcovered
    rw [show decoded = _ from hone.trans hresult]
    refine ⟨⟨fun _ => hreads, fun h => absurd hcovered h⟩, hreads.ok_iff.trans ?_, hmemory⟩
    exact ⟨fun hlegible => ⟨hp, Nat.le_of_not_lt hcut, Nat.lt_of_not_le hfits, UInt32.not_lt.mp hlength,
      hcovered, hlegible⟩, fun h => h.2.2.2.2.2⟩
  · have hbelow : d.StaysBelow m ret := fun kind _ => Memory.roomFor_end kind hsize d.ptr.toNat_lt
    have houtside := hone.trans (hshort hcovered hbelow)
    exact ⟨⟨fun h => absurd h hcovered, fun _ => congrArg (·.1) houtside⟩,
      hfails houtside hmemory fun h => hcovered h.2.2.2.2.1⟩

end

/-- A descriptor of two bytes, and behind it the bytes. -/
def pairBytes : List UInt8 := [32, 0, 0, 0, 2, 0, 0, 0, 2, 0, 0, 0, 0, 0, 0, 0, 7, 9]

/-- They stand in a page. -/
theorem exists_pair : ∃ memory : Memory, memory.size = 65536 ∧
    ∀ i, 16 ≤ i → i < 34 → memory.byteAt i = pairBytes[i - 16]?.getD 0 := by
  have hlength : pairBytes.toByteArray.size = 18 := List.size_toByteArray
  have hfits : 16 + pairBytes.toByteArray.size ≤ (Memory.zeroed 1 none).size := by
    rw [hlength, Memory.size_zeroed]
    decide
  refine ⟨(Memory.zeroed 1 none).write 16 pairBytes.toByteArray,
    (Memory.size_write ..).trans (Memory.size_zeroed ..), fun i hstart hstop => ?_⟩
  rw [Memory.byteAt_write hfits, if_pos (by omega), List.data_toByteArray, List.getElem?_toArray]

/-- The two bytes are decoded, and a descriptor at the end of the page is out of bounds. -/
theorem pair_is_decoded : ∃ memory : Memory, memory.pages < pageCeiling ∧
    memory.descriptorAt 16 = ⟨32, 2, 2⟩ ∧
    (decodeResult .native "pair" (.vec .u8) [.i32 16] ⟨.empty, idle memory⟩).1 =
      .ok (.array (.ofElements .u8 [7, 9])) ∧
    (decodeResult .native "pair" (.vec .u8) [.i32 65530] ⟨.empty, idle memory⟩).1 =
      .error (.outOfBounds 65534 4 65536) := by
  obtain ⟨memory, hsize, hbyte⟩ := exists_pair
  have hpages : memory.pages < pageCeiling := by
    unfold Memory.pages
    rw [hsize]
    decide
  have hdescriptor : memory.descriptorAt 16 = ⟨32, 2, 2⟩ := by
    unfold Memory.descriptorAt Memory.wordAt LittleEndian.get32
    simp (disch := decide) only [Nat.reduceAdd, hbyte]
    decide
  have hpair : memory.elementsAt .littleEndian .u8 2 32 = ([7, 9] : List UInt8) := by
    rw [Memory.elementsAt_succ, Memory.elementsAt_succ]
    change [memory.byteAt 32, memory.byteAt 33] = _
    simp (disch := decide) only [hbyte]
    decide
  have hdecoded := fun p => (buffer_result_is_decoded (b := ⟨.empty, idle memory⟩) .native "pair"
    (show (ReturnKind.vec .u8).isBuffer = true from rfl) hpages p []).1
  have hmemory : (⟨.empty, idle memory⟩ : Books Instance).guest.store.memory = memory := rfl
  refine ⟨memory, hpages, hdescriptor, ?_, ?_⟩
  · have hinside := hdecoded 16
    rw [hmemory, show (16 : UInt32).toNat = 16 from rfl, hdescriptor, if_neg (by decide),
      if_neg (by rw [hsize]; decide), if_neg (by decide), if_neg (by decide)] at hinside
    have hreads := hinside.1 (.inl (by rw [hsize]; decide))
    generalize (decodeResult .native "pair" (.vec .u8) [.i32 16] ⟨.empty, idle memory⟩).1 = result at hreads ⊢
    cases hreads with
    | vec => exact congrArg (Except.ok ∘ Value.array ∘ ScalarArray.ofElements .u8) hpair
    | noText buffer => rcases buffer with buffer | buffer <;> cases buffer
  · have hcut := hdecoded 65530
    rw [if_neg (by decide), if_pos (by rw [hmemory, hsize]; decide), hmemory] at hcut
    rw [hcut, Memory.roomFor, hsize]
    rfl

end GuestCall
