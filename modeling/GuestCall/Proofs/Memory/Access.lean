/-
# Reading what was written

Accesses of a memory, byte by byte. A write that fits puts its bytes in place and leaves the others
alone, and growth keeps every byte. So a word that was stored is read back, and scalars are written
and read one after the other as long as they lie inside the memory.

Key definitions: `Memory.Holds`, `Memory.bytesAt`, and `Memory.elementsAt`.
Key theorems: `byteAt_write`, `write_append`, `readElement_word`, `writeScalars_eq_ok`, `elementsAt_of_holds`,
`readElements_eq_ok`, `readElementsFrom_error`.
-/
import GuestCall.Memory.View
import GuestCall.Proofs.Scalar.Layout

namespace GuestCall.Memory

variable {m m' : Memory}

@[simp] theorem ceiling_write (m : Memory) (start : Nat) (source : ByteArray) :
    (m.write start source).ceiling? = m.ceiling? := by
  unfold write
  split <;> rfl

/-! ### Bytes -/

theorem byteAt_eq (m : Memory) (i : Nat) : m.byteAt i = m.bytes.data[i]?.getD 0 := by
  obtain ⟨⟨data⟩, ceiling?⟩ := m
  unfold byteAt
  by_cases hi : i < data.size
  · have hsize : i < (⟨data⟩ : ByteArray).size := hi
    rw [dif_pos hsize]
    simp [hi, ByteArray.getElem_eq_getElem_data]
  · have hsize : ¬ i < (⟨data⟩ : ByteArray).size := hi
    rw [dif_neg hsize]
    simp [hi]

/-- **A write** puts its bytes in place and leaves the others alone. -/
theorem byteAt_write {start : Nat} {source : ByteArray} (h : start + source.size ≤ m.size)
    (i : Nat) : (m.write start source).byteAt i =
      if start ≤ i ∧ i < start + source.size then source.data[i - start]?.getD 0
      else m.byteAt i := by
  have hbytes : (m.write start source).bytes = source.copySlice 0 m.bytes start source.size := by
    unfold write
    rw [if_pos (show start + source.size ≤ m.bytes.size from h)]
  rw [byteAt_eq, byteAt_eq, hbytes]
  obtain ⟨⟨data⟩, ceiling?⟩ := m
  obtain ⟨source⟩ := source
  have hfits : start + source.size ≤ data.size := h
  simp only [ByteArray.copySlice, ByteArray.size, Array.getElem?_append, Array.getElem?_extract,
    Array.size_append, Array.size_extract]
  by_cases hbefore : i < start
  · rw [if_neg (by omega : ¬ (start ≤ i ∧ _)), if_pos (by omega), if_pos (by omega),
      if_pos (by omega), Nat.zero_add]
  by_cases hinside : i < start + source.size
  · rw [if_pos (by omega : start ≤ i ∧ _), if_pos (by omega), if_neg (by omega),
      if_pos (by omega)]
    congr 3
    omega
  · rw [if_neg (by omega : ¬ (start ≤ i ∧ _)), if_neg (by omega)]
    by_cases hdata : i < data.size
    · rw [if_pos (by omega)]
      congr 3
      omega
    · rw [if_neg (by omega), Array.getElem?_eq_none (by omega)]

/-- A memory is what its bytes are. -/
theorem ext_byteAt {m m' : Memory} (hsize : m'.size = m.size) (hceiling : m'.ceiling? = m.ceiling?)
    (h : ∀ i, m'.byteAt i = m.byteAt i) : m' = m := by
  obtain ⟨⟨data⟩, ceiling?⟩ := m
  obtain ⟨⟨data'⟩, ceiling?'⟩ := m'
  obtain rfl : ceiling?' = ceiling? := hceiling
  obtain rfl : data' = data := by
    refine Array.ext hsize fun i hi hi' => ?_
    have hbyte := h i
    rw [byteAt_eq, byteAt_eq] at hbyte
    simpa [hi, hi'] using hbyte
  rfl

theorem write_nil (m : Memory) (start : Nat) : m.write start [].toByteArray = m := by
  by_cases h : start ≤ m.size
  · refine ext_byteAt (size_write ..) (ceiling_write ..) fun i => ?_
    rw [byteAt_write (by simpa using h), if_neg (by simp)]
  · exact if_neg (by simpa [size] using h)

/-- Two writes one behind the other are one. -/
theorem write_append {start : Nat} {first rest : List UInt8}
    (h : start + first.length + rest.length ≤ m.size) :
    (m.write start first.toByteArray).write (start + first.length) rest.toByteArray =
      m.write start (first ++ rest).toByteArray := by
  have hfirst : first.toByteArray.size = first.length := List.size_toByteArray
  have hrest : rest.toByteArray.size = rest.length := List.size_toByteArray
  have hboth : (first ++ rest).toByteArray.size = first.length + rest.length := by
    rw [List.size_toByteArray, List.length_append]
  refine ext_byteAt (by simp only [size_write]) (by simp only [ceiling_write]) fun i => ?_
  rw [byteAt_write (by rw [size_write, hrest]; exact h), byteAt_write (by rw [hfirst]; omega),
    byteAt_write (by rw [hboth]; omega), hfirst, hrest, hboth]
  simp only [List.data_toByteArray, List.getElem?_toArray, List.getElem?_append]
  by_cases hbefore : i < start + first.length
  · rw [if_neg (by omega)]
    by_cases hinside : start ≤ i
    · rw [if_pos ⟨hinside, hbefore⟩, if_pos (by omega), if_pos (by omega)]
    · rw [if_neg (by omega), if_neg (by omega)]
  · by_cases hinside : i < start + first.length + rest.length
    · rw [if_pos (by omega), if_pos (by omega), if_neg (by omega)]
      congr 2
      omega
    · rw [if_neg (by omega), if_neg (by omega), if_neg (by omega)]

/-- Writes to ranges that lie apart can be swapped. -/
theorem write_comm {start other : Nat} {source source' : ByteArray} (h : start + source.size ≤ m.size)
    (h' : other + source'.size ≤ m.size)
    (happart : start + source.size ≤ other ∨ other + source'.size ≤ start) :
    (m.write start source).write other source' = (m.write other source').write start source := by
  refine ext_byteAt (by simp only [size_write]) (by simp only [ceiling_write]) fun i => ?_
  rw [byteAt_write (by rw [size_write]; exact h'), byteAt_write h, byteAt_write (by rw [size_write]; exact h),
    byteAt_write h']
  by_cases hi : start ≤ i ∧ i < start + source.size
  · rw [if_neg (by omega), if_pos hi, if_pos hi]
  · rw [if_neg hi, if_neg hi]

/-- A write in front of another one. -/
theorem write_prepend {start : Nat} {first rest : List UInt8}
    (h : start + first.length + rest.length ≤ m.size) :
    (m.write (start + first.length) rest.toByteArray).write start first.toByteArray =
      m.write start (first ++ rest).toByteArray := by
  have hfirst : first.toByteArray.size = first.length := List.size_toByteArray
  have hrest : rest.toByteArray.size = rest.length := List.size_toByteArray
  rw [write_comm (by rw [hrest]; exact h) (by rw [hfirst]; omega) (.inr (by rw [hfirst])), write_append h]

/-- Growth keeps every byte. -/
theorem byteAt_appendPages (bytes : ByteArray) (ceiling? : Option Nat) (pages i : Nat) :
    (⟨appendPages bytes pages, ceiling?⟩ : Memory).byteAt i =
      (⟨bytes, ceiling?⟩ : Memory).byteAt i := by
  induction pages generalizing bytes with
  | zero => rfl
  | succ pages ih =>
    rw [appendPages, ih, byteAt_eq, byteAt_eq, ByteArray.data_append, Array.getElem?_append]
    by_cases hi : i < bytes.data.size
    · rw [if_pos hi]
    · rw [if_neg hi, Array.getElem?_eq_none (Nat.le_of_not_lt hi), zeroPage,
        Array.getElem?_replicate]
      split <;> rfl

/-- Some bytes stand in the memory from an address on. -/
structure Holds (m : Memory) (start : Nat) (bytes : List UInt8) : Prop where
  inside : start + bytes.length ≤ m.size
  bytes : (List.range bytes.length).map (fun i => m.byteAt (start + i)) = bytes

/-- So many bytes of a memory from a place on. -/
def bytesAt (m : Memory) (count start : Nat) : List UInt8 :=
  (List.range count).map fun i => m.byteAt (start + i)

/-- The bytes of a range that lies in the memory are the ones that stand there. -/
theorem slice_eq {start count : Nat} (h : start + count ≤ m.size) :
    m.slice start count = (m.bytesAt count start).toByteArray := by
  have hfits : start + count ≤ m.bytes.data.size := h
  refine ByteArray.ext (Array.toList_inj.mp (List.ext_getElem? fun i => ?_))
  rw [List.data_toByteArray, slice, ByteArray.data_extract, Array.getElem?_toList, Array.getElem?_extract,
    bytesAt, List.getElem?_map]
  by_cases hi : i < count
  · rw [if_pos (by omega), List.getElem?_range hi, Option.map_some, byteAt_eq,
      Array.getElem?_eq_getElem (by omega), Option.getD_some]
  · rw [if_neg (by omega), List.getElem?_eq_none (by rw [List.length_range]; omega), Option.map_none]

theorem length_bytesAt (m : Memory) (count start : Nat) : (m.bytesAt count start).length = count := by
  rw [bytesAt, List.length_map, List.length_range]

theorem holds_bytesAt {count start : Nat} (h : start + count ≤ m.size) :
    m.Holds start (m.bytesAt count start) := by
  refine ⟨by rwa [length_bytesAt], ?_⟩
  rw [length_bytesAt]
  rfl

theorem holds_write {start : Nat} {bytes : List UInt8} (h : start + bytes.length ≤ m.size) :
    (m.write start bytes.toByteArray).Holds start bytes := by
  have hsize : bytes.toByteArray.size = bytes.length := List.size_toByteArray
  refine ⟨by rw [size_write]; exact h, List.ext_getElem (by simp) fun i _ hi => ?_⟩
  rw [List.getElem_map, List.getElem_range, byteAt_write (by rw [hsize]; exact h), hsize,
    if_pos (by omega), Nat.add_sub_cancel_left, List.data_toByteArray]
  simp [hi]

/-- Bytes stay where another range is written. -/
theorem Holds.write {start other : Nat} {bytes : List UInt8} {source : ByteArray}
    (h : m.Holds start bytes) (hfits : other + source.size ≤ m.size)
    (happart : start + bytes.length ≤ other ∨ other + source.size ≤ start) :
    (m.write other source).Holds start bytes := by
  refine ⟨by rw [size_write]; exact h.inside, Eq.trans (List.map_congr_left fun i hi => ?_) h.bytes⟩
  have hi := List.mem_range.mp hi
  rw [byteAt_write hfits, if_neg (by omega)]

/-- Bytes stay where they are as long as none of them changes. -/
theorem Holds.of_byteAt {start : Nat} {bytes : List UInt8} (h : m.Holds start bytes)
    (hsize : m.size ≤ m'.size)
    (hbytes : ∀ i, start ≤ i → i < start + bytes.length → m'.byteAt i = m.byteAt i) :
    m'.Holds start bytes := by
  refine ⟨Nat.le_trans h.inside hsize, Eq.trans (List.map_congr_left fun i hi => ?_) h.bytes⟩
  have hi := List.mem_range.mp hi
  exact hbytes _ (Nat.le_add_right _ _) (by omega)

theorem Holds.byteAt {start i : Nat} {bytes : List UInt8} (h : m.Holds start bytes) (hi : i < bytes.length) :
    m.byteAt (start + i) = bytes[i] := by
  have hbyte := congrArg (·[i]?) h.bytes
  simpa [hi] using hbyte

/-- The bytes that stand somewhere are what a slice takes from there. -/
theorem Holds.slice {start : Nat} {bytes : List UInt8} (h : m.Holds start bytes) :
    m.slice start bytes.length = bytes.toByteArray := by
  have hbytes : m.bytesAt bytes.length start = bytes := h.bytes
  rw [slice_eq h.inside, hbytes]

/-- What stands in a memory stands there piece by piece. -/
theorem holds_append {start : Nat} {first rest : List UInt8} : m.Holds start (first ++ rest) ↔
    m.Holds start first ∧ m.Holds (start + first.length) rest := by
  have hsplit : (List.range (first ++ rest).length).map (fun i => m.byteAt (start + i)) =
      (List.range first.length).map (fun i => m.byteAt (start + i)) ++
        (List.range rest.length).map fun i => m.byteAt (start + first.length + i) := by
    rw [List.length_append, List.range_add, List.map_append, List.map_map]
    simp only [Function.comp_def, Nat.add_assoc]
  constructor
  · intro h
    have hinside := h.inside
    have hbytes := hsplit.symm.trans h.bytes
    rw [List.length_append] at hinside
    obtain ⟨hfirst, hrest⟩ := List.append_inj hbytes (by simp)
    exact ⟨⟨by omega, hfirst⟩, ⟨by omega, hrest⟩⟩
  · rintro ⟨hfirst, hrest⟩
    refine ⟨by rw [List.length_append, ← Nat.add_assoc]; exact hrest.inside, ?_⟩
    rw [hsplit, hfirst.bytes, hrest.bytes]

/-! ### Accesses that fit, and others -/

theorem readBytes_eq_ok {offset length : UInt32} (h : offset.toNat + length.toNat ≤ m.size) :
    m.readBytes offset length = .ok (m.slice offset.toNat length.toNat) := by
  unfold readBytes range
  rw [if_pos h]

theorem readElement_eq_ok (style : AccessStyle) {offset : UInt32} {kind : ScalarKind}
    (h : offset.toNat + kind.width ≤ m.size) : m.readElement style offset kind =
      .ok (style.decode kind fun i => m.byteAt (offset.toNat + i)) := by
  unfold readElement range
  rw [if_pos h]

/-- A word that stands in the memory is read, whatever the style. -/
theorem readElement_word {style : AccessStyle} {address v : UInt32}
    (h : m.Holds address.toNat (LittleEndian.put32 v)) :
    m.readElement style address .u32 = .ok v := by
  have hv := LittleEndian.get32_put32 v h.bytes
  rw [readElement_eq_ok style h.inside]
  exact congrArg Except.ok ((style.decode_eq .u32 _).trans hv)

theorem range_eq_error {offset : UInt32} {length : Nat} (h : m.size < offset.toNat + length) :
    m.range offset length = .error (.outOfBounds offset.toNat length m.size) :=
  if_neg (Nat.not_le.mpr h)

theorem readBytes_eq_error {offset length : UInt32} (h : m.size < offset.toNat + length.toNat) :
    m.readBytes offset length = .error (.outOfBounds offset.toNat length.toNat m.size) := by
  rw [readBytes, range_eq_error h]

theorem readElement_eq_error (style : AccessStyle) {offset : UInt32} {kind : ScalarKind}
    (h : m.size < offset.toNat + kind.width) :
    m.readElement style offset kind = .error (.outOfBounds offset.toNat kind.width m.size) := by
  rw [readElement, range_eq_error h]

theorem writeBytes_eq_ok {offset : UInt32} {source : ByteArray}
    (h : offset.toNat + source.size ≤ m.size) :
    m.writeBytes offset source = (.ok (), m.write offset.toNat source) := by
  unfold writeBytes range
  rw [if_pos h]

theorem writeScalar_eq_ok (style : AccessStyle) {offset : UInt32} {s : Scalar}
    (h : offset.toNat + s.kind.width ≤ m.size) :
    m.writeScalar style offset s = (.ok (), m.write offset.toNat (style.encode s).toByteArray) := by
  cases style with
  | native =>
    rw [writeScalar, writeBytes_eq_ok]
    rw [List.size_toByteArray, AccessStyle.length_encode]
    exact h
  | littleEndian =>
    unfold writeScalar range
    rw [if_pos h]

/-- The address behind a scalar, where it does not wrap around. -/
theorem toNat_add_width {offset : UInt32} {kind : ScalarKind} (h : offset.toNat + kind.width < 2 ^ 32) :
    (offset + kind.width.toUInt32).toNat = offset.toNat + kind.width := by
  rw [UInt32.toNat_add, Nat.toUInt32_eq, UInt32.toNat_ofNat_of_lt' (by unfold UInt32.size; omega),
    Nat.mod_eq_of_lt h]

/-- Bytes of scalars of one kind. -/
theorem length_encodeAll (style : AccessStyle) {kind : ScalarKind} : ∀ {items : List Scalar},
    (∀ s ∈ items, s.kind = kind) → (items.flatMap style.encode).length = items.length * kind.width
  | [], _ => by simp
  | s :: items, h => by
    have hrest := length_encodeAll style fun t ht => h t (List.mem_cons_of_mem _ ht)
    rw [List.flatMap_cons, List.length_append, style.length_encode, h s List.mem_cons_self, hrest,
      List.length_cons, Nat.add_mul, Nat.one_mul, Nat.add_comm]

/-- **Scalars are written one after the other** if they all lie inside the memory: then all their bytes
are in place. -/
theorem writeScalars_eq_ok (style : AccessStyle) {kind : ScalarKind} : ∀ (items : List Scalar)
    (m : Memory) (offset : UInt32), (∀ s ∈ items, s.kind = kind) → m.size ≤ 2 ^ 32 →
    offset.toNat + items.length * kind.width ≤ m.size →
    m.writeScalars style offset items =
      (.ok (), m.write offset.toNat (items.flatMap style.encode).toByteArray)
  | [], m, offset, _, _, _ => by rw [writeScalars, List.flatMap_nil, write_nil]
  | s :: items, m, offset, hkind, hsize, hfits => by
    have hs : s.kind = kind := hkind s List.mem_cons_self
    have hitems : ∀ t ∈ items, t.kind = kind := fun t ht => hkind t (List.mem_cons_of_mem _ ht)
    have hwidth : (style.encode s).length = kind.width := by rw [style.length_encode, hs]
    rw [List.length_cons, Nat.add_mul, Nat.one_mul] at hfits
    have hwrite : m.writeScalar style offset s =
        (.ok (), m.write offset.toNat (style.encode s).toByteArray) :=
      writeScalar_eq_ok style (by rw [hs]; omega)
    rw [writeScalars, hwrite, hs, List.flatMap_cons]
    dsimp only
    rcases items with _ | ⟨t, items⟩
    · rw [writeScalars, List.flatMap_nil, List.append_nil]
    -- more scalars follow, so the address of the next one does not wrap around
    have hpos := kind.width_pos
    have hlength := length_encodeAll style hitems
    rw [List.length_cons, Nat.add_mul, Nat.one_mul] at hfits hlength
    have hnext : (offset + kind.width.toUInt32).toNat = offset.toNat + kind.width :=
      toNat_add_width (by omega)
    rw [writeScalars_eq_ok style (t :: items) _ _ hitems (by rw [size_write]; exact hsize)
      (by rw [size_write, hnext, List.length_cons, Nat.add_mul, Nat.one_mul]; omega), hnext, ← hwidth,
      write_append (by rw [hwidth, hlength]; omega)]

/-- The payloads of so many elements from an address on. -/
def elementsAt (style : AccessStyle) (m : Memory) (kind : ScalarKind) (count start : Nat) :
    List kind.Element :=
  (List.range count).map fun i => style.decode kind fun j => m.byteAt (start + i * kind.width + j)

theorem elementsAt_succ (style : AccessStyle) (m : Memory) (kind : ScalarKind) (count start : Nat) :
    m.elementsAt style kind (count + 1) start =
      style.decode kind (fun j => m.byteAt (start + j)) ::
        m.elementsAt style kind count (start + kind.width) := by
  unfold elementsAt
  rw [List.range_succ_eq_map, List.map_cons, List.map_map, Nat.zero_mul, Nat.add_zero]
  refine congrArg _ (List.map_congr_left fun i _ => ?_)
  rw [Function.comp_apply, Nat.succ_mul]
  refine congrArg _ (funext fun j => congrArg _ ?_)
  omega

/-- **Elements that stand in a memory are read back**, in either style. -/
theorem elementsAt_of_holds (style : AccessStyle) {kind : ScalarKind} : ∀ {items : List kind.Element}
    {start : Nat}, m.Holds start ((items.map (Scalar.of kind)).flatMap LittleEndian.encode) →
    m.elementsAt style kind items.length start = items
  | [], _, _ => rfl
  | v :: items, start, h => by
    have hwidth : (LittleEndian.encode (.of kind v)).length = kind.width := by
      have hlength := AccessStyle.littleEndian.length_encode (.of kind v)
      rwa [Scalar.kind_of] at hlength
    rw [List.map_cons, List.flatMap_cons] at h
    obtain ⟨hfirst, hrest⟩ := holds_append.mp h
    have hbytes := hfirst.bytes
    rw [hwidth] at hbytes hrest
    rw [List.length_cons, elementsAt_succ, style.decode_eq, LittleEndian.decode_encode v hbytes,
      elementsAt_of_holds style hrest]

/-- One of the elements that stand in a memory. -/
theorem decode_of_holds {kind : ScalarKind} {elements : List kind.Element} {start i : Nat}
    (h : m.Holds start ((elements.map (Scalar.of kind)).flatMap LittleEndian.encode)) (hi : i < elements.length) :
    start + i * kind.width + kind.width ≤ m.size ∧
      LittleEndian.decode kind (fun j => m.byteAt (start + i * kind.width + j)) = elements[i] := by
  have hlength : ((elements.map (Scalar.of kind)).flatMap LittleEndian.encode).length =
      (elements.map (Scalar.of kind)).length * kind.width :=
    length_encodeAll .littleEndian fun s hs => by
      obtain ⟨v, -, rfl⟩ := List.mem_map.mp hs
      exact Scalar.kind_of kind v
  have hinside := h.inside
  rw [hlength, List.length_map] at hinside
  have hnext : (i + 1) * kind.width ≤ elements.length * kind.width := Nat.mul_le_mul_right _ hi
  rw [Nat.succ_mul] at hnext
  refine ⟨by omega, ?_⟩
  have helement := congrArg (·[i]?) (elementsAt_of_holds .littleEndian h)
  simpa [elementsAt, AccessStyle.decode, hi] using helement

theorem readElementsFrom_eq_ok (style : AccessStyle) {kind : ScalarKind} : ∀ (count : Nat)
    (offset : UInt32) (done : List kind.Element), m.size ≤ 2 ^ 32 →
    offset.toNat + count * kind.width ≤ m.size →
    m.readElementsFrom style kind count offset done =
      (done.reverse ++ m.elementsAt style kind count offset.toNat, none)
  | 0, offset, done, _, _ => by
    rw [readElementsFrom]
    exact congrArg (·, none) (List.append_nil _).symm
  | count + 1, offset, done, hsize, hfits => by
    rw [Nat.add_mul, Nat.one_mul] at hfits
    rw [readElementsFrom, readElement_eq_ok style (by omega), elementsAt_succ]
    dsimp only
    cases count with
    | zero =>
      rw [readElementsFrom, List.reverse_cons]
      rfl
    | succ count =>
      have hpos := kind.width_pos
      have hnext : (offset + kind.width.toUInt32).toNat = offset.toNat + kind.width := by
        rw [Nat.add_mul, Nat.one_mul] at hfits
        exact toNat_add_width (by omega)
      rw [readElementsFrom_eq_ok style (count + 1) _ _ hsize (by rw [hnext]; omega), hnext,
        List.reverse_cons, List.append_assoc, List.singleton_append]

/-- **Elements that lie inside the memory are all read.** -/
theorem readElements_eq_ok (style : AccessStyle) {kind : ScalarKind} {count : Nat} {offset : UInt32}
    (hsize : m.size ≤ 2 ^ 32) (hfits : offset.toNat + count * kind.width ≤ m.size) :
    m.readElements style kind count offset = (m.elementsAt style kind count offset.toNat, none) :=
  readElementsFrom_eq_ok style count offset [] hsize hfits

/-! ### Accesses that fail -/

/-- An access fails for want of a range, and for nothing else. -/
theorem range_error {offset : UInt32} {length : Nat} {e : BindError}
    (h : m.range offset length = .error e) : e.kind = .outOfBounds := by
  unfold range at h
  split at h
  · cases h
  · cases h
    rfl

theorem readBytes_error {offset length : UInt32} {e : BindError}
    (h : m.readBytes offset length = .error e) : e.kind = .outOfBounds := by
  unfold readBytes at h
  split at h
  · cases h
  · rename_i hrange
    cases h
    exact range_error hrange

theorem readElementsFrom_error {style : AccessStyle} {kind : ScalarKind} :
    ∀ {count : Nat} {offset : UInt32} {done items : List kind.Element} {e : BindError},
    m.readElementsFrom style kind count offset done = (items, some e) → e.kind = .outOfBounds
  | 0, _, _, _, _, h => by cases h
  | count + 1, offset, done, items, e, h => by
    rw [readElementsFrom] at h
    unfold readElement at h
    split at h
    · exact readElementsFrom_error h
    · rename_i hread
      cases h
      split at hread
      · cases hread
      · rename_i hrange
        cases hread
        exact range_error hrange

end GuestCall.Memory
