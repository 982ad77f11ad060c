/-
# Arrays in a memory

An array that is written into a memory and read back is the same array, bit for bit, wherever it stands and
in whichever styles, and the bytes around it stay as they were. The other way around, elements that are read
and written back leave the memory as it was, but for truth values: there is one way only to write down that
something is true.

Key theorems: `encode_elementsAt`, `arrays_are_kept`.
-/
import GuestCall.Proofs.Memory.Access
import GuestCall.ScalarArray

namespace GuestCall.Memory

variable {m : Memory} {p : UInt32}

/-! ### Elements that are written back -/

theorem bytesAt_add (m : Memory) (first rest start : Nat) :
    m.bytesAt (first + rest) start = m.bytesAt first start ++ m.bytesAt rest (start + first) := by
  simp only [bytesAt, List.range_add, List.map_append, List.map_map, Function.comp_def, Nat.add_assoc]

/-- **The bytes of elements that were read** are those that stand there, restored byte by byte. -/
theorem encode_elementsAt (style : AccessStyle) (m : Memory) (kind : ScalarKind) : ∀ count start : Nat,
    ((m.elementsAt style kind count start).map (Scalar.of kind)).flatMap LittleEndian.encode =
      (m.bytesAt (count * kind.width) start).map kind.restored
  | 0, start => by
    rw [Nat.zero_mul]
    rfl
  | count + 1, start => by
    have hfirst : LittleEndian.encode (.of kind (style.decode kind fun i => m.byteAt (start + i))) =
        (m.bytesAt kind.width start).map kind.restored := by
      rw [style.decode_eq, LittleEndian.encode_decode, bytesAt, List.map_map]
      rfl
    rw [elementsAt_succ, List.map_cons, List.flatMap_cons, hfirst, encode_elementsAt style m kind count,
      Nat.add_mul, Nat.one_mul, Nat.add_comm (count * kind.width), bytesAt_add, List.map_append]

/-- Bytes that are changed one by one where they stand. -/
theorem byteAt_write_bytesAt {start count : Nat} (f : UInt8 → UInt8) (h : start + count ≤ m.size) (i : Nat) :
    (m.write start ((m.bytesAt count start).map f).toByteArray).byteAt i =
      if start ≤ i ∧ i < start + count then f (m.byteAt i) else m.byteAt i := by
  have hsize : ((m.bytesAt count start).map f).toByteArray.size = count := by
    rw [List.size_toByteArray, List.length_map, length_bytesAt]
  rw [byteAt_write (by rwa [hsize]), hsize]
  by_cases hi : start ≤ i ∧ i < start + count
  · have hplace : start + (i - start) = i := Nat.add_sub_cancel' hi.1
    have hcount : i - start < count := by omega
    rw [if_pos hi, if_pos hi, List.data_toByteArray]
    simp [bytesAt, hcount, hplace]
  · rw [if_neg hi, if_neg hi]

/-! ### Arrays -/

/-- **An array that was written is read**, in either style, as a fresh array and over one of its length. -/
theorem read_written (encoding decoding : AccessStyle) {a : ScalarArray} (hsize : m.size ≤ 2 ^ 32)
    (hfits : p.toNat + a.byteLength ≤ m.size) {target : ScalarArray} (hkind : target.kind = a.kind)
    (hlength : target.length = a.length) :
    ∃ elements, (m.write p.toNat (a.items.flatMap encoding.encode).toByteArray).readElements decoding
        target.kind target.length p = (elements, none) ∧
      ScalarArray.ofElements target.kind elements = a ∧ target.overwrite elements = a := by
  obtain ⟨elements, rfl⟩ := ScalarArray.exists_ofElements hkind.symm
  have hcount : elements.length = target.length := by
    rw [hlength]
    exact (List.length_map _).symm
  have hencode : (ScalarArray.ofElements target.kind elements).items.flatMap encoding.encode =
      (elements.map (Scalar.of target.kind)).flatMap LittleEndian.encode := by
    rw [funext encoding.encode_eq]
    rfl
  have hbytes : ((elements.map (Scalar.of target.kind)).flatMap LittleEndian.encode).length =
      (ScalarArray.ofElements target.kind elements).byteLength :=
    length_encodeAll .littleEndian (ScalarArray.ofElements target.kind elements).homogeneous
  refine ⟨elements, ?_, rfl, target.overwrite_all hcount⟩
  rw [hencode, readElements_eq_ok decoding (by rwa [size_write]) ?_, ← hcount,
    elementsAt_of_holds decoding (holds_write (by rwa [hbytes]))]
  rw [size_write, hlength]
  exact hfits

/-- **Elements that were read are written back**: their bytes are those that stand there, restored. -/
theorem byteAt_restored (encoding decoding : AccessStyle) (kind : ScalarKind) {count : Nat}
    (hfits : p.toNat + count * kind.width ≤ m.size) (i : Nat) :
    (m.write p.toNat ((ScalarArray.ofElements kind (m.elementsAt decoding kind count p.toNat)).items.flatMap
        encoding.encode).toByteArray).byteAt i =
      if p.toNat ≤ i ∧ i < p.toNat + count * kind.width then kind.restored (m.byteAt i) else m.byteAt i := by
  have hencode : (ScalarArray.ofElements kind (m.elementsAt decoding kind count p.toNat)).items.flatMap
      encoding.encode = (m.bytesAt (count * kind.width) p.toNat).map kind.restored := by
    rw [funext encoding.encode_eq]
    exact encode_elementsAt decoding m kind count p.toNat
  rw [hencode, byteAt_write_bytesAt _ hfits]

/-- **An array comes back from a memory as it went in**, in whichever styles and at whichever address of its
32 bits, and nothing else in the memory changes. Elements that are read and written back change nothing at
all, unless they are truth values: of those, all bytes but zero become one. -/
theorem arrays_are_kept (encoding decoding : AccessStyle) (p : UInt32) (hsize : m.size ≤ 2 ^ 32) :
    (∀ a : ScalarArray, p.toNat + a.byteLength ≤ m.size →
      ∃ m', m.writeScalars encoding p a.items = (.ok (), m') ∧ m'.size = m.size ∧
        (∀ target : ScalarArray, target.kind = a.kind → target.length = a.length →
          ∃ elements, m'.readElements decoding target.kind target.length p = (elements, none) ∧
            ScalarArray.ofElements target.kind elements = a ∧ target.overwrite elements = a) ∧
        ∀ i, i < p.toNat ∨ p.toNat + a.byteLength ≤ i → m'.byteAt i = m.byteAt i) ∧
    ∀ (kind : ScalarKind) (count : Nat), p.toNat + count * kind.width ≤ m.size →
      ∃ elements m', m.readElements decoding kind count p = (elements, none) ∧
        m.writeScalars encoding p (ScalarArray.ofElements kind elements).items = (.ok (), m') ∧
        (kind ≠ .bool → m' = m) ∧
        (kind = .bool → m'.size = m.size ∧ ∀ i, m'.byteAt i =
          if p.toNat ≤ i ∧ i < p.toNat + count ∧ m.byteAt i ≠ 0 then 1 else m.byteAt i) := by
  refine ⟨fun a hfits => ?_, fun kind count hfits => ?_⟩
  · have hbytes : (a.items.flatMap encoding.encode).toByteArray.size = a.byteLength := by
      rw [List.size_toByteArray, length_encodeAll encoding a.homogeneous]
      rfl
    refine ⟨_, writeScalars_eq_ok encoding a.items m p a.homogeneous hsize hfits, size_write .., ?_, ?_⟩
    · intro target hkind hlength
      exact read_written encoding decoding hsize hfits hkind hlength
    · intro i hi
      rw [byteAt_write (by rwa [hbytes]), hbytes, if_neg (by omega)]
  · have hlength : (ScalarArray.ofElements kind
        (m.elementsAt decoding kind count p.toNat)).items.length = count := by
      simp [ScalarArray.ofElements, elementsAt]
    have hwrite := writeScalars_eq_ok encoding _ m p (ScalarArray.ofElements kind
      (m.elementsAt decoding kind count p.toNat)).homogeneous hsize (by rwa [hlength])
    have hrestored := byteAt_restored encoding decoding kind hfits
    refine ⟨_, _, readElements_eq_ok decoding hsize hfits, hwrite, fun hkind => ?_, ?_⟩
    · refine ext_byteAt (size_write ..) (ceiling_write ..) fun i => ?_
      rw [hrestored, kind.restored_of_ne hkind, ite_self]
    · rintro rfl
      refine ⟨size_write .., fun i => ?_⟩
      have hwidth : count * ScalarKind.bool.width = count := Nat.mul_one count
      rw [hrestored, hwidth, ScalarKind.restored]
      by_cases hi : p.toNat ≤ i ∧ i < p.toNat + count
      · by_cases hzero : m.byteAt i = 0 <;> simp [hi, hzero]
      · rw [if_neg hi, if_neg fun h => hi ⟨h.1, h.2.1⟩]

/-- A NaN keeps its bits at an odd address, and of a byte of two that is read as true a one is written. -/
theorem nan_and_truth_are_kept : ∃ m', (zeroed 1 none).writeScalars .native 65531 [.f32 ⟨0x7F800001⟩] =
      (.ok (), m') ∧
    (∃ elements, m'.readElements .littleEndian .f32 1 65531 = (elements, none) ∧
      ScalarArray.ofElements .f32 elements = .ofElements .f32 [⟨0x7F800001⟩]) ∧
    ∃ elements m', ((zeroed 1 none).write 4 [2].toByteArray).readElements .littleEndian .bool 3 3 =
        (elements, none) ∧
      ((zeroed 1 none).write 4 [2].toByteArray).writeScalars .native 3
        (ScalarArray.ofElements .bool elements).items = (.ok (), m') ∧ m'.byteAt 4 = 1 := by
  have hsize : (zeroed 1 none).size = 65536 := size_zeroed 1 none
  have hsize' : ((zeroed 1 none).write 4 [2].toByteArray).size = 65536 := (size_write ..).trans hsize
  obtain ⟨m', hwrite, -, hread, -⟩ := (arrays_are_kept .native .littleEndian 65531 (by rw [hsize]; decide)).1
    (.ofElements .f32 [⟨0x7F800001⟩]) (by rw [hsize]; decide)
  obtain ⟨elements, helements, harray, -⟩ := hread (.ofElements .f32 [⟨0⟩]) rfl rfl
  refine ⟨m', hwrite, ⟨elements, helements, harray⟩, ?_⟩
  obtain ⟨truths, m'', htruths, hback, -, hbool⟩ := (arrays_are_kept .native .littleEndian 3
    (by rw [hsize']; decide)).2 .bool 3 (by rw [hsize']; decide)
  refine ⟨truths, m'', htruths, hback, ?_⟩
  have htwo : ((zeroed 1 none).write 4 [2].toByteArray).byteAt 4 = 2 :=
    (byteAt_write (by rw [hsize]; decide) 4).trans rfl
  rw [(hbool rfl).2, htwo]
  rfl

end GuestCall.Memory
