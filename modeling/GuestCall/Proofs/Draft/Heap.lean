/-
# The heap of a guest

The allocator of a guest as a whole: what each of its functions does to the store of a guest, which
is its memory, the end of its heap and its count of live bytes. A block goes to the end of the heap
and takes its size, rounded up; there is room as long as the heap ends within the most that the
memory can grow to, and the memory grows where it is too short. Giving back the topmost block puts the
end of the heap back to where the block is.

Key definitions: `blockSize`, `heapCapacity`, `Memory.IsGuest`, `Memory.reach`, `guestStore`, and
`Program.IsGuest`, the programs that have the allocator.
Key theorems: `invoke_alloc`, `invoke_dealloc`, `invoke_newDescriptor`.
-/
import GuestCall.Proofs.Draft.Image
import GuestCall.Proofs.Wasm.Quiet
import GuestCall.Proofs.Wasm.Stepping

namespace GuestCall

/-- A size rounded up to the unit of the heap. -/
def blockSize (n : Nat) : Nat := (n + 7) / 8 * 8

/-- A number of bytes rounded up to whole pages. -/
def wholePages (n : Nat) : Nat := (n + pageSize - 1) / pageSize * pageSize

theorem wholePages_mono {a b : Nat} (h : a ≤ b) : wholePages a ≤ wholePages b := by
  unfold wholePages pageSize
  omega

/-- Where the heap has to end at the latest: the most bytes that the memory of a guest can have. -/
def heapCapacity : Nat := 256 * pageSize

/-- The memory of a guest: at least one page, and never more than it may grow to. -/
structure Memory.IsGuest (m : Memory) : Prop where
  ceiling : m.ceiling? = some 256
  size : ∃ pages, m.size = pages * pageSize ∧ 1 ≤ pages ∧ pages ≤ 256

namespace Memory

variable {m m' : Memory}

theorem IsGuest.pages_eq (h : m.IsGuest) : m.size = m.pages * pageSize := by
  obtain ⟨k, hk, -⟩ := h.size
  rw [pages, hk, Nat.mul_div_cancel k (by decide)]

theorem IsGuest.bounds (h : m.IsGuest) : pageSize ≤ m.size ∧ m.size ≤ heapCapacity := by
  obtain ⟨k, hk, hlo, hhi⟩ := h.size
  unfold heapCapacity pageSize at *
  omega

theorem IsGuest.grown (h : m.IsGuest) (hg : m.Grown m') : m'.IsGuest := by
  obtain ⟨extra, hextra⟩ := hg.size
  have hsize := h.pages_eq
  have hbounds := h.bounds
  have hsize' : m'.size = (m.pages + extra) * pageSize := by rw [hextra, hsize, Nat.add_mul]
  have hpages : m'.pages = m.pages + extra := by
    rw [pages, hsize', Nat.mul_div_cancel _ (by decide)]
  have hfits : m.allows m.pages = true := by
    unfold allows
    rw [h.ceiling]
    simp only [decide_eq_true_eq]
    unfold heapCapacity pageSize at *
    omega
  have hallows := hg.fits hfits
  unfold allows at hallows
  rw [hg.ceiling, h.ceiling, hpages] at hallows
  simp only [decide_eq_true_eq] at hallows
  refine ⟨hg.ceiling.trans h.ceiling, m.pages + extra, hsize', ?_, hallows⟩
  unfold pageSize at *
  omega

/-- The memory grown by as many pages as it takes to have some bytes. -/
def reach (m : Memory) (stop : Nat) : Memory :=
  { m with bytes := appendPages m.bytes ((stop - m.size + pageSize - 1) / pageSize) }

@[simp] theorem ceiling_reach (m : Memory) (stop : Nat) : (m.reach stop).ceiling? = m.ceiling? := by
  have hfield : ∀ bytes ceiling?, (Memory.mk bytes ceiling?).ceiling? = ceiling? := fun _ _ => rfl
  exact hfield _ _

theorem byteAt_reach (m : Memory) (stop i : Nat) : (m.reach stop).byteAt i = m.byteAt i :=
  byteAt_appendPages ..

/-- How large a memory is that grows page by page until it has some bytes. -/
theorem size_reach (h : m.IsGuest) (stop : Nat) :
    (m.reach stop).size = max m.size (wholePages stop) := by
  obtain ⟨k, hk, -⟩ := h.size
  have hsize : (m.reach stop).size = m.size + (stop - m.size + pageSize - 1) / pageSize * pageSize :=
    size_appendPages _ _
  rw [hsize, hk]
  unfold wholePages pageSize
  omega

theorem reach_of_le {stop : Nat} (h : stop ≤ m.size) : m.reach stop = m := by
  have hzero : (stop - m.size + pageSize - 1) / pageSize = 0 := by
    unfold pageSize
    omega
  unfold reach
  rw [hzero]
  rfl

theorem le_size_reach (h : m.IsGuest) (stop : Nat) :
    m.size ≤ (m.reach stop).size ∧ stop ≤ (m.reach stop).size := by
  rw [size_reach h]
  unfold wholePages pageSize
  omega

/-- Growing by just enough pages is refused where that is beyond the ceiling. -/
theorem grow_reach (h : m.IsGuest) {stop : Nat} (hstop : m.size ≤ stop) :
    m.grow? ((stop - m.size + pageSize - 1) / pageSize) =
      if stop ≤ heapCapacity then some (m.reach stop) else none := by
  have hsize := h.pages_eq
  have hfits : m.pages + (stop - m.size + pageSize - 1) / pageSize ≤ 256 ↔ stop ≤ heapCapacity := by
    unfold heapCapacity pageSize at *
    omega
  unfold grow? allows
  rw [h.ceiling]
  simp only [decide_eq_true_eq]
  by_cases hc : stop ≤ heapCapacity
  · rw [if_pos (hfits.mpr hc), if_pos hc, reach, h.ceiling]
  · rw [if_neg (mt hfits.mp hc), if_neg hc]

theorem grown_reach (h : m.IsGuest) {stop : Nat} (hstop : stop ≤ heapCapacity) :
    m.Grown (m.reach stop) := by
  by_cases hle : stop ≤ m.size
  · rw [reach_of_le hle]
    exact .refl m
  · have hgrow := grow_reach h (Nat.le_of_not_le hle)
    rw [if_pos hstop] at hgrow
    exact grown_grow hgrow

end Memory

/-! ### Rounding -/

/-- A word rounded up to the unit of the heap, as the guest does it; it may wrap around. -/
def blockWord (n : UInt32) : UInt32 := (n + 7) &&& -8

theorem toNat_and_neg8 (x : UInt32) : (x &&& -8).toNat = x.toNat / 8 * 8 := by
  rw [UInt32.toNat_and]
  have hmask : (-8 : UInt32).toNat = (2 ^ 29 - 1) <<< 3 := by decide
  have hx : x.toNat / 8 * 8 = (x.toNat >>> 3) <<< 3 := by
    rw [Nat.shiftRight_eq_div_pow, Nat.shiftLeft_eq]
  rw [hmask, hx]
  apply Nat.eq_of_testBit_eq
  intro i
  simp only [Nat.testBit_and, Nat.testBit_shiftLeft, Nat.testBit_shiftRight,
    Nat.testBit_two_pow_sub_one]
  by_cases hi : 3 ≤ i
  · rw [show 3 + (i - 3) = i by omega]
    by_cases hlt : i - 3 < 29
    · simp [hi, hlt]
    · have hbit : x.toNat.testBit i = false :=
        Nat.testBit_lt_two_pow (Nat.lt_of_lt_of_le x.toNat_lt (Nat.pow_le_pow_right (by omega)
          (by omega)))
      simp [hbit]
  · simp [hi]

theorem toNat_blockWord (n : UInt32) : (blockWord n).toNat = (n.toNat + 7) % 2 ^ 32 / 8 * 8 := by
  rw [blockWord, toNat_and_neg8, UInt32.toNat_add]
  rfl

theorem le_blockSize (n : Nat) : n ≤ blockSize n := by
  unfold blockSize
  omega

/-- Rounding wraps around just where the result is below the size, and then no block is that
large. -/
theorem le_blockWord_iff (n : UInt32) : n ≤ blockWord n ↔ n.toNat + 7 < 2 ^ 32 := by
  rw [UInt32.le_iff_toNat_le, toNat_blockWord]
  have hn := n.toNat_lt
  omega

theorem toNat_blockWord_of_lt {n : UInt32} (h : n.toNat + 7 < 2 ^ 32) :
    (blockWord n).toNat = blockSize n.toNat := by
  rw [toNat_blockWord, Nat.mod_eq_of_lt h]
  rfl

/-- An address up to the end of the heap is a word. -/
theorem toNat_ofNat_heap {n : Nat} (h : n ≤ heapCapacity) : (UInt32.ofNat n).toNat = n :=
  UInt32.toNat_ofNat_of_lt' (Nat.lt_of_le_of_lt h (by decide))

/-- An address on the heap is never zero. -/
theorem ofNat_heap_ne_zero {n : Nat} (hstart : heapStart ≤ n) (h : n ≤ heapCapacity) : UInt32.ofNat n ≠ 0 := by
  intro hzero
  have hn := congrArg UInt32.toNat hzero
  rw [toNat_ofNat_heap h, UInt32.toNat_zero] at hn
  unfold heapStart at hstart
  omega

/-- The size of a block that there may be room for is a word. -/
theorem blockWord_eq {n : UInt32} (h : blockSize n.toNat ≤ heapCapacity) :
    blockWord n = .ofNat (blockSize n.toNat) := by
  rw [← UInt32.toNat_inj, toNat_ofNat_heap h]
  refine toNat_blockWord_of_lt ?_
  have hle := le_blockSize n.toNat
  unfold heapCapacity pageSize at h
  omega

/-! ### Descriptors -/

/-- The memory with a descriptor at an address. -/
def Memory.putDescriptor (m : Memory) (address : Nat) (d : Descriptor) : Memory :=
  ((m.write address (LittleEndian.put32 d.ptr).toByteArray).write (address + 4)
    (LittleEndian.put32 d.len).toByteArray).write (address + 8) (LittleEndian.put32 d.cap).toByteArray

@[simp] theorem Memory.size_putDescriptor (m : Memory) (address : Nat) (d : Descriptor) :
    (m.putDescriptor address d).size = m.size := by
  simp [putDescriptor]

/-- A descriptor that was put in place is read. -/
theorem Descriptor.read_putDescriptor (style : AccessStyle) {m : Memory} {address : UInt32}
    (d : Descriptor) (hfits : address.toNat + 12 ≤ m.size) (hsize : m.size < 2 ^ 32) :
    Descriptor.read style (m.putDescriptor address.toNat d) address = .ok d := by
  have hlength : ∀ v, (LittleEndian.put32 v).length = 4 := fun v => rfl
  have hbytes : ∀ v, (LittleEndian.put32 v).toByteArray.size = 4 := fun v => rfl
  have hptr : (m.putDescriptor address.toNat d).Holds address.toNat (LittleEndian.put32 d.ptr) := by
    refine ((Memory.holds_write ?_).write ?_ (.inl ?_)).write ?_ (.inl ?_)
    all_goals simp only [Memory.size_write, hlength, hbytes]
    all_goals omega
  have hlen : (m.putDescriptor address.toNat d).Holds (address.toNat + 4)
      (LittleEndian.put32 d.len) := by
    refine (Memory.holds_write ?_).write ?_ (.inl ?_)
    all_goals simp only [Memory.size_write, hlength, hbytes]
    all_goals omega
  have hcap : (m.putDescriptor address.toNat d).Holds (address.toNat + 8)
      (LittleEndian.put32 d.cap) := by
    refine Memory.holds_write ?_
    simp only [Memory.size_write, hlength]
    omega
  have h4 : (address + 4).toNat = address.toNat + 4 :=
    (UInt32.toNat_add ..).trans (Nat.mod_eq_of_lt (by simp; omega))
  have h8 : (address + 8).toNat = address.toNat + 8 :=
    (UInt32.toNat_add ..).trans (Nat.mod_eq_of_lt (by simp; omega))
  rw [← h4] at hlen
  rw [← h8] at hcap
  simp only [Descriptor.read, ptrOffset, lenOffset, capOffset, UInt32.add_zero]
  rw [Memory.readElement_word hptr, Memory.readElement_word hlen, Memory.readElement_word hcap]

/-! ### The allocator -/

namespace Wasm

open Code Allocator

/-- The store of a guest: its memory, the end of its heap, and its count of live bytes. -/
def guestStore (m : Memory) (heap live : UInt32) : Store := ⟨m, [.i32 heap, .i32 live]⟩

/-- The programs that finished drafts are loaded as. -/
def Program.IsGuest (p : Program) : Prop := ∃ d : Draft, d.Built ∧ d.Image p

theorem Program.isGuest_of_loads {d : Draft} {m : GuestModule} (h : d.Loads m) : m.program.IsGuest := by
  obtain ⟨himage, -⟩ := h.image
  exact ⟨d, h.built, himage⟩

variable {p : Program} {env : Env} {rest : List Instr} {stack locals : List Val}
  {m : Memory} {h l : UInt32}

theorem run_roundUp {i : Nat} {n : UInt32} (hi : locals[i]? = some (.i32 n)) {st : Store} :
    runCode env (roundUp i ++ rest) stack locals st =
      runCode env rest (.i32 (blockWord n) :: stack) locals st := by
  simp [roundUp, hi, blockAlign, blockWord]

@[simp] theorem globals_guestStore : (guestStore m h l).globals = [.i32 h, .i32 l] := rfl

@[simp] theorem memory_guestStore : (guestStore m h l).memory = m := rfl

@[simp] theorem setGlobal_heap (v : UInt32) :
    (guestStore m h l).setGlobal 0 (.i32 v) = guestStore m v l := rfl

@[simp] theorem setGlobal_live (v : UInt32) :
    (guestStore m h l).setGlobal 1 (.i32 v) = guestStore m h v := rfl

@[simp] theorem write_guestStore (address : Nat) (source : ByteArray) :
    (guestStore m h l).write address source = guestStore (m.write address source) h l := rfl

/-- The size of the memory in bytes, as a guest computes it. -/
theorem toNat_sizeWord (hm : m.IsGuest) : (UInt32.ofNat m.pages <<< 16).toNat = m.size := by
  have hsize := hm.pages_eq
  have hbounds := hm.bounds
  unfold heapCapacity pageSize at *
  rw [UInt32.toNat_shiftLeft, UInt32.toNat_ofNat_of_lt' (by unfold UInt32.size; omega),
    Nat.shiftLeft_eq]
  simp only [UInt32.reduceToNat, Nat.reduceMod, Nat.reducePow]
  omega

theorem runGrow_some {extra : UInt32} {st : Store} {m' : Memory}
    (hg : st.memory.grow? extra.toNat = some m') : runGrow (.i32 extra :: stack) locals st =
      .next (.i32 (.ofNat st.memory.pages) :: stack) locals ⟨m', st.globals⟩ := by
  simp only [runGrow, hg]

theorem runGrow_none {extra : UInt32} {st : Store} (hg : st.memory.grow? extra.toNat = none) :
    runGrow (.i32 extra :: stack) locals st = .next (.i32 0xFFFFFFFF :: stack) locals st := by
  simp only [runGrow, hg]

/-- Growing the memory up to an address beyond it. -/
theorem run_growMemory (hm : m.IsGuest) {stop : UInt32} (hstop : locals[3]? = some (.i32 stop))
    (hsize : locals[4]? = some (.i32 (UInt32.ofNat m.pages <<< 16))) (hlt : m.size < stop.toNat) :
    runCode env growMemory [] locals (guestStore m h l) =
      if stop.toNat ≤ heapCapacity then
        .next [] locals (guestStore (m.reach stop.toNat) h l)
      else .ret [.i32 0] (guestStore m h l) := by
  have hwords := toNat_sizeWord hm
  have hpages : ((stop - UInt32.ofNat m.pages <<< 16 + 65535) >>> 16).toNat =
      (stop.toNat - m.size + pageSize - 1) / pageSize := by
    have hb := hm.bounds
    have hs := stop.toNat_lt
    rw [UInt32.toNat_shiftRight, UInt32.toNat_add, UInt32.toNat_sub_of_le _ _
      (UInt32.le_iff_toNat_le.mpr (by omega)), hwords, Nat.shiftRight_eq_div_pow]
    simp only [UInt32.reduceToNat, Nat.reduceMod, Nat.reducePow]
    unfold pageSize at *
    omega
  have hgrow := Memory.grow_reach hm (Nat.le_of_lt hlt)
  rw [← hpages] at hgrow
  have hones : ¬ UInt32.ofNat m.pages = -1 := by
    have hb := hm.bounds
    have hs := hm.pages_eq
    unfold heapCapacity pageSize at *
    rw [← UInt32.toNat_inj, UInt32.toNat_ofNat_of_lt' (by unfold UInt32.size; omega)]
    change ¬ m.pages = 4294967295
    omega
  have hrun : runCode env growMemory [] locals (guestStore m h l) =
      resume env [word (-1), num .i32Eq, returnZeroIf]
        (runGrow [.i32 ((stop - UInt32.ofNat m.pages <<< 16 + 65535) >>> 16)] locals
          (guestStore m h l)) := by
    simp [growMemory, hstop, hsize, pageSize, pageShift]
  rw [hrun]
  by_cases hc : stop.toNat ≤ heapCapacity
  · rw [if_pos hc] at hgrow ⊢
    rw [runGrow_some hgrow]
    simp [hones, guestStore]
  · rw [if_neg hc] at hgrow ⊢
    rw [runGrow_none hgrow]
    simp
    decide

/-- Where a block would end whose size wraps around when it is rounded. -/
theorem lt_blockSize {n : UInt32} (hn : ¬ n.toNat + 7 < 2 ^ 32) : heapCapacity < blockSize n.toNat := by
  unfold heapCapacity blockSize pageSize
  omega

/-- **Taking a block.** It starts at the end of the heap. There is no room where it would end beyond
the most that the memory can have, and then nothing changes. -/
theorem invoke_alloc (hp : p.IsGuest) (depth : Nat) (hm : m.IsGuest) (h l n : UInt32) :
    p.invoke (depth + 1) allocIndex [.i32 n] (guestStore m h l) =
      if h.toNat + blockSize n.toNat ≤ heapCapacity then
        .results [.i32 h] (guestStore (m.reach (h.toNat + blockSize n.toNat))
          (h + blockWord n) (l + blockWord n))
      else .results [.i32 0] (guestStore m h l) := by
  obtain ⟨d, hbuilt, himage⟩ := hp
  have hf := himage.code (hbuilt.builtin (i := 0) rfl) (by decide)
  have hsize := toNat_sizeWord hm
  rw [allocIndex, p.invoke_succ hf]
  simp only [Function.start]
  rw [run_roundUp (n := n) rfl]
  by_cases h7 : n.toNat + 7 < 2 ^ 32
  swap
  · have hlt := mt (le_blockWord_iff n).mp h7
    have hfull := lt_blockSize h7
    rw [if_neg (by omega)]
    simp [hlt]
    rfl
  have hr := toNat_blockWord_of_lt h7
  have hle := (le_blockWord_iff n).mpr h7
  have hadd : (h + blockWord n).toNat = (h.toNat + blockSize n.toNat) % 2 ^ 32 := by
    rw [UInt32.toNat_add, hr]
  by_cases hwrap : h.toNat + blockSize n.toNat < 2 ^ 32
  swap
  · have hlt : ¬ h ≤ h + blockWord n := by
      rw [UInt32.le_iff_toNat_le, hadd]
      have hs := (blockWord n).toNat_lt
      have hn := h.toNat_lt
      omega
    rw [if_neg (by unfold heapCapacity pageSize; omega)]
    simp [hle, hlt, heapGlobal]
    rfl
  rw [Nat.mod_eq_of_lt hwrap] at hadd
  have hend : h ≤ h + blockWord n := by
    rw [UInt32.le_iff_toNat_le, hadd]
    omega
  rw [← hadd]
  by_cases hgrow : (h + blockWord n).toNat ≤ m.size
  · have hshort : h + blockWord n ≤ UInt32.ofNat m.pages <<< 16 := by
      rw [UInt32.le_iff_toNat_le, hsize]
      exact hgrow
    rw [if_pos (Nat.le_trans hgrow hm.bounds.2), Memory.reach_of_le hgrow]
    simp [hle, hend, hshort, heapGlobal, liveGlobal, pageShift]
    rfl
  · have hlong : ¬ h + blockWord n ≤ UInt32.ofNat m.pages <<< 16 := by
      rw [UInt32.le_iff_toNat_le, hsize]
      exact hgrow
    have hrun : runCode (p.envAt depth) growMemory [] [.i32 n, .i32 (blockWord n), .i32 h,
        .i32 (h + blockWord n), .i32 (UInt32.ofNat m.pages <<< 16)] (guestStore m h l) = _ :=
      run_growMemory hm rfl rfl (Nat.lt_of_not_le hgrow)
    by_cases hc : (h + blockWord n).toNat ≤ heapCapacity
    · rw [if_pos hc] at hrun ⊢
      simp [hle, hend, hlong, heapGlobal, liveGlobal, pageShift, hrun, -UInt32.toNat_add]
      rfl
    · rw [if_neg hc] at hrun ⊢
      simp [hle, hend, hlong, heapGlobal, liveGlobal, pageShift, hrun, -UInt32.toNat_add]
      rfl

/-- **Giving a block back.** The heap ends where the block starts if it ended where the block did. A
block without bytes changes nothing. -/
theorem invoke_dealloc (hp : p.IsGuest) (depth : Nat) (m : Memory) (h l ptr len : UInt32) :
    p.invoke (depth + 1) 1 [.i32 len, .i32 ptr] (guestStore m h l) =
      .results [] (guestStore m (if ptr + blockWord len = h then ptr else h) (l - blockWord len)) := by
  obtain ⟨d, hbuilt, himage⟩ := hp
  have hf := himage.code (hbuilt.builtin (i := 1) rfl) (by decide)
  rw [p.invoke_succ hf]
  by_cases hlen : len = 0
  · have hzero : blockWord 0 = 0 := by decide
    have hsame : (if ptr = h then ptr else h) = h := by
      by_cases hptr : ptr = h
      · rw [if_pos hptr, hptr]
      · rw [if_neg hptr]
    simp [hlen, hzero, hsame, Function.start]
    rfl
  have hguard : runCode (p.envAt depth) [val 1, num .i32Eqz, when [ret]] []
      [.i32 ptr, .i32 len, .i32 0] (guestStore m h l) =
        .next [] [.i32 ptr, .i32 len, .i32 0] (guestStore m h l) := by
    simp [hlen]
  simp only [Function.start, List.append_assoc]
  rw [runCode_append, show List.map Val.zero [ValType.i32] = [.i32 0] from rfl,
    List.reverse_cons, List.reverse_singleton, List.singleton_append, List.cons_append,
    List.singleton_append, hguard, resume_next, run_roundUp (n := len) rfl]
  by_cases htop : ptr + blockWord len = h
  · simp [htop, liveGlobal, heapGlobal]
    rfl
  · simp [htop, liveGlobal, heapGlobal]
    rfl

/-- The count of live bytes. -/
theorem invoke_live (hp : p.IsGuest) (depth : Nat) (m : Memory) (h l : UInt32) :
    p.invoke (depth + 1) 2 [] (guestStore m h l) = .results [.i32 l] (guestStore m h l) := by
  obtain ⟨d, hbuilt, himage⟩ := hp
  have hf := himage.code (hbuilt.builtin (i := 2) rfl) (by decide)
  rw [p.invoke_succ hf]
  simp [Function.start, liveGlobal]
  rfl

theorem IsGuest.signature (hp : p.IsGuest) {i : Nat} {f : DraftFunction}
    (hf : Draft.builtins[i]? = some f) : p.signatures[i]? = some f.type := by
  obtain ⟨d, hbuilt, himage⟩ := hp
  rw [himage.signatures, List.getElem?_map, hbuilt.builtin hf]
  rfl

/-- Code that takes a block goes on with its address in a local, or returns zero. -/
theorem run_allocInto (hp : p.IsGuest) {depth : Nat} (hm : m.IsGuest) (hh : h ≠ 0) (i : Nat)
    (n : UInt32) :
    runCode (p.envAt (depth + 1)) (allocInto i ++ rest) (.i32 n :: stack) locals (guestStore m h l) =
      if h.toNat + blockSize n.toNat ≤ heapCapacity then
        runCode (p.envAt (depth + 1)) rest stack (locals.set i (.i32 h))
          (guestStore (m.reach (h.toNat + blockSize n.toNat)) (h + blockWord n) (l + blockWord n))
      else .ret [.i32 0] (guestStore m h l) := by
  have hinvoke := invoke_alloc hp depth hm h l n
  have htype := IsGuest.signature hp (i := 0) rfl
  have hcall : ∀ values st', p.invoke (depth + 1) allocIndex [.i32 n] (guestStore m h l) =
      .results values st' → (call allocIndex).run (p.envAt (depth + 1)) (.i32 n :: stack) locals
        (guestStore m h l) = .next (values ++ stack) locals st' := fun values st' hresults =>
    p.run_call htype rfl hresults
  by_cases hfit : h.toNat + blockSize n.toNat ≤ heapCapacity
  · rw [if_pos hfit] at hinvoke ⊢
    simp only [allocInto, List.cons_append, List.nil_append, runCode_cons, hcall _ _ hinvoke,
      resume_next]
    simp [hh]
  · rw [if_neg hfit] at hinvoke ⊢
    simp only [allocInto, List.cons_append, List.nil_append, runCode_cons, hcall _ _ hinvoke,
      resume_next]
    simp

/-- **Making a descriptor.** It takes a block of its own, at the end of the heap. -/
theorem invoke_newDescriptor (hp : p.IsGuest) (depth : Nat) (hm : m.IsGuest) (hh : h ≠ 0)
    (d : Descriptor) :
    p.invoke (depth + 2) newDescriptorIndex [.i32 d.cap, .i32 d.len, .i32 d.ptr]
        (guestStore m h l) =
      if h.toNat + 16 ≤ heapCapacity then
        .results [.i32 h] (guestStore ((m.reach (h.toNat + 16)).putDescriptor h.toNat d)
          (h + 16) (l + 16))
      else .results [.i32 0] (guestStore m h l) := by
  have hp' := hp
  obtain ⟨draft, hbuilt, himage⟩ := hp'
  have hf := himage.code (hbuilt.builtin (i := 3) rfl) (by decide)
  rw [newDescriptorIndex, p.invoke_succ hf]
  simp only [Function.start, List.append_assoc, List.cons_append, List.nil_append, runCode_cons,
    run_word, resume_next]
  rw [run_allocInto hp hm hh]
  have hstop : blockSize (UInt32.ofInt Descriptor.width.toNat).toNat = 16 := by decide
  have hword : blockWord (UInt32.ofInt Descriptor.width.toNat) = 16 := by decide
  rw [hstop, hword]
  by_cases hfit : h.toNat + 16 ≤ heapCapacity
  · rw [if_pos hfit, if_pos hfit]
    have hsize := (Memory.le_size_reach hm (h.toNat + 16)).2
    have h4 : h.toNat + 4 ≤ (m.reach (h.toNat + 16)).size := by omega
    have h8 : h.toNat + 4 + 4 ≤ (m.reach (h.toNat + 16)).size := by omega
    have h12 : h.toNat + 8 + 4 ≤ (m.reach (h.toNat + 16)).size := by omega
    simp [setField, Descriptor.ptrOffset, Descriptor.lenOffset, Descriptor.capOffset, h4, h8, h12]
    rfl
  · rw [if_neg hfit, if_neg hfit]
    rfl

/-- Code that makes a descriptor goes on with its address, or with zero where there is no room. -/
theorem run_newDescriptor (hp : p.IsGuest) {depth : Nat} (hm : m.IsGuest) (hh : h ≠ 0)
    (d : Descriptor) :
    (call newDescriptorIndex).run (p.envAt (depth + 2))
        (.i32 d.cap :: .i32 d.len :: .i32 d.ptr :: stack) locals (guestStore m h l) =
      if h.toNat + 16 ≤ heapCapacity then
        .next (.i32 h :: stack) locals (guestStore
          ((m.reach (h.toNat + 16)).putDescriptor h.toNat d) (h + 16) (l + 16))
      else .next (.i32 0 :: stack) locals (guestStore m h l) := by
  have hinvoke := invoke_newDescriptor (l := l) hp depth hm hh d
  have htype := IsGuest.signature hp (i := 3) rfl
  by_cases hfit : h.toNat + 16 ≤ heapCapacity
  · rw [if_pos hfit] at hinvoke ⊢
    exact p.run_call htype rfl hinvoke
  · rw [if_neg hfit] at hinvoke ⊢
    exact p.run_call htype rfl hinvoke

end Wasm

end GuestCall
