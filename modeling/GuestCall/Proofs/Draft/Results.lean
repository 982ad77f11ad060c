/-
# Buffers that guests return

Code that returns a buffer takes a block for its data, fills it, and then has a descriptor made. There
may be no room for the data, and then nothing has happened. There may be room for the data but not for
the descriptor, and then the data stays where it is although nobody learns of it. Or there is room for
both, and the descriptor says where the data is. What the block was filled with stays there, and nothing
but the block and the descriptor is written.

Key definitions: `Memory.Alike`, memories of the same size; `Returns`, the three ways in which such
code ends; `Memory.presented`, a memory with a buffer and its descriptor, and `Presents`, code that returns
a buffer of some bytes.
Key theorems: `holds_presented`, `byteAt_presented`, `returns_of_describe`, `returns_of_fill`,
`presents_of_fill`.
-/
import GuestCall.Proofs.Draft.Heap

namespace GuestCall

/-- A memory of the same size, with other contents perhaps. -/
structure Memory.Alike (m m' : Memory) : Prop where
  ceiling : m'.ceiling? = m.ceiling?
  size : m'.size = m.size

namespace Memory

variable {m m' m'' : Memory}

theorem Alike.refl (m : Memory) : m.Alike m := ⟨rfl, rfl⟩

theorem Alike.trans (h : m.Alike m') (h' : m'.Alike m'') : m.Alike m'' :=
  ⟨h'.ceiling.trans h.ceiling, h'.size.trans h.size⟩

theorem Alike.isGuest (h : m.Alike m') (hm : m.IsGuest) : m'.IsGuest := by
  refine ⟨h.ceiling.trans hm.ceiling, ?_⟩
  rw [h.size]
  exact hm.size

/-! ### A buffer and its descriptor -/

/-- The memory with some bytes in a block at the end of the heap, and behind that block a descriptor of
so many elements there. -/
def presented (m : Memory) (heap : Nat) (bytes : List UInt8) (count : Nat) : Memory :=
  (((m.reach (heap + blockSize bytes.length)).write heap bytes.toByteArray).reach
    (heap + blockSize bytes.length + 16)).putDescriptor (heap + blockSize bytes.length)
      ⟨.ofNat heap, .ofNat count, .ofNat count⟩

theorem byteAt_putDescriptor {address : Nat} (d : Descriptor) (hfits : address + 12 ≤ m.size) {i : Nat}
    (hi : i < address ∨ address + 12 ≤ i) : (m.putDescriptor address d).byteAt i = m.byteAt i := by
  have hword : ∀ v, (LittleEndian.put32 v).toByteArray.size = 4 := fun v => rfl
  have hapart : ∀ {m : Memory} {field : Nat} (v : UInt32), field + 4 ≤ m.size →
      (i < field ∨ field + 4 ≤ i) →
      (m.write field (LittleEndian.put32 v).toByteArray).byteAt i = m.byteAt i := fun v hfits hi => by
    rw [byteAt_write (by rw [hword]; exact hfits), hword, if_neg (by omega)]
  unfold putDescriptor
  rw [hapart d.cap (by simp only [size_write]; omega) (by omega),
    hapart d.len (by simp only [size_write]; omega) (by omega), hapart d.ptr (by omega) (by omega)]

section

variable {heap count : Nat} {bytes : List UInt8}

/-- **Outside of the block and the descriptor** every byte is what it was. -/
theorem byteAt_presented (h : m.IsGuest) (hroom : heap + blockSize bytes.length + 16 ≤ heapCapacity)
    {i : Nat} (hdata : i < heap ∨ heap + bytes.length ≤ i)
    (hdescriptor : i < heap + blockSize bytes.length ∨ heap + blockSize bytes.length + 12 ≤ i) :
    (m.presented heap bytes count).byteAt i = m.byteAt i := by
  have hsize : bytes.toByteArray.size = bytes.length := List.size_toByteArray
  have hblock := le_blockSize bytes.length
  have hreach := (le_size_reach h (heap + blockSize bytes.length)).2
  have hguest := (h.grown (grown_reach h (Nat.le_of_add_right_le hroom))).grown
    (grown_write _ heap bytes.toByteArray)
  have hstop := (le_size_reach hguest (heap + blockSize bytes.length + 16)).2
  unfold presented
  rw [byteAt_putDescriptor _ (by omega) hdescriptor, byteAt_reach, byteAt_write (by rw [hsize]; omega),
    hsize, if_neg (by omega), byteAt_reach]

/-- **The bytes stand in the block.** -/
theorem holds_presented (h : m.IsGuest) (hroom : heap + blockSize bytes.length + 16 ≤ heapCapacity) :
    (m.presented heap bytes count).Holds heap bytes := by
  have hblock := le_blockSize bytes.length
  have hreach := (le_size_reach h (heap + blockSize bytes.length)).2
  have hguest := (h.grown (grown_reach h (Nat.le_of_add_right_le hroom))).grown
    (grown_write _ heap bytes.toByteArray)
  obtain ⟨hle, hstop⟩ := le_size_reach hguest (heap + blockSize bytes.length + 16)
  have hwritten : ((m.reach (heap + blockSize bytes.length)).write heap bytes.toByteArray).Holds heap bytes :=
    holds_write (by omega)
  refine hwritten.of_byteAt ?_ fun i _ hi => ?_
  · rw [presented, size_putDescriptor]
    exact hle
  · rw [presented, byteAt_putDescriptor _ (by omega) (by omega), byteAt_reach]

end

end Memory

namespace Wasm

open Code Allocator

/-- How code ends that returns a buffer of so many elements of some width, if the heap ends at
`heap`. -/
inductive Returns (memory : Memory) (heap : Nat) (live : UInt32) (count width : Nat) : Reply → Prop
  /-- There is no room for the data. -/
  | full (h : heapCapacity < heap + blockSize (count * width)) :
    Returns memory heap live count width (.results [.i32 0] (guestStore memory (.ofNat heap) live))
  /-- There is room for the data, but not for a descriptor. -/
  | stuck {memory' : Memory} {stop : Nat} (hstop : stop = heap + blockSize (count * width))
    (hdata : stop ≤ heapCapacity) (hfull : heapCapacity < stop + 16)
    (hmemory : (memory.reach stop).Alike memory') :
    Returns memory heap live count width (.results [.i32 0]
      (guestStore memory' (.ofNat stop) (live + .ofNat (blockSize (count * width)))))
  /-- There is room for both. -/
  | made {memory' : Memory} {stop : Nat} (hstop : stop = heap + blockSize (count * width))
    (hfits : stop + 16 ≤ heapCapacity) (hmemory : (memory.reach (stop + 16)).Alike memory')
    (hread : ∀ style, Descriptor.read style memory' (.ofNat stop) =
      .ok ⟨.ofNat heap, .ofNat count, .ofNat count⟩) :
    Returns memory heap live count width (.results [.i32 (.ofNat stop)]
      (guestStore memory' (.ofNat (stop + 16)) (live + .ofNat (blockSize (count * width)) + 16)))

/-- Code returns a buffer of so many elements that are these bytes, if there is room for it. -/
structure Presents (memory : Memory) (heap : Nat) (live : UInt32) (count width : Nat) (bytes : List UInt8)
    (reply : Reply) : Prop where
  length : bytes.length = count * width
  returns : Returns memory heap live count width reply
  /-- What lies below the heap is left alone, with or without room. -/
  below : ∀ i, i < heap → reply.store.memory.byteAt i = memory.byteAt i
  memory : heap + blockSize bytes.length + 16 ≤ heapCapacity →
    reply.store.memory = memory.presented heap bytes count

variable {p : Program} {depth : Nat} {memory : Memory} {heap : Nat} {live : UInt32}
  {fill tail : List Instr} {locals : List Val}

/-- **Describing a block** that is filled ends the code, whether there is room for the descriptor or not. The
descriptor is all that comes on top of what was there. -/
theorem returns_of_describe (hp : p.IsGuest) (hm : memory.IsGuest) (hheap : heapStart ≤ heap)
    {count width stop : Nat} {memory' : Memory} (hstop : stop = heap + blockSize (count * width))
    (hdata : stop ≤ heapCapacity) (halike : (memory.reach stop).Alike memory') (locals : List Val) :
    let reply := (runCode (p.envAt (depth + 2)) [call newDescriptorIndex]
      [.i32 (.ofNat count), .i32 (.ofNat count), .i32 (.ofNat heap)] locals (guestStore memory' (.ofNat stop)
        (live + .ofNat (blockSize (count * width))))).reply [.num .i32]
    Returns memory heap live count width reply ∧
      (stop + 16 ≤ heapCapacity → reply.store.memory =
        (memory'.reach (stop + 16)).putDescriptor stop ⟨.ofNat heap, .ofNat count, .ofNat count⟩) ∧
      (heapCapacity < stop + 16 → reply.store.memory = memory') := by
  intro reply
  unfold reply
  have hstopword := toNat_ofNat_heap hdata
  have hstopne : UInt32.ofNat stop ≠ 0 := ofNat_heap_ne_zero (by omega) hdata
  have hguest' := halike.isGuest (hm.grown (Memory.grown_reach hm hdata))
  have hdescribe : (call newDescriptorIndex).run (p.envAt (depth + 2))
      [.i32 (.ofNat count), .i32 (.ofNat count), .i32 (.ofNat heap)] locals (guestStore memory'
        (.ofNat stop) (live + .ofNat (blockSize (count * width)))) = _ :=
    run_newDescriptor hp hguest' hstopne ⟨.ofNat heap, .ofNat count, .ofNat count⟩
  rw [hstopword] at hdescribe
  rw [runCode_cons, hdescribe]
  by_cases hfits : stop + 16 ≤ heapCapacity
  · have hnext : UInt32.ofNat stop + 16 = .ofNat (stop + 16) := (UInt32.ofNat_add ..).symm
    have hsize := Memory.size_reach hguest' (stop + 16)
    have hmono := wholePages_mono (Nat.le_add_right stop 16)
    have halike' : (memory.reach (stop + 16)).Alike ((memory'.reach (stop + 16)).putDescriptor stop
        ⟨.ofNat heap, .ofNat count, .ofNat count⟩) := by
      refine ⟨?_, ?_⟩
      · unfold Memory.putDescriptor
        simp only [Memory.ceiling_write, Memory.ceiling_reach]
        exact halike.ceiling.trans (Memory.ceiling_reach ..)
      · rw [Memory.size_putDescriptor, hsize, halike.size, Memory.size_reach hm, Memory.size_reach hm]
        omega
    have hreply : ∀ (word : UInt32) (st : Store),
        Reply.ofStack [.num .i32] [.i32 word] st = .results [.i32 word] st := fun _ _ => rfl
    have hroom := (Memory.le_size_reach hguest' (stop + 16)).2
    have hbound := (hguest'.grown (Memory.grown_reach hguest' hfits)).bounds.2
    have hread : ∀ style, Descriptor.read style ((memory'.reach (stop + 16)).putDescriptor
        (UInt32.ofNat stop).toNat ⟨.ofNat heap, .ofNat count, .ofNat count⟩) (.ofNat stop) = _ := fun style =>
      Descriptor.read_putDescriptor style ⟨.ofNat heap, .ofNat count, .ofNat count⟩
        (by rw [hstopword]; omega) (Nat.lt_of_le_of_lt hbound (by decide))
    rw [hstopword] at hread
    rw [if_pos hfits, hnext, resume_next, runCode_nil, reply_next, hreply]
    refine ⟨.made hstop hfits halike' hread, fun _ => ?_, fun hfull => absurd hfits (Nat.not_le.mpr hfull)⟩
    rw [Reply.store_results, memory_guestStore]
  · rw [if_neg hfits]
    exact ⟨.stuck hstop hdata (Nat.lt_of_not_le hfits) halike, fun h => absurd h hfits, fun _ => rfl⟩

/-- **Code that returns a buffer**: it takes a block, and if there is one, more code fills it, and a
descriptor is made of it. Whatever is known of the filled memory, the descriptor is all that comes on
top of it. -/
theorem returns_of_fill (Filled : Memory → Prop) (hp : p.IsGuest) (hm : memory.IsGuest)
    (hheap : heapStart ≤ heap) (hinside : heap ≤ memory.size) {count width i : Nat} {n : UInt32}
    (hn : heap + blockSize (count * width) ≤ heapCapacity → n.toNat = count * width)
    (hfull : heapCapacity < heap + blockSize (count * width) →
      heapCapacity < heap + blockSize n.toNat)
    (hstill : stillCode fill = true)
    (hfill : ∀ st : Store, st.memory = memory.reach (heap + blockSize (count * width)) →
      st.memory.IsGuest → memory.size ≤ st.memory.size →
      heap + count * width ≤ st.memory.size → ∃ locals' st',
        runCode (p.envAt (depth + 2)) fill [] (locals.set i (.i32 (.ofNat heap))) st =
          .next [] locals' st' ∧
        runCode (p.envAt (depth + 2)) tail [] locals' st' =
          runCode (p.envAt (depth + 2)) [call newDescriptorIndex]
            [.i32 (.ofNat count), .i32 (.ofNat count), .i32 (.ofNat heap)] locals' st' ∧
        Filled st'.memory) :
    let reply := (runCode (p.envAt (depth + 2)) (allocInto i ++ (fill ++ tail)) [.i32 n] locals
      (guestStore memory (.ofNat heap) live)).reply [.num .i32]
    Returns memory heap live count width reply ∧
      (heap + blockSize (count * width) + 16 ≤ heapCapacity → ∃ memory', Filled memory' ∧
        reply.store.memory = (memory'.reach (heap + blockSize (count * width) + 16)).putDescriptor
          (heap + blockSize (count * width)) ⟨.ofNat heap, .ofNat count, .ofNat count⟩) ∧
      (heapCapacity < heap + blockSize (count * width) + 16 →
        reply.store.memory = memory ∨ Filled reply.store.memory) := by
  intro reply
  unfold reply
  have hcap : heap ≤ heapCapacity := Nat.le_trans hinside hm.bounds.2
  have hword := toNat_ofNat_heap hcap
  have hne := ofNat_heap_ne_zero hheap hcap
  rw [run_allocInto hp hm hne, hword]
  by_cases hdata : heap + blockSize (count * width) ≤ heapCapacity
  · have hn := hn hdata
    have hblock : blockWord n = .ofNat (blockSize (count * width)) := by
      rw [← hn]
      exact blockWord_eq (by rw [hn]; omega)
    have hend : UInt32.ofNat heap + .ofNat (blockSize (count * width)) =
        .ofNat (heap + blockSize (count * width)) := (UInt32.ofNat_add ..).symm
    rw [hn, if_pos hdata, hblock, hend]
    obtain ⟨stop, hstop⟩ : ∃ stop, stop = heap + blockSize (count * width) := ⟨_, rfl⟩
    rw [← hstop] at hdata ⊢
    have hreach := hm.grown (Memory.grown_reach hm hdata)
    have hroom : heap + count * width ≤ (memory.reach stop).size := by
      have hle := le_blockSize (count * width)
      have hsize := (Memory.le_size_reach hm stop).2
      omega
    obtain ⟨locals', st', hrun, htail, hfilled⟩ := hfill (guestStore (memory.reach stop) (.ofNat stop)
      (live + .ofNat (blockSize (count * width)))) (by rw [hstop]; rfl) hreach
      (Memory.le_size_reach hm stop).1 hroom
    -- what fills the block changes neither the globals nor the size of the memory
    have hkept : Store.Kept _ (runCode _ fill _ _ _).store :=
      runCode_keeps (keeps_kept (p.envAt (depth + 2))) fill hstill [] (locals.set i (.i32 (.ofNat heap)))
        (guestStore (memory.reach stop) (.ofNat stop) (live + .ofNat (blockSize (count * width))))
    rw [hrun] at hkept
    obtain ⟨memory', rfl⟩ : ∃ memory', st' = guestStore memory' (.ofNat stop)
        (live + .ofNat (blockSize (count * width))) :=
      ⟨st'.memory, congrArg (Store.mk st'.memory) hkept.globals⟩
    rw [runCode_append, hrun, resume_next, htail]
    obtain ⟨hreturns, hdescribed, hstuck⟩ :=
      returns_of_describe hp hm hheap hstop hdata ⟨hkept.ceiling, hkept.size⟩ locals'
    exact ⟨hreturns, fun hfits => ⟨memory', hfilled, hdescribed hfits⟩,
      fun hfull => .inr ((congrArg Filled (hstuck hfull)).mpr hfilled)⟩
  · rw [if_neg (Nat.not_le.mpr (hfull (Nat.lt_of_not_le hdata)))]
    exact ⟨.full (Nat.lt_of_not_le hdata), fun h => absurd (Nat.le_of_add_right_le h) hdata,
      fun _ => .inl rfl⟩

/-- Code that returned a buffer and did no more than write some bytes into it presents those. -/
theorem presents_of_returns (hm : memory.IsGuest) {count width : Nat} {bytes : List UInt8} {reply : Reply}
    (hlength : bytes.length = count * width) (hreturns : Returns memory heap live count width reply)
    (hmade : heap + blockSize (count * width) + 16 ≤ heapCapacity → reply.store.memory =
      (((memory.reach (heap + blockSize (count * width))).write heap bytes.toByteArray).reach
        (heap + blockSize (count * width) + 16)).putDescriptor (heap + blockSize (count * width))
          ⟨.ofNat heap, .ofNat count, .ofNat count⟩)
    (hstuck : heapCapacity < heap + blockSize (count * width) + 16 → reply.store.memory = memory ∨
      reply.store.memory =
        (memory.reach (heap + blockSize (count * width))).write heap bytes.toByteArray) :
    Presents memory heap live count width bytes reply := by
  rw [← hlength] at hmade hstuck
  refine ⟨hlength, hreturns, fun i hi => ?_, hmade⟩
  by_cases hroom : heap + blockSize bytes.length + 16 ≤ heapCapacity
  · have hpresented : reply.store.memory = memory.presented heap bytes count := hmade hroom
    rw [hpresented, Memory.byteAt_presented hm hroom (.inl hi) (.inl (Nat.lt_add_right _ hi))]
  · rcases hstuck (Nat.lt_of_not_le hroom) with hsame | hwritten
    · rw [hsame]
    · have hreach := (Memory.le_size_reach hm (heap + blockSize bytes.length)).2
      have hblock := le_blockSize bytes.length
      have hsize : bytes.toByteArray.size = bytes.length := List.size_toByteArray
      rw [hwritten, Memory.byteAt_write (by rw [hsize]; omega), hsize, if_neg (by omega), Memory.byteAt_reach]

/-- **Code that returns a buffer of known bytes**: what fills the block does nothing but to write them. -/
theorem presents_of_fill (hp : p.IsGuest) (hm : memory.IsGuest) (hheap : heapStart ≤ heap)
    (hinside : heap ≤ memory.size) {count width i : Nat} {n : UInt32} {bytes : List UInt8}
    (hlength : bytes.length = count * width)
    (hn : heap + blockSize (count * width) ≤ heapCapacity → n.toNat = count * width)
    (hfull : heapCapacity < heap + blockSize (count * width) →
      heapCapacity < heap + blockSize n.toNat)
    (hstill : stillCode fill = true)
    (hfill : ∀ st : Store, st.memory = memory.reach (heap + blockSize (count * width)) →
      st.memory.IsGuest → memory.size ≤ st.memory.size →
      heap + count * width ≤ st.memory.size → ∃ locals',
        runCode (p.envAt (depth + 2)) fill [] (locals.set i (.i32 (.ofNat heap))) st =
          .next [] locals' (st.write heap bytes.toByteArray) ∧
        runCode (p.envAt (depth + 2)) tail [] locals' (st.write heap bytes.toByteArray) =
          runCode (p.envAt (depth + 2)) [call newDescriptorIndex]
            [.i32 (.ofNat count), .i32 (.ofNat count), .i32 (.ofNat heap)] locals'
            (st.write heap bytes.toByteArray)) :
    Presents memory heap live count width bytes ((runCode (p.envAt (depth + 2))
      (allocInto i ++ (fill ++ tail)) [.i32 n] locals
      (guestStore memory (.ofNat heap) live)).reply [.num .i32]) := by
  have hends : Returns memory heap live count width _ ∧ _ := returns_of_fill
    (· = (memory.reach (heap + blockSize (count * width))).write heap bytes.toByteArray)
    hp hm hheap hinside hn hfull hstill fun st hst hguest hgrown hroom => by
      obtain ⟨locals', hrun, htail⟩ := hfill st hst hguest hgrown hroom
      exact ⟨locals', _, hrun, htail, congrArg (Memory.write · heap bytes.toByteArray) hst⟩
  obtain ⟨hreturns, hfilled, hstuck⟩ := hends
  refine presents_of_returns hm hlength hreturns (fun hroom => ?_) hstuck
  obtain ⟨_, rfl, hmemory⟩ := hfilled hroom
  exact hmemory

end Wasm

end GuestCall
