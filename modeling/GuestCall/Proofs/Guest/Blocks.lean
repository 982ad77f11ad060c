/-
# Blocks of the heap

The host takes blocks from the allocator of an instance and gives them back, in whichever order. All the
time the live blocks lie in the heap, each at a multiple of eight and clear of the others, and the allocator
counts what they take. The end of the heap moves back only if the topmost block is given back, so blocks
that are given back out of order leave gaps, but no block ever gets a byte of another one.

A block without bytes takes nothing, so it may lie where others are, and even behind the end of the heap.
What carries the argument is therefore what blocks take: that is clear of each other, it lies below the end of
the heap, and all of it together is no more than the heap has.

Key definitions: `Block`, `Instance.History`, the instances that calls of the allocator lead to, with the
blocks that are live, `Block.Laid`, what such a heap is like, and `Block.Safe`.
Key theorems: `Block.Laid.take` and `Block.Laid.give`, what one call preserves; `Instance.History.laid`;
`allocator_is_safe`.
-/
import GuestCall.Proofs.Draft.Instantiate
import Mathlib.Order.Bounds.Basic

namespace GuestCall

open Wasm

/-! ### Blocks -/

/-- A block that the allocator has handed out. -/
structure Block where
  ptr : UInt32
  size : UInt32
  deriving DecidableEq

namespace Block

/-- A byte of a block. -/
def Has (b : Block) (address : Nat) : Prop :=
  b.ptr.toNat ≤ address ∧ address < b.ptr.toNat + b.size.toNat

/-- What a block takes of the heap. -/
def room (b : Block) : Nat := blockSize b.size.toNat

/-- One past what a block takes of the heap. -/
def stop (b : Block) : Nat := b.ptr.toNat + b.room

/-- Blocks that take nothing in common. One that takes nothing at all is clear of every other. -/
def Clear (b b' : Block) : Prop :=
  b.room = 0 ∨ b'.room = 0 ∨ b.stop ≤ b'.ptr.toNat ∨ b'.stop ≤ b.ptr.toNat

theorem Clear.symm {b b' : Block} (h : b.Clear b') : b'.Clear b := by
  unfold Clear at *
  omega

theorem size_le_room (b : Block) : b.size.toNat ≤ b.room := le_blockSize _

/-- Clear blocks have no byte in common. -/
theorem Clear.disjoint {b b' : Block} (h : b.Clear b') (address : Nat) :
    ¬ (b.Has address ∧ b'.Has address) := by
  have hsize := b.size_le_room
  have hsize' := b'.size_le_room
  unfold Clear stop at h
  unfold Has
  omega

/-- What a heap is like, with some live blocks. -/
structure Laid (live : List Block) (memory : Memory) (heap counter : UInt32) : Prop where
  guest : memory.IsGuest
  aligned : heap.toNat % 8 = 0
  covered : heap.toNat ≤ memory.size
  placed : ∀ b ∈ live, b.ptr.toNat % 8 = 0 ∧ heapStart ≤ b.ptr.toNat ∧ b.stop ≤ memory.size
  below : ∀ b ∈ live, b.room ≠ 0 → b.stop ≤ heap.toNat
  clear : live.Pairwise Clear
  counted : counter.toNat = (live.map room).sum
  /-- All that the blocks take has room below the end of the heap. -/
  ground : heapStart + counter.toNat ≤ heap.toNat

namespace Laid

variable {live : List Block} {memory : Memory} {heap counter : UInt32}

/-- A heap without blocks. -/
theorem fresh (hmemory : memory.IsGuest) (hsize : memory.size = pageSize) :
    Laid [] memory heapStart.toUInt32 0 where
  guest := hmemory
  aligned := by decide
  covered := by
    rw [hsize]
    decide
  placed := fun _ hb => nomatch hb
  below := fun _ hb => nomatch hb
  clear := .nil
  counted := rfl
  ground := by decide

theorem le_capacity (h : Laid live memory heap counter) : memory.size ≤ heapCapacity :=
  h.guest.bounds.2

/-- No block that there is room for has the address zero. -/
theorem heap_ne_zero (h : Laid live memory heap counter) : heap ≠ 0 := by
  rintro rfl
  have hground := h.ground
  have hzero : (0 : UInt32).toNat = 0 := rfl
  unfold heapStart at hground
  omega

/-- The word by which the allocator moves is what the block takes. -/
theorem toNat_blockWord {n : UInt32} (hn : blockSize n.toNat ≤ heapCapacity) :
    (blockWord n).toNat = blockSize n.toNat := by
  rw [blockWord_eq hn, toNat_ofNat_heap hn]

theorem toNat_add_blockWord {word n : UInt32} (hroom : word.toNat + blockSize n.toNat ≤ heapCapacity) :
    (word + blockWord n).toNat = word.toNat + blockSize n.toNat := by
  have hword := toNat_blockWord (n := n) (by omega)
  rw [UInt32.toNat_add, hword, Nat.mod_eq_of_lt]
  unfold heapCapacity pageSize at hroom
  omega

/-- **Taking a block** where there is room. It lies at the end of the heap. -/
theorem take (h : Laid live memory heap counter) {n : UInt32}
    (hroom : heap.toNat + blockSize n.toNat ≤ heapCapacity) :
    Laid (⟨heap, n⟩ :: live) (memory.reach (heap.toNat + blockSize n.toNat)) (heap + blockWord n)
      (counter + blockWord n) := by
  have hground := h.ground
  have habove : heapStart ≤ heap.toNat := (Nat.le_add_right _ _).trans hground
  have hheap := toNat_add_blockWord hroom
  have hcounter := toNat_add_blockWord (show counter.toNat + blockSize n.toNat ≤ heapCapacity by omega)
  obtain ⟨hgrown, hreached⟩ := Memory.le_size_reach h.guest (heap.toNat + blockSize n.toNat)
  have haligned := h.aligned
  refine ⟨h.guest.grown (Memory.grown_reach h.guest hroom), ?_, ?_, ?_, ?_, ?_, ?_, ?_⟩
  · rw [hheap]
    unfold blockSize
    omega
  · rw [hheap]
    exact hreached
  · intro b hb
    rcases List.mem_cons.mp hb with rfl | hb
    · exact ⟨haligned, habove, hreached⟩
    · obtain ⟨hmultiple, hstart, hinside⟩ := h.placed b hb
      exact ⟨hmultiple, hstart, hinside.trans hgrown⟩
  · intro b hb hne
    rw [hheap]
    rcases List.mem_cons.mp hb with rfl | hb
    · exact Nat.le_refl _
    · exact (h.below b hb hne).trans (Nat.le_add_right _ _)
  · refine .cons (fun b hb => ?_) h.clear
    by_cases hne : b.room = 0
    · exact .inr (.inl hne)
    · exact .inr (.inr (.inr (h.below b hb hne)))
  · rw [hcounter, h.counted, List.map_cons, List.sum_cons, Nat.add_comm]
    rfl
  · rw [hheap, hcounter]
    omega

/-- **Giving a block back.** Where it was the topmost one, what is left lies below it. -/
theorem give (h : Laid live memory heap counter) {b : Block} (hb : b ∈ live) :
    Laid (live.erase b) memory (if b.ptr + blockWord b.size = heap then b.ptr else heap)
      (counter - blockWord b.size) := by
  have hperm : live.Perm (b :: live.erase b) := List.perm_cons_erase hb
  have hmem : ∀ {b'}, b' ∈ live.erase b → b' ∈ live := List.mem_of_mem_erase
  obtain ⟨hmultiple, habove, hinside⟩ := h.placed b hb
  have hcapacity := h.le_capacity
  have hcovered := h.covered
  have hground := h.ground
  have hroom : b.ptr.toNat + blockSize b.size.toNat ≤ heapCapacity := hinside.trans hcapacity
  have hword : (blockWord b.size).toNat = b.room := toNat_blockWord (by omega)
  have htop : b.ptr + blockWord b.size = heap ↔ b.stop = heap.toNat := by
    rw [← UInt32.toNat_inj, toNat_add_blockWord hroom]
    rfl
  have hsum : counter.toNat = b.room + ((live.erase b).map room).sum := by
    rw [h.counted, (hperm.map room).sum_nat, List.map_cons, List.sum_cons]
  have hcounter : (counter - blockWord b.size).toNat = counter.toNat - b.room := by
    rw [UInt32.toNat_sub_of_le _ _ (UInt32.le_iff_toNat_le.mpr (by omega)), hword]
  have hbelow : ∀ b' ∈ live.erase b, b'.room ≠ 0 →
      b'.stop ≤ (if b.ptr + blockWord b.size = heap then b.ptr else heap).toNat := by
    intro b' hb' hne
    have hbelow' := h.below b' (hmem hb') hne
    by_cases heq : b.ptr + blockWord b.size = heap
    · have hclear := (List.pairwise_cons.mp ((hperm.pairwise_iff Clear.symm).mp h.clear)).1 b' hb'
      have hstop := htop.mp heq
      rw [if_pos heq]
      unfold Clear stop at *
      omega
    · rw [if_neg heq]
      exact hbelow'
  refine ⟨h.guest, ?_, ?_, fun b' hb' => h.placed b' (hmem hb'), hbelow,
    h.clear.sublist List.erase_sublist, ?_, ?_⟩
  · split
    · exact hmultiple
    · exact h.aligned
  · split
    · exact (Nat.le_add_right _ _).trans hinside
    · exact hcovered
  · rw [hcounter]
    omega
  · rw [hcounter]
    by_cases heq : b.ptr + blockWord b.size = heap
    · have hstop := htop.mp heq
      rw [if_pos heq]
      unfold stop at hstop
      omega
    · rw [if_neg heq]
      omega

end Laid

/-- What the live blocks of a heap must be like. -/
structure Safe (live : List Block) (memory : Memory) (heap counter : UInt32) : Prop where
  aligned : ∀ b ∈ live, b.ptr.toNat % 8 = 0
  above : ∀ b ∈ live, heapStart ≤ b.ptr.toNat
  inside : ∀ b ∈ live, b.ptr.toNat + b.size.toNat ≤ memory.size
  disjoint : live.Pairwise fun b b' => ∀ address, ¬ (b.Has address ∧ b'.Has address)
  counted : counter.toNat = (live.map fun b => blockSize b.size.toNat).sum
  below : ∀ b ∈ live, b.size ≠ 0 → b.ptr.toNat + b.size.toNat ≤ heap.toNat
  covered : heap.toNat ≤ memory.size

theorem Laid.safe {live : List Block} {memory : Memory} {heap counter : UInt32}
    (h : Laid live memory heap counter) : Safe live memory heap counter where
  aligned := fun b hb => (h.placed b hb).1
  above := fun b hb => (h.placed b hb).2.1
  inside := fun b hb => (Nat.add_le_add_left b.size_le_room _).trans (h.placed b hb).2.2
  disjoint := h.clear.imp Clear.disjoint
  counted := h.counted
  below := by
    intro b hb hne
    have hroom : b.room ≠ 0 := by
      have hsize : b.size.toNat ≠ 0 := fun hzero => hne (UInt32.toNat_inj.mp hzero)
      have hle := b.size_le_room
      omega
    exact (Nat.add_le_add_left b.size_le_room _).trans (h.below b hb hroom)
  covered := h.covered

end Block

/-! ### Calls of the allocator -/

/-- The instances of a module that calls of the allocator lead to, each with its live blocks. A block is
live from the call that returned it to the one that gives it back. -/
inductive Instance.History (m : GuestModule) (c : Config) : Instance → List Block → Prop
  | fresh {i : Instance} (h : Instance.ofModule m c = .ok i) : History m c i []
  | take {i i' : Instance} {live : List Block} {ptr n : UInt32} (h : History m c i live)
    (hcall : i.call allocExport [.i32 n] = (.ok [.i32 ptr], i')) (hptr : ptr ≠ 0) :
    History m c i' (⟨ptr, n⟩ :: live)
  | refuse {i i' : Instance} {live : List Block} {n : UInt32} (h : History m c i live)
    (hcall : i.call allocExport [.i32 n] = (.ok [.i32 0], i')) : History m c i' live
  | give {i i' : Instance} {live : List Block} {b : Block} {result : Except BindError (List CoreValue)}
    (h : History m c i live) (hb : b ∈ live)
    (hcall : i.call deallocExport [.i32 b.ptr, .i32 b.size] = (result, i')) :
    History m c i' (live.erase b)

variable {d : Draft} {m : GuestModule} {c : Config} {i : Instance} {live : List Block}

/-- **Every heap that calls lead to is laid out well.** -/
theorem Instance.History.laid (hd : d.Loads m) (h : History m c i live) :
    ∃ memory heap counter, i.At m (guestStore memory heap counter) ∧
      Block.Laid live memory heap counter := by
  induction h with
  | fresh hi =>
    obtain ⟨i', memory, hi', hat, hmemory, hsize, -⟩ := hd.instantiates c
    obtain rfl := Except.ok.inj (hi.symm.trans hi')
    exact ⟨memory, _, _, hat, .fresh hmemory hsize⟩
  | @take i i' live ptr n _ hcall hptr ih =>
    obtain ⟨memory, heap, counter, hat, hlaid⟩ := ih
    have halloc := call_alloc_at hd hat hlaid.guest n
    by_cases hroom : heap.toNat + blockSize n.toNat ≤ heapCapacity
    · rw [if_pos hroom] at halloc
      obtain ⟨_, hcall', hat'⟩ := halloc
      cases hcall.symm.trans hcall'
      exact ⟨_, _, _, hat', hlaid.take hroom⟩
    · rw [if_neg hroom] at halloc
      obtain ⟨_, hcall', -⟩ := halloc
      cases hcall.symm.trans hcall'
      exact absurd rfl hptr
  | @refuse i i' live n _ hcall ih =>
    obtain ⟨memory, heap, counter, hat, hlaid⟩ := ih
    have halloc := call_alloc_at hd hat hlaid.guest n
    by_cases hroom : heap.toNat + blockSize n.toNat ≤ heapCapacity
    · rw [if_pos hroom] at halloc
      obtain ⟨_, hcall', -⟩ := halloc
      cases hcall.symm.trans hcall'
      exact absurd rfl hlaid.heap_ne_zero
    · rw [if_neg hroom] at halloc
      obtain ⟨_, hcall', hat'⟩ := halloc
      cases hcall.symm.trans hcall'
      exact ⟨_, _, _, hat', hlaid⟩
  | @give i i' live b result _ hb hcall ih =>
    obtain ⟨memory, heap, counter, hat, hlaid⟩ := ih
    obtain ⟨_, hcall', hat'⟩ := call_dealloc_at hd hat b.ptr b.size
    cases hcall.symm.trans hcall'
    exact ⟨_, _, _, hat', hlaid.give hb⟩

/-- The memory grows by the fewest pages with which the heap fits. -/
theorem Memory.isLeast_reach {memory : Memory} (h : memory.IsGuest) {stop : Nat}
    (hstop : stop ≤ heapCapacity) :
    if stop ≤ memory.size then memory.reach stop = memory
    else IsLeast {pages | stop ≤ pages * pageSize} (memory.reach stop).pages := by
  by_cases hle : stop ≤ memory.size
  · rw [if_pos hle]
    exact reach_of_le hle
  · rw [if_neg hle]
    have hpages := (h.grown (grown_reach h hstop)).pages_eq
    have hsize := size_reach h stop
    obtain ⟨-, hreached⟩ := le_size_reach h stop
    have hmem : stop ≤ (memory.reach stop).pages * pageSize := by
      rw [← hpages]
      exact hreached
    refine ⟨hmem, fun pages hfits => ?_⟩
    have hfits : stop ≤ pages * pageSize := hfits
    unfold wholePages pageSize at *
    omega

/-- **The allocator is safe**, whatever blocks are taken and given back. The live blocks are aligned, lie in
the memory behind the static data and have no byte in common; the counter says what they take, and those that
are not empty lie below the end of the heap, which the memory covers. The next call takes a block of any size
unless the heap would end beyond the most that the memory can have, and then nothing changes; where the memory
has to grow, it has just as many pages as it takes. The next call that gives a live block back succeeds and
leaves the memory as it is. -/
theorem allocator_is_safe (hd : d.Loads m) (h : Instance.History m c i live) :
    ∃ memory heap counter, i.At m (guestStore memory heap counter) ∧
      Block.Safe live memory heap counter ∧
      (∀ n : UInt32, if heap.toNat + blockSize n.toNat ≤ heapCapacity then
        heap ≠ 0 ∧ ∃ i' memory' heap' counter',
          i.call allocExport [.i32 n] = (.ok [.i32 heap], i') ∧
          i'.At m (guestStore memory' heap' counter') ∧
          heap'.toNat = heap.toNat + blockSize n.toNat ∧
          counter'.toNat = counter.toNat + blockSize n.toNat ∧
          if heap'.toNat ≤ memory.size then memory' = memory
          else IsLeast {pages | heap'.toNat ≤ pages * pageSize} memory'.pages
      else ∃ i', i.call allocExport [.i32 n] = (.ok [.i32 0], i') ∧
        i'.At m (guestStore memory heap counter)) ∧
      ∀ b ∈ live, ∃ i' heap' counter',
        i.call deallocExport [.i32 b.ptr, .i32 b.size] = (.ok [], i') ∧
        i'.At m (guestStore memory heap' counter') := by
  obtain ⟨memory, heap, counter, hat, hlaid⟩ := h.laid hd
  refine ⟨memory, heap, counter, hat, hlaid.safe, fun n => ?_, fun b hb => ?_⟩
  · have halloc := Instance.call_alloc_at hd hat hlaid.guest n
    by_cases hroom : heap.toNat + blockSize n.toNat ≤ heapCapacity
    · rw [if_pos hroom] at halloc ⊢
      obtain ⟨i', hcall, hat'⟩ := halloc
      have hheap := Block.Laid.toNat_add_blockWord hroom
      have hground := hlaid.ground
      refine ⟨hlaid.heap_ne_zero, i', _, _, _, hcall, hat', hheap, ?_, ?_⟩
      · exact Block.Laid.toNat_add_blockWord (by omega)
      · rw [hheap]
        exact Memory.isLeast_reach hlaid.guest hroom
    · rw [if_neg hroom] at halloc ⊢
      exact halloc
  · obtain ⟨i', hcall, hat'⟩ := Instance.call_dealloc_at hd hat b.ptr b.size
    exact ⟨i', _, _, hcall, hat'⟩

theorem loads_empty : ∃ m, Draft.empty.Loads m := by
  have hvalid : (Program.ofBytes? Draft.empty.toModule.bytes).isSome = true := by
    set_option maxRecDepth 100000 in decide +kernel
  obtain ⟨m, hm, -⟩ := Draft.Built.empty.loads (by decide) hvalid "" none fun p hp => by
    unfold GuestModule.tableOf Program.custom?
    rw [hp.customs]
    rfl
  exact ⟨m, hm⟩

/-- A block of five bytes and one without bytes are taken, and the first one is given back. The other one is
still live, behind the end of the heap. -/
theorem empty_block_is_safe : ∃ m i, Draft.empty.Loads m ∧
    Instance.History m .default i [⟨heapStart.toUInt32 + 8, 0⟩] ∧
    ∃ memory heap counter, i.At m (guestStore memory heap counter) ∧
      Block.Safe [⟨heapStart.toUInt32 + 8, 0⟩] memory heap counter := by
  obtain ⟨m, hd⟩ := loads_empty
  obtain ⟨i₀, memory, hi, hat, hmemory, -⟩ := hd.instantiates .default
  have hroom : heapStart.toUInt32.toNat + blockSize (5 : UInt32).toNat ≤ heapCapacity := by decide
  have hfirst := Instance.call_alloc_at hd hat hmemory 5
  rw [if_pos hroom] at hfirst
  obtain ⟨i₁, hcall₁, hat₁⟩ := hfirst
  have hmemory₁ := hmemory.grown (Memory.grown_reach hmemory hroom)
  have hsecond := Instance.call_alloc_at hd hat₁ hmemory₁ 0
  rw [if_pos (by decide)] at hsecond
  obtain ⟨i₂, hcall₂, hat₂⟩ := hsecond
  obtain ⟨i₃, hcall₃, -⟩ := Instance.call_dealloc_at hd hat₂ heapStart.toUInt32 5
  have hlive : Instance.History m .default i₂ [⟨heapStart.toUInt32 + blockWord 5, 0⟩,
      ⟨heapStart.toUInt32, 5⟩] :=
    .take (.take (.fresh hi) hcall₁ (by decide)) hcall₂ (by decide)
  have hgiven := hlive.give (b := ⟨heapStart.toUInt32, 5⟩) (by decide) hcall₃
  have herase : [(⟨heapStart.toUInt32 + blockWord 5, 0⟩ : Block), ⟨heapStart.toUInt32, 5⟩].erase
      ⟨heapStart.toUInt32, 5⟩ = [⟨heapStart.toUInt32 + 8, 0⟩] := by decide
  rw [herase] at hgiven
  obtain ⟨memory', heap, counter, hat', hsafe, -⟩ := allocator_is_safe hd hgiven
  exact ⟨m, i₃, hd, hgiven, memory', heap, counter, hat', hsafe⟩

end GuestCall
