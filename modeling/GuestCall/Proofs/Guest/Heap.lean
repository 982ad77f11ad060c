/-
# The heap of an instance

What the host sees of the allocator of an instance that a draft was loaded as. A call of the
allocator does to the store of the instance what the guest does to it; the epoch is the host's own
affair. So a buffer lies at the end of the heap, or there is none, and a buffer that is given back
makes room where it was the topmost one.

Key definition: `Instance.At`, an instance of a module with a store.
Key theorems: `call_alloc_at`, `call_dealloc_at`, `alloc_at`, `free_at`, `liveBytes_at`.
-/
import GuestCall.Guest.Instance
import GuestCall.Proofs.Draft.Heap

namespace GuestCall.Instance

open Wasm

/-- An instance of a module with a store. -/
structure At (m : GuestModule) (s : Store) (i : Instance) : Prop where
  module : i.module = m
  store : i.store = s

variable {d : Draft} {m : GuestModule} {s s' : Store} {i : Instance}

theorem at_self (i : Instance) : i.At i.module i.store := ⟨rfl, rfl⟩

/-! ### Looking at the memory -/

theorem At.observe (h : i.At m s) : i.observe.At m s := by
  unfold Instance.observe
  dsimp only
  split
  · exact h
  · exact ⟨h.module, h.store⟩

/-- Looking twice is looking once. -/
theorem observe_observe (i : Instance) : i.observe.observe = i.observe := by
  unfold Instance.observe
  by_cases h : i.memoryLength = i.observed
  · simp only [if_pos h]
  · simp only [if_neg h]
    exact if_pos rfl

/-- An instance that was just looked at tells its epoch and stays as it is. -/
theorem epoch_observe (i : Instance) : GuestAllocator.epoch i.observe = (i.observe.epoch, i.observe) := by
  change (i.observe.observe.epoch, i.observe.observe) = _
  rw [observe_observe]

@[simp] theorem store_observe (i : Instance) : i.observe.store = i.store := (at_self i).observe.store

@[simp] theorem memoryLength_observe (i : Instance) : i.observe.memoryLength = i.memoryLength := by
  unfold memoryLength
  rw [store_observe]

/-! ### Calls -/

theorem run_results (name : String) {index : Nat} (arguments : List CoreValue) {stack : List Val}
    (h : i.At m s) (hinvoke : m.program.invoke depthLimit index
      (arguments.reverse.map .ofCore) s = .results stack s') :
    ∃ i', i.run name index arguments = (.ok (stack.reverse.filterMap Val.core?), i') ∧
      i'.At m s' := by
  obtain ⟨module, store, pageLimit, epoch, observed⟩ := i
  obtain ⟨rfl, rfl⟩ := h
  refine ⟨observe ⟨module, s', pageLimit, epoch, observed⟩, ?_, At.observe ⟨rfl, rfl⟩⟩
  simp only [run, hinvoke]

/-- However a run ends, the instance has the store that the function left. -/
theorem run_at (name : String) (index : Nat) (arguments : List CoreValue) (h : i.At m s) :
    ∃ result i', i.run name index arguments = (result, i') ∧ i'.At m
      (m.program.invoke depthLimit index (arguments.reverse.map .ofCore) s).store := by
  rcases hinvoke : m.program.invoke depthLimit index (arguments.reverse.map .ofCore) s with
    ⟨stack, s'⟩ | ⟨cause, s'⟩
  · obtain ⟨i', hrun, hat⟩ := run_results name arguments h hinvoke
    exact ⟨_, i', hrun, hat⟩
  · obtain ⟨module, store, pageLimit, epoch, observed⟩ := i
    obtain ⟨rfl, rfl⟩ := h
    refine ⟨.error (.trap name arguments (.machine cause)),
      observe ⟨module, s', pageLimit, epoch, observed⟩, ?_, At.observe ⟨rfl, rfl⟩⟩
    simp only [run, hinvoke]

/-- A call of a function that is found runs it if the arguments fit. -/
theorem call_eq_run {name : String} {f : ExportedFunction} {arguments : List CoreValue}
    (h : i.At m s) (hf : m.find? name = some f) (hfits : f.shape.mismatch? arguments = none) :
    i.call name arguments = i.run name f.index arguments := by
  have hfound : i.module.find? name = some f := by rw [h.module, hf]
  unfold call
  simp only [hfound, hfits]

/-! ### The allocator -/

variable {memory : Memory} {heap live : UInt32}

/-- A call for a block returns the end of the heap, or zero where there is no room. -/
theorem call_alloc_at (hd : d.Loads m) (h : i.At m (guestStore memory heap live))
    (hmemory : memory.IsGuest) (n : UInt32) :
    if heap.toNat + blockSize n.toNat ≤ heapCapacity then
      ∃ i', i.call allocExport [.i32 n] = (.ok [.i32 heap], i') ∧ i'.At m (guestStore
        (memory.reach (heap.toNat + blockSize n.toNat)) (heap + blockWord n) (live + blockWord n))
    else ∃ i', i.call allocExport [.i32 n] = (.ok [.i32 0], i') ∧
      i'.At m (guestStore memory heap live) := by
  have hfind := hd.find?_builtin (i := 0) rfl rfl
  have hp := Program.isGuest_of_loads hd
  have hinvoke := invoke_alloc hp 999 hmemory heap live n
  have hcall : i.call allocExport [.i32 n] = i.run allocExport 0 [.i32 n] :=
    call_eq_run h hfind rfl
  rw [hcall]
  by_cases hfit : heap.toNat + blockSize n.toNat ≤ heapCapacity
  · rw [if_pos hfit] at hinvoke ⊢
    exact run_results allocExport [.i32 n] h hinvoke
  · rw [if_neg hfit] at hinvoke ⊢
    exact run_results allocExport [.i32 n] h hinvoke

/-- A call that gives a block back returns nothing. -/
theorem call_dealloc_at (hd : d.Loads m) (h : i.At m (guestStore memory heap live)) (ptr n : UInt32) :
    ∃ i', i.call deallocExport [.i32 ptr, .i32 n] = (.ok [], i') ∧ i'.At m (guestStore memory
      (if ptr + blockWord n = heap then ptr else heap) (live - blockWord n)) := by
  have hfind := hd.find?_builtin (i := 1) rfl rfl
  have hp := Program.isGuest_of_loads hd
  have hinvoke := invoke_dealloc hp 999 memory heap live ptr n
  have hcall : i.call deallocExport [.i32 ptr, .i32 n] = _ := call_eq_run h hfind rfl
  rw [hcall]
  exact run_results deallocExport [.i32 ptr, .i32 n] h hinvoke

/-- **A buffer** lies at the end of the heap, or there is no room and its address is zero. -/
theorem alloc_at (hd : d.Loads m) (h : i.At m (guestStore memory heap live))
    (hmemory : memory.IsGuest) (n : UInt32) :
    if heap.toNat + blockSize n.toNat ≤ heapCapacity then
      ∃ i', i.alloc n = (.ok heap, i') ∧ i'.At m (guestStore
        (memory.reach (heap.toNat + blockSize n.toNat)) (heap + blockWord n) (live + blockWord n))
    else ∃ i', i.alloc n = (.ok 0, i') ∧ i'.At m (guestStore memory heap live) := by
  have hfind := hd.find?_builtin (i := 0) rfl rfl
  have hcall := call_alloc_at hd h hmemory n
  have halloc : ∀ ptr i', i.call allocExport [.i32 n] = (.ok [.i32 ptr], i') →
      i.alloc n = (.ok ptr, i') := by
    intro ptr i' hcall
    rw [alloc, h.module, hfind]
    simp only [hcall, firstWord?]
  by_cases hfit : heap.toNat + blockSize n.toNat ≤ heapCapacity
  · rw [if_pos hfit] at hcall ⊢
    obtain ⟨i', hcall, hat⟩ := hcall
    exact ⟨i', halloc _ _ hcall, hat⟩
  · rw [if_neg hfit] at hcall ⊢
    obtain ⟨i', hcall, hat⟩ := hcall
    exact ⟨i', halloc _ _ hcall, hat⟩

/-- **A buffer is given back.** -/
theorem free_at (hd : d.Loads m) (h : i.At m (guestStore memory heap live)) (ptr n : UInt32) :
    ∃ i', i.free ptr n = (.ok (), i') ∧ i'.At m (guestStore memory
      (if ptr + blockWord n = heap then ptr else heap) (live - blockWord n)) := by
  obtain ⟨i', hcall, hat⟩ := call_dealloc_at hd h ptr n
  refine ⟨i', ?_, hat⟩
  rw [free, hcall]

/-- **The count of live bytes** is what the guest keeps. -/
theorem liveBytes_at (hd : d.Loads m) (h : i.At m (guestStore memory heap live)) :
    ∃ i', i.liveBytes = (.ok (some live), i') ∧ i'.At m (guestStore memory heap live) := by
  have hfind := hd.find?_builtin (i := 2) rfl rfl
  have hp := Program.isGuest_of_loads hd
  have hinvoke := invoke_live hp 999 memory heap live
  obtain ⟨i', hrun, hat⟩ := run_results liveExport [] h hinvoke
  refine ⟨i', ?_, hat⟩
  have hcall : i.call liveExport [] = _ := call_eq_run h hfind rfl
  rw [liveBytes, h.module, hfind]
  simp only [hcall, hrun]
  rfl

end GuestCall.Instance
