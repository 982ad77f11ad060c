/-
# What greetings do to the heap

The code of the greeting guest returns buffers: a constant as it is, or a text with something around it.
The constants lie below the heap, and the argument lies inside the memory, so nothing traps. A greeting is
put together from three pieces, each right behind the one before it.

Key theorems: `runs_join`, `copyConstant_presents`, `greet_presents`.
-/
import GuestCall.Proofs.Draft.Results
import GuestCall.Sample.Greeting

namespace GuestCall.Sample.Greeting

open Wasm Code Allocator

/-! ### Copies -/

section

variable {env : Env} {stack locals : List Val} {st : Store}

/-- A copy of bytes that stand in a guest memory, to where there is room for them. -/
theorem run_copy_of_holds {source target : Nat} {bytes : List UInt8} (hst : st.memory.IsGuest)
    (hholds : st.memory.Holds source bytes) (htarget : target + bytes.length ≤ st.memory.size) :
    copy.run env (.i32 (.ofNat bytes.length) :: .i32 (.ofNat source) :: .i32 (.ofNat target) :: stack)
      locals st = .next stack locals (st.write target bytes.toByteArray) := by
  have hbound := hst.bounds.2
  have hsource := hholds.inside
  rw [run_copy, toNat_ofNat_heap (by omega), toNat_ofNat_heap (by omega), toNat_ofNat_heap (by omega),
    if_pos ⟨hsource, htarget⟩, hholds.slice]

/-- **The pieces of a greeting** are put into the buffer one behind the other: an opening, the argument, and a
mark. -/
theorem runs_join {front : Span} {opening name : List UInt8} {heap ptr total : Nat} (hst : st.memory.IsGuest)
    (hopening : st.memory.Holds front.ptr opening) (hlen : opening.length = front.len)
    (hname : st.memory.Holds ptr name) (hbelow : ptr + name.length ≤ heap)
    (htotal : total = name.length + (front.len + 1)) (hroom : heap + total ≤ st.memory.size) :
    let locals := [.i32 (.ofNat ptr), .i32 (.ofNat name.length), .i32 (.ofNat heap), .i32 (.ofNat total)]
    runCode env ([val 2, word front.ptr, word front.len, copy] ++
        [val 2, word front.len, add, val 0, val 1, copy] ++
        [val 2, val 3, add, word 1, sub, word 0x21, store .i32Byte 0 0]) [] locals st =
      .next [] locals (st.write heap (opening ++ name ++ [0x21]).toByteArray) := by
  intro locals
  have hbound := hst.bounds.2
  have hopened : runCode env [val 2, word front.ptr, word front.len, copy] [] locals st =
      .next [] locals (st.write heap opening.toByteArray) := by
    have hcopy : copy.run env _ locals st = .next [] locals (st.write heap _) :=
      run_copy_of_holds hst hopening (by omega)
    rw [hlen] at hcopy
    simp [locals, hcopy, -run_copy]
  -- the argument lies below the buffer, so the opening did not overwrite it
  have hkept : (st.write heap opening.toByteArray).memory.Holds ptr name :=
    hname.write (by rw [List.size_toByteArray]; omega) (.inl hbelow)
  have hnamed : runCode env [val 2, word front.len, add, val 0, val 1, copy] [] locals
      (st.write heap opening.toByteArray) =
        .next [] locals (st.write heap (opening ++ name).toByteArray) := by
    have hmiddle : UInt32.ofNat heap + .ofNat front.len = .ofNat (heap + opening.length) := by
      rw [hlen, UInt32.ofNat_add]
    have hcopy : copy.run env _ locals _ = .next [] locals (Store.write _ (heap + opening.length) _) :=
      run_copy_of_holds (hst.grown (Memory.grown_write ..)) hkept (by rw [Store.size_write]; omega)
    have hwritten := st.write_append heap opening name (by omega)
    simp [locals, hmiddle, hcopy, hwritten, -run_copy, -List.toByteArray_append, -UInt32.ofNat_add]
  have hmarked : runCode env [val 2, val 3, add, word 1, sub, word 0x21, store .i32Byte 0 0] [] locals
      (st.write heap (opening ++ name).toByteArray) =
        .next [] locals (st.write heap (opening ++ name ++ [0x21]).toByteArray) := by
    have hlast : (UInt32.ofNat heap + .ofNat total - 1).toNat = heap + (opening ++ name).length := by
      rw [← UInt32.ofNat_add, UInt32.toNat_sub_of_le, toNat_ofNat_heap (by omega), List.length_append]
      · rw [UInt32.toNat_one]
        omega
      · rw [UInt32.le_iff_toNat_le, toNat_ofNat_heap (by omega), UInt32.toNat_one]
        omega
    have hmark : heap + (opening ++ name).length + 1 ≤ st.memory.size := by
      rw [List.length_append]
      omega
    have hwritten := st.write_append heap (opening ++ name) [0x21] hmark
    simp [locals, hlast, hmark, hwritten, -List.toByteArray_append, -List.length_append, -List.append_assoc]
  rw [runCode_append, runCode_append, hopened, resume_next, hnamed, resume_next, hmarked]

end

/-! ### Buffers -/

variable {d : Draft} {m : GuestModule} {memory : Memory} {heap : Nat} {live : UInt32}

/-- A constant is returned in a buffer of its size. -/
theorem copyConstant_presents (hd : d.Loads m) {f : Nat} {type : FuncType} {visibility : Visibility}
    {constant : Span} (hf : d.functions[f]? = some ⟨type, visibility, copyConstant constant⟩)
    (htype : type.results = [.i32]) {bytes : List UInt8} (hholds : memory.Holds constant.ptr bytes)
    (hlen : bytes.length = constant.len) (hm : memory.IsGuest) (hheap : heapStart ≤ heap)
    (hinside : heap ≤ memory.size) (depth : Nat) :
    Presents memory heap live constant.len 1 bytes
      (m.program.invoke (depth + 3) f [] (guestStore memory (.ofNat heap) live)) := by
  have hp := Program.isGuest_of_loads hd
  have hcode := hd.code hf rfl
  have hcap := hm.bounds.2
  have hconstant := hholds.inside
  have hword : (UInt32.ofInt constant.len).toNat = constant.len * 1 := by
    rw [ofInt_natCast32, toNat_ofNat_heap (by omega), Nat.mul_one]
  have hsplit : [val 0, word constant.ptr, word constant.len, copy, val 0, word constant.len,
      word constant.len, call newDescriptorIndex] = [val 0, word constant.ptr, word constant.len, copy] ++
      [val 0, word constant.len, word constant.len, call newDescriptorIndex] := rfl
  rw [m.program.invoke_succ hcode, htype, hsplit]
  simp only [Function.start, List.append_assoc]
  rw [List.singleton_append, runCode_cons, run_word, resume_next]
  refine presents_of_fill hp hm hheap hinside (by rw [hlen, Nat.mul_one]) (fun _ => hword)
    (fun hfull => by rwa [hword]) rfl fun st hreached hst hgrown hroom => ?_
  have hsource : st.memory.Holds constant.ptr bytes := hholds.of_byteAt hgrown fun i _ _ => by
    rw [hreached, Memory.byteAt_reach]
  have hcopy : copy.run (m.program.envAt (depth + 2)) _ [.i32 (.ofNat heap)] st =
      .next [] _ (st.write heap _) :=
    run_copy_of_holds hst hsource (by omega)
  rw [hlen] at hcopy
  refine ⟨[.i32 (.ofNat heap)], ?_, ?_⟩
  · simp [hcopy, -run_copy]
  · simp

/-- **A greeting is returned** in a buffer: the argument, with an opening in front of it and a mark behind
it. -/
theorem greet_presents (hd : d.Loads m) {f : Nat} {type : FuncType} {visibility : Visibility}
    {front : Span} (hf : d.functions[f]? = some ⟨type, visibility, greet front⟩)
    (htype : type.results = [.i32]) {opening : List UInt8} (hopening : memory.Holds front.ptr opening)
    (hlen : opening.length = front.len) (hm : memory.IsGuest) (hheap : heapStart ≤ heap)
    (hinside : heap ≤ memory.size) (depth : Nat) {ptr : Nat} {name : List UInt8}
    (hname : memory.Holds ptr name) (hbelow : ptr + name.length ≤ heap) :
    Presents memory heap live (name.length + (front.len + 1)) 1 (opening ++ name ++ [0x21])
      (m.program.invoke (depth + 3) f [.i32 (.ofNat name.length), .i32 (.ofNat ptr)]
        (guestStore memory (.ofNat heap) live)) := by
  have hp := Program.isGuest_of_loads hd
  have hcode := hd.code hf rfl
  have hcap := hm.bounds.2
  have hfront := hopening.inside
  unfold heapCapacity pageSize at hcap
  -- both texts lie inside the memory, so the length of the result does not wrap around
  obtain ⟨total, htotal⟩ : ∃ total, total = name.length + (front.len + 1) := ⟨_, rfl⟩
  have hword : ∀ n, n < 2 ^ 32 → (UInt32.ofNat n).toNat = n := fun n hn => UInt32.toNat_ofNat_of_lt' hn
  have hsum : UInt32.ofNat name.length + (UInt32.ofNat front.len + 1) = .ofNat total := by
    rw [htotal, UInt32.ofNat_add, UInt32.ofNat_add]
    rfl
  have hle : UInt32.ofNat name.length ≤ .ofNat total := by
    rw [UInt32.le_iff_toNat_le, hword _ (by omega), hword _ (by omega)]
    omega
  have htotalWord : (UInt32.ofNat total).toNat = total * 1 := by rw [hword _ (by omega), Nat.mul_one]
  have hbefore : runCode (m.program.envAt (depth + 2)) [val 1, word (front.len + 1), add, tee 3,
      val 1, num .i32LtU, returnZeroIf, val 3] []
      [.i32 (.ofNat ptr), .i32 (.ofNat name.length), .i32 0, .i32 0]
      (guestStore memory (.ofNat heap) live) = .next [.i32 (.ofNat total)]
        [.i32 (.ofNat ptr), .i32 (.ofNat name.length), .i32 0, .i32 (.ofNat total)]
        (guestStore memory (.ofNat heap) live) := by
    simp [hsum, hle]
  obtain ⟨bytes, hbytes⟩ : ∃ bytes, bytes = opening ++ name ++ [0x21] := ⟨_, rfl⟩
  have hlength : bytes.length = total * 1 := by
    simp only [hbytes, List.length_append, List.length_singleton]
    omega
  rw [m.program.invoke_succ hcode, htype, ← htotal, ← hbytes]
  simp only [Function.start, List.append_assoc]
  rw [runCode_append]
  change Presents memory heap live total 1 bytes (Outcome.reply _ (resume _ _ (runCode _ _ _
    [.i32 (.ofNat ptr), .i32 (.ofNat name.length), .i32 0, .i32 0] _)))
  rw [hbefore, resume_next]
  refine presents_of_fill hp hm hheap hinside hlength (fun _ => htotalWord)
    (fun hfull => by rwa [htotalWord]) rfl fun st hreached hst hgrown hroom => ?_
  rw [Nat.mul_one] at hroom
  have hsame : ∀ i, st.memory.byteAt i = memory.byteAt i := fun i => by rw [hreached, Memory.byteAt_reach]
  have hrun : runCode (m.program.envAt (depth + 2)) _ [] _ st = _ :=
    runs_join hst (hopening.of_byteAt hgrown fun i _ _ => hsame i) hlen
      (hname.of_byteAt hgrown fun i _ _ => hsame i) hbelow htotal hroom
  rw [← hbytes] at hrun
  exact ⟨_, hrun, by simp [describe]⟩

end GuestCall.Sample.Greeting
