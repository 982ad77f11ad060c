/-
# What sums and products do to the memory

The arithmetic guest doubles bytes where they are, or into a fresh buffer, with one loop for both: each byte is
read before it or any byte behind it is written. What the loop reads and writes lies inside the memory, so it
comes to its end. Only the code with the fresh buffer touches the heap.

Key definition: `doubled`.
Key theorems: `run_doubleByte`, `runs_doubleBytes`, `invoke_doubleInPlace`, `doubledCopy_presents`.
-/
import GuestCall.Proofs.Draft.Results
import GuestCall.Sample.Sums

namespace GuestCall.Sample.Sums

open Wasm Code Allocator

/-- Every byte twice as large, as far as a byte goes. -/
def doubled (bytes : List UInt8) : List UInt8 := bytes.map (2 * ·)

@[simp] theorem length_doubled (bytes : List UInt8) : (doubled bytes).length = bytes.length :=
  List.length_map ..

/-- A byte is doubled by shifting it. -/
theorem shiftLeft_one (b : UInt8) : b <<< 1 = 2 * b := by
  have hb := b.toNat_lt
  rw [← UInt8.toNat_inj, UInt8.toNat_shiftLeft, UInt8.toNat_mul, Nat.shiftLeft_eq]
  simp
  omega

section

variable {env : Env} {a b counter source target : Nat} {st : Store} {locals : List Val}

/-- What the loop does for a byte. -/
def doubleByte (a b counter : Nat) : List Instr :=
  elementAt b counter 0 ++ elementAt a counter 0 ++
    [load .i32Byte 0, word 1, num .i32Shl, store .i32Byte 0 0]

/-- One byte is read at a place of the source and put doubled at the same place of the target. -/
theorem run_doubleByte {i : Nat} {x : UInt8} (hst : st.memory.IsGuest)
    (ha : locals[a]? = some (.i32 (.ofNat source))) (hb : locals[b]? = some (.i32 (.ofNat target)))
    (hcounter : locals[counter]? = some (.i32 (.ofNat i))) (hbyte : st.memory.byteAt (source + i) = x)
    (hsource : source + i + 1 ≤ st.memory.size) (htarget : target + i + 1 ≤ st.memory.size) :
    runCode env (doubleByte a b counter) [] locals st =
      .next [] locals (st.write (target + i) [2 * x].toByteArray) := by
  have hbound := hst.bounds.2
  have hread : (UInt32.ofNat source + UInt32.ofNat i).toNat = source + i := by
    rw [← UInt32.ofNat_add, toNat_ofNat_heap (by omega)]
  have hwrite : (UInt32.ofNat target + UInt32.ofNat i).toNat = target + i := by
    rw [← UInt32.ofNat_add, toNat_ofNat_heap (by omega)]
  simp [doubleByte, elementAt, LoadOp.read, ha, hb, hcounter, hread, hwrite, hsource, htarget, hbyte,
    shiftLeft_one, -UInt32.toNat_ofNat', -UInt32.toNat_add]

/-- The next byte is doubled where those before it were. What was doubled so far lies in front of what is still
to be read. -/
theorem run_doubleByte_next {bytes : List UInt8} (hst : st.memory.IsGuest)
    (hsource : st.memory.Holds source bytes) (htarget : target + bytes.length ≤ st.memory.size)
    (happart : target ≤ source ∨ source + bytes.length ≤ target)
    (ha : locals[a]? = some (.i32 (.ofNat source))) (hb : locals[b]? = some (.i32 (.ofNat target)))
    {i : Nat} (hcounter : locals[counter]? = some (.i32 (.ofNat i))) (hi : i < bytes.length) :
    runCode env (doubleByte a b counter) [] locals
        (st.write target (doubled (bytes.take i)).toByteArray) =
      .next [] locals (st.write target (doubled (bytes.take (i + 1))).toByteArray) := by
  have hinside := hsource.inside
  have hdone : (doubled (bytes.take i)).length = i := by
    rw [length_doubled, List.length_take, Nat.min_eq_left (Nat.le_of_lt hi)]
  have hsize : (doubled (bytes.take i)).toByteArray.size = i := by rw [List.size_toByteArray, hdone]
  have hbyte : (st.write target (doubled (bytes.take i)).toByteArray).memory.byteAt (source + i) =
      bytes[i] := by
    rw [← hsource.byteAt hi]
    refine (Memory.byteAt_write (by rw [hsize]; omega) _).trans (if_neg ?_)
    omega
  have hkeeps : (st.write target (doubled (bytes.take i)).toByteArray).memory.size = st.memory.size :=
    Memory.size_write ..
  have hguest : (st.write target (doubled (bytes.take i)).toByteArray).memory.IsGuest :=
    hst.grown (Memory.grown_write ..)
  have happend := st.write_append target (doubled (bytes.take i)) [2 * bytes[i]] (by
    rw [hdone, List.length_singleton]
    omega)
  rw [hdone] at happend
  rw [run_doubleByte hguest ha hb hcounter hbyte (by omega) (by omega), happend,
    List.take_succ_eq_append_getElem hi]
  unfold doubled
  rw [List.map_append]
  rfl

/-- **Doubling bytes** from one range of the memory to another puts them there doubled. The ranges may overlap
where the target does not start behind the source. -/
theorem runs_doubleBytes {length : Nat} {bytes : List UInt8} (hbudget : bytes.length < env.budget)
    (hst : st.memory.IsGuest) (hsource : st.memory.Holds source bytes)
    (htarget : target + bytes.length ≤ st.memory.size)
    (happart : target ≤ source ∨ source + bytes.length ≤ target)
    (ha : locals[a]? = some (.i32 (.ofNat source))) (hb : locals[b]? = some (.i32 (.ofNat target)))
    (hlength : locals[length]? = some (.i32 (.ofNat bytes.length))) (hcounter : counter < locals.length)
    (hne : counter ≠ a ∧ counter ≠ b ∧ counter ≠ length) :
    runCode env (doubleBytes a b counter length) [] locals st =
      .next [] (locals.set counter (.i32 (.ofNat bytes.length)))
        (st.write target (doubled bytes).toByteArray) := by
  have hbound := hst.bounds.2
  unfold heapCapacity pageSize at hbound
  have hkept : ∀ v, (locals.set counter v)[a]? = some (.i32 (.ofNat source)) ∧
      (locals.set counter v)[b]? = some (.i32 (.ofNat target)) ∧
      (locals.set counter v)[length]? = some (.i32 (.ofNat bytes.length)) ∧
      (locals.set counter v)[counter]? = some v := fun v => by
    rw [List.getElem?_set_ne hne.1, List.getElem?_set_ne hne.2.1, List.getElem?_set_ne hne.2.2,
      List.getElem?_set_self hcounter]
    exact ⟨ha, hb, hlength, rfl⟩
  let Inv : Nat → List Val → Store → Prop := fun i l s =>
    l = locals.set counter (.i32 (.ofNat i)) ∧ s = st.write target (doubled (bytes.take i)).toByteArray
  have hround : ∀ i l s, i < bytes.length → Inv i l s → ∃ l' s',
      runCode env (doubleByte a b counter) [] l s = .next [] l' s' ∧
        l'[counter]? = some (.i32 (.ofNat i)) ∧
        Inv (i + 1) (l'.set counter (.i32 (.ofNat (i + 1)))) s' := by
    rintro i l s hi ⟨rfl, rfl⟩
    obtain ⟨ha', hb', -, hcounter'⟩ := hkept (.i32 (.ofNat i))
    exact ⟨_, _, run_doubleByte_next hst hsource htarget happart ha' hb' hcounter' hi, hcounter',
      List.set_set .., rfl⟩
  have hstart : Inv 0 (locals.set counter (.i32 0)) st := ⟨rfl, (st.write_nil target).symm⟩
  have hloop : ∃ l' s', runCode env (doubleBytes a b counter length ++ []) [] locals st =
      runCode env [] [] l' s' ∧ Inv bytes.length l' s' :=
    runs_forEach Inv (by omega) hbudget
      (fun i l s h => by rw [h.1]; exact ⟨(hkept _).2.2.2, (hkept _).2.2.1⟩) hround hstart
  obtain ⟨l', s', hrun, rfl, rfl⟩ := hloop
  rw [List.append_nil, runCode_nil, List.take_length] at hrun
  exact hrun

end

variable {d : Draft} {m : GuestModule} {memory : Memory} {heap : Nat} {live : UInt32} {ptr : Nat}
  {bytes : List UInt8}

/-- **Bytes are doubled where they are**, and nothing else happens. -/
theorem invoke_doubleInPlace (hd : d.Loads m) {f : Nat} {type : FuncType} {visibility : Visibility}
    (hf : d.functions[f]? = some ⟨type, visibility, doubleInPlace⟩) (htype : type.results = [])
    {st : Store} (hst : st.memory.IsGuest) (hholds : st.memory.Holds ptr bytes) (depth : Nat) :
    m.program.invoke (depth + 1) f [.i32 (.ofNat bytes.length), .i32 (.ofNat ptr)] st =
      .results [] (st.write ptr (doubled bytes).toByteArray) := by
  have hcode := hd.code hf rfl
  have hinside := hholds.inside
  have hbudget : bytes.length < (m.program.envAt depth).budget := by
    have hloops : heapCapacity < loopBudget := by decide
    have hcap := hst.bounds.2
    exact Nat.lt_of_le_of_lt (by omega) hloops
  have hrun : runCode (m.program.envAt depth) (doubleBytes 0 0 2 1) []
      [.i32 (.ofNat ptr), .i32 (.ofNat bytes.length), .i32 0] st = _ :=
    runs_doubleBytes hbudget hst hholds hinside (.inl (Nat.le_refl _)) rfl rfl rfl (by simp) (by decide)
  rw [m.program.invoke_succ hcode, htype]
  change Outcome.reply [] (runCode (m.program.envAt depth) (doubleBytes 0 0 2 1) []
    [.i32 (.ofNat ptr), .i32 (.ofNat bytes.length), .i32 0] st) = _
  rw [hrun]
  rfl

/-- **Doubled bytes are returned** in a buffer as long as the argument. -/
theorem doubledCopy_presents (hd : d.Loads m) {f : Nat} {type : FuncType} {visibility : Visibility}
    (hf : d.functions[f]? = some ⟨type, visibility, doubledCopy⟩) (htype : type.results = [.i32])
    (hm : memory.IsGuest) (hheap : heapStart ≤ heap) (hinside : heap ≤ memory.size) (depth : Nat)
    (hholds : memory.Holds ptr bytes) (hbelow : ptr + bytes.length ≤ heap) :
    Presents memory heap live bytes.length 1 (doubled bytes) (m.program.invoke (depth + 3) f
      [.i32 (.ofNat bytes.length), .i32 (.ofNat ptr)] (guestStore memory (.ofNat heap) live)) := by
  have hp := Program.isGuest_of_loads hd
  have hcode := hd.code hf rfl
  have hcap := hm.bounds.2
  have hlen : (UInt32.ofNat bytes.length).toNat = bytes.length * 1 := by
    rw [Nat.mul_one, toNat_ofNat_heap (by omega)]
  rw [m.program.invoke_succ hcode, htype]
  simp only [Function.start, List.append_assoc]
  rw [List.singleton_append, runCode_cons, run_val]
  refine presents_of_fill hp hm hheap hinside (by rw [length_doubled, Nat.mul_one]) (fun _ => hlen)
    (fun hfull => by rwa [hlen]) rfl fun st hreached hst hgrown hroom => ?_
  have hbudget : bytes.length < (m.program.envAt (depth + 2)).budget := by
    have hloops : heapCapacity < loopBudget := by decide
    exact Nat.lt_of_le_of_lt (by omega) hloops
  rw [Nat.mul_one] at hroom
  have hsource : st.memory.Holds ptr bytes := hholds.of_byteAt hgrown fun i _ _ => by
    rw [hreached, Memory.byteAt_reach]
  have hrun : runCode (m.program.envAt (depth + 2)) (doubleBytes 0 2 3 1) []
      [.i32 (.ofNat ptr), .i32 (.ofNat bytes.length), .i32 (.ofNat heap), .i32 0] st = _ :=
    runs_doubleBytes hbudget hst hsource hroom (.inr hbelow) rfl rfl rfl (by simp) (by decide)
  refine ⟨_, hrun, ?_⟩
  simp [describe]

end GuestCall.Sample.Sums
