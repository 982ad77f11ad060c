/-
# What bits do to the heap

Of the guest for truth values, only the code that puts the bits of a byte into a buffer touches the heap.
The buffer has eight bytes, whatever the argument is.

Key theorem: `bitsOf_returns`.
-/
import GuestCall.Proofs.Draft.Results
import GuestCall.Sample.Truth

namespace GuestCall.Sample.Truth

open Wasm Code Allocator

variable {d : Draft} {m : GuestModule} {memory : Memory} {heap : Nat} {live : UInt32}

/-- One bit after the other is put into the buffer. -/
theorem runs_bits {env : Env} {target : Nat} {st : Store} (hbudget : 8 < env.budget)
    (hst : st.memory.IsGuest) (htarget : target + 8 ≤ st.memory.size) (n : UInt32) : ∃ c' st',
      runCode env (forEach 2 3 (elementAt 1 2 0 ++
        [val 0, word 7, val 2, sub, num .i32ShrU, word 1, bits, store .i32Byte 0 0])) []
        [.i32 n, .i32 (.ofNat target), .i32 0, .i32 8] st =
          .next [] [.i32 n, .i32 (.ofNat target), c', .i32 8] st' := by
  have hbound := hst.bounds.2
  let Inv : Nat → List Val → Store → Prop := fun i locals s =>
    locals = [.i32 n, .i32 (.ofNat target), .i32 (.ofNat i), .i32 8] ∧
      s.memory.size = st.memory.size
  have hround : ∀ i locals s, i < 8 → Inv i locals s → ∃ locals' s',
      runCode env (elementAt 1 2 0 ++
        [val 0, word 7, val 2, sub, num .i32ShrU, word 1, bits, store .i32Byte 0 0]) [] locals s =
          .next [] locals' s' ∧
        locals'[2]? = some (.i32 (.ofNat i)) ∧
        Inv (i + 1) (locals'.set 2 (.i32 (.ofNat (i + 1)))) s' := by
    rintro i locals s hi ⟨rfl, hsize⟩
    have hwrite : (UInt32.ofNat target + UInt32.ofNat i).toNat = target + i := by
      rw [← UInt32.ofNat_add, toNat_ofNat_heap (by omega)]
    have hwriteIn : target + i + 1 ≤ st.memory.size := by omega
    simp [elementAt, Inv, hsize, hwrite, hwriteIn, -UInt32.toNat_ofNat', -UInt32.toNat_add]
  have hloop : ∃ locals' st', runCode env (forEach 2 3 (elementAt 1 2 0 ++
      [val 0, word 7, val 2, sub, num .i32ShrU, word 1, bits, store .i32Byte 0 0]) ++ []) []
      [.i32 n, .i32 (.ofNat target), .i32 0, .i32 8] st =
        runCode env [] [] locals' st' ∧ Inv 8 locals' st' :=
    runs_forEach Inv (by omega) hbudget (fun i locals s h => by rw [h.1]; exact ⟨rfl, rfl⟩) hround
      ⟨rfl, rfl⟩
  obtain ⟨locals', st', hrun, rfl, -⟩ := hloop
  rw [List.append_nil, runCode_nil] at hrun
  exact ⟨_, st', hrun⟩

/-- The bits of a byte are returned in a buffer of eight elements. -/
theorem bitsOf_returns (hd : d.Loads m) {f : Nat} {type : FuncType} {visibility : Visibility}
    (hf : d.functions[f]? = some ⟨type, visibility, bitsOf⟩) (htype : type.results = [.i32])
    (hm : memory.IsGuest) (hheap : heapStart ≤ heap) (hinside : heap ≤ memory.size) (depth : Nat)
    (n : UInt32) : Returns memory heap live 8 1 (m.program.invoke (depth + 3) f [.i32 n]
      (guestStore memory (.ofNat heap) live)) := by
  have hp := Program.isGuest_of_loads hd
  have hcode := hd.code hf rfl
  rw [m.program.invoke_succ hcode, htype]
  simp only [Function.start, List.append_assoc]
  rw [List.cons_append, List.singleton_append, runCode_cons, run_word, resume_next, runCode_cons,
    run_tee, resume_next]
  have hword : (Int32.ofInt 8).toUInt32.toNat = 8 * 1 := rfl
  refine (returns_of_fill (fun _ => True) hp hm hheap hinside (fun _ => hword)
    (fun hfull => by rwa [hword]) rfl fun st _ hst hgrown hroom => ?_).1
  have hbudget : 8 < (m.program.envAt (depth + 2)).budget := by
    have hloops : 8 < loopBudget := by decide
    exact hloops
  obtain ⟨c, st', hrun⟩ := runs_bits hbudget hst hroom n
  refine ⟨_, st', hrun, ?_, trivial⟩
  simp [describe]

end GuestCall.Sample.Truth
