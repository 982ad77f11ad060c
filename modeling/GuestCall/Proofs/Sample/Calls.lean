/-
# Calls of the sample guests

Every export of a sample guest either keeps to the memory that it has, or returns a buffer whose size
follows from the arguments.

Key definition: `Sample.count?`, how many elements a buffer result has.
Key theorems: `behaves`.
-/
import GuestCall.Proofs.Call.Buffers
import GuestCall.Proofs.Sample.Catalog
import GuestCall.Proofs.Sample.Fibonacci
import GuestCall.Proofs.Sample.Greeting
import GuestCall.Proofs.Sample.Sums
import GuestCall.Proofs.Sample.Truth

namespace GuestCall.Sample

open Wasm

/-- The number that the first argument of a call stands for. -/
def firstNumber : List Argument → Nat
  | .byValue v :: _ =>
    match Scalar.ofValue? .u32 v with
    | some (.u32 n) => n.toNat
    | _ => 0
  | _ => 0

/-- Bytes of the first argument of a call. -/
def firstExtent : List Argument → Nat
  | a :: _ => a.extent
  | [] => 0

/-- How many elements the result of a call has, by the name of the export, if it is a buffer. -/
def count? : Sample → String → Option (List Argument → Nat)
  | .truth, "bits_of" => some fun _ => 8
  | .fibonacci, "fib_str" => some fun arguments =>
    Fibonacci.digitCount (Fibonacci.Ceiling.unsigned.number (firstNumber arguments))
  | .fibonacci, "all" => some firstNumber
  | .greeting, "hello_world" => some fun _ => 13
  | .greeting, "hello_x" => some fun arguments => firstExtent arguments + 8
  | .sums, "product_new" => some firstExtent
  | .faults, "bad_utf8" => some fun _ => 2
  | .faults, "bad_decimal" => some fun _ => 3
  | .faults, "product_into" => some firstExtent
  | _, _ => none

variable {d : Draft} {m : GuestModule} {p : Plan} {i : Nat} {type : FuncType}
  {visibility : Visibility} {signature : Signature}

/-- An export that takes a word gets the number of its argument, and no buffer. -/
theorem check_number {arguments : List Argument} (hparams : p.signature.params = [.scalar .u32])
    (hcheck : p.check arguments = .ok ()) :
    firstNumber arguments < 2 ^ 32 ∧ p.extent arguments = 0 ∧
      ∀ top, p.raw top arguments = [.i32 (.ofNat (firstNumber arguments))] := by
  obtain ⟨v, rest, s, rfl, hs, hextent, hraw⟩ := Plan.check_scalar hparams hcheck
  have hkind := Scalar.kind_ofValue? hs
  cases s with
  | u32 n =>
    have hn : firstNumber (.byValue v :: rest) = n.toNat := by
      unfold firstNumber
      simp only [hs]
    rw [hn, UInt32.ofNat_toNat]
    exact ⟨n.toNat_lt, hextent, hraw⟩
  | bool | u8 | i8 | u16 | i16 | i32 | i64 | f32 | f64 => cases hkind

/-- An export that takes bytes gets a buffer of their number. -/
theorem check_buffer {arguments : List Argument} {param : ParamKind}
    (hparam : param = .str ∨ param = .slice .u8 ∨ param = .vec .u8)
    (hparams : p.signature.params = [param]) (hcheck : p.check arguments = .ok ()) :
    p.extent arguments = blockSize (firstExtent arguments) ∧
      ∀ top, p.raw top arguments = [.i32 (.ofNat top), .i32 (.ofNat (firstExtent arguments))] := by
  rcases hparam with rfl | hparam
  · obtain ⟨text, rest, rfl, hextent, hraw⟩ := Plan.check_str hparams hcheck
    exact ⟨hextent, hraw⟩
  · obtain ⟨a, rest, rfl, hextent, hraw⟩ := Plan.check_bytes hparam hparams hcheck
    exact ⟨hextent, hraw⟩

/-- An export whose code is still, and that returns no buffer. -/
theorem behaves_still (hd : d.Loads m) {locals : List ValType} {code : List Instr}
    (hfind : m.find? p.exportName = some ⟨p.exportName, p.signature.shape, i⟩)
    (hf : d.functions[i]? = some ⟨type, visibility, .ofCode locals code⟩)
    (hlegible : (Body.ofCode locals code).isLegible = true) (hstill : stillCode code = true)
    (hsignature : p.signature = signature) (hret : signature.ret.isBuffer = false) :
    p.Behaves m none := by
  refine .still (fun f function hfound hfunction => ?_) ?_
  · have hcode := hd.code hf hlegible
    cases hfind.symm.trans hfound
    cases hcode.symm.trans hfunction
    exact hstill
  · rw [hsignature]
    cases hkind : signature.ret with
    | unit => exact .inl rfl
    | scalar kind => exact .inr ⟨kind, rfl⟩
    | vec | str | bigDecimal =>
      rw [hkind] at hret
      cases hret

/-- An export that returns buffers, from what its code does to the store. -/
theorem behaves_makes (hfind : m.find? p.exportName = some ⟨p.exportName, p.signature.shape, i⟩)
    (hsignature : p.signature = signature) (hbuffer : signature.ret.isBuffer = true)
    (hapart : signature.params.any ParamKind.isInPlace = false) {count : List Argument → Nat}
    (hreturns : ∀ arguments, p.check arguments = .ok () → ∀ (memory : Memory) (top : Nat)
      (live : UInt32), memory.IsGuest → heapStart ≤ top → top + p.extent arguments ≤ memory.size →
      Returns memory (top + p.extent arguments) live (count arguments)
        signature.ret.elementWidth (m.program.invoke depthLimit i
          ((p.raw top arguments).reverse.map .ofCore)
          (guestStore memory (.ofNat (top + p.extent arguments)) live))) :
    p.Behaves m (some count) := by
  refine .makes ⟨?_, fun param hparam => ?_, _, hfind, rfl, ?_⟩
  · rw [hsignature]
    exact hbuffer
  · rw [hsignature] at hparam
    exact Bool.eq_false_iff.mpr (List.any_eq_false.mp hapart param hparam)
  · rw [hsignature]
    exact hreturns

/-- Machine types never stand for a buffer result. -/
theorem isBuffer_ofShape {exportName name : String} {shape : ExportShape}
    (h : Signature.ofShape exportName name shape = .ok signature) : signature.ret.isBuffer = false := by
  unfold Signature.ofShape at h
  dsimp only at h
  split at h
  · cases h
    rfl
  · cases h
    rfl
  · cases h

/-- An export that returns a constant. -/
theorem behaves_constant (hd : d.Loads m)
    (hfind : m.find? p.exportName = some ⟨p.exportName, p.signature.shape, i⟩) {constant : Span}
    (hf : d.functions[i]? = some ⟨type, visibility, Greeting.copyConstant constant⟩)
    (htype : type.results = [.i32]) (hconstant : constant.ptr + constant.len ≤ heapStart)
    (hσ : p.signature = signature) (hparams : signature.params = [])
    (hbuffer : signature.ret.isBuffer = true) (hwidth : signature.ret.elementWidth = 1) :
    p.Behaves m (some fun _ => constant.len) := by
  refine behaves_makes hfind hσ hbuffer ?_ fun arguments _ memory top live hm htop hroom => ?_
  · rw [hparams]
    rfl
  · have hraw : p.raw top arguments = [] := by
      unfold Plan.raw
      rw [hσ, hparams]
      rfl
    have hlength := memory.length_bytesAt constant.len constant.ptr
    have hsize := Nat.le_trans htop (Nat.le_of_add_right_le hroom)
    have hholds := Memory.holds_bytesAt (Nat.le_trans hconstant hsize)
    rw [hraw, hwidth]
    exact (Greeting.copyConstant_presents hd hf htype hholds hlength hm (Nat.le_add_right_of_le htop) hroom
      997).returns

/-- An export that takes a word, from what its code returns for every number. -/
theorem behaves_number (count : Nat → Nat)
    (hfind : m.find? p.exportName = some ⟨p.exportName, p.signature.shape, i⟩)
    (hσ : p.signature = signature) (hparams : signature.params = [.scalar .u32])
    (hbuffer : signature.ret.isBuffer = true)
    (hreturns : ∀ {memory : Memory} {heap : Nat} {live : UInt32} {n : Nat}, memory.IsGuest →
      heapStart ≤ heap → heap ≤ memory.size → n < 2 ^ 32 →
      Returns memory heap live (count n) signature.ret.elementWidth
        (m.program.invoke depthLimit i [.i32 (.ofNat n)] (guestStore memory (.ofNat heap) live))) :
    p.Behaves m (some fun arguments => count (firstNumber arguments)) := by
  refine behaves_makes hfind hσ hbuffer ?_ fun arguments hcheck memory top live hm htop hroom => ?_
  · rw [hparams]
    rfl
  · obtain ⟨hn, -, hraw⟩ := check_number (by rw [hσ, hparams]) hcheck
    rw [hraw]
    exact hreturns hm (Nat.le_add_right_of_le htop) hroom hn

/-- An export that takes bytes, from what its code returns for all that may stand below the heap. -/
theorem behaves_bytes (count : Nat → Nat)
    (hfind : m.find? p.exportName = some ⟨p.exportName, p.signature.shape, i⟩)
    (hσ : p.signature = signature) {param : ParamKind}
    (hparam : param = .str ∨ param = .slice .u8 ∨ param = .vec .u8) (hparams : signature.params = [param])
    (hbuffer : signature.ret.isBuffer = true)
    (hreturns : ∀ {memory : Memory} {top heap : Nat} {live : UInt32} {bytes : List UInt8}, memory.IsGuest →
      heapStart ≤ heap → heap ≤ memory.size → memory.Holds top bytes → top + bytes.length ≤ heap →
      Returns memory heap live (count bytes.length) signature.ret.elementWidth
        (m.program.invoke depthLimit i [.i32 (.ofNat bytes.length), .i32 (.ofNat top)]
          (guestStore memory (.ofNat heap) live))) :
    p.Behaves m (some fun arguments => count (firstExtent arguments)) := by
  refine behaves_makes hfind hσ hbuffer ?_ fun arguments hcheck memory top live hm htop hroom => ?_
  · rw [hparams]
    rcases hparam with rfl | rfl | rfl <;> rfl
  · obtain ⟨hextent, hraw⟩ := check_buffer hparam (by rw [hσ, hparams]) hcheck
    have hlength := memory.length_bytesAt (firstExtent arguments) top
    have hbelow : top + firstExtent arguments ≤ top + p.extent arguments := by
      rw [hextent]
      exact Nat.add_le_add_left (le_blockSize _) top
    have hholds := Memory.holds_bytesAt (Nat.le_trans hbelow hroom)
    have hmade := @hreturns memory top _ live _ hm (Nat.le_add_right_of_le htop) hroom hholds (by rwa [hlength])
    rw [hlength] at hmade
    rw [hraw]
    exact hmade

/-- An export that returns its bytes doubled. -/
theorem behaves_doubled (hd : d.Loads m)
    (hfind : m.find? p.exportName = some ⟨p.exportName, p.signature.shape, i⟩)
    (hf : d.functions[i]? = some ⟨type, visibility, Sums.doubledCopy⟩)
    (htype : type.results = [.i32]) (hσ : p.signature = signature) {param : ParamKind}
    (hparam : param = .slice .u8 ∨ param = .vec .u8) (hparams : signature.params = [param])
    (hret : signature.ret = .vec .u8) : p.Behaves m (some firstExtent) := by
  refine behaves_bytes (fun length => length) hfind hσ (.inr hparam) hparams (by rw [hret]; rfl)
    fun hm hheap hinside hholds hbelow => ?_
  rw [hret]
  exact (Sums.doubledCopy_presents hd hf htype hm hheap hinside 997 hholds hbelow).returns

/-- **Every export of a sample guest** either keeps to its memory or returns a buffer of a known size. -/
theorem LoadedAs.behaves {s : Sample} (h : s.LoadedAs d m) {plans : List (String × Plan)}
    (hplans : Plan.ofModule m wrappedMark = .ok plans) {name : String} (hp : (name, p) ∈ plans) :
    p.Behaves m (s.count? name) := by
  have hd := h.loads
  have hs := h.ne_mismatched hplans
  obtain ⟨i, type, body, hf, hfind, ⟨e, he, rfl, rfl, rfl, hσ⟩ | ⟨huntyped, hσ⟩⟩ :=
    h.plan_cases hplans hp
  · cases s with
    | mismatched => exact absurd rfl hs
    | truth =>
      simp only [typed, Truth.exports, List.mem_cons, List.not_mem_nil, or_false] at he
      rcases he with rfl | rfl | rfl | rfl
      · exact behaves_still hd hfind hf rfl rfl hσ rfl
      · exact behaves_still hd hfind hf rfl rfl hσ rfl
      · exact behaves_still hd hfind hf rfl rfl hσ rfl
      · refine behaves_makes hfind hσ rfl rfl fun arguments hcheck memory top live hm htop hroom => ?_
        obtain ⟨v, rest, s, rfl, hv, hextent, hraw⟩ :=
          Plan.check_scalar (by rw [hσ]) hcheck
        have hkind := Scalar.kind_ofValue? hv
        cases s with
        | u8 n =>
          rw [hraw]
          exact Truth.bitsOf_returns hd hf rfl hm (Nat.le_add_right_of_le htop) hroom 997 _
        | bool | u32 | i8 | u16 | i16 | i32 | i64 | f32 | f64 => cases hkind
    | fibonacci =>
      simp only [typed, Fibonacci.exports, List.mem_cons, List.not_mem_nil, or_false] at he
      rcases he with rfl | rfl | rfl
      · exact behaves_still hd hfind hf rfl rfl hσ rfl
      · exact behaves_number (fun n => Fibonacci.digitCount (Fibonacci.Ceiling.unsigned.number n)) hfind hσ
          rfl rfl fun hm hheap hinside hn =>
            (Fibonacci.fibText_presents hd hf rfl hm hheap hinside 997 hn).returns
      · exact behaves_number (fun n => n) hfind hσ rfl rfl fun hm hheap hinside hn =>
          (Fibonacci.all_presents hd hf rfl hm hheap hinside 997 hn).returns
    | greeting =>
      simp only [typed, Greeting.exports, List.mem_cons, List.not_mem_nil, or_false] at he
      rcases he with rfl | rfl
      · exact behaves_constant hd hfind hf rfl (by decide) hσ rfl rfl rfl
      · refine behaves_bytes (fun length => length + 8) hfind hσ (.inl rfl) rfl rfl
          fun {memory} _ _ _ _ hm hheap hinside hname hbelow => ?_
        have hopening := Memory.holds_bytesAt (show 29 + 7 ≤ memory.size by
          unfold heapStart at hheap
          omega)
        exact (Greeting.greet_presents hd hf rfl hopening (memory.length_bytesAt 7 29) hm hheap hinside 997
          hname hbelow).returns
    | sums =>
      simp only [typed, Sums.exports, List.mem_cons, List.not_mem_nil, or_false] at he
      rcases he with rfl | rfl | rfl | rfl
      · exact behaves_still hd hfind hf rfl rfl hσ rfl
      · exact behaves_still hd hfind hf rfl rfl hσ rfl
      · exact behaves_doubled hd hfind hf rfl hσ (.inr rfl) rfl rfl
      · exact behaves_still hd hfind hf rfl rfl hσ rfl
    | faults =>
      simp only [typed, Faults.exports, List.mem_cons, List.not_mem_nil, or_false] at he
      rcases he with rfl | rfl | rfl | rfl | rfl | rfl
      · exact behaves_still hd hfind hf rfl rfl hσ rfl
      · exact behaves_still hd hfind hf rfl rfl hσ rfl
      · exact behaves_still hd hfind hf rfl rfl hσ rfl
      · exact behaves_constant hd hfind hf rfl (by decide) hσ rfl rfl rfl
      · exact behaves_constant hd hfind hf rfl (by decide) hσ rfl rfl rfl
      · exact behaves_doubled hd hfind hf rfl hσ (.inl rfl) rfl rfl
  · cases s with
    | faults =>
      rw [untyped, List.mem_singleton] at huntyped
      cases huntyped
      exact behaves_still hd hfind hf rfl rfl rfl (isBuffer_ofShape hσ)
    | mismatched => exact absurd rfl hs
    | truth | fibonacci | greeting | sums => cases huntyped

end GuestCall.Sample
