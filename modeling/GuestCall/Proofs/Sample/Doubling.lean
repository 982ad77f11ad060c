/-
# Doubled bytes across the boundary

Bytes can be doubled in three ways: where the caller has them, into a fresh array, and into an array that the
caller hands over. The code of the last two is the same, and the loop of all three. So the caller gets the
same bytes each way, as far as there is room for the buffers: one for the bytes, and for the last two ways
another one as large, with its descriptor. Without room no argument is touched.

Key theorem: `doubling_agrees`.
-/
import GuestCall.Proofs.Sample.Runs

namespace GuestCall.Sample.Sums

open Wasm

/-! ### Arrays of bytes -/

/-- Bytes are stored as they are. -/
theorem encode_bytes : ∀ bytes : List UInt8, (bytes.map Scalar.u8).flatMap LittleEndian.encode = bytes
  | [] => rfl
  | b :: bytes => congrArg (b :: ·) (encode_bytes bytes)

variable {bytes : List UInt8} {input : Argument}

/-- An argument that is an array of bytes is copied as those. -/
theorem payload_bytes (h : input.array? = some (.ofElements .u8 bytes)) :
    input.payload = bytes ∧ input.extent = bytes.length := by
  have hpayload : input.payload = bytes := by
    rcases array?_eq_some h with rfl | rfl <;> exact encode_bytes bytes
  rw [← input.length_payload, hpayload]
  exact ⟨rfl, rfl⟩

/-- An array of bytes that stands in the memory is read back. -/
theorem readBack_bytes (style : AccessStyle) {memory : Memory} {start : Nat} {bytes : List UInt8}
    (h : memory.Holds start bytes) {a : ScalarArray} (hkind : a.kind = .u8)
    (hlength : a.length = bytes.length) : a.readBack style memory start = .ofElements .u8 bytes := by
  unfold ScalarArray.readBack
  rw [hkind, hlength]
  have hencode : (bytes.map (Scalar.of .u8)).flatMap LittleEndian.encode = bytes := encode_bytes bytes
  rw [← hencode] at h
  exact congrArg (ScalarArray.ofElements .u8) (Memory.elementsAt_of_holds style h)

variable {m : GuestModule} {d : Binding} {e : Signature × Body} {draft : Draft} {p : Plan} {i : Nat}

/-- An export of an array of bytes gets their address and their count, and finds them there. -/
theorem takes_bytes {param : ParamKind} (hparams : p.signature.params = [param])
    (hparam : param = .slice .u8 ∨ param = .sliceMut .u8 ∨ param = .vec .u8)
    (harray : input.array? = some (.ofElements .u8 bytes)) (rest : List Argument) :
    p.extent (input :: rest) = blockSize bytes.length ∧
      (∀ top, p.raw top (input :: rest) = [.i32 (.ofNat top), .i32 (.ofNat bytes.length)]) ∧
      ∀ {memory : Memory} {top : Nat}, memory.IsGuest → top + blockSize bytes.length ≤ heapCapacity →
        (p.supplied (input :: rest) top memory).Holds top bytes := by
  have hlength : (ScalarArray.ofElements .u8 bytes).length = bytes.length := List.length_map ..
  have hbytes : (ScalarArray.ofElements .u8 bytes).byteLength = bytes.length :=
    (Nat.mul_one _).trans hlength
  have hencode : (ScalarArray.ofElements .u8 bytes).items.flatMap LittleEndian.encode = bytes :=
    encode_bytes bytes
  have htakes := p.takes_array hparams hparam harray rest
  rwa [hbytes, hlength, hencode] at htakes

/-! ### Bytes that are doubled where they are -/

/-- The array of the caller is what stands in its buffer when the export returns. -/
theorem left_bytes (hparams : p.signature.params = [.sliceMut .u8]) (style : AccessStyle) {memory : Memory}
    {top : Nat} {twice : List UInt8} (hholds : memory.Holds top twice)
    (hlength : twice.length = bytes.length) :
    p.left style memory top [.inPlace (.ofElements .u8 bytes)] = [.inPlace (.ofElements .u8 twice)] := by
  have hread : (ScalarArray.ofElements .u8 bytes).readBack style memory top = .ofElements .u8 twice :=
    readBack_bytes style hholds rfl ((List.length_map ..).trans hlength.symm)
  rw [Plan.left, hparams]
  exact congrArg (fun a => [Argument.inPlace a]) hread

/-- **The array of the caller is doubled**, if there is room for a copy of it. -/
theorem call_doubleInPlace (h : Sample.sums.Bound m d) {live : UInt32}
    (hrest : d.books.AtRest m heapStart.toUInt32 live)
    (hroom : heapStart + blockSize bytes.length ≤ heapCapacity) :
    ∃ d', d.call "product_in_place" [.inPlace (.ofElements .u8 bytes)] =
      (.ok .unit, [.inPlace (.ofElements .u8 (doubled bytes))], d') := by
  obtain ⟨draft, p, i, ho⟩ := h.offers (e := exports[1]) (List.getElem_mem _) rfl
  have hσ := ho.signature
  have hparams : p.signature.params = [.sliceMut .u8] := congrArg Signature.params hσ
  have hstandard : p.signature.isLegacy = false := by
    rw [hσ]
    rfl
  have hcheck : p.check [.inPlace (.ofElements .u8 bytes)] = .ok () := Plan.check_of_one hstandard hparams rfl
  have harray : (Argument.inPlace (.ofElements .u8 bytes)).array? = some (.ofElements .u8 bytes) := rfl
  obtain ⟨hextent, hraw, hsupplied⟩ := takes_bytes hparams (.inr (.inl rfl)) harray []
  have hroom' : heapStart.toUInt32.toNat + p.extent [.inPlace (.ofElements .u8 bytes)] ≤ heapCapacity := by
    rwa [hextent]
  obtain ⟨live', hreturns⟩ := Plan.call_returns ho.loads hrest ho.behaves d.style ho.found rfl hcheck hroom'
  rw [Plan.ReturnsTo, hraw] at hreturns
  -- the export finds the bytes at the start of the heap, and leaves them there doubled
  let memory := p.supplied [.inPlace (.ofElements .u8 bytes)] heapStart d.books.guest.store.memory
  have hguest : memory.IsGuest := (Memory.guest_filled hrest.memory hrest.inside hroom').1
  have hholds : memory.Holds heapStart bytes := hsupplied hrest.memory hroom
  have hdoubled : (memory.write heapStart (doubled bytes).toByteArray).Holds heapStart (doubled bytes) :=
    Memory.holds_write (by rw [length_doubled]; exact hholds.inside)
  obtain ⟨b₂, -, hanswer⟩ := hreturns (invoke_doubleInPlace ho.loads ho.code rfl hguest hholds 999)
  have hdecode : decodeResult d.style p.exportName p.signature.ret [] b₂ = (.ok .unit, b₂) := by
    rw [hσ]
    rfl
  obtain ⟨b₁, hcall, -⟩ := hanswer hdecode ((Plan.answer_of_not_legacy hstandard _).trans
    (congrArg (Prod.mk (Except.ok Value.unit)) (left_bytes hparams d.style hdoubled (length_doubled bytes))))
  exact ⟨_, ho.call_eq hcall⟩

/-! ### Bytes that are doubled into a buffer -/

/-- **An export with a fresh buffer** answers with the doubled bytes, if there is room for both arrays and a
descriptor, and otherwise it runs out of memory. -/
theorem call_doubledCopy (h : Offered m d e (some firstExtent) draft p i) (hbody : e.2 = doubledCopy)
    (htype : (Draft.typeOf e.1).results = [.i32]) {param : ParamKind} (hparams : e.1.params = [param])
    (hparam : param = .slice .u8 ∨ param = .sliceMut .u8 ∨ param = .vec .u8) (hret : e.1.ret = .vec .u8)
    {live : UInt32} (hrest : d.books.AtRest m heapStart.toUInt32 live)
    (harray : input.array? = some (.ofElements .u8 bytes)) {rest : List Argument}
    (hcheck : p.check (input :: rest) = .ok ()) {answer : Except BindError Value} {arguments' : List Argument}
    (hanswer : p.answer (input :: rest) (.ok (.array (.ofElements .u8 (doubled bytes)))) =
      (answer, arguments')) :
    (heapStart + 2 * blockSize bytes.length + 16 ≤ heapCapacity →
      ∃ d', d.call e.1.name (input :: rest) = (answer, arguments', d')) ∧
    (heapCapacity < heapStart + 2 * blockSize bytes.length + 16 → ∃ result d',
      d.call e.1.name (input :: rest) = (result, input :: rest, d') ∧ OutOfMemory result) := by
  have hσ := h.signature
  obtain ⟨hextent, hraw, hsupplied⟩ := takes_bytes (by rw [hσ, hparams]) hparam harray rest
  have hcount : firstExtent (input :: rest) = bytes.length := (payload_bytes harray).2
  have hcode : draft.functions[i]? = some ⟨Draft.typeOf e.1, .wrapped e.1.name, doubledCopy⟩ := by
    rw [h.code, Draft.entry, hbody]
  have hwidth : e.1.ret.elementWidth = 1 := by
    rw [hret]
    rfl
  have hdenotes : Denotes (firstExtent (input :: rest)) (doubled bytes) e.1.ret
      (.array (.ofElements .u8 (doubled bytes))) := by
    rw [hret]
    exact @Denotes.vec _ _ .u8 (doubled bytes) ((length_doubled bytes).trans hcount.symm) (encode_bytes _)
  have hcalled := h.call_presents hrest hcheck hextent hdenotes (fun memory live' hmemory hguest hinside => by
    have hholds : memory.Holds heapStart bytes := by
      rw [hmemory]
      exact hsupplied hrest.memory (Nat.le_trans hinside hguest.bounds.2)
    rw [hraw, hcount, hwidth]
    exact doubledCopy_presents h.loads hcode htype hguest (Nat.le_add_right ..) hinside 997 hholds
      (Nat.add_le_add_left (le_blockSize _) _)) hanswer
  rw [hcount, hwidth, Nat.mul_one, Nat.add_assoc heapStart, ← Nat.two_mul] at hcalled
  refine ⟨fun hroom => ?_, hcalled.2.1⟩
  obtain ⟨d', hcall, -⟩ := hcalled.1 hroom
  exact ⟨d', hcall⟩

variable {a output : ScalarArray} {live : UInt32}

/-- A fresh array of the doubled bytes. -/
theorem call_productNew (h : Sample.sums.Bound m d) (hrest : d.books.AtRest m heapStart.toUInt32 live)
    (ha : a = .ofElements .u8 bytes) :
    (heapStart + 2 * blockSize bytes.length + 16 ≤ heapCapacity → ∃ d', d.call "product_new"
      [.byValue (.array a)] = (.ok (.array (.ofElements .u8 (doubled bytes))), [.byValue (.array a)], d')) ∧
    (heapCapacity < heapStart + 2 * blockSize bytes.length + 16 → ∃ result d', d.call "product_new"
      [.byValue (.array a)] = (result, [.byValue (.array a)], d') ∧ OutOfMemory result) := by
  have hname : sums.count? exports[2].1.name = some firstExtent := rfl
  obtain ⟨draft, p, i, ho⟩ := h.offers (List.getElem_mem _) hname
  have hσ := ho.signature
  have hparams : p.signature.params = [.vec .u8] := congrArg Signature.params hσ
  have hstandard : p.signature.isLegacy = false := by
    rw [hσ]
    rfl
  have hcheck : p.check [.byValue (.array a)] = .ok () :=
    Plan.check_of_one hstandard hparams (by rw [ha]; rfl)
  have harray : (Argument.byValue (.array a)).array? = some (.ofElements .u8 bytes) := congrArg some ha
  exact call_doubledCopy ho rfl rfl rfl (.inr (.inr rfl)) rfl hrest harray hcheck
    (Plan.answer_of_not_legacy hstandard _)

/-- The doubled bytes in an array of the caller, in place of whatever is there. -/
theorem call_productInto (h : Sample.faults.Bound m d) (hrest : d.books.AtRest m heapStart.toUInt32 live)
    (hinput : input.array? = some (.ofElements .u8 bytes)) (houtput : output.kind = .u8) :
    (heapStart + 2 * blockSize bytes.length + 16 ≤ heapCapacity → ∃ d', d.call "product_into"
      [input, .inPlace output] = (.ok .unit, [input, .inPlace (.ofElements .u8 (doubled bytes))], d')) ∧
    (heapCapacity < heapStart + 2 * blockSize bytes.length + 16 → ∃ result d', d.call "product_into"
      [input, .inPlace output] = (result, [input, .inPlace output], d') ∧ OutOfMemory result) := by
  have hname : faults.count? (faults.typed[5]).1.name = some firstExtent := rfl
  obtain ⟨draft, p, i, ho⟩ := h.offers (List.getElem_mem _) hname
  have hσ := ho.signature
  have hparams : p.signature.params = [.slice .u8] := congrArg Signature.params hσ
  have hcheck : p.check [input, .inPlace output] = .ok () := by
    refine Plan.check_of_output (congrArg Signature.convention hσ)
      (by rw [hσ, houtput]; rfl) (by rw [hparams]; rfl) (by rw [hparams]; rfl) fun pair hpair => ?_
    rw [hparams, List.zip_cons_cons, List.zip_nil_left, List.mem_singleton] at hpair
    rw [hpair, Argument.mismatch?, Argument.arrayMismatch?, hinput]
    rfl
  have hlegacy : p.signature.isLegacy = true := by
    rw [hσ]
    rfl
  have hanswer : p.answer [input, .inPlace output] (.ok (.array (.ofElements .u8 (doubled bytes)))) =
      (.ok .unit, [input, .inPlace (.ofElements .u8 (doubled bytes))]) := by
    unfold Plan.answer
    dsimp only
    rw [if_pos hlegacy]
    have hlast : [input, Argument.inPlace output][1]? = some (.inPlace output) := rfl
    exact deliver_last p.exportName houtput.symm rfl hlast
  exact call_doubledCopy ho rfl rfl rfl (.inl rfl) rfl hrest hinput hcheck hanswer

/-! ### The three ways -/

/-- **Bytes are doubled the same way however they are passed.** Each of the two guests that offer it has an
empty heap. If there is room for the buffers of a call, the caller gets every byte twice as large: in the
array that was to be changed, in a fresh one, or in the one that was handed over, whatever was in there. What
was not to be changed is as it was, and nothing is changed if there is no room for a second array. -/
theorem doubling_agrees {m m' : GuestModule} {d d' : Binding} (h : Sample.sums.Bound m d)
    (h' : Sample.faults.Bound m' d') {live live' : UInt32} (hrest : d.books.AtRest m heapStart.toUInt32 live)
    (hrest' : d'.books.AtRest m' heapStart.toUInt32 live') {a output : ScalarArray} (ha : a.kind = .u8)
    (houtput : output.kind = .u8) {input : Argument} (hinput : input.array? = some a) :
    ∃ bytes : List UInt8, a = .ofElements .u8 bytes ∧
    let twice := ScalarArray.ofElements .u8 (bytes.map (2 * ·))
    (heapStart + blockSize bytes.length ≤ heapCapacity →
      ∃ d₁, d.call "product_in_place" [.inPlace a] = (.ok .unit, [.inPlace twice], d₁)) ∧
    (heapStart + 2 * blockSize bytes.length + 16 ≤ heapCapacity →
      (∃ d₁, d.call "product_new" [.byValue (.array a)] =
        (.ok (.array twice), [.byValue (.array a)], d₁)) ∧
      ∃ d₁, d'.call "product_into" [input, .inPlace output] = (.ok .unit, [input, .inPlace twice], d₁)) ∧
    (heapCapacity < heapStart + 2 * blockSize bytes.length + 16 →
      (∃ result d₁, d.call "product_new" [.byValue (.array a)] = (result, [.byValue (.array a)], d₁) ∧
        OutOfMemory result) ∧
      ∃ result d₁, d'.call "product_into" [input, .inPlace output] =
        (result, [input, .inPlace output], d₁) ∧ OutOfMemory result) := by
  obtain ⟨bytes, rfl⟩ := ScalarArray.exists_ofElements ha
  obtain ⟨hnew, hnew'⟩ := call_productNew h hrest (rfl : _ = ScalarArray.ofElements .u8 bytes)
  obtain ⟨hinto, hinto'⟩ := call_productInto h' hrest' hinput houtput
  exact ⟨bytes, rfl, call_doubleInPlace h hrest, fun hroom => ⟨hnew hroom, hinto hroom⟩,
    fun hfull => ⟨hnew' hfull, hinto' hfull⟩⟩

/-- Two bytes, one of which is too large to be doubled, and an array of three bytes that takes them. -/
theorem two_bytes_are_doubled : ∃ (m m' : GuestModule) (d d' : Binding), Sample.sums.Bound m d ∧
    Sample.faults.Bound m' d' ∧ d.books.AtRest m heapStart.toUInt32 0 ∧
    d'.books.AtRest m' heapStart.toUInt32 0 ∧
    let a := ScalarArray.ofElements .u8 [3, 200]
    let twice := ScalarArray.ofElements .u8 [6, 144]
    (∃ d₁, d.call "product_in_place" [.inPlace a] = (.ok .unit, [.inPlace twice], d₁)) ∧
    (∃ d₁, d.call "product_new" [.byValue (.array a)] = (.ok (.array twice), [.byValue (.array a)], d₁)) ∧
    ∃ d₁, d'.call "product_into" [.inPlace a, .inPlace (.ofElements .u8 [9, 9, 9])] =
      (.ok .unit, [.inPlace a, .inPlace twice], d₁) := by
  obtain ⟨m, d, h, -, hrest⟩ := exists_at_rest (s := .sums) nofun (e := exports[1]) (List.getElem_mem _)
  obtain ⟨m', d', h', -, hrest'⟩ :=
    exists_at_rest (s := .faults) nofun (e := (Sample.faults.typed)[5]) (List.getElem_mem _)
  have hinput : (Argument.inPlace (.ofElements .u8 [3, 200])).array? = some (.ofElements .u8 [3, 200]) := rfl
  obtain ⟨bytes, hbytes, hplace, hboth, -⟩ :=
    doubling_agrees h h' hrest hrest' rfl (rfl : (ScalarArray.ofElements .u8 [9, 9, 9]).kind = .u8) hinput
  obtain rfl : [3, 200] = bytes := by
    refine List.map_injective_iff.mpr (fun b b' hb => ?_) (congrArg ScalarArray.items hbytes)
    exact Scalar.u8.inj hb
  obtain ⟨hnew, hinto⟩ := hboth (by decide)
  exact ⟨m, m', d, d', h, h', hrest, hrest', hplace (by decide), hnew, hinto⟩

end GuestCall.Sample.Sums
