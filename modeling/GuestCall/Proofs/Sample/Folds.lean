/-
# Arrays that are added up

Three exports of the sample guests go through an array once and add up words that they make of its elements:
one for each element that is true, or the elements themselves. The sum wraps around, and what the exports make
of it takes that into account: a count never gets so far, whether a sum is even does not depend on it, and
where the sum itself is returned, it is read as a signed word.

Key definition: `addUp`, the loop of all three.
Key theorems: `runs_addUp`, `invoke_addUp`, `Offered.call_reads`, `folds_are_computed`.
-/
import GuestCall.Proofs.Sample.Runs
import Mathlib.Data.UInt

namespace GuestCall.Sample

open Wasm Code

/-! ### Sums that wrap around -/

theorem toNat_sum : ∀ words : List UInt32, words.sum.toNat = (words.map UInt32.toNat).sum % 2 ^ 32
  | [] => rfl
  | w :: words => by
    rw [List.sum_cons, List.map_cons, List.sum_cons, UInt32.toNat_add, toNat_sum words, Nat.add_mod_mod]

/-- As many words are one as elements are true. -/
theorem sum_truth : ∀ flags : List Bool, ((flags.map Wasm.truth).map UInt32.toNat).sum = flags.count true
  | [] => rfl
  | b :: flags => by
    rw [List.map_cons, List.map_cons, List.sum_cons, sum_truth flags, List.count_cons]
    cases b <;> simp [Wasm.truth, Nat.add_comm]

/-- A sum of signed numbers is even just if the sum of their words is. -/
theorem even_words : ∀ numbers : List Int32,
    2 ∣ (numbers.map Int32.toInt).sum ↔ 2 ∣ ((numbers.map Int32.toUInt32).map UInt32.toNat).sum
  | [] => by simp
  | v :: numbers => by
    have hv : v.toInt = if 2 * v.toUInt32.toNat < 2 ^ 32 then (v.toUInt32.toNat : Int)
        else v.toUInt32.toNat - (2 ^ 32 : Nat) := BitVec.toInt_eq_toNat_cond _
    have ih := even_words numbers
    rw [List.map_cons, List.map_cons, List.map_cons, List.sum_cons, List.sum_cons, hv]
    omega

theorem toInt_toInt32 (w : UInt32) : w.toInt32.toInt = (w.toNat : Int).bmod (2 ^ 32) :=
  BitVec.toInt_eq_toNat_bmod _

/-! ### The loop -/

/-- Adds up what some code makes of the elements of an array. Local 0 is where the array is, local 1 how many
elements it has, local 2 the index, and local 3 the sum. -/
def addUp (shift : Nat) (look : List Instr) : List Instr :=
  forEach 2 1 (elementAt 0 2 shift ++ look ++ [val 3, add, put 3])

section

variable {env : Env} {shift ptr i : Nat} {look : List Instr} {st : Store} {words : List UInt32}
  {locals : List Val}

theorem ofNat_shiftLeft (i : Nat) {shift : Nat} (h : shift < 32) :
    UInt32.ofNat i <<< UInt32.ofNat shift = UInt32.ofNat (i * 2 ^ shift) := by
  rw [← UInt32.toNat_inj, UInt32.toNat_shiftLeft, UInt32.toNat_ofNat', UInt32.toNat_ofNat', UInt32.toNat_ofNat',
    Nat.shiftLeft_eq, Nat.mod_eq_of_lt (show shift < 2 ^ 32 by omega), Nat.mod_eq_of_lt h]
  exact Nat.mod_mul_mod ..

/-- The address of an element. -/
theorem run_elementAt (hshift : shift < 32) (hptr : locals[0]? = some (.i32 (.ofNat ptr)))
    (hindex : locals[2]? = some (.i32 (.ofNat i))) : runCode env (elementAt 0 2 shift) [] locals st =
      .next [.i32 (.ofNat (ptr + i * 2 ^ shift))] locals st := by
  have haddress := ofNat_shiftLeft i hshift
  by_cases hpos : 0 < shift
  · simp [elementAt, hpos, hptr, hindex, haddress, UInt32.ofNat_add]
  · obtain rfl : shift = 0 := by omega
    simp [elementAt, hptr, hindex, UInt32.ofNat_add]

/-- Some code makes these words of the elements of an array, without any other effect. -/
def Looks (env : Env) (look : List Instr) (st : Store) (width ptr : Nat) (words : List UInt32) : Prop :=
  ∀ i (hi : i < words.length) (locals : List Val),
    runCode env look [.i32 (.ofNat (ptr + i * width))] locals st = .next [.i32 words[i]] locals st

/-- **The loop adds up the words** that its code makes of the elements. -/
theorem runs_addUp (hshift : shift < 32) (hcount : words.length < 2 ^ 32) (hbudget : words.length < env.budget)
    (hlook : Looks env look st (2 ^ shift) ptr words) :
    runCode env (addUp shift look) [] [.i32 (.ofNat ptr), .i32 (.ofNat words.length), .i32 0, .i32 0] st =
      .next [] [.i32 (.ofNat ptr), .i32 (.ofNat words.length), .i32 (.ofNat words.length), .i32 words.sum]
        st := by
  let Inv : Nat → List Val → Store → Prop := fun i l s => s = st ∧
    l = [.i32 (.ofNat ptr), .i32 (.ofNat words.length), .i32 (.ofNat i), .i32 (words.take i).sum]
  have hround : ∀ i l s, i < words.length → Inv i l s → ∃ l' s',
      runCode env (elementAt 0 2 shift ++ look ++ [val 3, add, put 3]) [] l s = .next [] l' s' ∧
        l'[2]? = some (.i32 (.ofNat i)) ∧ Inv (i + 1) (l'.set 2 (.i32 (.ofNat (i + 1)))) s' := by
    rintro i l s hi ⟨rfl, rfl⟩
    have hsum : (words.take (i + 1)).sum = words[i] + (words.take i).sum := by
      rw [List.take_succ_eq_append_getElem hi, List.sum_append, List.sum_singleton, add_comm]
    rw [List.append_assoc, runCode_append, run_elementAt hshift rfl rfl, resume_next, runCode_append,
      hlook i hi, resume_next]
    simp [Inv, hsum]
  have hloop : ∃ l' s', runCode env (addUp shift look ++ []) []
      [.i32 (.ofNat ptr), .i32 (.ofNat words.length), .i32 0, .i32 0] st =
        runCode env [] [] l' s' ∧ Inv words.length l' s' :=
    runs_forEach Inv hcount hbudget (fun i l s h => by rw [h.2]; exact ⟨rfl, rfl⟩) hround ⟨rfl, rfl⟩
  obtain ⟨l', s', hrun, rfl, rfl⟩ := hloop
  rw [List.append_nil, runCode_nil, List.take_length] at hrun
  exact hrun

/-- Whether an element is true is looked up in its byte. -/
theorem looks_truth (hst : st.memory.IsGuest) {flags : List Bool}
    (hholds : st.memory.Holds ptr ((flags.map (Scalar.of .bool)).flatMap LittleEndian.encode)) :
    Looks env [load .i32Byte 0, word 0, num .i32Ne] st (2 ^ 0) ptr (flags.map Wasm.truth) := by
  intro i hi locals
  rw [List.length_map] at hi
  have hinside : ptr + i * 2 ^ 0 + 1 ≤ st.memory.size := (Memory.decode_of_holds hholds hi).1
  have hvalue : flags[i] = !decide (st.memory.byteAt (ptr + i * 2 ^ 0) = 0) :=
    (Memory.decode_of_holds hholds hi).2.symm
  have hbound := hst.bounds.2
  have haddress : (UInt32.ofNat (ptr + i * 2 ^ 0)).toNat = ptr + i * 2 ^ 0 := toNat_ofNat_heap (by omega)
  have hzero : ∀ b : UInt8, b.toUInt32 = 0 ↔ b = 0 := fun b => by
    rw [← UInt32.toNat_inj, ← UInt8.toNat_inj, UInt8.toNat_toUInt32]
    rfl
  rw [runCode_cons, run_load, haddress, if_pos (show _ + LoadOp.width .i32Byte ≤ _ from hinside), resume_next,
    List.getElem_map, hvalue]
  simp [LoadOp.read, hzero]

/-- Words are loaded as they stand there. -/
theorem looks_words (hst : st.memory.IsGuest) (hwords : ∀ i (hi : i < words.length),
      ptr + i * 4 + 4 ≤ st.memory.size ∧
        LittleEndian.get32 (fun j => st.memory.byteAt (ptr + i * 4 + j)) = words[i]) :
    Looks env [load .i32 2] st (2 ^ 2) ptr words := by
  intro i hi locals
  obtain ⟨hinside, hvalue⟩ := hwords i hi
  have hbound := hst.bounds.2
  have haddress : (UInt32.ofNat (ptr + i * 2 ^ 2)).toNat = ptr + i * 4 := toNat_ofNat_heap (by omega)
  rw [runCode_cons, run_load, haddress, if_pos (show _ + LoadOp.width .i32 ≤ _ from hinside), resume_next,
    runCode_nil, LoadOp.read, hvalue]

end

/-- **An export that is such a loop** returns what its last piece of code makes of the sum. -/
theorem invoke_addUp {draft : Draft} {m : GuestModule} (hd : draft.Loads m) {f : Nat} {type : FuncType}
    {visibility : Visibility} {shift : Nat} {look last : List Instr}
    (hf : draft.functions[f]? = some ⟨type, visibility,
      .ofCode [.i32, .i32] (addUp shift look ++ val 3 :: last)⟩)
    (hlegible : (Body.ofCode [.i32, .i32] (addUp shift look ++ val 3 :: last)).isLegible = true)
    (htype : type.results = [.i32]) (hshift : shift < 32) {words : List UInt32}
    (hcount : words.length < 2 ^ 32) {st : Store} {ptr : Nat} {result : UInt32} (depth : Nat)
    (hlook : Looks (m.program.envAt depth) look st (2 ^ shift) ptr words)
    (hlast : ∀ locals, runCode (m.program.envAt depth) last [.i32 words.sum] locals st =
      .next [.i32 result] locals st) :
    m.program.invoke (depth + 1) f [.i32 (.ofNat words.length), .i32 (.ofNat ptr)] st =
      .results [.i32 result] st := by
  have hbudget : words.length < (m.program.envAt depth).budget := by
    have hloops : 2 ^ 32 < loopBudget := by decide
    exact Nat.lt_trans hcount hloops
  rw [m.program.invoke_succ (hd.code hf hlegible), htype]
  change Outcome.reply [.i32] (runCode (m.program.envAt depth) (addUp shift look ++ val 3 :: last) []
    [.i32 (.ofNat ptr), .i32 (.ofNat words.length), .i32 0, .i32 0] st) = _
  rw [runCode_append, runs_addUp hshift hcount hbudget hlook, resume_next, runCode_cons, run_val]
  dsimp only [List.getElem?_cons_succ, List.getElem?_cons_zero]
  rw [resume_next, hlast]
  rfl

/-! ### Calls -/

section

variable {m : GuestModule} {d : Binding} {e : Signature × Body} {count? : Option (List Argument → Nat)}
  {draft : Draft} {p : Plan} {i : Nat} {live : UInt32} {a : ScalarArray} {input : Argument}

/-- **An export that reads an array and returns a scalar** answers that scalar, and the caller's array is what
it was, however it was passed. -/
theorem Offered.call_reads (h : Offered m d e count? draft p i) {kind kind' : ScalarKind}
    (hparams : e.1.params = [.slice kind]) (hret : e.1.ret = .scalar kind') (hstandard : e.1.isLegacy = false)
    (hrest : d.books.AtRest m heapStart.toUInt32 live) (harray : input.array? = some a) (hkind : a.kind = kind)
    (hroom : heapStart + blockSize a.byteLength ≤ heapCapacity) {result : CoreValue}
    (hinvoke : ∀ st : Store, st.memory.IsGuest →
      st.memory.Holds heapStart (a.items.flatMap LittleEndian.encode) →
      m.program.invoke depthLimit i [.i32 (.ofNat a.length), .i32 (.ofNat heapStart)] st =
        .results [.ofCore result] st)
    {s : Scalar} (hlift : Scalar.lift p.exportName kind' result = .ok s) :
    ∃ d', d.call e.1.name [input] = (.ok s.toValue, [input], d') := by
  have hσ := h.signature
  have hparams : p.signature.params = [.slice kind] := by rw [hσ, hparams]
  have hstandard : p.signature.isLegacy = false := by rw [hσ, hstandard]
  have hcheck : p.check [input] = .ok () := by
    refine Plan.check_of_one hstandard hparams ?_
    rw [Argument.mismatch?, Argument.arrayMismatch?, harray]
    exact if_pos hkind
  obtain ⟨hextent, hraw, hsupplied⟩ := p.takes_array hparams (.inl rfl) harray []
  have hroom' : heapStart.toUInt32.toNat + p.extent [input] ≤ heapCapacity := by rwa [hextent]
  obtain ⟨live', hreturns⟩ := Plan.call_returns h.loads hrest h.behaves d.style h.found rfl hcheck hroom'
  rw [Plan.ReturnsTo, hraw] at hreturns
  have hguest : (p.supplied [input] heapStart d.books.guest.store.memory).IsGuest :=
    (Memory.guest_filled hrest.memory hrest.inside hroom').1
  obtain ⟨b₂, -, hanswer⟩ := hreturns (hinvoke _ hguest (hsupplied hrest.memory hroom))
  have hdecode : ∀ rest, decodeResult d.style p.exportName p.signature.ret (result :: rest) b₂ =
      (.ok s.toValue, b₂) := by
    rw [hσ, hret]
    exact decodeResult_lifts hlift
  have hleft : p.left d.style (p.supplied [input] heapStart d.books.guest.store.memory) heapStart [input] =
      [input] := by
    refine Plan.left_apart fun param hparam => ?_
    rw [hparams] at hparam
    rw [List.mem_singleton.mp hparam]
    rfl
  have hcore : ([Val.ofCore result].reverse.filterMap Val.core?) = [result] := by cases result <;> rfl
  rw [hcore] at hanswer
  obtain ⟨b₁, hcall, -⟩ := hanswer (hdecode []) ((Plan.answer_of_not_legacy hstandard _).trans
    (congrArg (Prod.mk (Except.ok s.toValue)) hleft))
  exact ⟨_, h.call_eq hcall⟩

/-- The elements of an array that fits are few enough to be counted. -/
theorem length_lt (hroom : heapStart + blockSize a.byteLength ≤ heapCapacity) : a.length < 2 ^ 31 := by
  have hwidth : a.length ≤ a.byteLength := Nat.le_mul_of_pos_right _ a.kind.width_pos
  have hblock := le_blockSize a.byteLength
  have hcap : heapCapacity < 2 ^ 31 := by decide
  omega

/-- **An export that adds up** answers what its last piece of code makes of the sum. -/
theorem Offered.call_addsUp (h : Offered m d e count? draft p i) (shift : Nat) (look last : List Instr)
    (words : List UInt32) {kind kind' : ScalarKind} (hparams : e.1.params = [.slice kind])
    (hret : e.1.ret = .scalar kind') (hstandard : e.1.isLegacy = false)
    (htype : (Draft.typeOf e.1).results = [.i32])
    (hbody : e.2 = .ofCode [.i32, .i32] (addUp shift look ++ val 3 :: last))
    (hlegible : (Body.ofCode [.i32, .i32] (addUp shift look ++ val 3 :: last)).isLegible = true)
    (hshift : shift < 32) (hrest : d.books.AtRest m heapStart.toUInt32 live)
    (harray : input.array? = some a) (hkind : a.kind = kind)
    (hroom : heapStart + blockSize a.byteLength ≤ heapCapacity) (hwords : words.length = a.length)
    (hlook : ∀ env (st : Store), st.memory.IsGuest →
      st.memory.Holds heapStart (a.items.flatMap LittleEndian.encode) →
      Looks env look st (2 ^ shift) heapStart words)
    {result : UInt32} (hlast : ∀ env (st : Store) locals,
      runCode env last [.i32 words.sum] locals st = .next [.i32 result] locals st)
    {s : Scalar} (hlift : Scalar.lift p.exportName kind' (.i32 result) = .ok s) :
    ∃ d', d.call e.1.name [input] = (.ok s.toValue, [input], d') := by
  have hcode : draft.functions[i]? = some ⟨Draft.typeOf e.1, .wrapped e.1.name,
      .ofCode [.i32, .i32] (addUp shift look ++ val 3 :: last)⟩ := by
    rw [h.code, Draft.entry, hbody]
  have hlength := length_lt hroom
  refine h.call_reads hparams hret hstandard hrest harray hkind hroom (fun st hst hholds => ?_) hlift
  rw [← hwords]
  exact invoke_addUp h.loads hcode hlegible htype hshift (by omega) 999 (hlook _ st hst hholds) (hlast _ st)

/-- **True elements are counted.** -/
theorem call_countBooleans (h : Sample.truth.Bound m d) (hrest : d.books.AtRest m heapStart.toUInt32 live)
    {flags : List Bool} (harray : input.array? = some (.ofElements .bool flags))
    (hroom : heapStart + blockSize (ScalarArray.ofElements .bool flags).byteLength ≤ heapCapacity) :
    ∃ x d', d.call "count_booleans" [input] = (.ok (.i32 x), [input], d') ∧ x.toInt = flags.count true := by
  obtain ⟨draft, p, i, ho⟩ := h.offers (e := Truth.exports[0]) (List.getElem_mem _) rfl
  have hlength := length_lt hroom
  rw [ScalarArray.length_ofElements] at hlength
  have hle := List.count_le_length (a := true) (l := flags)
  have hcount : (flags.map Wasm.truth).sum.toNat = flags.count true := by
    rw [toNat_sum, sum_truth]
    exact Nat.mod_eq_of_lt (by omega)
  obtain ⟨d', hcall⟩ := ho.call_addsUp 0 [load .i32Byte 0, word 0, num .i32Ne] [] (flags.map Wasm.truth)
    rfl rfl rfl rfl rfl rfl (by omega) hrest harray rfl hroom (by simp)
    (fun env st hst hholds => looks_truth hst hholds) (fun env st locals => runCode_nil) (s := .i32 _) rfl
  refine ⟨_, d', hcall, ?_⟩
  rw [toInt_toInt32, hcount]
  exact Int.bmod_eq_of_le (by omega) (by omega)

/-- **Whether a sum is even** is told for the exact sum. -/
theorem call_isSumEven (h : Sample.truth.Bound m d) (hrest : d.books.AtRest m heapStart.toUInt32 live)
    {numbers : List Int32} (harray : input.array? = some (.ofElements .i32 numbers))
    (hroom : heapStart + blockSize (ScalarArray.ofElements .i32 numbers).byteLength ≤ heapCapacity) :
    ∃ d', d.call "is_sum_even" [input] =
      (.ok (.bool (decide (2 ∣ (numbers.map Int32.toInt).sum))), [input], d') := by
  obtain ⟨draft, p, i, ho⟩ := h.offers (e := Truth.exports[1]) (List.getElem_mem _) rfl
  have heven : (numbers.map Int32.toUInt32).sum &&& 1 = 0 ↔ 2 ∣ (numbers.map Int32.toInt).sum := by
    rw [even_words, ← UInt32.toNat_inj, UInt32.toNat_and, toNat_sum]
    change _ % 2 ^ 32 &&& 1 = 0 ↔ _
    rw [Nat.and_one_is_mod]
    omega
  have hlast : ∀ env (st : Store) locals, runCode env [word 1, bits, num .i32Eqz]
      [.i32 (numbers.map Int32.toUInt32).sum] locals st =
        .next [.i32 (Wasm.truth (decide (2 ∣ (numbers.map Int32.toInt).sum)))] locals st :=
    fun env st locals => by simp [← heven]
  obtain ⟨d', hcall⟩ := ho.call_addsUp 2 [load .i32 2] [word 1, bits, num .i32Eqz]
    (numbers.map Int32.toUInt32) rfl rfl rfl rfl rfl rfl (by omega) hrest harray rfl hroom (by simp)
    (fun env st hst hholds => looks_words hst fun i hi => by
      rw [List.length_map] at hi
      obtain ⟨hinside, hvalue⟩ := Memory.decode_of_holds hholds hi
      rw [List.getElem_map, ← hvalue]
      exact ⟨hinside, rfl⟩)
    hlast (s := .bool (decide (2 ∣ (numbers.map Int32.toInt).sum)))
    (by cases decide (2 ∣ (numbers.map Int32.toInt).sum) <;> rfl)
  exact ⟨d', hcall⟩

/-- **A sum** is the signed word that the exact sum comes to. -/
theorem call_sum (h : Sample.sums.Bound m d) (hrest : d.books.AtRest m heapStart.toUInt32 live)
    {numbers : List UInt32} (harray : input.array? = some (.ofElements .u32 numbers))
    (hroom : heapStart + blockSize (ScalarArray.ofElements .u32 numbers).byteLength ≤ heapCapacity) :
    ∃ x d', d.call "sum" [input] = (.ok (.i32 x), [input], d') ∧
      x.toInt = ((numbers.map UInt32.toNat).sum : Int).bmod (2 ^ 32) := by
  obtain ⟨draft, p, i, ho⟩ := h.offers (e := Sums.exports[0]) (List.getElem_mem _) rfl
  obtain ⟨d', hcall⟩ := ho.call_addsUp 2 [load .i32 2] [] numbers rfl rfl rfl rfl rfl rfl (by omega) hrest
    harray rfl hroom (by simp)
    (fun env st hst hholds => looks_words hst fun i hi => Memory.decode_of_holds hholds hi)
    (fun env st locals => runCode_nil) (s := .i32 _) rfl
  refine ⟨_, d', hcall, ?_⟩
  rw [toInt_toInt32, toNat_sum, Int.natCast_mod]
  exact Int.emod_bmod ..

end

/-- **Arrays are added up for every array that fits**, on an empty heap and however they are passed: how many
elements are true, whether the exact sum is even, and the sum as a signed word. The array of the caller is
what it was. -/
theorem folds_are_computed {m m' : GuestModule} {d d' : Binding} (h : Sample.truth.Bound m d)
    (h' : Sample.sums.Bound m' d') {live live' : UInt32} (hrest : d.books.AtRest m heapStart.toUInt32 live)
    (hrest' : d'.books.AtRest m' heapStart.toUInt32 live') {a : ScalarArray} {input : Argument}
    (hinput : input.array? = some a) (hroom : heapStart + blockSize a.byteLength ≤ heapCapacity) :
    (a.kind = .bool → ∃ flags : List Bool, a = .ofElements .bool flags ∧
      ∃ x d₁, d.call "count_booleans" [input] = (.ok (.i32 x), [input], d₁) ∧ x.toInt = flags.count true) ∧
    (a.kind = .i32 → ∃ numbers : List Int32, a = .ofElements .i32 numbers ∧
      ∃ d₁, d.call "is_sum_even" [input] =
        (.ok (.bool (decide (2 ∣ (numbers.map Int32.toInt).sum))), [input], d₁)) ∧
    (a.kind = .u32 → ∃ numbers : List UInt32, a = .ofElements .u32 numbers ∧
      ∃ x d₁, d'.call "sum" [input] = (.ok (.i32 x), [input], d₁) ∧
        x.toInt = ((numbers.map UInt32.toNat).sum : Int).bmod (2 ^ 32)) := by
  refine ⟨fun hkind => ?_, fun hkind => ?_, fun hkind => ?_⟩
  · obtain ⟨flags, rfl⟩ := ScalarArray.exists_ofElements hkind
    exact ⟨flags, rfl, call_countBooleans h hrest hinput hroom⟩
  · obtain ⟨numbers, rfl⟩ := ScalarArray.exists_ofElements hkind
    exact ⟨numbers, rfl, call_isSumEven h hrest hinput hroom⟩
  · obtain ⟨numbers, rfl⟩ := ScalarArray.exists_ofElements hkind
    exact ⟨numbers, rfl, call_sum h' hrest' hinput hroom⟩

/-- Two flags of three are true, a sum that is too large for a word is even, and another one is two less than
nothing. -/
theorem three_arrays_are_added_up : ∃ d d' d₁ d₂ d₃ : Binding, ∃ x y : Int32,
    d.call "count_booleans" [.byValue (.array (.ofElements .bool [true, false, true]))] =
      (.ok (.i32 x), [.byValue (.array (.ofElements .bool [true, false, true]))], d₁) ∧ x.toInt = 2 ∧
    d.call "is_sum_even" [.inPlace (.ofElements .i32 [2147483647, 1])] =
      (.ok (.bool true), [.inPlace (.ofElements .i32 [2147483647, 1])], d₂) ∧
    d'.call "sum" [.inPlace (.ofElements .u32 [4294967295, 4294967295])] =
      (.ok (.i32 y), [.inPlace (.ofElements .u32 [4294967295, 4294967295])], d₃) ∧ y.toInt = -2 := by
  obtain ⟨m, d, h, -, hrest⟩ :=
    exists_at_rest (s := .truth) nofun (e := Truth.exports[0]) (List.getElem_mem _)
  obtain ⟨m', d', h', -, hrest'⟩ :=
    exists_at_rest (s := .sums) nofun (e := Sums.exports[0]) (List.getElem_mem _)
  have hbyValue : ∀ a : ScalarArray, (Argument.byValue (.array a)).array? = some a := fun _ => rfl
  have hinPlace : ∀ a : ScalarArray, (Argument.inPlace a).array? = some a := fun _ => rfl
  obtain ⟨flags, hflags, x, d₁, hcount, hx⟩ := (folds_are_computed h h' hrest hrest'
    (hbyValue (.ofElements .bool [true, false, true])) (by decide)).1 rfl
  obtain ⟨numbers, hnumbers, d₂, heven⟩ := (folds_are_computed h h' hrest hrest'
    (hinPlace (.ofElements .i32 [2147483647, 1])) (by decide)).2.1 rfl
  obtain ⟨words, hwords, y, d₃, hsum, hy⟩ := (folds_are_computed h h' hrest hrest'
    (hinPlace (.ofElements .u32 [4294967295, 4294967295])) (by decide)).2.2 rfl
  obtain rfl := ScalarArray.ofElements_inj.mp hflags
  obtain rfl := ScalarArray.ofElements_inj.mp hnumbers
  obtain rfl := ScalarArray.ofElements_inj.mp hwords
  exact ⟨d, d', d₁, d₂, d₃, x, y, hcount, hx.trans (by decide), heven, hsum, hy.trans (by decide)⟩

end GuestCall.Sample
