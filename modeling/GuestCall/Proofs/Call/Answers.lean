/-
# What a call answers

Where it is known what an export does with the memory that its arguments were copied into, it is known what
a call of it answers: which value, what becomes of each argument, and what the memory holds at the end. The
decoded value is the one that the bytes of a buffer stand for, and arrays of in-place parameters are what
stands in their buffers. Without room for the call, it answers that, and no argument is touched.

Key definitions: `fetched`, the arguments after the export returned; `Plan.supplied`, the memory that it
finds; `Denotes`, the value that some bytes stand for; and `Plan.Presents`, an export that returns a buffer of
some bytes.
Key theorems: `Plan.call_returns`, `Plan.call_scalars`, `decodeResult_denotes`, `Plan.call_presents`, and
`Plan.call_below`.
-/
import GuestCall.Proofs.Call.Contents
import GuestCall.Proofs.Call.Decoding

namespace GuestCall

open Ledger GuestCall.Action

/-! ### Checks that pass -/

/-- Arguments that fit the parameters pass the check, if there are as many. -/
theorem Plan.check_of_fits {p : Plan} {arguments : List Argument} (hstandard : p.signature.isLegacy = false)
    (hlength : arguments.length = p.signature.params.length)
    (hfits : ∀ pair ∈ p.signature.params.zip arguments, pair.2.mismatch? pair.1 = none) :
    p.check arguments = .ok () := by
  refine check_eq_ok.mpr ⟨?_, hfits, fun hlegacy => ?_⟩
  · rw [Signature.hostArity, hstandard, hlength]
    rfl
  · cases hstandard.symm.trans hlegacy

/-- One argument that fits the one parameter passes the check. -/
theorem Plan.check_of_one {p : Plan} {param : ParamKind} {a : Argument}
    (hstandard : p.signature.isLegacy = false) (hparams : p.signature.params = [param])
    (hfits : a.mismatch? param = none) : p.check [a] = .ok () := by
  refine check_of_fits hstandard (by rw [hparams]; rfl) fun pair hpair => ?_
  rw [hparams, List.zip_cons_cons, List.zip_nil_left, List.mem_singleton] at hpair
  rw [hpair, hfits]

/-- The arguments of a legacy call pass it, if an array of the kind of the result comes behind them. -/
theorem Plan.check_of_output {p : Plan} {arguments : List Argument} {output : ScalarArray}
    (hlegacy : p.signature.convention = .legacyOutParam) (hret : p.signature.ret = .vec output.kind)
    (hlength : arguments.length = p.signature.params.length + 1)
    (hlast : arguments[p.signature.params.length]? = some (.inPlace output))
    (hfits : ∀ pair ∈ p.signature.params.zip arguments, pair.2.mismatch? pair.1 = none) :
    p.check arguments = .ok () := by
  refine check_eq_ok.mpr ⟨?_, hfits, fun _ => ⟨output, hret, hlast⟩⟩
  rw [Signature.hostArity, Signature.isLegacy, hlegacy, hlength]
  rfl

/-! ### Arguments after the export returned -/

/-- An argument whose buffer lies at a place, after the export returned. -/
def Argument.fetched (style : AccessStyle) (memory : Memory) (place : Nat) : ParamKind → Argument → Argument
  | .sliceMut _, .inPlace items => .inPlace (items.readBack style memory place)
  | _, a => a

/-- All arguments after the export returned, where their buffers are piled up from an address on. -/
def fetched (style : AccessStyle) (memory : Memory) : Nat → List ParamKind → List Argument → List Argument
  | top, param :: params, a :: arguments =>
    a.fetched style memory top param ::
      fetched style memory (top + blockSize a.extent) params arguments
  | _, _, arguments => arguments

section

variable {style : AccessStyle} {memory : Memory} {b : Books Instance}

/-- Arrays are brought back from where their buffers are. -/
theorem broughtBack_eq_fetched : ∀ {params : List ParamKind} {arguments : List Argument}
    {passed : List Passed} {top : Nat},
    List.Forall₂ (fun pair q => q.Covers pair.1 pair.2 b) (params.zip arguments) passed →
    passed.map (·.raw) = lowerings top (params.zip arguments) →
    top + extents (params.zip arguments) ≤ heapCapacity →
    broughtBack style memory (params.zip passed) arguments = fetched style memory top params arguments
  | [], arguments, _, _, _, _, _ => by
    rw [List.zip_nil_left, broughtBack, fetched] <;> simp
  | _ :: _, [], _, _, .nil, _, _ => rfl
  | param :: params, a :: arguments, q :: passed, top, .cons hq hcovers, hraw, hroom => by
    rw [List.zip_cons_cons, extents, ← Nat.add_assoc] at hroom
    rw [List.zip_cons_cons, List.map_cons, lowerings, List.cons.injEq] at hraw
    rw [List.zip_cons_cons, broughtBack, fetched, broughtBack_eq_fetched hcovers hraw.2 hroom]
    congr 1
    by_cases hslot : param.isInPlace = true ∧ ∃ items, a = .inPlace items
    · obtain ⟨hparam, items, rfl⟩ := hslot
      cases param with
      | sliceMut kind =>
        obtain ⟨x, hx, -, -, hptr⟩ := hq.buffer rfl
        obtain ⟨raw, handle?⟩ := q
        obtain rfl : handle? = some x := hx
        obtain rfl : raw = [.i32 (.ofNat top), .i32 (.ofNat items.length)] := hraw.1
        have hplace : x.ptr = .ofNat top := (CoreValue.i32.inj (Option.some.inj hptr)).symm
        have hword : x.ptr.toNat = top := by
          rw [hplace]
          exact toNat_ofNat_heap (by omega)
        exact congrArg (fun place => Argument.inPlace (items.readBack style memory place)) hword
      | scalar | slice | vec | str => cases hparam
    · unfold Argument.afterwards Argument.fetched
      split
      · exact absurd ⟨rfl, _, rfl⟩ hslot
      · split
        · exact absurd ⟨rfl, _, rfl⟩ hslot
        · rfl

/-- Without in-place parameters, the arguments are what they were. -/
theorem fetched_apart : ∀ {params : List ParamKind} {arguments : List Argument} {top : Nat},
    (∀ param ∈ params, param.isInPlace = false) → fetched style memory top params arguments = arguments
  | [], _, _, _ => by rw [fetched]; simp
  | _ :: _, [], _, _ => rfl
  | param :: params, a :: arguments, top, h => by
    have hkept : a.fetched style memory top param = a := by
      cases param with
      | sliceMut => cases h _ List.mem_cons_self
      | scalar | slice | vec | str => rfl
    rw [fetched, hkept, fetched_apart fun param hparam => h param (List.mem_cons_of_mem _ hparam)]

end

/-! ### Calls whose export returns -/

namespace Plan

variable {d : Draft} {m : GuestModule} {heap live : UInt32} {b : Books Instance} {p : Plan}
  {f : ExportedFunction} {arguments : List Argument} {count? : Option (List Argument → Nat)}

/-- The memory that the export of a call finds. -/
def supplied (p : Plan) (arguments : List Argument) (top : Nat) (memory : Memory) : Memory :=
  memory.filled top (p.signature.params.zip arguments)

/-- The arguments of a call whose export returned and left some memory. -/
def left (p : Plan) (style : AccessStyle) (memory : Memory) (top : Nat) (arguments : List Argument) :
    List Argument :=
  fetched style memory top p.signature.params arguments

theorem left_apart (hapart : ∀ param ∈ p.signature.params, param.isInPlace = false) {style : AccessStyle}
    {memory : Memory} {top : Nat} : p.left style memory top arguments = arguments :=
  fetched_apart hapart

/-- An export with one parameter finds what its argument is copied as where the heap ended. -/
theorem supplied_holds {param : ParamKind} (hparams : p.signature.params = [param]) (a : Argument)
    (rest : List Argument) {memory : Memory} (hm : memory.IsGuest) {top : Nat}
    (hroom : top + blockSize a.extent ≤ heapCapacity) :
    (p.supplied (a :: rest) top memory).Holds top a.payload := by
  have hpairs : p.signature.params.zip (a :: rest) = [(param, a)] := by
    rw [hparams]
    rfl
  have hholds := Memory.filled_holds (k := 0) hm (by rwa [hpairs, extents, extents])
    (congrArg (·[0]?) hpairs)
  rwa [List.take_zero] at hholds

/-- An export whose one parameter is an array gets the address and the length of the caller's array, and finds
its elements there. -/
theorem takes_array {param : ParamKind} (hparams : p.signature.params = [param]) {kind : ScalarKind}
    (hparam : param = .slice kind ∨ param = .sliceMut kind ∨ param = .vec kind) {input : Argument}
    {a : ScalarArray} (harray : input.array? = some a) (rest : List Argument) :
    p.extent (input :: rest) = blockSize a.byteLength ∧
      (∀ top, p.raw top (input :: rest) = [.i32 (.ofNat top), .i32 (.ofNat a.length)]) ∧
      ∀ {memory : Memory} {top : Nat}, memory.IsGuest → top + blockSize a.byteLength ≤ heapCapacity →
        (p.supplied (input :: rest) top memory).Holds top (a.items.flatMap LittleEndian.encode) := by
  obtain ⟨-, hextent, hpayload, hlowered⟩ := passArgument_array .native "" hparam harray
  have hpairs : p.signature.params.zip (input :: rest) = [(param, input)] := by
    rw [hparams]
    rfl
  refine ⟨?_, fun top => ?_, fun {memory top} hguest hroom => ?_⟩
  · rw [Plan.extent, hpairs, extents, extents, hextent, Nat.add_zero]
  · rw [Plan.raw, hpairs, lowerings, lowerings, hlowered]
    rfl
  · rw [← hextent] at hroom
    have hholds := p.supplied_holds hparams input rest hguest hroom
    rwa [hpayload] at hholds

/-- A call is bound to end in some way once the export has returned from what it was supplied with: its result
is decoded, and what it answers is what the result makes of the arguments. -/
def ReturnsTo (p : Plan) (m : GuestModule) (f : ExportedFunction) (style : AccessStyle) (top : Nat)
    (arguments : List Argument) (memory : Memory) (live : UInt32)
    (ends : Except BindError Value → List Argument → Books Instance → Prop) : Prop :=
  ∀ {stack : List Wasm.Val} {s : Wasm.Store},
    m.program.invoke Wasm.depthLimit f.index ((p.raw top arguments).reverse.map .ofCore)
        (Wasm.guestStore (p.supplied arguments top memory) (.ofNat (top + p.extent arguments)) live) =
      .results stack s →
    ∃ b₂ : Books Instance, b₂.guest.store = s ∧ ∀ {result answer : Except BindError Value}
      {arguments' : List Argument} {b₃ : Books Instance},
      decodeResult style p.exportName p.signature.ret (stack.reverse.filterMap Wasm.Val.core?) b₂ =
        (result, b₃) →
      p.answer (p.left style s.memory top arguments) result = (answer, arguments') →
      ends answer arguments' b₃

/-- **The export returns** from a call that there is room for the arguments of. -/
theorem perform_returns (hd : d.Loads m) (h : b.AtRest m heap live) (style : AccessStyle)
    (hfind : m.find? p.exportName = some f) (hshape : f.shape = p.signature.shape)
    (hcheck : p.check arguments = .ok ()) (hroom : heap.toNat + p.extent arguments ≤ heapCapacity) :
    ∃ live', p.ReturnsTo m f style heap.toNat arguments b.guest.store.memory live'
      fun answer arguments' b₃ => p.perform style arguments b = (answer, arguments', b₃) := by
  have hpass := passArguments_on style p.exportName (h.on hd) (fits_of_check hcheck).2
  rw [if_pos (show heap.toNat + extents (p.signature.params.zip arguments) ≤ heapCapacity from hroom)] at hpass
  obtain ⟨passed, b₁, hpass, hraw, -, hraised, hmemory⟩ := hpass
  have hat := hraised.on.at_store
  rw [hmemory] at hat
  have hvalues : passed.flatMap (·.raw) = p.raw heap.toNat arguments := congrArg List.flatten hraw
  refine ⟨live + (.ofNat (heap.toNat + p.extent arguments) - .ofNat heap.toNat) + 0,
    fun {stack s} hinvoke => ?_⟩
  obtain ⟨guest, hrun, hat'⟩ := Instance.run_results p.exportName _ hat hinvoke
  have hfits : f.shape.mismatch? (p.raw heap.toNat arguments) = none := by
    rw [hshape]
    exact mismatch?_lowerings hcheck _
  have hcall := (Instance.call_eq_run hat hfind hfits).trans hrun
  rw [← hvalues] at hcall
  obtain ⟨hcovers, b₂, -, -, hstore, hanswer⟩ := perform_of_call h.resting.ready hcheck hpass hcall
  have hleft : p.returned style guest.store.memory passed arguments =
      p.left style s.memory heap.toNat arguments := by
    rw [← hat'.store]
    exact broughtBack_eq_fetched hcovers hraw hroom
  refine ⟨b₂, hstore.trans hat'.store, fun hdecode heq => ?_⟩
  rw [hanswer hdecode, hleft, heq]

/-- An argument that takes no result is what it was. -/
theorem deliver_error {name : String} {v : Value} {e : BindError} : ∀ {arguments : List Argument},
    (deliver name v arguments).1 = .error e → (deliver name v arguments).2 = arguments
  | [], _ => rfl
  | [.byValue _], _ => rfl
  | [.inPlace target], h => by
    unfold deliver at h ⊢
    split at h
    · split at h
      · cases h
      · rfl
    · rfl
  | a :: a' :: rest, h => by
    rw [deliver] at h ⊢
    have hrest : (deliver name v (a' :: rest)).1 = .error e := h
    exact congrArg (a :: ·) (deliver_error hrest)

theorem answer_error {result : Except BindError Value} {e : BindError}
    (h : (p.answer arguments result).1 = .error e) : (p.answer arguments result).2 = arguments := by
  rcases result with e' | v
  · rfl
  unfold answer at h ⊢
  dsimp only at h ⊢
  by_cases hlegacy : p.signature.isLegacy = true
  · rw [if_pos hlegacy] at h ⊢
    exact deliver_error h
  · rw [if_neg hlegacy] at h
    cases h

/-- Without in-place parameters, a call that fails touches no argument. -/
theorem perform_error (hapart : ∀ param ∈ p.signature.params, param.isInPlace = false)
    {style : AccessStyle} {e : BindError} {arguments' : List Argument} {b' : Books Instance}
    (h : p.perform style arguments b = (.error e, arguments', b')) : arguments' = arguments := by
  unfold perform at h
  rcases hpass : passArguments style p.exportName (p.signature.params.zip arguments) b with ⟨e' | passed, b₁⟩
  · rw [hpass] at h
    cases h
    rfl
  rw [hpass] at h
  dsimp only at h
  rcases hcall : onGuest (Instance.call p.exportName (passed.flatMap (·.raw))) b₁ with ⟨e' | raw, b₂⟩
  · unfold finish at h
    rw [hcall] at h
    cases h
    rfl
  have hcopy : copyBackAll style (p.signature.params.zip passed) arguments b₂ = (.ok (), arguments, b₂) :=
    copyBackAll_apart style arguments fun pair hpair => hapart _ (List.of_mem_zip hpair).1
  rcases hdecode : decodeResult style p.exportName p.signature.ret raw b₂ with ⟨result, b₃⟩
  obtain ⟨hresult, hkept, -⟩ : _ ∧ _ ∧ _ := by
    simpa only [Prod.mk.injEq] using (finish_eq hcall hcopy hdecode).symm.trans h
  rw [← hkept]
  exact answer_error hresult

/-- **Giving the buffers back does not change what a call answers**, nor what is in the memory. Without room
for the call, no argument is touched. -/
theorem call_performs (hd : d.Loads m) (h : b.AtRest m heap live) (hp : p.Behaves m count?)
    (style : AccessStyle) (hcheck : p.check arguments = .ok ()) :
    ∃ result arguments' b' b₁, p.perform style arguments b = (result, arguments', b') ∧
      p.call style arguments b = (result, arguments', b₁) ∧
      b₁.guest.store.memory = b'.guest.store.memory ∧
      (OutOfMemory result ↔ heapCapacity < p.peak count? heap.toNat arguments) ∧
      (OutOfMemory result → arguments' = arguments) := by
  cases hp with
  | still hstill hret =>
    obtain ⟨result, arguments', top, b', hperform, hon, hfits, -⟩ :=
      perform_quiet style (h.on hd) hstill.quiet hret hcheck
    obtain ⟨b₁, hcall, -, -, hmemory⟩ := call_on style hcheck hperform hon
    rw [← peak_quiet hcheck] at hfits
    refine ⟨result, arguments', b', b₁, hperform, hcall, hmemory, hfits, fun hout => ?_⟩
    -- there was no room for the arguments
    have hfull := hfits.mp hout
    rw [peak_quiet hcheck] at hfull
    have hpass := passArguments_on style p.exportName (h.on hd) (fits_of_check hcheck).2
    rw [if_neg (show ¬ heap.toNat + extents (p.signature.params.zip arguments) ≤ heapCapacity from
      Nat.not_le.mpr hfull)] at hpass
    obtain ⟨n, fault, k, b₂, hpass, -⟩ := hpass
    unfold perform at hperform
    rw [hpass] at hperform
    cases hperform
    rfl
  | @makes count hmakes =>
    obtain ⟨result, arguments', b', hperform, hends⟩ := perform_makes style (h.on hd) hmakes hcheck
    have hkept : OutOfMemory result → arguments' = arguments := fun ⟨e, he, _⟩ =>
      perform_error hmakes.apart (he ▸ hperform)
    rw [peak_makes hcheck]
    obtain ⟨top, heap', extra, hon, hfits⟩ : ∃ top heap' extra, b'.On (h.ground hd) top heap' extra ∧
        (OutOfMemory result ↔ heapCapacity < p.dataStop count heap.toNat arguments + 16) := by
      by_cases hroom : p.dataStop count heap.toNat arguments + 16 ≤ heapCapacity
      · rw [if_pos hroom] at hends
        obtain ⟨hon, hserved, -⟩ := hends
        exact ⟨_, _, _, hon, fun h => absurd h hserved, fun h => absurd h (Nat.not_lt_of_le hroom)⟩
      · rw [if_neg hroom] at hends
        obtain ⟨hout, hends⟩ := hends
        have hfits := iff_of_true hout (Nat.lt_of_not_le hroom)
        split at hends
        · exact ⟨_, _, _, hends.2, hfits⟩
        · obtain ⟨top, hon⟩ := hends
          exact ⟨_, _, _, hon, hfits⟩
    obtain ⟨b₁, hcall, -, -, hmemory⟩ := call_on style hcheck hperform hon
    exact ⟨result, arguments', b', b₁, hperform, hcall, hmemory, hfits, hkept⟩

/-- **A call whose export returns** answers what the decoded result makes of the arguments. -/
theorem call_returns (hd : d.Loads m) (h : b.AtRest m heap live) (hp : p.Behaves m count?)
    (style : AccessStyle) (hfind : m.find? p.exportName = some f) (hshape : f.shape = p.signature.shape)
    (hcheck : p.check arguments = .ok ()) (hroom : heap.toNat + p.extent arguments ≤ heapCapacity) :
    ∃ live', p.ReturnsTo m f style heap.toNat arguments b.guest.store.memory live'
      fun answer arguments' b₃ => ∃ b₁, p.call style arguments b = (answer, arguments', b₁) ∧
        b₁.guest.store.memory = b₃.guest.store.memory := by
  obtain ⟨live', hreturns⟩ := perform_returns hd h style hfind hshape hcheck hroom
  obtain ⟨result, arguments', b', b₁, hperform, hcall, hmemory, -⟩ := call_performs hd h hp style hcheck
  refine ⟨live', fun {stack s} hinvoke => ?_⟩
  obtain ⟨b₂, hstore, hanswer⟩ := hreturns hinvoke
  refine ⟨b₂, hstore, fun hdecode heq => ?_⟩
  obtain ⟨rfl, rfl, rfl⟩ : _ ∧ _ ∧ _ := by
    simpa only [Prod.mk.injEq] using hperform.symm.trans (hanswer hdecode heq)
  exact ⟨b₁, hcall, hmemory⟩

end Plan

/-! ### Scalar results -/

section

variable {style : AccessStyle} {name : String} {b : Books Instance}

theorem decodeResult_lifts {kind : ScalarKind} {v : CoreValue} {s : Scalar}
    (h : Scalar.lift name kind v = .ok s) (rest : List CoreValue) :
    decodeResult style name (.scalar kind) (v :: rest) b = (.ok s.toValue, b) := by
  have hlift : Action.ofExcept (Scalar.lift name kind v) b = (.ok s, b) := by
    rw [h]
    rfl
  have hfirst : Action.ofExcept (firstResult name (.scalar kind) (v :: rest)) b = (.ok v, b) := rfl
  unfold decodeResult
  dsimp only
  rw [Action.bind_ok hfirst, Action.bind_ok hlift]
  rfl

/-- Scalars are passed without touching the books. -/
theorem passArguments_scalars (style : AccessStyle) (name : String) (b : Books Instance) :
    ∀ {pairs : List (ParamKind × Argument)},
    (∀ pair ∈ pairs, pair.2.mismatch? pair.1 = none) → (∀ pair ∈ pairs, ∃ kind, pair.1 = .scalar kind) →
    ∃ passed, passArguments style name pairs b = (.ok passed, b) ∧
      ∀ top, passed.map (·.raw) = lowerings top pairs
  | [], _, _ => ⟨[], rfl, fun _ => rfl⟩
  | (param, a) :: rest, hfits, hscalars => by
    obtain ⟨kind, rfl⟩ : ∃ kind, param = .scalar kind := hscalars _ List.mem_cons_self
    obtain ⟨passed, hrest, hraw⟩ := passArguments_scalars style name b
      (fun pair hpair => hfits pair (List.mem_cons_of_mem _ hpair))
      fun pair hpair => hscalars pair (List.mem_cons_of_mem _ hpair)
    have hmatch : a.mismatch? (.scalar kind) = none := hfits _ List.mem_cons_self
    rcases mismatch?_eq_none hmatch with ⟨kind', v, s, hkind, rfl, hs⟩ | ⟨text, hstr, -⟩ |
        ⟨kind', items, hparam, -⟩
    · cases hkind
      have hpass : passArgument style name (.scalar kind) (.byValue v) b = (.ok ⟨[s.lower], none⟩, b) := by
        unfold passArgument
        simp only [hs]
        rfl
      refine ⟨⟨[s.lower], none⟩ :: passed, ?_, fun top => ?_⟩
      · rw [passArguments, Action.bind_ok hpass, Action.bind_ok hrest]
        rfl
      · have hlowered : (Argument.byValue v).lowered top (.scalar kind) = [s.lower] := by
          unfold Argument.lowered
          simp only [hs, Option.map_some, Option.toList_some]
        rw [lowerings, hlowered, List.map_cons, hraw]
    · cases hstr
    · rcases hparam with h | h | h <;> cases h

end

/-- Nothing is given back where nothing is outstanding. -/
theorem releaseAll_none {b : Books Instance} (h : b.ledger.outstanding = []) :
    releaseAll b = (.ok (), ⟨b.ledger.close, b.guest⟩) := by
  unfold releaseAll
  rw [h, List.length_nil, releaseNewest]

namespace Plan

variable {m : GuestModule} {b : Books Instance} {p : Plan} {f : ExportedFunction} {arguments : List Argument}

theorem answer_of_not_legacy (h : p.signature.isLegacy = false) (result : Except BindError Value) :
    p.answer arguments result = (result, arguments) := by
  rcases result with e | v
  · rfl
  · unfold answer
    dsimp only
    rw [h]
    rfl

/-- Only an export that returns an array can have its result put into an argument. -/
theorem not_legacy_of_check (hcheck : p.check arguments = .ok ())
    (hret : ∀ kind, p.signature.ret ≠ .vec kind) : p.signature.isLegacy = false := by
  by_contra hlegacy
  obtain ⟨kind, -, hvec, -⟩ := output_of_check hcheck (Bool.eq_true_of_not_eq_false hlegacy)
  exact hret kind hvec

/-- **A call from scalars to a scalar**, of whichever guest: it takes no buffers, so all that counts is what
the export returns. -/
theorem call_scalars (h : b.Resting) (hm : b.guest.module = m) (style : AccessStyle)
    (hfind : m.find? p.exportName = some f) (hshape : f.shape = p.signature.shape)
    (hcheck : p.check arguments = .ok ())
    (hscalars : ∀ param ∈ p.signature.params, ∃ kind, param = .scalar kind) {kind : ScalarKind}
    (hret : p.signature.ret = .scalar kind) {stack : List Wasm.Val} {store : Wasm.Store}
    (hinvoke : m.program.invoke Wasm.depthLimit f.index ((p.raw 0 arguments).reverse.map .ofCore)
      b.guest.store = .results stack store)
    {v : CoreValue} {rest : List CoreValue} (hfirst : stack.reverse.filterMap Wasm.Val.core? = v :: rest)
    {s : Scalar} (hlift : Scalar.lift p.exportName kind v = .ok s) :
    ∃ b', p.call style arguments b = (.ok s.toValue, arguments, b') := by
  obtain ⟨passed, hpass, hraw⟩ := passArguments_scalars style p.exportName b (fits_of_check hcheck).2
    fun pair hpair => hscalars pair.1 (List.of_mem_zip hpair).1
  have hvalues : passed.flatMap (·.raw) = p.raw 0 arguments := congrArg List.flatten (hraw 0)
  have hfits : f.shape.mismatch? (p.raw 0 arguments) = none := by
    rw [hshape]
    exact mismatch?_lowerings hcheck 0
  obtain ⟨guest, hrun, -⟩ := Instance.run_results p.exportName _ ⟨hm, rfl⟩ hinvoke
  have hcall := onGuest_eq ((Instance.call_eq_run ⟨hm, rfl⟩ hfind hfits).trans hrun)
  rw [← hvalues, hfirst] at hcall
  have hcopy : copyBackAll style (p.signature.params.zip passed) arguments ⟨b.ledger, guest⟩ =
      (.ok (), arguments, ⟨b.ledger, guest⟩) := by
    refine copyBackAll_apart style arguments fun pair hpair => ?_
    obtain ⟨kind, hkind⟩ := hscalars pair.1 (List.of_mem_zip hpair).1
    rw [hkind]
    rfl
  have hdecode : decodeResult style p.exportName p.signature.ret (v :: rest) ⟨b.ledger, guest⟩ =
      (.ok s.toValue, ⟨b.ledger, guest⟩) := by
    rw [hret]
    exact decodeResult_lifts hlift rest
  have hstandard := not_legacy_of_check hcheck fun kind hvec => by
    rw [hret] at hvec
    cases hvec
  have hperform : p.perform style arguments b = (.ok s.toValue, arguments, ⟨b.ledger, guest⟩) := by
    unfold perform
    rw [hpass]
    dsimp only
    rw [finish_eq hcall hcopy hdecode, answer_of_not_legacy hstandard]
  refine ⟨⟨b.ledger.close, guest⟩, ?_⟩
  unfold call
  rw [hcheck]
  dsimp only
  rw [hperform]
  have hrelease : releaseAll (⟨b.ledger, guest⟩ : Books Instance) = _ := releaseAll_none h.settled
  rw [hrelease]

end Plan

/-! ### Buffer results -/

/-- What so many elements that are stored as some bytes stand for, by the kind of the result. -/
inductive Denotes (count : Nat) (bytes : List UInt8) : ReturnKind → Value → Prop
  | vec {kind : ScalarKind} (items : List kind.Element) (length : items.length = count)
    (stored : (ScalarArray.ofElements kind items).items.flatMap LittleEndian.encode = bytes) :
    Denotes count bytes (.vec kind) (.array (.ofElements kind items))
  | str (text : String) (length : bytes.length = count) (stored : text.toUTF8.data.toList = bytes) :
    Denotes count bytes .str (.str text)
  | bigDecimal (text : String) (length : bytes.length = count) (stored : text.toUTF8.data.toList = bytes)
    (decimal : IsDecimal text.toList) : Denotes count bytes .bigDecimal (.bigDecimal text)

section

variable {name : String} {m : Memory} {ret : ReturnKind} {count : Nat}
  {bytes : List UInt8} {v : Value}

/-- A text that stands where a descriptor points to is the one that is read there. -/
theorem Descriptor.spells_of_holds {d : Descriptor} {text : String} (hlen : d.len.toNat = bytes.length)
    (hholds : m.Holds d.ptr.toNat bytes) (htext : text.toUTF8.data.toList = bytes) : d.Spells m text := by
  have hbytes : m.bytesAt bytes.length d.ptr.toNat = bytes := hholds.bytes
  unfold Spells
  rw [hlen, hbytes, ← htext]
  exact ByteArray.ext (Array.toList_inj.mp (by rw [List.data_toByteArray]))

theorem Descriptor.Spells.unique {d : Descriptor} {text text' : String} (h : d.Spells m text)
    (h' : d.Spells m text') : text = text' := by
  have hsame := Utf8.decode_eq_ok_iff.mpr (h.trans h'.symm)
  rw [Utf8.decode_eq_ok_iff.mpr rfl] at hsame
  exact (Except.ok.inj hsame).symm

/-- **What stands in the memory is read** as what it stands for. -/
theorem Descriptor.Reads.of_denotes {d : Descriptor} {result : Except BindError Value}
    (h : d.Reads name m ret result) (hdenotes : Denotes count bytes ret v) (hlen : d.len.toNat = count)
    (hholds : m.Holds d.ptr.toNat bytes) : result = .ok v := by
  cases hdenotes with
  | vec items length stored =>
    rw [← stored] at hholds
    cases h with
    | vec =>
      rw [hlen, ← length, Memory.elementsAt_of_holds .littleEndian hholds]
    | noText buffer => rcases buffer with buffer | buffer <;> cases buffer
  | str text length stored =>
    have hspells := spells_of_holds (hlen.trans length.symm) hholds stored
    cases h with
    | str spells => rw [spells.unique hspells]
    | noText _ none => exact absurd hspells (none text)
  | bigDecimal text length stored decimal =>
    have hspells := spells_of_holds (hlen.trans length.symm) hholds stored
    cases h with
    | bigDecimal spells => rw [spells.unique hspells]
    | noText _ none => exact absurd hspells (none text)
    | noDecimal spells other => exact absurd decimal (spells.unique hspells ▸ other)

/-- **A buffer is decoded** as what its bytes stand for, and the memory stays as it is. -/
theorem decodeResult_denotes (style : AccessStyle) (name : String) {b : Books Instance}
    (hdenotes : Denotes count bytes ret v) (hlength : bytes.length = count * ret.elementWidth)
    (hm : b.guest.store.memory.IsGuest)
    {address : UInt32} (hne : address ≠ 0) {top : Nat}
    (hread : Descriptor.read style b.guest.store.memory address = .ok ⟨.ofNat top, .ofNat count, .ofNat count⟩)
    (hholds : b.guest.store.memory.Holds top bytes) :
    ∃ b', decodeResult style name ret [.i32 address] b = (.ok v, b') ∧
      b'.guest.store.memory = b.guest.store.memory := by
  have hbounds := hm.bounds.2
  have hcap : heapCapacity < 2 ^ 32 := by decide
  have hinside := hholds.inside
  have hle : count ≤ count * ret.elementWidth := Nat.le_mul_of_pos_right _ ret.one_le_elementWidth
  have htop : (UInt32.ofNat top).toNat = top := toNat_ofNat_heap (by omega)
  have hcount : (UInt32.ofNat count).toNat = count := toNat_ofNat_heap (by omega)
  have hret : ret.isBuffer = true := by cases hdenotes <;> rfl
  have hadopt := adoptBuffer_eq style name ret.elementWidth hne hread
  rw [if_pos ((Descriptor.fits_iff _).mpr (by rw [hcount]; omega)), if_neg (UInt32.lt_irrefl _)] at hadopt
  obtain ⟨hreads, -⟩ := decodeResult_reads hret hadopt rfl (b.memory_followed _ _ _) (by omega)
  obtain ⟨result, hdecode, hresult⟩ := hreads (.inl (by
    dsimp only
    rw [htop, hcount, ← hlength]
    exact hinside))
  have hvalue := hresult.of_denotes hdenotes hcount (by dsimp only; rwa [htop])
  rw [hvalue] at hdecode
  exact ⟨_, hdecode, b.memory_followed _ _ _⟩

end

namespace Plan

variable {d : Draft} {m : GuestModule} {heap live : UInt32} {b : Books Instance} {p : Plan}
  {f : ExportedFunction} {arguments : List Argument} {count : List Argument → Nat}

/-- The export of a call returns a buffer of known bytes, where the arguments were copied behind a heap that
ends at `top`. -/
def Presents (p : Plan) (m : GuestModule) (f : ExportedFunction) (top : Nat) (arguments : List Argument)
    (memory : Memory) (count : Nat) (bytes : List UInt8) : Prop :=
  ∀ supplied live, supplied = p.supplied arguments top memory → supplied.IsGuest →
    top + p.extent arguments ≤ supplied.size →
    Wasm.Presents supplied (top + p.extent arguments) live count p.signature.ret.elementWidth bytes
      (m.program.invoke Wasm.depthLimit f.index ((p.raw top arguments).reverse.map .ofCore)
        (Wasm.guestStore supplied (.ofNat (top + p.extent arguments)) live))

/-- A call without room for its result runs out of memory, and touches no argument. -/
theorem call_overflows (hd : d.Loads m) (h : b.AtRest m heap live) (hp : p.Makes m count) (style : AccessStyle)
    (hcheck : p.check arguments = .ok ())
    (hfull : heapCapacity < p.dataStop count heap.toNat arguments + 16) : ∃ result b',
      p.call style arguments b = (result, arguments, b') ∧ OutOfMemory result := by
  obtain ⟨result, arguments', b', b₁, -, hcall, -, hfits, hkept⟩ :=
    call_performs hd h (.makes hp) style hcheck
  rw [peak_makes hcheck] at hfits
  have hout := hfits.mpr hfull
  rw [hkept hout] at hcall
  exact ⟨result, b₁, hcall, hout⟩

/-- **A call whose export returns a buffer** answers what the bytes of the buffer stand for, if there is room
for everything. Then all that has changed in the memory is what the arguments, the buffer and its descriptor
were put into. Without room, the call runs out of memory. -/
theorem call_presents (hd : d.Loads m) (h : b.AtRest m heap live) (hp : p.Makes m count) (style : AccessStyle)
    (hfind : m.find? p.exportName = some f) (hshape : f.shape = p.signature.shape)
    (hcheck : p.check arguments = .ok ()) {bytes : List UInt8} {v : Value}
    (hdenotes : Denotes (count arguments) bytes p.signature.ret v)
    (hpresents : p.Presents m f heap.toNat arguments b.guest.store.memory (count arguments) bytes)
    {answer : Except BindError Value} {arguments' : List Argument}
    (hanswer : p.answer arguments (.ok v) = (answer, arguments')) :
    (p.dataStop count heap.toNat arguments + 16 ≤ heapCapacity → ∃ b', p.call style arguments b =
      (answer, arguments', b') ∧ b'.guest.store.memory =
        (p.supplied arguments heap.toNat b.guest.store.memory).presented (heap.toNat + p.extent arguments)
          bytes (count arguments)) ∧
    (heapCapacity < p.dataStop count heap.toNat arguments + 16 → ∃ result b',
      p.call style arguments b = (result, arguments, b') ∧ OutOfMemory result) := by
  refine ⟨fun hroom => ?_, call_overflows hd h hp style hcheck⟩
  have hdata : heap.toNat + p.extent arguments ≤ heapCapacity := by
    unfold dataStop at hroom
    omega
  obtain ⟨hguest, hinside⟩ : (p.supplied arguments heap.toNat b.guest.store.memory).IsGuest ∧
      heap.toNat + p.extent arguments ≤ (p.supplied arguments heap.toNat b.guest.store.memory).size :=
    Memory.guest_filled h.memory h.inside hdata
  obtain ⟨live', hreturns⟩ := call_returns hd h (.makes hp) style hfind hshape hcheck hdata
  obtain ⟨hlength, hmade, -, hmemory⟩ := hpresents _ live' rfl hguest hinside
  have hfits : heap.toNat + p.extent arguments + blockSize bytes.length + 16 ≤ heapCapacity := by
    rw [hlength]
    exact hroom
  have hmemory := hmemory hfits
  generalize hreply : m.program.invoke Wasm.depthLimit f.index
    ((p.raw heap.toNat arguments).reverse.map .ofCore)
    (Wasm.guestStore (p.supplied arguments heap.toNat b.guest.store.memory)
      (.ofNat (heap.toNat + p.extent arguments)) live') = reply at hmade hmemory
  rw [hlength] at hfits
  cases hmade with
  | full hfull => omega
  | stuck hstop hdata hfull => omega
  | @made memory' stop hstop hfits' halike hread =>
    obtain ⟨b₂, hstore, hcalled⟩ := hreturns hreply
    rw [Wasm.Reply.store_results, Wasm.memory_guestStore] at hmemory
    have hmemory₂ : b₂.guest.store.memory = memory' := by rw [hstore, Wasm.memory_guestStore]
    have hguest' := halike.isGuest (hguest.grown (Memory.grown_reach hguest hfits'))
    have habove := h.above
    have hne : UInt32.ofNat stop ≠ 0 := ofNat_heap_ne_zero (by omega) (by omega)
    obtain ⟨b₃, hdecode, hmemory₃⟩ := decodeResult_denotes style p.exportName (b := b₂) hdenotes hlength
      (by rwa [hmemory₂]) hne (by rw [hmemory₂]; exact hread style) (by
        rw [hmemory₂, hmemory]
        exact Memory.holds_presented hguest (by rw [hlength]; exact hroom))
    obtain ⟨b₁, hcall, hmemory₁⟩ := hcalled hdecode
      ((congrArg (p.answer · (.ok v)) (left_apart hp.apart)).trans hanswer)
    exact ⟨b₁, hcall, by rw [hmemory₁, hmemory₃, hmemory₂, hmemory]⟩

/-! ### Below the heap -/

/-- The arguments are copied to where the heap ended. -/
theorem byteAt_supplied {memory : Memory} (hm : memory.IsGuest) {top : Nat}
    (hroom : top + p.extent arguments ≤ heapCapacity) {i : Nat} (hi : i < top) :
    (p.supplied arguments top memory).byteAt i = memory.byteAt i :=
  (Memory.byteAt_filled hm hroom).2 i fun _ _ _ _ => .inl (Nat.lt_add_right _ hi)

/-- A call without room for its arguments writes some of them, and nothing below the heap. -/
theorem call_unpassed_below (hd : d.Loads m) (h : b.AtRest m heap live) (style : AccessStyle)
    (hcheck : p.check arguments = .ok ()) (hfull : heapCapacity < heap.toNat + p.extent arguments)
    {i : Nat} (hi : i < heap.toNat) :
    (p.call style arguments b).2.2.guest.store.memory.byteAt i = b.guest.store.memory.byteAt i := by
  have hpass := passArguments_on style p.exportName (h.on hd) (fits_of_check hcheck).2
  unfold extent at hfull
  rw [if_neg (Nat.not_le.mpr hfull)] at hpass
  obtain ⟨n, fault, k, b', hpass, hon, hfilled⟩ := hpass
  have hperform : p.perform style arguments b = (.error (.allocation n fault), arguments, b') := by
    unfold perform
    rw [hpass]
  obtain ⟨b₁, hcall, -, -, hmemory⟩ := call_on style hcheck hperform hon
  rw [hcall, hmemory, hfilled]
  exact (Memory.byteAt_filled h.memory hon.le_capacity.1).2 i fun _ _ _ _ => .inl (Nat.lt_add_right _ hi)

/-- **A call leaves alone what lies below the heap** if the export returns a buffer of known bytes, and it does
so with or without room for them. -/
theorem call_below (hd : d.Loads m) (h : b.AtRest m heap live) (hp : p.Makes m count) (style : AccessStyle)
    (hfind : m.find? p.exportName = some f) (hshape : f.shape = p.signature.shape)
    (hcheck : p.check arguments = .ok ()) {bytes : List UInt8} {v : Value}
    (hdenotes : Denotes (count arguments) bytes p.signature.ret v)
    (hpresents : p.Presents m f heap.toNat arguments b.guest.store.memory (count arguments) bytes)
    {i : Nat} (hi : i < heap.toNat) :
    (p.call style arguments b).2.2.guest.store.memory.byteAt i = b.guest.store.memory.byteAt i := by
  by_cases hdata : heap.toNat + p.extent arguments ≤ heapCapacity
  swap
  · exact call_unpassed_below hd h style hcheck (Nat.lt_of_not_le hdata) hi
  obtain ⟨hguest, hinside⟩ : (p.supplied arguments heap.toNat b.guest.store.memory).IsGuest ∧
      heap.toNat + p.extent arguments ≤ (p.supplied arguments heap.toNat b.guest.store.memory).size :=
    Memory.guest_filled h.memory h.inside hdata
  have hsupplied := byteAt_supplied h.memory hdata hi
  have hlow : i < heap.toNat + p.extent arguments := Nat.lt_add_right _ hi
  by_cases hroom : p.dataStop count heap.toNat arguments + 16 ≤ heapCapacity
  · obtain ⟨b', hcall, hmemory⟩ :=
      (call_presents hd h hp style hfind hshape hcheck hdenotes hpresents rfl).1 hroom
    rw [hcall, hmemory, Memory.byteAt_presented hguest ?_ (.inl hlow) (.inl (Nat.lt_add_right _ hlow)),
      hsupplied]
    rw [(hpresents _ 0 rfl hguest hinside).length]
    exact hroom
  · -- the export runs, and returns that there was no room
    obtain ⟨live', hreturns⟩ := call_returns hd h (.makes hp) style hfind hshape hcheck hdata
    obtain ⟨-, hmade, hbelow, -⟩ := hpresents _ live' rfl hguest hinside
    have hnull : ∀ {s : Wasm.Store}, m.program.invoke Wasm.depthLimit f.index
        ((p.raw heap.toNat arguments).reverse.map .ofCore) (Wasm.guestStore
          (p.supplied arguments heap.toNat b.guest.store.memory)
          (.ofNat (heap.toNat + p.extent arguments)) live') = .results [.i32 0] s →
        (p.call style arguments b).2.2.guest.store.memory = s.memory := fun hinvoke => by
      obtain ⟨b₂, hstore, hcalled⟩ := hreturns hinvoke
      obtain ⟨b₁, hcall, hmemory⟩ := hcalled (decodeResult_null style p.exportName hp.buffer b₂) rfl
      rw [hcall, hmemory, hstore]
    generalize hreply : m.program.invoke Wasm.depthLimit f.index _ _ = reply at hmade hbelow hnull
    rw [← hsupplied, ← hbelow i hlow]
    cases hmade with
    | full hfull => rw [hnull rfl, Wasm.Reply.store_results]
    | stuck hstop hdata hfull => rw [hnull rfl, Wasm.Reply.store_results]
    | made hstop hfits =>
      unfold dataStop at hroom
      omega

end Plan

end GuestCall
