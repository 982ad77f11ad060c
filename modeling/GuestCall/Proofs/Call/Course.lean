/-
# The course of a call

Whatever guest is called, and whatever it does, a call whose arguments were checked takes one of a few
courses. The arguments are passed as just the machine values that the export takes, or there is no memory
for them; the export returns as many values as the plan expects, of the right types, or it traps; arrays are
copied back whole; and then the result is decoded, which fails only for what the guest put there.

Key definitions: `ScalarArray.readBack` and `broughtBack`, `DecodeFault`, `Plan.Reaches`, and `Plan.Course`.
Key theorems: `copyBackAll_covered`, `call_reaches`, `decodeResult_yields`, `Plan.perform_course`.
-/
import GuestCall.Proofs.Call.Steps

namespace GuestCall

open Ledger GuestCall.Action

variable {b : Books Instance}

/-! ### Copying back -/

/-- The array with the elements that stand in the memory from an address on. -/
def ScalarArray.readBack (style : AccessStyle) (memory : Memory) (start : Nat) (a : ScalarArray) :
    ScalarArray :=
  .ofElements a.kind (memory.elementsAt style a.kind a.length start)

/-- An argument after the export returned: an array of an in-place parameter is read back. -/
def Argument.afterwards (style : AccessStyle) (memory : Memory) :
    ParamKind → Passed → Argument → Argument
  | .sliceMut _, ⟨_, some x⟩, .inPlace items => .inPlace (items.readBack style memory x.ptr.toNat)
  | _, _, a => a

/-- All arguments after the export returned. -/
def broughtBack (style : AccessStyle) (memory : Memory) :
    List (ParamKind × Passed) → List Argument → List Argument
  | (param, q) :: rest, a :: arguments =>
    a.afterwards style memory param q :: broughtBack style memory rest arguments
  | _, arguments => arguments

/-- An array is copied back whole from a buffer of its size. -/
theorem copyBack_held (h : b.Ready) (style : AccessStyle) {x : Handle} (hx : x.Held b)
    {target : ScalarArray} (hlen : x.len.toNat = target.byteLength) :
    ∃ b', copyBack style x target b =
        (.ok (), target.readBack style b.guest.store.memory x.ptr.toNat, b') ∧
      b.Later b' ∧ b'.guest.store = b.guest.store := by
  obtain ⟨y, b', hrefresh, hlater, -, hptr, -, hstore⟩ := refresh_held hx
  have hinside : x.ptr.toNat + target.length * target.kind.width ≤ b.guest.store.memory.size := by
    have hstop : x.ptr.toNat + x.len.toNat ≤ b.guest.store.memory.size := hx.inside
    rwa [hlen] at hstop
  have hlength : (b.guest.store.memory.elementsAt style target.kind target.length
      x.ptr.toNat).length = target.length := by
    unfold Memory.elementsAt
    rw [List.length_map, List.length_range]
  refine ⟨b', ?_, hlater, hstore⟩
  unfold copyBack
  rw [hrefresh]
  dsimp only
  rw [hstore, hptr, Memory.readElements_eq_ok style h.linear.size_le hinside]
  dsimp only
  rw [target.overwrite_all hlength]
  rfl

/-- **Copying back works**: every in-place parameter has a buffer, which lies in the memory still. -/
theorem copyBackAll_covered (style : AccessStyle) : ∀ {params : List ParamKind}
    {arguments : List Argument} {passed : List Passed} {b : Books Instance}, b.Ready →
    List.Forall₂ (fun pair q => q.Covers pair.1 pair.2 b) (params.zip arguments) passed →
    ∃ b', copyBackAll style (params.zip passed) arguments b =
        (.ok (), broughtBack style b.guest.store.memory (params.zip passed) arguments, b') ∧
      b.Later b' ∧ b'.guest.store = b.guest.store
  | [], arguments, _, b, _, _ => by
    rw [List.zip_nil_left, copyBackAll, broughtBack]
    · exact ⟨b, rfl, .refl b, rfl⟩
    all_goals simp
  | _ :: _, [], _, b, _, .nil => ⟨b, rfl, .refl b, rfl⟩
  | param :: params, a :: arguments, q :: passed, b, h, .cons hq hcovers => by
    -- the rest is copied back from a memory that is the same
    have hrest : ∀ b₁ : Books Instance, b.Later b₁ → b₁.guest.store = b.guest.store →
        ∃ b', copyBackAll style (params.zip passed) arguments b₁ =
            (.ok (), broughtBack style b.guest.store.memory (params.zip passed) arguments, b') ∧
          b.Later b' ∧ b'.guest.store = b.guest.store := fun b₁ later hstore => by
      obtain ⟨b', hcopy, later', hstore'⟩ := copyBackAll_covered style (h.later later)
        (hcovers.imp fun _ _ hq => hq.later later)
      rw [hstore] at hcopy
      exact ⟨b', hcopy, later.trans later', hstore'.trans hstore⟩
    rw [List.zip_cons_cons, broughtBack]
    by_cases hslot : param.isInPlace = true ∧ ∃ items, a = .inPlace items
    · obtain ⟨hparam, items, rfl⟩ := hslot
      cases param with
      | sliceMut kind =>
        obtain ⟨x, hx, hheld, hlen, -⟩ := hq.buffer rfl
        obtain ⟨raw, handle?⟩ := q
        obtain rfl : handle? = some x := hx
        obtain ⟨b₁, hcopy, later, hstore⟩ := copyBack_held h style hheld hlen
        obtain ⟨b', hall, later', hstore'⟩ := hrest b₁ later hstore
        refine ⟨b', ?_, later', hstore'⟩
        rw [copyBackAll, hcopy]
        dsimp only
        rw [hall]
        rfl
      | scalar | slice | vec | str => cases hparam
    · obtain ⟨b', hall, later', hstore'⟩ := hrest b (.refl b) rfl
      refine ⟨b', ?_, later', hstore'⟩
      have hkept : a.afterwards style b.guest.store.memory param q = a := by
        unfold Argument.afterwards
        split
        · exact absurd ⟨rfl, _, rfl⟩ hslot
        · rfl
      rw [copyBackAll, hall, hkept]
      rintro _ _ _ _ hparam rfl
      cases hparam
      exact hslot ⟨rfl, _, rfl⟩

/-! ### Running the export -/

/-- The export that a plan reaches: the one it names, of the shape that its signature lowers to, with a
function of that shape behind it. -/
structure Plan.Reaches (m : GuestModule) (p : Plan) (f : ExportedFunction) : Prop where
  found : m.find? p.exportName = some f
  shape : f.shape = p.signature.shape
  typed : ∀ g, m.program.functions[f.index]? = some g → ExportShape.ofType? g.type = some f.shape

/-- Values of numeric types are numbers of these types. -/
theorem types_core : ∀ {values : List Wasm.Val} {cores : List CoreType},
    List.Forall₂ (fun t c => t.core? = some c) (values.map Wasm.Val.type) cores →
    (values.filterMap Wasm.Val.core?).map CoreValue.type = cores
  | [], [], _ => rfl
  | v :: values, core :: cores, .cons hv hrest => by
    have hvalue : ∃ c, v.core? = some c ∧ c.type = core := by
      cases v with
      | null => cases hv
      | i32 | i64 | f32 | f64 =>
        cases hv
        exact ⟨_, rfl, rfl⟩
    obtain ⟨c, hc, htype⟩ := hvalue
    rw [List.filterMap_cons_some hc, List.map_cons, htype, types_core hrest]

/-- What a function returns to the host has the types of its shape. -/
theorem types_results {type : Wasm.FuncType} {shape : ExportShape}
    (hshape : ExportShape.ofType? type = some shape) {stack : List Wasm.Val}
    (hstack : stack.map Wasm.Val.type = type.results.reverse) :
    (stack.reverse.filterMap Wasm.Val.core?).map CoreValue.type = shape.results := by
  unfold ExportShape.ofType? at hshape
  split at hshape
  · rename_i hresults
    cases hshape
    have htypes := forall₂_of_mapM hresults
    rw [← List.reverse_reverse type.results, ← hstack, ← List.map_reverse] at htypes
    exact types_core htypes
  · cases hshape

/-- **The export runs**: it is there, it takes the values, and it returns what the plan expects, or traps. -/
theorem call_reaches {m : GuestModule} {p : Plan} {f : ExportedFunction} (hp : p.Reaches m f)
    (hm : b.guest.module = m) {raw : List CoreValue}
    (htypes : raw.map CoreValue.type = p.signature.coreParams) :
    (onGuest (Instance.call p.exportName raw)).Yields
      (fun e => ∃ cause, e = .trap p.exportName raw (.machine cause)) b fun values _ =>
        values.map CoreValue.type = p.signature.coreResults := by
  obtain ⟨l, ⟨module, store, pageLimit, epoch, observed⟩⟩ := b
  obtain rfl : module = m := hm
  have hfits : f.shape.mismatch? raw = none := by
    rw [hp.shape]
    exact mismatch?_of_types htypes
  have hcall : Instance.call p.exportName raw ⟨module, store, pageLimit, epoch, observed⟩ =
      Instance.run p.exportName f.index raw ⟨module, store, pageLimit, epoch, observed⟩ :=
    Instance.call_eq_run ⟨rfl, rfl⟩ hp.found hfits
  have hlater := Instance.later_run p.exportName f.index raw ⟨module, store, pageLimit, epoch, observed⟩
  rcases hinvoke : module.program.invoke Wasm.depthLimit f.index (raw.reverse.map .ofCore) store with
    ⟨stack, s⟩ | ⟨cause, s⟩
  · obtain ⟨guest', hrun, -⟩ := Instance.run_results p.exportName raw
      (i := ⟨module, store, pageLimit, epoch, observed⟩) ⟨rfl, rfl⟩ hinvoke
    rw [hrun] at hlater
    obtain ⟨g, hg, hstack⟩ := Wasm.types_of_invoke hinvoke
    refine .ok (onGuest_eq (hcall.trans hrun)) (Books.later_guest hlater) ?_
    rw [types_results (hp.typed g hg) hstack, hp.shape]
    rfl
  · have hrun : Instance.run p.exportName f.index raw ⟨module, store, pageLimit, epoch, observed⟩ =
        (.error (.trap p.exportName raw (.machine cause)),
          Instance.observe ⟨module, s, pageLimit, epoch, observed⟩) := by
      simp only [Instance.run, hinvoke]
    rw [hrun] at hlater
    exact .failed (onGuest_eq (hcall.trans hrun)) (Books.later_guest hlater) ⟨cause, rfl⟩

/-! ### Decoding the result -/

/-- Why a result of the right machine types cannot be decoded. A scalar fails only if its kind is narrow,
and a buffer for what the guest says of it or put into it. -/
inductive DecodeFault (name : String) : ReturnKind → BindError → Prop
  | range {kind : ScalarKind} {v : Int} (narrow : kind ∈ [.u8, .i8, .u16, .i16])
    (outside : Scalar.ofInt? kind v = none) :
    DecodeFault name (.scalar kind) (.encoding name (.outOfRange v kind))
  | null {ret : ReturnKind} (buffer : ret.isBuffer = true) :
    DecodeFault name ret (.allocation 0 (.nullDescriptor name))
  | bounds {ret : ReturnKind} {e : BindError} (buffer : ret.isBuffer = true)
    (outside : e.kind = .outOfBounds) : DecodeFault name ret e
  | capacity {ret : ReturnKind} {cap : UInt32} (buffer : ret.isBuffer = true)
    (exceeds : 0xFFFFFFFF < cap.toNat * ret.elementWidth) :
    DecodeFault name ret (.encoding name (.capacityOverflow cap))
  | length {ret : ReturnKind} {len cap : UInt32} (buffer : ret.isBuffer = true) (exceeds : cap < len) :
    DecodeFault name ret (.encoding name (.lengthExceedsCapacity len cap))
  | utf8 {ret : ReturnKind} {fault : Utf8.Fault} (text : ret = .str ∨ ret = .bigDecimal) :
    DecodeFault name ret (.encoding name (.utf8 fault))
  | decimal {text : String} (other : isDecimal text.toList = false) :
    DecodeFault name .bigDecimal (.encoding name (.noDecimal text))

theorem lookAt_yields {α : Type} {F : BindError → Prop} {f : Memory → Except BindError α}
    (h : ∀ memory e, f memory = .error e → F e) : (lookAt f).Yields F b fun _ _ => True := by
  rcases hf : f b.guest.store.memory with e | a
  · exact .failed (congrArg (·, b) hf) (.refl b) (h _ e hf)
  · exact .ok (congrArg (·, b) hf) (.refl b) trivial

theorem Descriptor.read_error {style : AccessStyle} {memory : Memory} {address : UInt32} {e : BindError}
    (h : Descriptor.read style memory address = .error e) : e.kind = .outOfBounds := by
  have hread : ∀ offset e, memory.readElement style offset .u32 = .error e → e.kind = .outOfBounds := by
    intro offset e he
    unfold Memory.readElement at he
    split at he
    · cases he
    · rename_i hrange
      cases he
      exact Memory.range_error hrange
  unfold read at h
  split at h
  · rename_i hptr
    cases h
    exact hread _ _ hptr
  split at h
  · rename_i hlen
    cases h
    exact hread _ _ hlen
  split at h
  · rename_i hcap
    cases h
    exact hread _ _ hcap
  · cases h

/-- Following a descriptor, whatever address the guest returned. -/
theorem adoptBuffer_yields (h : b.Ready) (style : AccessStyle) (name : String) {ret : ReturnKind}
    (hret : ret.isBuffer = true) (word : UInt32) :
    (adoptBuffer style name ret.elementWidth (.i32 word)).Yields (DecodeFault name ret) b
      fun _ _ => True := by
  have haddress : (ofExcept (descriptorAddress name (.i32 word))).Yields (DecodeFault name ret) b
      fun _ _ => True := by
    refine yields_ofExcept (fun _ _ => trivial) fun e he => ?_
    by_cases hword : word = 0
    · rw [hword] at he
      cases he
      exact .null hret
    · rw [descriptorAddress_of_ne hword] at he
      cases he
  refine haddress.bind fun address b₁ later₁ _ => ?_
  refine (lookAt_yields fun memory e he => .bounds hret (Descriptor.read_error he)).bind
    fun d b₂ later₂ _ => ?_
  dsimp only
  by_cases hroom : 0xFFFFFFFF < d.cap.toNat * ret.elementWidth
  · rw [if_pos hroom]
    exact yields_fail (.capacity hret hroom)
  rw [if_neg hroom]
  have hready := (h.later later₁).later later₂
  refine (adopt_yields hready _ _).bind fun data b₃ later₃ _ => ?_
  refine (adopt_yields (hready.later later₃) _ _).bind fun _ b₄ _ _ => ?_
  by_cases hlen : d.cap < d.len
  · rw [if_pos hlen]
    exact yields_fail (.length hret hlen)
  · rw [if_neg hlen]
    exact yields_return trivial

theorem takeElements_yields (h : b.Ready) (style : AccessStyle) (name : String) (kind : ScalarKind)
    (word : UInt32) : (takeElements style name kind (.i32 word)).Yields (DecodeFault name (.vec kind)) b
      fun items _ => items.kind = kind := by
  have hbuffer : (ReturnKind.vec kind).isBuffer = true := rfl
  refine (adoptBuffer_yields h style name hbuffer word).bind fun d b₁ _ _ => ?_
  rcases hread : b₁.guest.store.memory.readElements style kind d.2.toNat d.1.ptr with ⟨items, e?⟩
  cases e? with
  | none =>
    refine .ok ?_ (.refl b₁) (rfl : (ScalarArray.ofElements kind items).kind = kind)
    unfold lookAt
    dsimp only
    rw [hread]
  | some e =>
    refine .failed ?_ (.refl b₁) (.bounds rfl (Memory.readElementsFrom_error hread))
    unfold lookAt
    dsimp only
    rw [hread]

theorem takeText_yields (h : b.Ready) (style : AccessStyle) (name : String) {ret : ReturnKind}
    (hret : ret = .str ∨ ret = .bigDecimal) (word : UInt32) :
    (takeText style name (.i32 word)).Yields (DecodeFault name ret) b fun _ _ => True := by
  have hbuffer : ret.isBuffer = true ∧ ret.elementWidth = 1 := by
    rcases hret with rfl | rfl <;> exact ⟨rfl, rfl⟩
  have hadopt := adoptBuffer_yields h style name hbuffer.1 word
  rw [hbuffer.2] at hadopt
  refine hadopt.bind fun d b₁ _ _ => ?_
  refine (lookAt_yields fun memory e he => .bounds hbuffer.1 (Memory.readBytes_error he)).bind
    fun bytes b₂ _ _ => ?_
  rcases Utf8.decode bytes with fault | text
  · exact yields_fail (.utf8 hret)
  · exact yields_return trivial

theorem lift_yields (name : String) {kind : ScalarKind} {v : CoreValue} (htype : v.type = kind.coreType) :
    (ofExcept (Scalar.lift name kind v)).Yields (DecodeFault name (.scalar kind)) b fun _ _ => True := by
  refine yields_ofExcept (fun _ _ => trivial) fun e he => ?_
  have hnarrow : ∀ word, kind ∈ [.u8, .i8, .u16, .i16] → Scalar.narrow name kind word = .error e →
      DecodeFault name (.scalar kind) e := fun word hkind hword => by
    unfold Scalar.narrow at hword
    split at hword
    · cases hword
    · rename_i houtside
      cases hword
      exact .range hkind houtside
  cases kind with
  | u8 | i8 | u16 | i16 =>
    cases v with
    | i32 word => exact hnarrow word (by decide) he
    | i64 | f32 | f64 => cases htype
  | bool | u32 | i32 =>
    cases v with
    | i32 word => cases he
    | i64 | f32 | f64 => cases htype
  | i64 =>
    cases v with
    | i64 word => cases he
    | i32 | f32 | f64 => cases htype
  | f32 =>
    cases v with
    | f32 word => cases he
    | i32 | i64 | f64 => cases htype
  | f64 =>
    cases v with
    | f64 word => cases he
    | i32 | i64 | f32 => cases htype

/-- Values of one type are one value of that type. -/
theorem eq_singleton_of_types {raw : List CoreValue} {type : CoreType}
    (h : raw.map CoreValue.type = [type]) : ∃ v, raw = [v] ∧ v.type = type := by
  obtain ⟨v, rfl, hv⟩ := List.map_eq_singleton_iff.mp h
  exact ⟨v, rfl, hv⟩

/-- **Decoding results of the right types** works, or fails for what the guest put there. -/
theorem decodeResult_yields (h : b.Ready) (style : AccessStyle) (name : String) {ret : ReturnKind}
    {raw : List CoreValue} (htypes : raw.map CoreValue.type = ret.coreTypes) :
    (decodeResult style name ret raw).Yields (DecodeFault name ret) b fun v _ =>
      ∀ kind, ret = .vec kind → ∃ items, v = .array items ∧ items.kind = kind := by
  have hfirst : ∀ v ret', (ofExcept (firstResult name ret' [v])).Yields (DecodeFault name ret) b
      fun first _ => first = v := fun v _ => yields_ofExcept (fun a ha => by cases ha; rfl)
        fun e he => by cases he
  have hword : ret.coreTypes = [.i32] → ∃ word, raw = [.i32 word] := fun hret => by
    obtain ⟨v, rfl, hv⟩ := eq_singleton_of_types (htypes.trans hret)
    cases v with
    | i32 word => exact ⟨word, rfl⟩
    | i64 | f32 | f64 => cases hv
  cases ret with
  | unit => exact yields_return fun _ hret => (nomatch hret)
  | scalar kind =>
    obtain ⟨v, rfl, hv⟩ := eq_singleton_of_types htypes
    refine (hfirst v _).bind fun first b₁ later₁ hv' => ?_
    rw [hv']
    refine (lift_yields name hv).bind fun s b₂ _ _ => ?_
    exact yields_return fun _ hret => (nomatch hret)
  | vec kind =>
    obtain ⟨word, rfl⟩ := hword rfl
    refine (hfirst _ _).bind fun first b₁ later₁ hv' => ?_
    rw [hv']
    refine (takeElements_yields (h.later later₁) style name kind word).bind fun items b₂ _ hitems => ?_
    refine yields_return fun kind' hret => ?_
    cases hret
    exact ⟨items, rfl, hitems⟩
  | str =>
    obtain ⟨word, rfl⟩ := hword rfl
    refine (hfirst _ _).bind fun first b₁ later₁ hv' => ?_
    rw [hv']
    refine (takeText_yields (h.later later₁) style name (.inl rfl) word).bind fun text b₂ _ _ => ?_
    exact yields_return fun _ hret => (nomatch hret)
  | bigDecimal =>
    obtain ⟨word, rfl⟩ := hword rfl
    refine (hfirst _ _).bind fun first b₁ later₁ hv' => ?_
    rw [hv']
    refine (takeText_yields (h.later later₁) style name (.inr rfl) word).bind fun text b₂ _ _ => ?_
    by_cases hdecimal : isDecimal text.toList = true
    · rw [if_pos hdecimal]
      exact yields_return fun _ hret => (nomatch hret)
    · rw [if_neg hdecimal]
      exact yields_fail (.decimal (Bool.eq_false_iff.mpr hdecimal))

/-! ### The whole course -/

namespace Plan

variable {p : Plan} {arguments : List Argument} {style : AccessStyle}

/-- The arguments of a call were passed: as machine values of the types that the export takes. -/
structure Passes (p : Plan) (style : AccessStyle) (arguments : List Argument) (b : Books Instance)
    (passed : List Passed) (b₁ : Books Instance) : Prop where
  step : passArguments style p.exportName (p.signature.params.zip arguments) b = (.ok passed, b₁)
  types : (passed.flatMap (·.raw)).map CoreValue.type = p.signature.coreParams

/-- The export returned, as many values as the plan expects and of their types. Whatever buffers the
arguments have are still covered then. -/
structure Returns (p : Plan) (style : AccessStyle) (arguments : List Argument) (b : Books Instance)
    (passed : List Passed) (raw : List CoreValue) (b₂ : Books Instance) : Prop where
  step : ∃ b₁, p.Passes style arguments b passed b₁ ∧
    onGuest (Instance.call p.exportName (passed.flatMap (·.raw))) b₁ = (.ok raw, b₂)
  types : raw.map CoreValue.type = p.signature.coreResults
  covers : List.Forall₂ (fun pair q => q.Covers pair.1 pair.2 b₂) (p.signature.params.zip arguments)
    passed

/-- The arguments after an export returned and left some memory. -/
def returned (p : Plan) (style : AccessStyle) (memory : Memory) (passed : List Passed)
    (arguments : List Argument) : List Argument :=
  broughtBack style memory (p.signature.params.zip passed) arguments

/-- The arrays were copied back after the export returned, out of the memory that it left. -/
structure Back (p : Plan) (style : AccessStyle) (arguments : List Argument) (b : Books Instance)
    (passed : List Passed) (raw : List CoreValue) (b₂ b₃ : Books Instance) : Prop where
  returns : p.Returns style arguments b passed raw b₂
  step : copyBackAll style (p.signature.params.zip passed) arguments b₂ =
    (.ok (), p.returned style b₂.guest.store.memory passed arguments, b₃)
  store : b₃.guest.store = b₂.guest.store

/-- The courses of a call with checked arguments: its result, the arguments, and the books at its end. -/
inductive Course (p : Plan) (style : AccessStyle) (arguments : List Argument) (b : Books Instance) :
    Except BindError Value → List Argument → Books Instance → Prop
  /-- There is no memory for an argument. -/
  | unpassed {e : BindError} {b' : Books Instance}
    (step : passArguments style p.exportName (p.signature.params.zip arguments) b = (.error e, b'))
    (memory : e.kind = .allocation) : Course p style arguments b (.error e) arguments b'
  /-- The export traps. -/
  | trapped {passed : List Passed} {cause : Wasm.Trap} {b₁ b' : Books Instance}
    (passes : p.Passes style arguments b passed b₁)
    (step : onGuest (Instance.call p.exportName (passed.flatMap (·.raw))) b₁ =
      (.error (.trap p.exportName (passed.flatMap (·.raw)) (.machine cause)), b')) :
    Course p style arguments b (.error (.trap p.exportName (passed.flatMap (·.raw)) (.machine cause)))
      arguments b'
  /-- The export returns, arrays are copied back, and the result cannot be decoded. -/
  | undecoded {passed : List Passed} {raw : List CoreValue} {e : BindError} {b₂ b₃ b' : Books Instance}
    (back : p.Back style arguments b passed raw b₂ b₃)
    (decode : decodeResult style p.exportName p.signature.ret raw b₃ = (.error e, b'))
    (fault : DecodeFault p.exportName p.signature.ret e) :
    Course p style arguments b (.error e) (p.returned style b₂.guest.store.memory passed arguments) b'
  /-- The result goes to the caller. -/
  | given {passed : List Passed} {raw : List CoreValue} {v : Value} {b₂ b₃ b' : Books Instance}
    (standard : p.signature.isLegacy = false) (back : p.Back style arguments b passed raw b₂ b₃)
    (decode : decodeResult style p.exportName p.signature.ret raw b₃ = (.ok v, b')) :
    Course p style arguments b (.ok v) (p.returned style b₂.guest.store.memory passed arguments) b'
  /-- The result goes into the last argument. -/
  | delivered {passed : List Passed} {raw : List CoreValue} {output items : ScalarArray}
    {b₂ b₃ b' : Books Instance}
    (legacy : p.signature.isLegacy = true) (back : p.Back style arguments b passed raw b₂ b₃)
    (decode : decodeResult style p.exportName p.signature.ret raw b₃ = (.ok (.array items), b'))
    (last : arguments[p.signature.params.length]? = some (.inPlace output))
    (kind : items.kind = output.kind) :
    Course p style arguments b (.ok .unit)
      ((p.returned style b₂.guest.store.memory passed arguments).set p.signature.params.length
        (.inPlace items)) b'

end Plan

theorem length_broughtBack (style : AccessStyle) (memory : Memory) :
    ∀ (pairs : List (ParamKind × Passed)) (arguments : List Argument),
      (broughtBack style memory pairs arguments).length = arguments.length
  | [], _ => by rw [broughtBack]; simp
  | _ :: _, [] => rfl
  | _ :: pairs, _ :: arguments => by
    rw [broughtBack, List.length_cons, length_broughtBack style memory pairs arguments, List.length_cons]

/-- The arguments that no parameter takes are left alone. -/
theorem getElem?_broughtBack_of_le (style : AccessStyle) (memory : Memory) :
    ∀ {pairs : List (ParamKind × Passed)} {arguments : List Argument} {i : Nat}, pairs.length ≤ i →
      (broughtBack style memory pairs arguments)[i]? = arguments[i]?
  | [], _, _, _ => by rw [broughtBack]; simp
  | _ :: _, [], _, _ => rfl
  | _ :: pairs, _ :: arguments, i + 1, hi => by
    rw [broughtBack, List.getElem?_cons_succ, List.getElem?_cons_succ]
    exact getElem?_broughtBack_of_le style memory (Nat.le_of_succ_le_succ hi)

/-- The other ones become what they are afterwards, each by itself. -/
theorem getElem?_broughtBack (style : AccessStyle) (memory : Memory) {pairs : List (ParamKind × Passed)}
    {param : ParamKind} {q : Passed} {a : Argument} : ∀ {arguments : List Argument} {i : Nat},
      pairs[i]? = some (param, q) → arguments[i]? = some a →
      (broughtBack style memory pairs arguments)[i]? = some (a.afterwards style memory param q) := by
  induction pairs with
  | nil =>
    intro _ _ hpair
    cases hpair
  | cons pair rest ih =>
    intro arguments i hpair ha
    cases arguments with
    | nil => cases ha
    | cons a' arguments =>
      cases i with
      | zero =>
        cases hpair
        cases ha
        rfl
      | succ i => exact ih hpair ha

theorem ScalarArray.assign_of_kind {a other : ScalarArray} (h : other.kind = a.kind) :
    a.assign other = .ok other := by
  obtain ⟨kind, items, _⟩ := other
  obtain ⟨kind', items', _⟩ := a
  obtain rfl : kind = kind' := h
  unfold assign
  rw [dif_pos rfl]

/-- A result of the kind of the last argument replaces it. -/
theorem deliver_last (name : String) {output items : ScalarArray} (hkind : items.kind = output.kind)
    {arguments : List Argument} : ∀ {n : Nat}, arguments.length = n + 1 →
      arguments[n]? = some (.inPlace output) →
      deliver name (.array items) arguments = (.ok .unit, arguments.set n (.inPlace items)) := by
  induction arguments with
  | nil =>
    intro _ hlen
    cases hlen
  | cons a rest ih =>
    intro n hlen ha
    cases rest with
    | nil =>
      obtain rfl : n = 0 := (Nat.succ.inj hlen).symm
      cases ha
      unfold deliver
      dsimp only
      rw [ScalarArray.assign_of_kind hkind]
      rfl
    | cons a' rest =>
      obtain ⟨n, rfl⟩ : ∃ k, n = k + 1 := ⟨rest.length, (Nat.succ.inj hlen).symm⟩
      rw [deliver, ih (Nat.succ.inj hlen) ha, List.set_cons_succ]

namespace Plan

variable {p : Plan} {arguments : List Argument}

/-- The last argument of a checked legacy call is an array of the kind of the result. -/
theorem output_of_check (hcheck : p.check arguments = .ok ()) (hlegacy : p.signature.isLegacy = true) :
    ∃ kind output, p.signature.ret = .vec kind ∧
      arguments[p.signature.params.length]? = some (.inPlace output) ∧ output.kind = kind := by
  obtain ⟨-, -, houtput⟩ := check_eq_ok.mp hcheck
  obtain ⟨output, hret, hlast⟩ := houtput hlegacy
  exact ⟨_, output, hret, hlast, rfl⟩

/-- **The course of a call.** A call with checked arguments takes one of its courses, from wherever a call
can start. -/
theorem perform_course (style : AccessStyle) {m : GuestModule} {f : ExportedFunction}
    (h : b.Ready) (hp : p.Reaches m f) (hm : b.guest.module = m)
    (hcheck : p.check arguments = .ok ()) :
    ∃ result arguments' b', p.perform style arguments b = (result, arguments', b') ∧ b.Later b' ∧
      p.Course style arguments b result arguments' b' := by
  obtain ⟨harity, hfits⟩ := fits_of_check hcheck
  unfold perform
  rcases passArguments_yields style p.exportName h hfits with
    ⟨hpass, later₁, hcovers₁⟩ | ⟨hpass, later₁, hmemory⟩
  swap
  · exact ⟨_, _, _, by rw [hpass], later₁, .unpassed hpass hmemory⟩
  rename_i passed b₁
  have hpasses : p.Passes style arguments b passed b₁ := by
    refine ⟨hpass, ?_⟩
    rw [types_covered hcovers₁, List.map_fst_zip (by rw [harity]; exact Nat.le_add_right _ _)]
    rfl
  rw [hpass]
  dsimp only
  unfold finish
  rcases call_reaches hp (later₁.guest.module.trans hm) hpasses.types with
    ⟨hcall, later₂, htypes⟩ | ⟨hcall, later₂, cause, rfl⟩
  swap
  · exact ⟨_, _, _, by rw [hcall], later₁.trans later₂, .trapped hpasses hcall⟩
  rename_i raw b₂
  have hcovers₂ := hcovers₁.imp fun _ _ hq => hq.later later₂
  have hreturns : p.Returns style arguments b passed raw b₂ := ⟨⟨b₁, hpasses, hcall⟩, htypes, hcovers₂⟩
  have hready₂ := (h.later later₁).later later₂
  obtain ⟨b₃, hstep, later₃, hstore⟩ := copyBackAll_covered style hready₂ hcovers₂
  have hback : p.Back style arguments b passed raw b₂ b₃ := ⟨hreturns, hstep, hstore⟩
  rw [hcall]
  dsimp only
  rw [hstep]
  dsimp only
  have hdecoded := decodeResult_yields (hready₂.later later₃) style p.exportName htypes
  rcases hdecoded with
    ⟨hdecode, later₄, harray⟩ | ⟨hdecode, later₄, hfault⟩
  all_goals have hlater := ((later₁.trans later₂).trans later₃).trans later₄
  swap
  · rw [hdecode]
    exact ⟨_, _, _, rfl, hlater, .undecoded hback hdecode hfault⟩
  rename_i v b'
  rw [hdecode]
  dsimp only
  cases hlegacy : p.signature.isLegacy with
  | false => exact ⟨_, _, _, rfl, hlater, .given hlegacy hback hdecode⟩
  | true =>
    obtain ⟨kind, output, hret, hlast, hkind⟩ := output_of_check hcheck hlegacy
    obtain ⟨items, rfl, hitems⟩ := harray kind hret
    have hkinds : items.kind = output.kind := hitems.trans hkind.symm
    have hlength : (broughtBack style b₂.guest.store.memory (p.signature.params.zip passed)
        arguments).length = p.signature.params.length + 1 := by
      rw [length_broughtBack, harity, Signature.hostArity, if_pos hlegacy]
    have hrest : (p.signature.params.zip passed).length ≤ p.signature.params.length := by
      rw [List.length_zip]
      exact Nat.min_le_left _ _
    have hkept := (getElem?_broughtBack_of_le style b₂.guest.store.memory hrest).trans hlast
    rw [if_pos rfl, deliver_last p.exportName hkinds hlength hkept]
    exact ⟨_, _, _, rfl, hlater, .delivered hlegacy hback hdecode hlast hkinds⟩

/-- Giving the buffers back leaves the arguments alone. An error stays the error that it was. -/
theorem call_of_perform (hcheck : p.check arguments = .ok ()) {result : Except BindError Value}
    {arguments' : List Argument} {b' : Books Instance}
    (hperform : p.perform style arguments b = (result, arguments', b')) :
    ∃ result', p.call style arguments b = (result', arguments', (releaseAll b').2) ∧
      (∀ e, result = .error e → result' = .error e) ∧ ∀ v, result' = .ok v → result = .ok v := by
  unfold call
  rw [hcheck]
  dsimp only
  rw [hperform]
  dsimp only
  rcases hrelease : releaseAll b' with ⟨released, b₁⟩
  rcases released with e | u <;> rcases result with e' | v
  · exact ⟨_, rfl, fun _ he => he, fun _ hv => (nomatch hv)⟩
  · exact ⟨_, rfl, fun _ he => (nomatch he), fun _ hv => (nomatch hv)⟩
  · exact ⟨_, rfl, fun _ he => he, fun _ hv => (nomatch hv)⟩
  · exact ⟨_, rfl, fun _ he => (nomatch he), fun _ hv => hv⟩

end Plan

end GuestCall
