/-
# Two ways to hand over an array

A result that is an array can go to the caller, or into an array that the caller passes as one more argument.
The plan of a call says which, and nothing else about the call depends on it: the additional argument is never
passed to the guest, it shifts none of the places that are copied back, and it is written to only once the
whole result has been decoded. So both calls do the same to the guest, to the ledger and to the other
arguments, and end in the same error if they end in one.

Key definition: `Plan.intoOutput`, a plan with its result going into one more argument.
Key theorems: `copyBackAll_append`, `Plan.perform_intoOutput`, `conventions_agree`.
-/
import GuestCall.Proofs.Call.Arrays
import GuestCall.Proofs.Call.Planning
import GuestCall.Proofs.Call.Styles

namespace GuestCall

open Ledger GuestCall.Action

variable {style : AccessStyle} {b b' : Books Instance}

/-! ### Arguments that no parameter takes -/

/-- They are neither checked nor passed. -/
theorem zip_append_extra {params : List ParamKind} {arguments : List Argument}
    (h : params.length = arguments.length) (extra : List Argument) :
    params.zip (arguments ++ extra) = params.zip arguments := by
  have hzip : (params ++ []).zip (arguments ++ extra) = params.zip arguments ++ [].zip extra :=
    List.zip_append h
  rwa [List.append_nil, List.zip_nil_left, List.append_nil] at hzip

/-- They are not copied back, and all others are copied as they would be without them. -/
theorem copyBackAll_append (extra : List Argument) (pairs : List (ParamKind × Passed))
    (arguments : List Argument) (b : Books Instance) (h : pairs.length ≤ arguments.length) :
    copyBackAll style pairs (arguments ++ extra) b =
      ((copyBackAll style pairs arguments b).1, (copyBackAll style pairs arguments b).2.1 ++ extra,
        (copyBackAll style pairs arguments b).2.2) := by
  fun_induction copyBackAll style pairs arguments b with
  | case1 kind raw x rest items arguments b e items' b' hcopy =>
    rw [List.cons_append, copyBackAll, hcopy]
    rfl
  | case2 kind raw x rest items arguments b u items' b' hcopy result arguments' b'' hrest ih =>
    rw [List.cons_append, copyBackAll, hcopy]
    dsimp only
    rw [ih (Nat.le_of_succ_le_succ h), hrest]
    rfl
  | case3 pair rest a arguments b other result arguments' b' hrest ih =>
    rw [List.cons_append, copyBackAll, ih (Nat.le_of_succ_le_succ h), hrest]
    · rfl
    · exact other
  | case4 pairs arguments b _ other =>
    -- with no more arguments than parameters left, there are no parameters left
    cases pairs with
    | nil => simp [copyBackAll]
    | cons pair rest =>
      cases arguments with
      | nil => exact absurd h (Nat.not_succ_le_zero _)
      | cons a arguments => exact absurd rfl (other pair rest a arguments rfl)

/-- A result of its kind replaces the last one. -/
theorem deliver_append (name : String) {output items : ScalarArray} (h : items.kind = output.kind)
    (arguments : List Argument) :
    deliver name (.array items) (arguments ++ [.inPlace output]) =
      (.ok .unit, arguments ++ [.inPlace items]) := by
  have hlength : (arguments ++ [Argument.inPlace output]).length = arguments.length + 1 :=
    List.length_append
  have hlast : (arguments ++ [Argument.inPlace output])[arguments.length]? = some (.inPlace output) :=
    List.getElem?_concat_length
  rw [deliver_last name h hlength hlast, List.set_append_right _ _ (Nat.le_refl _), Nat.sub_self]
  rfl

/-! ### Results that are arrays -/

/-- A decoded array has the kind of the result, whatever the guest returned. -/
theorem decodeResult_vec {name : String} {kind : ScalarKind} {raw : List CoreValue} {v : Value}
    (h : decodeResult style name (.vec kind) raw b = (.ok v, b')) :
    ∃ items, v = .array items ∧ items.kind = kind := by
  obtain ⟨first, b₁, -, hdecode⟩ := of_bind_ok h
  obtain ⟨items, b₂, htake, hreturn⟩ := of_bind_ok hdecode
  obtain ⟨buffer, b₃, -, hlook⟩ := of_bind_ok htake
  cases hreturn
  refine ⟨items, rfl, ?_⟩
  unfold lookAt at hlook
  dsimp only at hlook
  split at hlook <;> cases hlook
  rfl

namespace Plan

/-- The same plan, with its result going into one more argument. -/
def intoOutput (p : Plan) : Plan :=
  { p with signature := { p.signature with convention := .legacyOutParam } }

variable {p : Plan} {kind : ScalarKind} {arguments : List Argument} {output : ScalarArray}

@[simp] theorem exportName_intoOutput : p.intoOutput.exportName = p.exportName := rfl

@[simp] theorem name_intoOutput : p.intoOutput.signature.name = p.signature.name := rfl

@[simp] theorem params_intoOutput : p.intoOutput.signature.params = p.signature.params := rfl

@[simp] theorem ret_intoOutput : p.intoOutput.signature.ret = p.signature.ret := rfl

@[simp] theorem convention_intoOutput : p.intoOutput.signature.convention = .legacyOutParam := rfl

/-- An export that has a plan with an array as its result has the other plan, too. -/
theorem make_intoOutput (hret : p.signature.ret = .vec kind) {shape : ExportShape}
    (h : make p.exportName p.signature p.source shape = .ok p) :
    make p.exportName p.intoOutput.signature p.source shape = .ok p.intoOutput := by
  obtain ⟨-, hshape, hcheck⟩ := make_eq_ok h
  refine make_of_check ?_ hshape
  have hfault : p.intoOutput.signature.fault? = none := by
    unfold Signature.fault?
    rw [name_intoOutput, if_neg (name_of_check hcheck), convention_intoOutput, ret_intoOutput, hret]
  unfold Signature.check
  rw [hfault]

theorem arity_of_check (hlegacy : p.signature.isLegacy = false) (hcheck : p.check arguments = .ok ()) :
    p.signature.params.length = arguments.length := by
  rw [(fits_of_check hcheck).1, Signature.hostArity, hlegacy]
  rfl

/-- The arguments of the one plan with an array of the right kind are arguments of the other. -/
theorem check_intoOutput (hlegacy : p.signature.isLegacy = false)
    (hret : p.signature.ret = .vec kind) (hcheck : p.check arguments = .ok ())
    (hkind : output.kind = kind) :
    p.intoOutput.check (arguments ++ [.inPlace output]) = .ok () := by
  have harity := arity_of_check hlegacy hcheck
  have hlength : (arguments ++ [Argument.inPlace output]).length = p.intoOutput.signature.hostArity := by
    rw [List.length_append, ← harity]
    rfl
  refine check_eq_ok.mpr ⟨hlength, ?_, fun _ => ⟨output, ?_, ?_⟩⟩
  · rw [params_intoOutput, zip_append_extra harity]
    exact (fits_of_check hcheck).2
  · rw [ret_intoOutput, hret, hkind]
  · rw [params_intoOutput, harity]
    exact List.getElem?_concat_length

/-- How a call ends that hands its result over to the caller, and how the same call ends if the result goes
into an array. -/
inductive HandsOver (output : ScalarArray) :
    Except BindError Value → Except BindError Value → ScalarArray → Prop
  | array (items : ScalarArray) : HandsOver output (.ok (.array items)) (.ok .unit) items
  | error (e : BindError) : HandsOver output (.error e) (.error e) output

/-- What follows on the arguments goes the same way in both calls. -/
theorem finish_intoOutput (hlegacy : p.signature.isLegacy = false) (hret : p.signature.ret = .vec kind)
    (harity : p.signature.params.length = arguments.length) (hkind : output.kind = kind)
    (passed : List Passed) {result : Except BindError Value} {arguments' : List Argument}
    (hfinish : p.finish style passed arguments b = (result, arguments', b')) :
    ∃ result' output', HandsOver output result result' output' ∧
      p.intoOutput.finish style passed (arguments ++ [.inPlace output]) b =
        (result', arguments' ++ [.inPlace output'], b') := by
  have hpairs : (p.signature.params.zip passed).length ≤ arguments.length := by
    rw [List.length_zip, ← harity]
    exact Nat.min_le_left _ _
  unfold finish at hfinish ⊢
  rw [hlegacy, hret] at hfinish
  rw [exportName_intoOutput, params_intoOutput, ret_intoOutput, hret]
  rcases hcall : onGuest (Instance.call p.exportName (passed.flatMap (·.raw))) b with ⟨e | raw, b₁⟩ <;>
    rw [hcall] at hfinish ⊢
  · cases hfinish
    exact ⟨_, _, .error e, rfl⟩
  dsimp only at hfinish ⊢
  rw [copyBackAll_append _ _ _ _ hpairs]
  rcases hcopy : copyBackAll style (p.signature.params.zip passed) arguments b₁ with
    ⟨e | u, copied, b₂⟩ <;> rw [hcopy] at hfinish
  · cases hfinish
    exact ⟨_, _, .error e, rfl⟩
  dsimp only at hfinish ⊢
  rcases hdecode : decodeResult style p.exportName (.vec kind) raw b₂ with ⟨e | v, b₃⟩ <;>
    rw [hdecode] at hfinish
  · cases hfinish
    exact ⟨_, _, .error e, rfl⟩
  obtain ⟨items, rfl, hitems⟩ := decodeResult_vec hdecode
  cases hfinish
  refine ⟨_, _, .array items, ?_⟩
  dsimp only
  rw [deliver_append p.exportName (hitems.trans hkind.symm)]
  rfl

/-- **Performing both calls** does the same to everything but the array for the result. -/
theorem perform_intoOutput (hlegacy : p.signature.isLegacy = false)
    (hret : p.signature.ret = .vec kind) (harity : p.signature.params.length = arguments.length)
    (hkind : output.kind = kind) {result : Except BindError Value} {arguments' : List Argument}
    (hperform : p.perform style arguments b = (result, arguments', b')) :
    ∃ result' output', HandsOver output result result' output' ∧
      p.intoOutput.perform style (arguments ++ [.inPlace output]) b =
        (result', arguments' ++ [.inPlace output'], b') := by
  unfold perform at hperform ⊢
  rw [exportName_intoOutput, params_intoOutput, zip_append_extra harity]
  rcases hpass : passArguments style p.exportName (p.signature.params.zip arguments) b with
    ⟨e | passed, b₁⟩ <;> rw [hpass] at hperform
  · cases hperform
    exact ⟨_, _, .error e, rfl⟩
  · exact finish_intoOutput hlegacy hret harity hkind passed hperform

end Plan

/-- **Handing a result over and putting it into an array are the same call.** Take a plan whose result is an
array that goes to the caller, from whatever books, with arguments that it accepts, and add an array of the
kind of the result for the plan that puts it there. Both calls leave the same guest and ledger, and the same
other arguments. Where the one returns an array, the other puts that array into the one that was added. Where
passing the arguments, the export or decoding the result fails, both end in that error, and the added array is
what it was; if only a buffer cannot be given back, it holds the result already. -/
theorem conventions_agree {p : Plan} {kind : ScalarKind} (hstandard : p.signature.convention = .standard)
    (hret : p.signature.ret = .vec kind) {arguments : List Argument} (hcheck : p.check arguments = .ok ())
    {output : ScalarArray} (hkind : output.kind = kind) {style : AccessStyle} {b b' : Books Instance}
    {result : Except BindError Value} {arguments' : List Argument}
    (hcall : p.call style arguments b = (result, arguments', b')) :
    (∀ shape, Plan.make p.exportName p.signature p.source shape = .ok p →
      Plan.make p.exportName p.intoOutput.signature p.source shape = .ok p.intoOutput) ∧
    p.intoOutput.check (arguments ++ [.inPlace output]) = .ok () ∧
    ∃ result' output', p.intoOutput.call style (arguments ++ [.inPlace output]) b =
        (result', arguments' ++ [.inPlace output'], b') ∧
      ((∃ items, result = .ok (.array items) ∧ result' = .ok .unit ∧ output' = items) ∨
        (∃ e, result = .error e ∧ result' = .error e ∧ (p.perform style arguments b).1 = .error e ∧
          output' = output) ∨
        ∃ e items, result = .error e ∧ result' = .error e ∧
          (p.perform style arguments b).1 = .ok (.array items) ∧ output' = items) := by
  have hlegacy : p.signature.isLegacy = false := by
    unfold Signature.isLegacy
    rw [hstandard]
    rfl
  have hcheck' := Plan.check_intoOutput hlegacy hret hcheck hkind
  refine ⟨fun shape => Plan.make_intoOutput hret, hcheck', ?_⟩
  rcases hperform : p.perform style arguments b with ⟨performed, performedArguments, b₁⟩
  obtain ⟨performed', output', hover, hperform'⟩ :=
    Plan.perform_intoOutput hlegacy hret (Plan.arity_of_check hlegacy hcheck) hkind hperform
  unfold Plan.call at hcall ⊢
  rw [hcheck] at hcall
  rw [hcheck']
  dsimp only at hcall ⊢
  rw [hperform] at hcall
  rw [hperform']
  dsimp only at hcall ⊢
  -- the buffers of both calls are given back the same way, and an error there counts only if there is no other
  rcases hrelease : releaseAll b₁ with ⟨released, b₂⟩
  rw [hrelease] at hcall
  cases hover with
  | error e =>
    cases hcall
    exact ⟨_, _, rfl, .inr (.inl ⟨e, rfl, rfl, rfl, rfl⟩)⟩
  | array =>
    cases released with
    | error e =>
      cases hcall
      exact ⟨_, _, rfl, .inr (.inr ⟨e, _, rfl, rfl, rfl, rfl⟩)⟩
    | ok u =>
      cases hcall
      exact ⟨_, _, rfl, .inl ⟨_, rfl, rfl, rfl⟩⟩

/-- Three bytes that a call takes by value. -/
def givenBytes : List Argument := [.byValue (.array (.ofElements .u8 [1, 2, 3]))]

/-- Calls of a sample guest that doubles bytes into a fresh array, with an array of one byte to put it in. -/
theorem doubled_bytes_agree : ∃ (d : Binding) (p : Plan), d.plan? "product_new" = some p ∧
    p.signature.convention = .standard ∧ p.signature.ret = .vec .u8 ∧ p.check givenBytes = .ok () ∧
    ∃ result arguments' b', p.call d.style givenBytes d.books = (result, arguments', b') ∧
      (∀ shape, Plan.make p.exportName p.signature p.source shape = .ok p →
        Plan.make p.exportName p.intoOutput.signature p.source shape = .ok p.intoOutput) ∧
      p.intoOutput.check (givenBytes ++ [.inPlace (.ofElements .u8 [9])]) = .ok () ∧
      ∃ result' output',
        p.intoOutput.call d.style (givenBytes ++ [.inPlace (.ofElements .u8 [9])]) d.books =
          (result', arguments' ++ [.inPlace output'], b') ∧
        ((∃ items, result = .ok (.array items) ∧ result' = .ok .unit ∧ output' = items) ∨
          (∃ e, result = .error e ∧ result' = .error e ∧
            (p.perform d.style givenBytes d.books).1 = .error e ∧ output' = .ofElements .u8 [9]) ∨
          ∃ e items, result = .error e ∧ result' = .error e ∧
            (p.perform d.style givenBytes d.books).1 = .ok (.array items) ∧ output' = items) := by
  obtain ⟨m, d, p, -, -, -, -, -, hp, hsignature⟩ := Sample.exists_serving (s := .sums) nofun
    (e := Sample.Sums.exports[2]) (List.getElem_mem _)
  have hstandard : p.signature.convention = .standard := by
    rw [hsignature]
    rfl
  have hret : p.signature.ret = .vec .u8 := by
    rw [hsignature]
    rfl
  have hcheck : p.check givenBytes = .ok () := by
    unfold Plan.check
    rw [hsignature]
    rfl
  exact ⟨d, p, hp, hstandard, hret, hcheck, _, _, _, rfl, conventions_agree hstandard hret hcheck rfl rfl⟩

end GuestCall
