/-
# Arrays of the caller

A call writes into an array of the caller all at once or not at all. As long as the export has not returned,
no array is touched. Once it has, every array of an in-place parameter holds what stood in its buffer at that
moment, and of the other arrays only the one that takes the result of a legacy call can have changed, into
the whole result.

Key definitions: `Plan.Stops`, and `Plan.Leaves`.
Key theorems: `Plan.call_stops`, `Plan.Returns.leaves`, `arrays_stay_whole`.
-/
import GuestCall.Proofs.Call.Service

namespace GuestCall

open Ledger GuestCall.Action

/-- An array is read back in its length. -/
theorem ScalarArray.length_readBack (style : AccessStyle) (memory : Memory) (start : Nat)
    (a : ScalarArray) : (a.readBack style memory start).length = a.length := by
  unfold readBack ofElements length Memory.elementsAt
  dsimp only
  rw [List.length_map, List.length_map, List.length_range]

namespace Plan

variable {p : Plan} {style : AccessStyle} {arguments : List Argument} {b : Books Instance}

/-! ### Calls that stop -/

/-- A call that ends in an error before its export has returned. -/
inductive Stops (p : Plan) (style : AccessStyle) (arguments : List Argument) (b : Books Instance)
    (e : BindError) : Prop
  /-- The arguments are refused. -/
  | refused (check : p.check arguments = .error e)
  /-- An argument cannot be passed. -/
  | unpassed {b' : Books Instance} (check : p.check arguments = .ok ())
    (step : passArguments style p.exportName (p.signature.params.zip arguments) b = (.error e, b'))
  /-- The export does not return. -/
  | trapped {passed : List Passed} {b₁ b' : Books Instance} (check : p.check arguments = .ok ())
    (passes : passArguments style p.exportName (p.signature.params.zip arguments) b = (.ok passed, b₁))
    (step : onGuest (Instance.call p.exportName (passed.flatMap (·.raw))) b₁ = (.error e, b'))

/-- **A call that stops touches no argument**, and its error is the one that stopped it. -/
theorem call_stops {e : BindError} (h : p.Stops style arguments b e) :
    ∃ b', p.call style arguments b = (.error e, arguments, b') := by
  have hperformed : ∀ b' : Books Instance, p.check arguments = .ok () →
      p.perform style arguments b = (.error e, arguments, b') →
      ∃ b', p.call style arguments b = (.error e, arguments, b') := fun b' hcheck hperform => by
    obtain ⟨result, hcall, herror, -⟩ := call_of_perform hcheck hperform
    rw [herror e rfl] at hcall
    exact ⟨_, hcall⟩
  cases h with
  | refused check => exact ⟨b, p.call_refused style b check⟩
  | @unpassed b' check step =>
    refine hperformed b' check ?_
    unfold perform
    rw [step]
  | @trapped _ _ b' check passes step =>
    refine hperformed b' check ?_
    unfold perform
    rw [passes]
    dsimp only
    unfold finish
    rw [step]

/-! ### Calls whose export returns -/

/-- What becomes of the arguments of a call once its export has returned and left some memory. The arrays of
in-place parameters hold what stands in their buffers then; the other arguments that parameters take are
left alone; and so is whatever else there is, but for an array that takes a decoded result. -/
structure Leaves (p : Plan) (style : AccessStyle) (passed : List Passed) (raw : List CoreValue)
    (memory : Memory) (arguments arguments' : List Argument) : Prop where
  length : arguments'.length = arguments.length
  copied : ∀ (i : Nat) (kind : ScalarKind), p.signature.params[i]? = some (.sliceMut kind) →
    ∃ items items' q x, arguments[i]? = some (.inPlace items) ∧ items.kind = kind ∧
      passed[i]? = some q ∧ q.handle? = some x ∧ q.raw.head? = some (.i32 x.ptr) ∧
      x.stop ≤ memory.size ∧ x.len.toNat = items.byteLength ∧ arguments'[i]? = some (.inPlace items') ∧
      items' = items.readBack style memory x.ptr.toNat ∧ items'.kind = kind ∧
      items'.length = items.length
  kept : ∀ (i : Nat) (param : ParamKind), p.signature.params[i]? = some param →
    param.isInPlace = false → arguments'[i]? = arguments[i]?
  output : ∀ i : Nat, p.signature.params.length ≤ i → arguments'[i]? = arguments[i]? ∨
    p.signature.isLegacy = true ∧ i = p.signature.params.length ∧ ∃ output items b₃ b₄,
      arguments[i]? = some (.inPlace output) ∧ items.kind = output.kind ∧
      b₃.guest.store.memory = memory ∧
      decodeResult style p.exportName p.signature.ret raw b₃ = (.ok (.array items), b₄) ∧
      arguments'[i]? = some (.inPlace items)

/-- Only an array fits an in-place parameter. -/
theorem inPlace_of_fits {kind : ScalarKind} {a : Argument} (h : a.mismatch? (.sliceMut kind) = none) :
    ∃ items, a = .inPlace items ∧ items.kind = kind := by
  cases a with
  | byValue v => cases h
  | inPlace items =>
    obtain ⟨_, harray, hkind⟩ := arrayMismatch?_eq_none (a := .inPlace items) h
    cases harray
    exact ⟨items, rfl, hkind⟩

theorem afterwards_of_not_inPlace (style : AccessStyle) (memory : Memory) {param : ParamKind}
    (h : param.isInPlace = false) (q : Passed) (a : Argument) :
    a.afterwards style memory param q = a := by
  cases param with
  | sliceMut => cases h
  | scalar | slice | vec | str => rfl

variable {passed : List Passed} {raw : List CoreValue} {b₂ b₃ b' : Books Instance}

/-- **The arguments after an export returned** are all as they should be, each by itself. -/
theorem Back.leaves (hcheck : p.check arguments = .ok ())
    (h : p.Back style arguments b passed raw b₂ b₃) :
    p.Leaves style passed raw b₂.guest.store.memory arguments
      (p.returned style b₂.guest.store.memory passed arguments) := by
  obtain ⟨harity, hfits⟩ := fits_of_check hcheck
  have hargument : ∀ i param, p.signature.params[i]? = some param → ∃ (a : Argument) (q : Passed),
      arguments[i]? = some a ∧ a.mismatch? param = none ∧ passed[i]? = some q ∧
      q.Covers param a b₂ ∧ (p.returned style b₂.guest.store.memory passed arguments)[i]? =
        some (a.afterwards style b₂.guest.store.memory param q) := fun i param hparam => by
    have hi : i < arguments.length := by
      have hlt := (List.getElem?_eq_some_iff.mp hparam).1
      rw [harity]
      unfold Signature.hostArity
      omega
    have ha := List.getElem?_eq_getElem hi
    have hpair : (p.signature.params.zip arguments)[i]? = some (param, arguments[i]) :=
      List.getElem?_zip_eq_some.mpr ⟨hparam, ha⟩
    obtain ⟨q, hq, hcovers⟩ := forall₂_getElem? h.returns.covers hpair
    refine ⟨arguments[i], q, ha, hfits _ (List.mem_of_getElem? hpair), hq, hcovers, ?_⟩
    exact getElem?_broughtBack style _ (List.getElem?_zip_eq_some.mpr ⟨hparam, hq⟩) ha
  refine ⟨length_broughtBack .., fun i kind hparam => ?_, fun i param hparam hplace => ?_,
    fun i hi => .inl ?_⟩
  · obtain ⟨a, q, ha, hchecked, hq, hcovers, hafter⟩ := hargument i _ hparam
    obtain ⟨items, rfl, hkind⟩ := inPlace_of_fits hchecked
    obtain ⟨x, hx, hheld, hlen, hptr⟩ := hcovers.buffer rfl
    refine ⟨items, _, q, x, ha, hkind, hq, hx, hptr, hheld.inside, hlen, ?_, rfl, hkind,
      items.length_readBack _ _ _⟩
    rw [hafter]
    obtain ⟨values, handle?⟩ := q
    obtain rfl : handle? = some x := hx
    rfl
  · obtain ⟨a, q, ha, -, -, -, hafter⟩ := hargument i _ hparam
    rw [hafter, ha, afterwards_of_not_inPlace style _ hplace]
  · refine getElem?_broughtBack_of_le style _ ?_
    rw [List.length_zip]
    exact Nat.le_trans (Nat.min_le_left _ _) hi

/-- Putting a decoded result into the last argument changes no other one. -/
theorem Leaves.delivered {memory : Memory} {arguments' : List Argument}
    (h : p.Leaves style passed raw memory arguments arguments') (hlegacy : p.signature.isLegacy = true)
    (harity : arguments.length = p.signature.params.length + 1) {output items : ScalarArray}
    (hlast : arguments[p.signature.params.length]? = some (.inPlace output))
    (hkind : items.kind = output.kind) (hmemory : b₃.guest.store.memory = memory)
    (hdecode : decodeResult style p.exportName p.signature.ret raw b₃ = (.ok (.array items), b')) :
    p.Leaves style passed raw memory arguments
      (arguments'.set p.signature.params.length (.inPlace items)) := by
  have hothers : ∀ i, i ≠ p.signature.params.length →
      (arguments'.set p.signature.params.length (.inPlace items))[i]? = arguments'[i]? :=
    fun i hi => List.getElem?_set_ne hi.symm
  have hbefore : ∀ i (param : ParamKind), p.signature.params[i]? = some param →
      i ≠ p.signature.params.length := fun i param hparam =>
    Nat.ne_of_lt (List.getElem?_eq_some_iff.mp hparam).1
  refine ⟨?_, fun i kind hparam => ?_, fun i param hparam hplace => ?_, fun i hi => ?_⟩
  · rw [List.length_set, h.length]
  · rw [hothers i (hbefore i _ hparam)]
    exact h.copied i kind hparam
  · rw [hothers i (hbefore i _ hparam)]
    exact h.kept i param hparam hplace
  · by_cases heq : i = p.signature.params.length
    · obtain rfl := heq
      refine .inr ⟨hlegacy, rfl, output, items, b₃, b', hlast, hkind, hmemory, hdecode, ?_⟩
      exact List.getElem?_set_self (by rw [h.length, harity]; exact Nat.lt_succ_self _)
    · rw [hothers i heq]
      exact h.output i hi

end Plan

/-- **Arrays are written all at once or not at all, and no other array is touched.** Whatever guest is
bound, however the binding was used before, and whatever the arguments of the call are: if the call stops
before the export returned, all arguments are what they were, and otherwise they are what the export left
of them. A call that succeeds is one whose export has returned. -/
theorem arrays_stay_whole {m : GuestModule} {d : Binding} (hd : d.Serves m) {name : String}
    {arguments arguments' : List Argument} {result : Except BindError Value} {d' : Binding}
    (hcall : d.call name arguments = (result, arguments', d')) :
    (∀ p e, d.plan? name = some p → p.Stops d.style arguments d.books e →
      result = .error e ∧ arguments' = arguments) ∧
    (arguments' = arguments ∧ (∃ e, result = .error e ∧ (d.plan? name = none ∨
        ∃ p, d.plan? name = some p ∧ p.Stops d.style arguments d.books e)) ∨
      ∃ p passed raw b₂, d.plan? name = some p ∧ p.check arguments = .ok () ∧
        p.Returns d.style arguments d.books passed raw b₂ ∧
        p.Leaves d.style passed raw b₂.guest.store.memory arguments arguments') := by
  have hplanned : ∀ p, d.plan? name = some p → ∃ b', p.call d.style arguments d.books =
      (result, arguments', b') := fun p hp => by
    rw [Binding.call_eq hp] at hcall
    obtain ⟨hresult, harguments, -⟩ : _ ∧ _ ∧ _ := by
      simpa only [Prod.mk.injEq] using hcall
    exact ⟨_, by rw [← hresult, ← harguments]⟩
  refine ⟨fun p e hp hstops => ?_, ?_⟩
  · obtain ⟨b', hb'⟩ := hplanned p hp
    obtain ⟨b'', hb''⟩ := Plan.call_stops hstops
    rw [hb''] at hb'
    cases hb'
    exact ⟨rfl, rfl⟩
  rcases hp : d.plan? name with _ | p
  · rw [Binding.call_unplanned hp] at hcall
    cases hcall
    exact .inl ⟨rfl, _, rfl, .inl rfl⟩
  obtain ⟨b₁, hb₁⟩ := hplanned p hp
  have hstopped : ∀ e, p.Stops d.style arguments d.books e → arguments' = arguments ∧
      ∃ e, result = .error e ∧ (some p = none ∨
        ∃ p', some p = some p' ∧ p'.Stops d.style arguments d.books e) := fun e hstops => by
    obtain ⟨b', hb'⟩ := Plan.call_stops hstops
    rw [hb'] at hb₁
    cases hb₁
    exact ⟨rfl, e, rfl, .inr ⟨p, rfl, hstops⟩⟩
  rcases hcheck : p.check arguments with e | u
  · exact .inl (hstopped e (.refused hcheck))
  have hfit := hd.fit
  obtain ⟨f, hf⟩ := hfit.reaches hp
  obtain ⟨_, arguments'', b', hperform, -, hcourse⟩ :=
    Plan.perform_course d.style hfit.resting.ready hf hfit.module hcheck
  obtain ⟨result', hcalled, -⟩ := Plan.call_of_perform hcheck hperform
  rw [hcalled] at hb₁
  cases hb₁
  cases hcourse with
  | unpassed step memory => exact .inl (hstopped _ (.unpassed hcheck step))
  | trapped passes step => exact .inl (hstopped _ (.trapped hcheck passes.step step))
  | undecoded back decode fault =>
    exact .inr ⟨p, _, _, _, rfl, hcheck, back.returns, back.leaves hcheck⟩
  | given standard back decode =>
    exact .inr ⟨p, _, _, _, rfl, hcheck, back.returns, back.leaves hcheck⟩
  | delivered legacy back decode last kind =>
    have harity := (Plan.fits_of_check hcheck).1
    unfold Signature.hostArity at harity
    rw [if_pos legacy] at harity
    exact .inr ⟨p, _, _, _, rfl, hcheck, back.returns,
      (back.leaves hcheck).delivered legacy harity last kind (by rw [back.store]) decode⟩

/-- A call that doubles three bytes where they are, on a guest in service. -/
theorem doubling_stays_whole : ∃ (m : GuestModule) (d : Binding), d.Serves m ∧
    ∃ result arguments' d', d.call "product_in_place" threeBytes = (result, arguments', d') ∧
      (∀ p e, d.plan? "product_in_place" = some p → p.Stops d.style threeBytes d.books e →
        result = .error e ∧ arguments' = threeBytes) ∧
      (arguments' = threeBytes ∧ (∃ e, result = .error e ∧ (d.plan? "product_in_place" = none ∨
          ∃ p, d.plan? "product_in_place" = some p ∧ p.Stops d.style threeBytes d.books e)) ∨
        ∃ p passed raw b₂, d.plan? "product_in_place" = some p ∧ p.check threeBytes = .ok () ∧
          p.Returns d.style threeBytes d.books passed raw b₂ ∧
          p.Leaves d.style passed raw b₂.guest.store.memory threeBytes arguments') := by
  obtain ⟨m, d, p, hd, -, -⟩ := doubling_serves
  exact ⟨m, d, hd, _, _, _, rfl, arrays_stay_whole hd rfl⟩

end GuestCall
