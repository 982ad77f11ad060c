/-
# Scalars across the boundary

Nothing is lost of a scalar between a host and a guest. So an export that returns its argument as it is
returns the number that the caller passed, however wide the value was that it came in.

Key definition: `Plan.IsIdentity`.
Key theorems: `Plan.IsIdentity.call_eq`, `scalars_are_kept`.
-/
import GuestCall.Proofs.Call.Answers
import GuestCall.Proofs.Call.Service
import GuestCall.Proofs.Draft.Steps

namespace GuestCall

/-! ### Exports that return their argument -/

/-- Only a signature that returns an array can ask for it to be put into an argument. -/
theorem Signature.standard_of_check {s : Signature} (h : s.check = .ok ()) (hret : ∀ kind, s.ret ≠ .vec kind) :
    s.isLegacy = false := by
  obtain ⟨name, params, ret, convention⟩ := s
  cases convention with
  | standard => rfl
  | legacyOutParam =>
    cases ret with
    | vec kind => exact absurd rfl (hret kind)
    | unit | scalar | str | bigDecimal =>
      unfold check fault? at h
      by_cases hname : name = "" <;> simp [hname] at h

/-- The signature of a plan obeys the rules. -/
theorem Binding.Fit.check_signature {m : GuestModule} {d : Binding} (h : d.Fit m) {name : String} {p : Plan}
    (hp : d.plan? name = some p) : p.signature.check = .ok () := by
  obtain ⟨mark, hplans⟩ := h.planned
  have hmem := List.mem_of_find?_eq_some (Binding.find?_of_plan? hp)
  obtain ⟨f, -, -, hplan⟩ := Plan.plan_export h.sound hplans hmem
  exact (Plan.of_ofExport hplan).2.2.1

/-- The export of a plan takes a scalar and returns it as it is, from whatever store. -/
structure Plan.IsIdentity (p : Plan) (m : GuestModule) (kind : ScalarKind) : Prop where
  params : p.signature.params = [.scalar kind]
  ret : p.signature.ret = .scalar kind
  returns : ∀ f, m.find? p.exportName = some f → ∀ (x : CoreValue) (s : Wasm.Store), x.type = kind.coreType →
    ∃ s', m.program.invoke Wasm.depthLimit f.index [.ofCore x] s = .results [.ofCore x] s'

variable {m : GuestModule} {d : Binding} {p : Plan} {kind : ScalarKind} {name : String} {v : Value} {s : Scalar}

/-- **An export that returns its argument** answers the scalar that the argument stands for. -/
theorem Plan.IsIdentity.call_eq (h : p.IsIdentity m kind) (hd : d.Serves m) (hp : d.plan? name = some p)
    (hv : Scalar.ofValue? kind v = some s) :
    ∃ d', d.call name [.byValue v] = (.ok s.toValue, [.byValue v], d') := by
  obtain ⟨f, hf⟩ := hd.fit.reaches hp
  obtain rfl : s.kind = kind := Scalar.kind_ofValue? hv
  have hstandard : p.signature.isLegacy = false :=
    Signature.standard_of_check (hd.fit.check_signature hp) fun kind hvec => by
      rw [h.ret] at hvec
      cases hvec
  have hcheck : p.check [.byValue v] = .ok () :=
    Plan.check_of_one hstandard h.params (by rw [Argument.mismatch?, hv])
  have hraw : p.raw 0 [.byValue v] = [s.lower] := by
    rw [Plan.raw, h.params, List.zip_cons_cons, List.zip_nil_left, lowerings, lowerings, Argument.lowered, hv]
    rfl
  obtain ⟨store, hinvoke⟩ := h.returns f hf.found s.lower d.books.guest.store s.type_lower
  have hfirst : [Wasm.Val.ofCore s.lower].reverse.filterMap Wasm.Val.core? = [s.lower] := by cases s <;> rfl
  obtain ⟨b', hcall⟩ := Plan.call_scalars hd.fit.resting hd.fit.module d.style hf.found hf.shape hcheck
    (fun param hparam => by
      rw [h.params] at hparam
      exact ⟨_, List.mem_singleton.mp hparam⟩) h.ret (by rw [hraw]; exact hinvoke) hfirst
    (Scalar.lift_lower _ s)
  rw [Binding.call_eq hp, hcall]
  exact ⟨_, rfl⟩

/-- **Nothing is lost of a scalar.** -/
theorem scalars_are_kept (kind : ScalarKind) :
    (∀ s : Scalar, s.lower.type = s.kind.coreType ∧ (∀ name, Scalar.lift name s.kind s.lower = .ok s) ∧
      Scalar.ofValue? s.kind s.toValue = some s) ∧
    (∀ v s, Scalar.ofValue? kind v = some s →
      s.kind = kind ∧ ∃ x, v.datum? = some x ∧ s.toValue.datum? = some x) ∧
    (kind.isInteger = true → ∀ v : Value, (∃ s, Scalar.ofValue? kind v = some s) ↔
      ∃ n low high, v.datum? = some (.integer n) ∧ kind.range? = some (low, high) ∧ low ≤ n ∧ n ≤ high) ∧
    (∀ name raw s, Scalar.lift name kind raw = .ok s →
      if kind = .bool then ∃ w, raw = .i32 w ∧ s.lower = .i32 (if w = 0 then 0 else 1)
      else s.lower = raw) ∧
    (kind.isNarrow = true → ∀ name raw, (∃ s, Scalar.lift name kind raw = .ok s) ↔
      ∃ w low high, raw = .i32 w ∧ kind.range? = some (low, high) ∧
        low ≤ w.toInt32.toInt ∧ w.toInt32.toInt ≤ high) ∧
    ∀ {m : GuestModule} {d : Binding} {name : String} {p : Plan}, d.Serves m → d.plan? name = some p →
      p.IsIdentity m kind → ∀ {v : Value} {s : Scalar}, Scalar.ofValue? kind v = some s →
        ∃ v' d', d.call name [.byValue v] = (.ok v', [.byValue v], d') ∧ v'.datum? = v.datum? := by
  refine ⟨fun s => ⟨s.type_lower, fun name => s.lift_lower name, s.ofValue?_toValue⟩,
    fun v s h => ⟨Scalar.kind_ofValue? h, Scalar.datum_ofValue? h⟩,
    fun hkind v => Scalar.exists_ofValue? hkind, fun name raw s h => Scalar.lower_of_lift h,
    fun hkind name raw => Scalar.exists_lift hkind, ?_⟩
  intro m d name p hd hp hidentity v s hv
  obtain ⟨d', hcall⟩ := hidentity.call_eq hd hp hv
  obtain ⟨x, hv, hs⟩ := Scalar.datum_ofValue? hv
  exact ⟨s.toValue, d', hcall, hs.trans hv.symm⟩

/-- The code of an export that returns its argument. -/
def sameBody : Wasm.Body := .ofCode [] [Code.val 0]

/-- A loaded export with that code returns its argument. -/
theorem Draft.Loads.isIdentity {draft : Draft} (hd : draft.Loads m) {i : Nat} {visibility : Visibility}
    (hf : draft.functions[i]? = some ⟨Draft.typeOf p.signature, visibility, sameBody⟩)
    (hfound : m.find? p.exportName = some ⟨p.exportName, p.signature.shape, i⟩)
    (hparams : p.signature.params = [.scalar kind]) (hret : p.signature.ret = .scalar kind) :
    p.IsIdentity m kind := by
  refine ⟨hparams, hret, fun f hfind x st hx => ⟨st, ?_⟩⟩
  obtain rfl := Option.some.inj (hfound.symm.trans hfind)
  have hcode := hd.code hf rfl
  have hresults : (Draft.typeOf p.signature).results = [.num x.type] := by
    unfold Draft.typeOf Signature.coreResults
    rw [hret, hx]
    rfl
  have htype : (Wasm.Val.ofCore x).type = .num x.type := by cases x <;> rfl
  rw [show Wasm.depthLimit = 999 + 1 from rfl, m.program.invoke_succ hcode 999, hresults, Wasm.runCode_cons,
    Wasm.run_val]
  exact if_pos (congrArg (fun type => [type]) htype)

/-- The signature of such an export for words without a sign. -/
def sameSignature : Signature := ⟨"same", [.scalar .u32], .scalar .u32, .standard⟩

/-- The steps that build a guest with that export. -/
def sameSteps : List Draft.Step := [.tableSection (some metadataSection), .typed sameSignature sameBody]

/-- A guest with that export in service. -/
theorem exists_same : ∃ (m : GuestModule) (d : Binding) (p : Plan),
    d.Serves m ∧ d.plan? "same" = some p ∧ p.IsIdentity m .u32 := by
  have hok : (Draft.empty.after sameSteps).finish.isOk = true := by
    set_option maxRecDepth 100000 in decide +kernel
  rcases hfinish : (Draft.empty.after sameSteps).finish with e | bytes
  · rw [hfinish] at hok
    cases hok
  obtain ⟨m, hm, hd, -, htable⟩ := Draft.loads_after hfinish metadataSection
  have hfunctions : (Draft.empty.after sameSteps).functions =
      Draft.builtins ++ [⟨Draft.typeOf sameSignature, .wrapped "same", sameBody⟩] := rfl
  have honly : ∀ {type name body}, ⟨type, .wrapped name, body⟩ ∈ (Draft.empty.after sameSteps).functions →
      type = Draft.typeOf sameSignature ∧ name = "same" ∧ body = sameBody := by
    intro type name body hf
    rw [hfunctions] at hf
    simpa [Draft.builtins] using hf
  have hdeclared : m.declared? "same" = some sameSignature := by
    unfold GuestModule.declared?
    rw [htable]
    rfl
  obtain ⟨plans, hplans⟩ := hd.planned (fun type name body hf => by
      obtain ⟨rfl, rfl, -⟩ := honly hf
      exact .inl ⟨sameSignature, hdeclared, by decide, rfl⟩) fun table h s hs => by
    rw [htable] at h
    cases h
    obtain rfl := List.mem_singleton.mp hs
    exact ⟨⟨sameBody, hfunctions ▸ List.mem_append_right _ List.mem_cons_self⟩, by decide⟩
  obtain ⟨f, hf, hname, -⟩ := hd.exported (i := 4) rfl (Draft.ofType?_typeOf sameSignature) (by decide)
  obtain ⟨p, hmem, -⟩ := Plan.mem_of_ofModule hplans hf hname
  obtain ⟨i, type, body, hcode, hfound, -, hsignature⟩ := hd.plan hplans hmem
  obtain ⟨rfl, -, rfl⟩ := honly (List.mem_of_getElem? hcode)
  have hsignature : sameSignature = p.signature := by
    rcases hsignature with hsome | ⟨hnone, -⟩
    · exact Option.some.inj (hdeclared.symm.trans hsome)
    · cases hnone.symm.trans hdeclared
  rw [hsignature] at hcode
  have hidentity : p.IsIdentity m .u32 := hd.isIdentity hcode hfound (by rw [← hsignature]; rfl)
    (by rw [← hsignature]; rfl)
  obtain ⟨guest, memory, hguest, hat, -⟩ := hd.instantiates .default
  have hmodule : guest.module = m := hat.module
  have hbound : Binding.ofInstance guest .default =
      .ok ⟨Config.default.accessStyle, plans, ⟨.empty, guest⟩⟩ := by
    unfold Binding.ofInstance
    rw [hmodule, show Config.default.exportMark = wrappedMark from rfl, hplans]
  have hdistinct := Plan.nodup_ofExports hd.image.2 (Plan.ofModule_eq_ok.mp hplans).1
  refine ⟨m, _, p, .bound hm hguest (.refl guest) hbound, ?_, hidentity⟩
  exact congrArg (Option.map (·.2)) (find?_of_nodup hdistinct hmem)

/-- The largest word without a sign comes back as the same number. -/
theorem largest_word_is_kept : ∃ (d : Binding) (v' : Value) (d' : Binding),
    d.call "same" [.byValue (.i64 4294967295)] = (.ok v', [.byValue (.i64 4294967295)], d') ∧
      v'.datum? = some (.integer 4294967295) := by
  obtain ⟨m, d, p, hd, hp, hidentity⟩ := exists_same
  obtain ⟨v', d', hcall, hv'⟩ := (scalars_are_kept .u32).2.2.2.2.2 hd hp hidentity
    (v := .i64 4294967295) (s := .u32 4294967295) (by decide)
  exact ⟨d, v', d', hcall, hv'⟩

end GuestCall
