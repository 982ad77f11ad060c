/-
# What a module lets the host call

The names that a valid program exports are distinct. So although the host keeps them in an order of
its own, it finds under a name just the function that is exported under it, and every plan belongs to
one export, whose type its signature lowers to.

Key definition: `GuestModule.Sound`, what every loaded module is.
Key theorems: `program?_eq`, what makes a program; `sound_of_ofBytes`, `find?_eq_some`, `of_ofExport`,
`names_ofExports`, `ofModule_eq_ok`, `exists_ofModule`, `plan_export`, `nodup_ofExports`.
-/
import GuestCall.Call.Plan
import Mathlib.Data.List.Nodup

namespace GuestCall

theorem eq_ok_of_map {ε α β : Type} {f : α → β} {x : Except ε α} {b : β} (h : x.map f = .ok b) :
    ∃ a, x = .ok a ∧ f a = b := by
  rcases x with e | a
  · cases h
  · exact ⟨a, rfl, Except.ok.inj h⟩

/-- Distinct names find their items. -/
theorem find?_of_nodup {α : Type} {name : α → String} {a : α} : ∀ {items : List α},
    (items.map name).Nodup → a ∈ items → items.find? (name · == name a) = some a
  | [], _, h => nomatch h
  | b :: items, hd, h => by
    rw [List.map_cons, List.nodup_cons] at hd
    rcases List.mem_cons.mp h with rfl | h
    · exact List.find?_cons_of_pos (beq_self_eq_true _)
    · have hne : ¬ (name b == name a) = true := by
        intro he
        exact hd.1 (beq_iff_eq.mp he ▸ List.mem_map_of_mem h)
      rw [List.find?_cons_of_neg (p := fun x => name x == name a) hne]
      exact find?_of_nodup hd.2 h

/-- What is mapped where nothing fails. -/
theorem forall₂_of_mapM {α β : Type} {f : α → Option β} : ∀ {xs : List α} {ys : List β},
    xs.mapM f = some ys → List.Forall₂ (fun x y => f x = some y) xs ys
  | [], ys, h => by
    cases h
    exact .nil
  | x :: xs, ys, h => by
    rw [List.mapM_cons] at h
    obtain ⟨y, hy, h⟩ := Option.bind_eq_some_iff.mp h
    obtain ⟨zs, hzs, h⟩ := Option.bind_eq_some_iff.mp h
    cases h
    exact .cons hy (forall₂_of_mapM hzs)

/-- What is related item by item is related place by place. -/
theorem forall₂_getElem? {α β : Type} {R : α → β → Prop} {xs : List α} {ys : List β}
    (h : List.Forall₂ R xs ys) {i : Nat} {x : α} (hx : xs[i]? = some x) :
    ∃ y, ys[i]? = some y ∧ R x y := by
  induction h generalizing i with
  | nil => cases hx
  | cons hxy _ ih =>
    cases i with
    | zero =>
      cases hx
      exact ⟨_, rfl, hxy⟩
    | succ i => exact ih hx

/-- Keys of the items that are kept are a part of all keys. -/
theorem sublist_filterMap {α β γ : Type} {f : α → Option β} {key : α → γ} {key' : β → γ}
    (h : ∀ a b, f a = some b → key' b = key a) :
    ∀ xs : List α, ((xs.filterMap f).map key').Sublist (xs.map key)
  | [] => .slnil
  | a :: xs => by
    rcases ha : f a with _ | b
    · rw [List.filterMap_cons_none ha]
      exact (sublist_filterMap h xs).cons _
    · rw [List.filterMap_cons_some ha, List.map_cons, List.map_cons, h a b ha]
      exact (sublist_filterMap h xs).cons_cons _

theorem append_unmarked {mark name rest : String} (h : unmarked? mark name = some rest) :
    name = mark ++ rest := by
  unfold unmarked? at h
  split at h
  · rename_i hprefix
    obtain ⟨tail, htail⟩ := List.isPrefixOf_iff_prefix.mp hprefix
    rw [← htail, show mark.length = mark.toList.length from String.length_toList.symm,
      List.drop_left] at h
    cases h
    apply String.toList_injective
    rw [String.toList_append, String.toList_ofList, htail]
  · cases h

theorem append_cancel {mark a b : String} (h : mark ++ a = mark ++ b) : a = b := by
  apply String.toList_injective
  have hlists := congrArg String.toList h
  rw [String.toList_append, String.toList_append] at hlists
  exact List.append_cancel_left hlists

theorem unmarked_append (mark name : String) : unmarked? mark (mark ++ name) = some name := by
  have hprefix : mark.toList.isPrefixOf (mark ++ name).toList = true := by
    rw [String.toList_append]
    exact List.isPrefixOf_iff_prefix.mpr (List.prefix_append ..)
  unfold unmarked?
  rw [if_pos hprefix, String.toList_append, show mark.length = mark.toList.length from
    String.length_toList.symm, List.drop_left, String.ofList_toList]

namespace Wasm.Module

/-- What makes a program. -/
theorem program?_eq {m : Module} {p : Program} (h : m.program? = some p) :
    ∃ imported own functions, m.importedFunctions? = some imported ∧ m.ownFunctions? = some own ∧
      m.outlineIsValid (imported ++ own) = true ∧
      ((own.zip m.bodies).mapM fun (type, body) => m.function? (imported ++ own) type body) =
        some functions ∧
      p = ⟨m.types, m.imports, imported ++ own, functions, m.allMemories.head?, m.globals,
        m.exports, m.start?, m.segments, m.customs⟩ := by
  unfold program? at h
  split at h
  · rename_i imported own himported hown
    by_cases hv : m.outlineIsValid (imported ++ own) = true
    · rw [if_pos hv] at h
      split at h
      · rename_i functions hfunctions
        exact ⟨imported, own, functions, himported, hown, hv, hfunctions, (Option.some.inj h).symm⟩
      · cases h
    · rw [if_neg hv] at h
      cases h
  · cases h

/-- What makes a function of a program. -/
theorem function?_eq {m : Module} {functions : List FuncType} {type : FuncType} {body : Body}
    {g : Function} (h : m.function? functions type body = some g) :
    g.type = type ∧
      g.locals = body.locals.flatMap (fun group => List.replicate group.1 group.2) ∧
      Op.structure? body.ops = some g.code := by
  unfold function? at h
  split at h
  · split at h
    · rename_i code hcode
      dsimp only at h
      split at h
      · cases h
        exact ⟨rfl, rfl, hcode⟩
      · cases h
    · cases h
  · cases h

/-- What a valid outline says of exports, bodies and memories. -/
theorem of_outlineIsValid {m : Module} {functions : List FuncType}
    (h : m.outlineIsValid functions = true) :
    (m.exports.map (·.name)).Nodup ∧ m.functions.length = m.bodies.length ∧
      ∀ limits ∈ m.allMemories, limitsAreValid limits = true := by
  simp only [outlineIsValid, Bool.and_eq_true, decide_eq_true_eq, beq_iff_eq] at h
  exact ⟨h.1.1.1.2, h.2, List.all_eq_true.mp h.1.1.1.1.1.1.2⟩

end Wasm.Module

/-- Only a function that is exported has the type of a function. -/
theorem Wasm.Program.functionType?_eq_some {p : Wasm.Program} {e : Wasm.Export} {type : Wasm.FuncType} :
    p.functionType? e = some type ↔ e.kind = .function ∧ p.signatures[e.index]? = some type := by
  obtain ⟨name, kind, index⟩ := e
  cases kind with
  | function => exact (and_iff_right rfl).symm
  | table | memory | global => exact ⟨nofun, fun h => nomatch h.1⟩

/-- The function type of machine types. -/
def ExportShape.type (shape : ExportShape) : Wasm.FuncType :=
  ⟨shape.params.map .num, shape.results.map .num⟩

theorem ExportShape.ofType?_type (shape : ExportShape) : ofType? shape.type = some shape := by
  have hcore : ∀ types : List CoreType, (types.map Wasm.ValType.num).mapM Wasm.ValType.core? =
      some types := by
    intro types
    induction types with
    | nil => rfl
    | cons type types ih =>
      rw [List.map_cons, List.mapM_cons, ih]
      rfl
  unfold ofType? type
  rw [hcore, hcore]

namespace GuestModule

/-- What every loaded module is: its exports are those of its program, whose names are distinct. -/
structure Sound (m : GuestModule) : Prop where
  exports : m.exports = exportsOf m.program
  distinct : (m.program.exports.map (·.name)).Nodup

theorem sound_of_ofBytes {name : String} {bytes : List UInt8} {m : GuestModule}
    (h : ofBytes name bytes = .ok m) :
    Wasm.Program.ofBytes? bytes = some m.program ∧ tableOf m.program name = .ok m.table? ∧
      m.Sound := by
  unfold ofBytes at h
  split at h
  · cases h
  · rename_i program hp
    split at h
    · cases h
    · rename_i table? ht
      cases h
      obtain ⟨m, -, hm⟩ := Option.bind_eq_some_iff.mp hp
      obtain ⟨imported, own, functions, -, -, hv, -, rfl⟩ := Wasm.Module.program?_eq hm
      exact ⟨hp, ht, rfl, (Wasm.Module.of_outlineIsValid hv).1⟩

theorem exported?_eq_some {p : Wasm.Program} {e : Wasm.Export} {f : ExportedFunction} :
    exported? p e = some f ↔ e.kind = .function ∧ ∃ type, p.signatures[e.index]? = some type ∧
      ∃ shape, ExportShape.ofType? type = some shape ∧ f = ⟨e.name, shape, e.index⟩ := by
  unfold exported?
  constructor
  · intro h
    split at h
    · rename_i shape hbind
      obtain ⟨type, htype, hshape⟩ := Option.bind_eq_some_iff.mp hbind
      obtain ⟨hkind, hsignature⟩ := Wasm.Program.functionType?_eq_some.mp htype
      exact ⟨hkind, type, hsignature, shape, hshape, (Option.some.inj h).symm⟩
    · cases h
  · rintro ⟨hkind, type, hsignature, shape, hshape, rfl⟩
    rw [Wasm.Program.functionType?_eq_some.mpr ⟨hkind, hsignature⟩, Option.bind_some, hshape]

variable {m : GuestModule} {f : ExportedFunction}

theorem mem_exports (hm : m.Sound) :
    f ∈ m.exports ↔ ∃ e ∈ m.program.exports, exported? m.program e = some f := by
  rw [hm.exports, exportsOf, List.mem_mergeSort, List.mem_filterMap]

/-- The exports have distinct names. -/
theorem nodup_names (hm : m.Sound) : (m.exports.map (·.name)).Nodup := by
  have hperm : (m.exports.map (·.name)).Perm
      ((m.program.exports.filterMap (exported? m.program)).map (·.name)) := by
    rw [hm.exports]
    exact (List.mergeSort_perm _ _).map _
  rw [hperm.nodup_iff]
  refine List.Nodup.sublist ?_ hm.distinct
  refine sublist_filterMap (fun e f he => ?_) _
  obtain ⟨-, -, -, -, -, rfl⟩ := exported?_eq_some.mp he
  rfl

/-- Under a name, the host finds the function that is exported under it. -/
theorem find?_eq_some (hm : m.Sound) {name : String} :
    m.find? name = some f ↔ f ∈ m.exports ∧ f.name = name := by
  constructor
  · intro h
    have hname := List.find?_some (p := fun f : ExportedFunction => f.name == name) h
    exact ⟨List.mem_of_find?_eq_some h, beq_iff_eq.mp hname⟩
  · rintro ⟨h, rfl⟩
    exact find?_of_nodup (nodup_names hm) h

/-- A function of the program that is exported is found under its name. -/
theorem find?_of_export (hm : m.Sound) {name : String} {index : Nat} {type : Wasm.FuncType}
    {shape : ExportShape} (he : ⟨name, .function, index⟩ ∈ m.program.exports)
    (ht : m.program.signatures[index]? = some type) (hs : ExportShape.ofType? type = some shape) :
    m.find? name = some ⟨name, shape, index⟩ := by
  rw [find?_eq_some hm]
  refine ⟨(mem_exports hm).mpr ⟨_, he, ?_⟩, rfl⟩
  exact exported?_eq_some.mpr ⟨rfl, type, ht, shape, hs, rfl⟩

end GuestModule

/-! ### Plans -/

namespace Plan

/-- What makes a plan. -/
theorem make_eq_ok {exportName : String} {s : Signature} {source : PlanSource}
    {shape : ExportShape} {p : Plan} (h : make exportName s source shape = .ok p) :
    p = ⟨s, exportName, source⟩ ∧ s.shape = shape ∧ s.check = .ok () := by
  unfold make at h
  split at h
  · cases h
  · rename_i hs
    by_cases hshape : s.shape = shape
    · rw [if_pos hshape] at h
      exact ⟨(Except.ok.inj h).symm, hshape, hs⟩
    · rw [if_neg hshape] at h
      cases h

theorem make_of_check {exportName : String} {s : Signature} {source : PlanSource}
    {shape : ExportShape} (hcheck : s.check = .ok ()) (hshape : s.shape = shape) :
    make exportName s source shape = .ok ⟨s, exportName, source⟩ := by
  unfold make
  rw [hcheck]
  exact if_pos hshape

/-- Machine types with at most one result stand for a signature, which lowers to them. -/
theorem exists_ofShape (exportName : String) {name : String} {shape : ExportShape}
    (hname : name ≠ "") (hresults : shape.results.length ≤ 1) :
    ∃ s, Signature.ofShape exportName name shape = .ok s ∧ s.check = .ok () ∧ s.shape = shape := by
  have hkind : ∀ type : CoreType, type.kind.coreType = type := fun type => by cases type <;> rfl
  have hparams : ∀ types : List CoreType,
      (types.map fun type => ParamKind.scalar type.kind).flatMap ParamKind.coreTypes = types := by
    intro types
    induction types with
    | nil => rfl
    | cons type types ih =>
      rw [List.map_cons, List.flatMap_cons, ih, ParamKind.coreTypes, hkind]
      rfl
  have hcheck : ∀ params ret, Signature.check ⟨name, params, ret, .standard⟩ = .ok () :=
    fun params ret => by
      unfold Signature.check Signature.fault?
      rw [if_neg hname]
  obtain ⟨params, results⟩ := shape
  rcases results with _ | ⟨type, _ | ⟨other, rest⟩⟩
  · refine ⟨_, rfl, hcheck _ _, ?_⟩
    unfold Signature.shape Signature.coreParams
    rw [hparams]
    rfl
  · refine ⟨_, rfl, hcheck _ _, ?_⟩
    unfold Signature.shape Signature.coreParams Signature.coreResults
    rw [hparams, ReturnKind.coreTypes, hkind]
  · rw [List.length_cons, List.length_cons] at hresults
    omega

/-- An export has a plan if the signature that is declared for it obeys the rules and lowers to its shape,
or if none is declared and it has at most one result. -/
theorem exists_ofExport {m : GuestModule} {f : ExportedFunction} {name : String}
    (h : (∃ s, m.declared? name = some s ∧ s.check = .ok () ∧ s.shape = f.shape) ∨
      m.declared? name = none ∧ name ≠ "" ∧ f.shape.results.length ≤ 1) :
    ∃ p, ofExport m f name = .ok p := by
  unfold ofExport
  rcases h with ⟨s, hs, hcheck, hshape⟩ | ⟨hnone, hname, hresults⟩
  · refine ⟨⟨s, f.name, .metadata⟩, ?_⟩
    rw [hs]
    exact make_of_check hcheck hshape
  · obtain ⟨s, hs, hcheck, hshape⟩ := exists_ofShape f.name hname hresults
    refine ⟨⟨s, f.name, .convention⟩, ?_⟩
    rw [hnone]
    dsimp only
    rw [hs]
    exact make_of_check hcheck hshape

/-- **What the plan of an export is**: it has the signature that is declared, or, if there is none, the
one that the type stands for. -/
theorem of_ofExport {m : GuestModule} {f : ExportedFunction} {name : String} {p : Plan}
    (h : ofExport m f name = .ok p) :
    p.exportName = f.name ∧ p.signature.shape = f.shape ∧ p.signature.check = .ok () ∧
      (m.declared? name = some p.signature ∧ p.source = .metadata ∨
        m.declared? name = none ∧ Signature.ofShape f.name name f.shape = .ok p.signature ∧
          p.source = .convention) := by
  unfold ofExport at h
  split at h
  · rename_i s hs
    obtain ⟨rfl, hshape, hcheck⟩ := make_eq_ok h
    exact ⟨rfl, hshape, hcheck, .inl ⟨hs, rfl⟩⟩
  · rename_i hnone
    split at h
    · rename_i s hs
      obtain ⟨rfl, hshape, hcheck⟩ := make_eq_ok h
      exact ⟨rfl, hshape, hcheck, .inr ⟨hnone, hs, rfl⟩⟩
    · cases h

/-- The signature of a plan is the declared one, or the one that the type stands for. -/
theorem ofExport_eq_ok {m : GuestModule} {f : ExportedFunction} {name : String} {p : Plan}
    (h : ofExport m f name = .ok p) :
    p.exportName = f.name ∧ p.signature.shape = f.shape ∧
      (m.declared? name = some p.signature ∨
        m.declared? name = none ∧ Signature.ofShape f.name name f.shape = .ok p.signature) := by
  obtain ⟨hexport, hshape, -, ⟨hs, -⟩ | ⟨hnone, hs, -⟩⟩ := of_ofExport h
  · exact ⟨hexport, hshape, .inl hs⟩
  · exact ⟨hexport, hshape, .inr ⟨hnone, hs⟩⟩

/-- An export that has no plan has an invalid signature. -/
theorem ofExport_eq_error {m : GuestModule} {f : ExportedFunction} {name : String} {e : BindError}
    (h : ofExport m f name = .error e) : ∃ reason, e = .invalidSignature f.name reason := by
  have hmake : ∀ {s source}, make f.name s source f.shape = .error e →
      ∃ reason, e = .invalidSignature f.name reason := by
    intro s source h
    unfold make at h
    split at h
    · exact ⟨_, (Except.error.inj h).symm⟩
    · split at h
      · cases h
      · exact ⟨_, (Except.error.inj h).symm⟩
  unfold ofExport at h
  split at h
  · exact hmake h
  · split at h
    · exact hmake h
    · rename_i hs
      cases h
      unfold Signature.ofShape at hs
      split at hs
      · cases hs
      · cases hs
      · exact ⟨_, (Except.error.inj hs).symm⟩

/-- The host calls an export by the rest of its name behind the mark, unless it serves the host itself. -/
theorem hostName?_eq_some {mark name : String} {f : ExportedFunction} :
    hostName? mark f = some name ↔ f.name = mark ++ name ∧ unmarked? builtinMark f.name = none := by
  unfold hostName?
  constructor
  · intro h
    split at h
    · cases h
    · rename_i hforeign
      exact ⟨append_unmarked h, Option.not_isSome_iff_eq_none.mp hforeign⟩
  · rintro ⟨hname, hforeign⟩
    rw [hforeign, hname]
    exact unmarked_append mark name

/-- How exports are planned, one by one. -/
theorem ofExports_cons (m : GuestModule) (mark : String) (f : ExportedFunction)
    (exports : List ExportedFunction) :
    ofExports m mark (f :: exports) =
      match hostName? mark f with
      | none => ofExports m mark exports
      | some name =>
        match ofExport m f name with
        | .error e => .error e
        | .ok plan => (ofExports m mark exports).map fun plans => (name, plan) :: plans := by
  rfl

/-- What plans exports, one by one: those that the host does not call are passed over, and each of the others
needs a plan. -/
theorem ofExports_cons_eq_ok {m : GuestModule} {mark : String} {f : ExportedFunction}
    {exports : List ExportedFunction} {plans : List (String × Plan)} :
    ofExports m mark (f :: exports) = .ok plans ↔
      hostName? mark f = none ∧ ofExports m mark exports = .ok plans ∨
        ∃ name p rest, hostName? mark f = some name ∧ ofExport m f name = .ok p ∧
          ofExports m mark exports = .ok rest ∧ (name, p) :: rest = plans := by
  rw [ofExports_cons]
  rcases hname : hostName? mark f with _ | name
  · simp only [true_and, reduceCtorEq, false_and, exists_const, exists_false, or_false]
  simp only [reduceCtorEq, false_and, Option.some.injEq, exists_and_left, exists_eq_left', false_or]
  rcases hplan : ofExport m f name with e | p
  · simp only [reduceCtorEq, false_and, exists_false]
  rcases hrest : ofExports m mark exports with e | rest
  · simp only [Except.map, reduceCtorEq, false_and, and_false, exists_false]
  · simp only [Except.map, Except.ok.injEq, exists_eq_left']

/-- **The names of the plans** are those by which the host calls the exports. -/
theorem names_ofExports {m : GuestModule} {mark : String} {exports : List ExportedFunction}
    {plans : List (String × Plan)} (h : ofExports m mark exports = .ok plans) :
    plans.map (·.1) = exports.filterMap (hostName? mark) := by
  induction exports generalizing plans with
  | nil =>
    cases h
    rfl
  | cons f exports ih =>
    rw [ofExports_cons_eq_ok] at h
    rcases h with ⟨hnone, hrest⟩ | ⟨name, p, rest, hname, -, hrest, rfl⟩
    · rw [List.filterMap_cons_none hnone, ih hrest]
    · rw [List.filterMap_cons_some hname, List.map_cons, ih hrest]

/-- If exports cannot be planned, one of them has no plan. -/
theorem ofExports_eq_error {m : GuestModule} {mark : String} {e : BindError}
    {exports : List ExportedFunction} (h : ofExports m mark exports = .error e) :
    ∃ f ∈ exports, ∃ name, hostName? mark f = some name ∧ ofExport m f name = .error e := by
  induction exports with
  | nil => cases h
  | cons f exports ih =>
    have hlater : ofExports m mark exports = .error e →
        ∃ g ∈ f :: exports, ∃ name, hostName? mark g = some name ∧ ofExport m g name = .error e := fun h => by
      obtain ⟨g, hg, hfound⟩ := ih h
      exact ⟨g, List.mem_cons_of_mem _ hg, hfound⟩
    rw [ofExports_cons] at h
    split at h
    · exact hlater h
    · rename_i name hname
      split at h
      · rename_i hplan
        cases h
        exact ⟨f, List.mem_cons_self, name, hname, hplan⟩
      · rcases hrest : ofExports m mark exports with e' | rest
        · rw [hrest] at h
          cases h
          exact hlater hrest
        · rw [hrest] at h
          cases h

/-- Every plan is the plan of an export. -/
theorem mem_ofExports {m : GuestModule} {mark name : String} {p : Plan}
    {exports : List ExportedFunction} {plans : List (String × Plan)}
    (h : ofExports m mark exports = .ok plans) (hp : (name, p) ∈ plans) :
    ∃ f ∈ exports, hostName? mark f = some name ∧ ofExport m f name = .ok p := by
  induction exports generalizing plans with
  | nil =>
    cases h
    cases hp
  | cons f exports ih =>
    have hlater : ∀ {rest}, ofExports m mark exports = .ok rest → (name, p) ∈ rest →
        ∃ g ∈ f :: exports, hostName? mark g = some name ∧ ofExport m g name = .ok p := fun hrest hp => by
      obtain ⟨g, hg, hfound⟩ := ih hrest hp
      exact ⟨g, List.mem_cons_of_mem _ hg, hfound⟩
    rw [ofExports_cons_eq_ok] at h
    rcases h with ⟨-, hrest⟩ | ⟨other, q, rest, hname, hplan, hrest, rfl⟩
    · exact hlater hrest hp
    · rcases List.mem_cons.mp hp with heq | hp
      · cases heq
        exact ⟨f, List.mem_cons_self, hname, hplan⟩
      · exact hlater hrest hp

/-- Every wrapped export has its plan. -/
theorem mem_of_ofExports {m : GuestModule} {mark name : String} {f : ExportedFunction}
    {exports : List ExportedFunction} {plans : List (String × Plan)}
    (h : ofExports m mark exports = .ok plans) (hf : f ∈ exports) (hname : hostName? mark f = some name) :
    ∃ p, (name, p) ∈ plans ∧ ofExport m f name = .ok p := by
  induction exports generalizing plans with
  | nil => cases hf
  | cons g exports ih =>
    rw [ofExports_cons_eq_ok] at h
    rcases h with ⟨hnone, hrest⟩ | ⟨other, q, rest, hother, hplan, hrest, rfl⟩ <;>
      rcases List.mem_cons.mp hf with rfl | hf
    · cases hnone.symm.trans hname
    · exact ih hrest hf
    · obtain rfl := Option.some.inj (hother.symm.trans hname)
      exact ⟨q, List.mem_cons_self, hplan⟩
    · obtain ⟨p, hp, hfound⟩ := ih hrest hf
      exact ⟨p, List.mem_cons_of_mem _ hp, hfound⟩

theorem exists_ofExports {m : GuestModule} {mark : String} {exports : List ExportedFunction}
    (h : ∀ f ∈ exports, ∀ name, hostName? mark f = some name → ∃ p, ofExport m f name = .ok p) :
    ∃ plans, ofExports m mark exports = .ok plans := by
  induction exports with
  | nil => exact ⟨[], rfl⟩
  | cons f exports ih =>
    obtain ⟨rest, hrest⟩ := ih fun g hg => h g (List.mem_cons_of_mem _ hg)
    rcases hname : hostName? mark f with _ | name
    · refine ⟨rest, ?_⟩
      rw [ofExports_cons_eq_ok]
      exact .inl ⟨hname, hrest⟩
    · obtain ⟨p, hp⟩ := h f List.mem_cons_self name hname
      refine ⟨(name, p) :: rest, ?_⟩
      rw [ofExports_cons_eq_ok]
      exact .inr ⟨name, p, rest, hname, hp, hrest, rfl⟩

/-- Every signature has a plan just if its name is one of theirs. -/
theorem orphan?_eq_none {m : GuestModule} {plans : List (String × Plan)} :
    orphan? m plans = none ↔
      ∀ table, m.table? = some table → ∀ s ∈ table.exports, s.name ∈ plans.map (·.1) := by
  have hany : ∀ name : String, plans.any (fun p => p.1 == name) = true ↔ name ∈ plans.map (·.1) := by
    intro name
    rw [List.any_eq_true, List.mem_map]
    simp only [beq_iff_eq]
  unfold orphan?
  rcases htable : m.table? with _ | table
  · exact ⟨fun _ table h => (nomatch h), fun _ => rfl⟩
  · dsimp only
    rw [List.find?_eq_none]
    simp only [Bool.not_eq_true', Bool.not_eq_false, hany]
    exact ⟨fun h table' ht s hs => h s (Option.some.inj ht ▸ hs), fun h s hs => h table rfl s hs⟩

/-- What plans a module. -/
theorem ofModule_eq_ok {m : GuestModule} {mark : String} {plans : List (String × Plan)} :
    ofModule m mark = .ok plans ↔ ofExports m mark m.exports = .ok plans ∧
      ∀ table, m.table? = some table → ∀ s ∈ table.exports, s.name ∈ plans.map (·.1) := by
  rw [← orphan?_eq_none]
  unfold ofModule
  constructor
  · intro h
    split at h
    · cases h
    · rename_i all hall
      split at h
      · cases h
      · rename_i horphan
        cases h
        exact ⟨hall, horphan⟩
  · rintro ⟨hall, horphan⟩
    rw [hall]
    dsimp only
    rw [horphan]

/-- **A module can be planned** if each of its wrapped exports has a plan, and each of its signatures a
wrapped export. -/
theorem exists_ofModule {m : GuestModule} {mark : String}
    (hplan : ∀ f ∈ m.exports, ∀ name, hostName? mark f = some name → ∃ p, ofExport m f name = .ok p)
    (hdeclared : ∀ table, m.table? = some table → ∀ s ∈ table.exports,
      ∃ f ∈ m.exports, hostName? mark f = some s.name) : ∃ plans, ofModule m mark = .ok plans := by
  obtain ⟨plans, hplans⟩ := exists_ofExports hplan
  refine ⟨plans, ?_⟩
  rw [ofModule_eq_ok, names_ofExports hplans]
  refine ⟨hplans, fun table htable s hs => ?_⟩
  exact List.mem_filterMap.mpr (hdeclared table htable s hs)

/-- Every wrapped export of a module that can be planned has its plan. -/
theorem mem_of_ofModule {m : GuestModule} {mark name : String} {plans : List (String × Plan)}
    (h : ofModule m mark = .ok plans) {f : ExportedFunction} (hf : f ∈ m.exports)
    (hname : hostName? mark f = some name) : ∃ p, (name, p) ∈ plans ∧ ofExport m f name = .ok p := by
  rw [ofModule_eq_ok] at h
  exact mem_of_ofExports h.1 hf hname

/-- The plan of a name is the plan of an export, which the host finds. -/
theorem plan_export {m : GuestModule} (hm : m.Sound) {mark : String} {plans : List (String × Plan)}
    (h : ofModule m mark = .ok plans) {name : String} {p : Plan} (hp : (name, p) ∈ plans) :
    ∃ f, m.find? p.exportName = some f ∧ hostName? mark f = some name ∧
      ofExport m f name = .ok p := by
  rw [ofModule_eq_ok] at h
  obtain ⟨f, hf, hname, hplan⟩ := mem_ofExports h.1 hp
  refine ⟨f, ?_, hname, hplan⟩
  exact (GuestModule.find?_eq_some hm).mpr ⟨hf, (ofExport_eq_ok hplan).1.symm⟩

/-- The plans have distinct names. -/
theorem nodup_ofExports {m : GuestModule} (hm : m.Sound) {mark : String}
    {plans : List (String × Plan)} (h : ofExports m mark m.exports = .ok plans) :
    (plans.map (·.1)).Nodup := by
  rw [names_ofExports h]
  have hsub : ((m.exports.filterMap (hostName? mark)).map (mark ++ ·)).Sublist
      (m.exports.map (·.name)) :=
    sublist_filterMap (fun f name hname => (hostName?_eq_some.mp hname).1.symm) m.exports
  exact (hsub.nodup (GuestModule.nodup_names hm)).of_map _

end Plan

end GuestCall
