/-
# How a host binds a finished draft

The wrapped exports of a module that a draft was finished as are the wrapped functions of the draft. So
every plan belongs to one of them, under the signature that the module declares for it, or, if it declares
none, under the one that its machine types stand for.

Key theorems: `Loads.wrapped`, `Loads.plan`, `Loads.planned`, `Host.bind_eq_ok`.
-/
import GuestCall.Host
import GuestCall.Proofs.Draft.Instantiate

namespace GuestCall

namespace Draft

open Wasm

variable {d : Draft} {m : GuestModule}

/-- A function of a draft that serves the host itself has a name of that kind. -/
theorem Built.isSome_builtin (hd : d.Built) {type : FuncType} {name : String} {body : Body}
    (h : ⟨type, .builtin name, body⟩ ∈ d.functions) : (unmarked? builtinMark name).isSome = true := by
  obtain ⟨rest, hrest, hwrapped⟩ := hd.layered
  rw [hrest] at h
  rcases List.mem_append.mp h with h | h
  · have hall : ∀ f ∈ builtins, ∀ n, f.visibility = .builtin n →
        (unmarked? builtinMark n).isSome = true := by
      intro f hf n hn
      simp only [builtins, List.mem_cons, List.not_mem_nil, or_false] at hf
      rcases hf with rfl | rfl | rfl | rfl <;> cases hn <;> decide
    exact hall _ h name rfl
  · obtain ⟨n, hn⟩ := hwrapped _ h
    cases hn

/-- **A wrapped export** of a loaded draft is a wrapped function of the draft, exported from its place. -/
theorem Loads.wrapped (hd : d.Loads m) {f : ExportedFunction} (hf : f ∈ m.exports) {name : String}
    (hname : Plan.hostName? wrappedMark f = some name) : ∃ type body,
      d.functions[f.index]? = some ⟨type, .wrapped name, body⟩ ∧
      ExportShape.ofType? type = some f.shape := by
  obtain ⟨himage, hsound⟩ := hd.image
  obtain ⟨e, he, hexported⟩ := (GuestModule.mem_exports hsound).mp hf
  obtain ⟨hkind, type, htype, shape, hshape, rfl⟩ := GuestModule.exported?_eq_some.mp hexported
  rw [himage.exports] at he
  obtain ⟨function, hfunction, hvisible⟩ := of_mem_exports he hkind
  rw [himage.signatures, List.getElem?_map, hfunction] at htype
  cases htype
  obtain ⟨type, visibility, body⟩ := function
  refine ⟨type, body, ?_, hshape⟩
  rw [hfunction]
  obtain ⟨hmarked, hforeign⟩ := Plan.hostName?_eq_some.mp hname
  -- the host leaves the allocator alone, so the function is a wrapped one
  cases visibility with
  | hidden => cases hvisible
  | builtin n =>
    cases hvisible
    have hbuiltin := hd.built.isSome_builtin (List.mem_of_getElem? hfunction)
    rw [hforeign] at hbuiltin
    cases hbuiltin
  | wrapped n =>
    have hn : wrappedMark ++ n = wrappedMark ++ name := (Option.some.inj hvisible).trans hmarked
    rw [append_cancel hn]

/-- A wrapped function of a loaded draft is a wrapped export, unless its name makes it look like one that
serves the host itself. -/
theorem Loads.exported (hd : d.Loads m) {i : Nat} {type : FuncType} {name : String} {body : Body}
    {shape : ExportShape} (hf : d.functions[i]? = some ⟨type, .wrapped name, body⟩)
    (hshape : ExportShape.ofType? type = some shape)
    (hforeign : unmarked? builtinMark (wrappedMark ++ name) = none) :
    ∃ f ∈ m.exports, Plan.hostName? wrappedMark f = some name ∧ f.shape = shape := by
  obtain ⟨himage, hsound⟩ := hd.image
  refine ⟨⟨wrappedMark ++ name, shape, i⟩, ?_, ?_, rfl⟩
  · refine (GuestModule.mem_exports hsound).mpr ⟨⟨wrappedMark ++ name, .function, i⟩, ?_, ?_⟩
    · rw [himage.exports]
      exact mem_exports hf rfl
    · refine GuestModule.exported?_eq_some.mpr ⟨rfl, type, ?_, shape, hshape, rfl⟩
      rw [himage.signatures, List.getElem?_map, hf]
      rfl
  · exact Plan.hostName?_eq_some.mpr ⟨rfl, hforeign⟩

/-- **The plan of a wrapped export** of a loaded draft belongs to a function of the draft, which the host
finds in its place. -/
theorem Loads.plan (hd : d.Loads m) {plans : List (String × Plan)}
    (hplans : Plan.ofModule m wrappedMark = .ok plans) {name : String} {p : Plan}
    (hp : (name, p) ∈ plans) : ∃ i type body,
      d.functions[i]? = some ⟨type, .wrapped name, body⟩ ∧
      m.find? p.exportName = some ⟨p.exportName, p.signature.shape, i⟩ ∧
      ExportShape.ofType? type = some p.signature.shape ∧
      (m.declared? name = some p.signature ∨ m.declared? name = none ∧
        Signature.ofShape p.exportName name p.signature.shape = .ok p.signature) := by
  obtain ⟨-, hsound⟩ := hd.image
  obtain ⟨f, hfind, hname, hplan⟩ := Plan.plan_export hsound hplans hp
  obtain ⟨hexport, hshape, hsignature⟩ := Plan.ofExport_eq_ok hplan
  obtain ⟨hmem, -⟩ := (GuestModule.find?_eq_some hsound).mp hfind
  obtain ⟨type, body, hf, htype⟩ := hd.wrapped hmem hname
  refine ⟨f.index, type, body, hf, ?_, ?_, ?_⟩
  · rw [hfind, hexport, hshape]
  · rw [htype, hshape]
  · rw [hexport, hshape]
    exact hsignature

/-- The type that a signature lowers to has the shape of the signature. -/
theorem ofType?_typeOf (s : Signature) : ExportShape.ofType? (typeOf s) = some s.shape :=
  s.shape.ofType?_type

theorem length_results {type : FuncType} {shape : ExportShape}
    (h : ExportShape.ofType? type = some shape) : type.results.length = shape.results.length := by
  unfold ExportShape.ofType? at h
  split at h
  · rename_i hresults
    cases h
    exact (forall₂_of_mapM hresults).length_eq
  · cases h

/-- **A loaded draft can be planned** if each of its wrapped functions has the type of the signature that
is declared for it, or, if none is declared, at most one result, and if each signature that is declared has
its wrapped function. -/
theorem Loads.planned (hd : d.Loads m)
    (hfunctions : ∀ type name body, ⟨type, .wrapped name, body⟩ ∈ d.functions →
      (∃ s, m.declared? name = some s ∧ s.check = .ok () ∧ type = typeOf s) ∨
        m.declared? name = none ∧ name ≠ "" ∧ type.results.length ≤ 1)
    (hdeclared : ∀ table, m.table? = some table → ∀ s ∈ table.exports,
      (∃ body, ⟨typeOf s, .wrapped s.name, body⟩ ∈ d.functions) ∧
        unmarked? builtinMark (wrappedMark ++ s.name) = none) :
    ∃ plans, Plan.ofModule m wrappedMark = .ok plans := by
  refine Plan.exists_ofModule (fun f hf name hname => ?_) fun table htable s hs => ?_
  · obtain ⟨type, body, hfunction, htype⟩ := hd.wrapped hf hname
    refine Plan.exists_ofExport ?_
    rcases hfunctions _ _ _ (List.mem_of_getElem? hfunction) with
      ⟨s, hs, hcheck, rfl⟩ | ⟨hnone, hname, hresults⟩
    · rw [ofType?_typeOf] at htype
      exact .inl ⟨s, hs, hcheck, Option.some.inj htype⟩
    · rw [length_results htype] at hresults
      exact .inr ⟨hnone, hname, hresults⟩
  · obtain ⟨⟨body, hfunction⟩, hforeign⟩ := hdeclared table htable s hs
    obtain ⟨i, hi⟩ := List.mem_iff_getElem?.mp hfunction
    obtain ⟨f, hf, hname, -⟩ := hd.exported hi (ofType?_typeOf s) hforeign
    exact ⟨f, hf, hname⟩

end Draft

/-- A host that has loaded nothing loads a module from its bytes, makes an instance of it, and plans that. -/
theorem Host.bind_fresh {c : Config} {host : Host} (hhost : Host.ofConfig c = .ok host)
    (bytes : List UInt8) : (host.bind bytes).1 =
      match GuestModule.ofBytes c.metadataSection bytes with
      | .error e => .error e
      | .ok m =>
        match Instance.ofModule m c with
        | .error e => .error e
        | .ok i => Binding.ofInstance i c := by
  have hfresh : host = ⟨c, 0, []⟩ := by
    unfold ofConfig at hhost
    split at hhost
    · exact (Except.ok.inj hhost).symm
    · cases hhost
  have hload : load bytes ⟨c, 0, []⟩ = compile bytes ⟨c, 0, []⟩ := by
    unfold load find?
    split <;> rfl
  rw [hfresh]
  unfold bind instantiate
  rw [hload]
  unfold compile
  rcases GuestModule.ofBytes c.metadataSection bytes with e | m
  · rfl
  · dsimp only
    rcases Instance.ofModule m c with e | i <;> rfl

/-- **What a host binds** that has loaded nothing. -/
theorem Host.bind_eq_ok {c : Config} {host : Host} (hhost : Host.ofConfig c = .ok host)
    {bytes : List UInt8} {bound : Binding} : (host.bind bytes).1 = .ok bound ↔
      ∃ m i plans, GuestModule.ofBytes c.metadataSection bytes = .ok m ∧
        Instance.ofModule m c = .ok i ∧ Plan.ofModule i.module c.exportMark = .ok plans ∧
        bound = ⟨c.accessStyle, plans, ⟨.empty, i⟩⟩ := by
  rw [Host.bind_fresh hhost]
  constructor
  · intro h
    split at h
    · cases h
    · rename_i m hm
      split at h
      · cases h
      · rename_i i hi
        unfold Binding.ofInstance at h
        split at h
        · rename_i plans hplans
          exact ⟨m, i, plans, hm, hi, hplans, (Except.ok.inj h).symm⟩
        · cases h
  · rintro ⟨m, i, plans, hm, hi, hplans, rfl⟩
    simp only [hm, hi, Binding.ofInstance, hplans]

end GuestCall
