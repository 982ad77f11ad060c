/-
# What a finished draft is loaded as

A draft that is finished is valid, so it is read back as a program, and that program is the draft
again: its functions stand in their places with their types, the first four being the allocator, and
it exports them under the names that the draft gave them. So the host finds the allocator in every
module that a draft was finished as.

Key definitions: `Draft.Built`, the drafts that steps make, and `Draft.Image`, the program of a draft.
Key theorems: `image_of_ofBytes?`, `Image.function`, `Image.tableOf`, `Built.builtin`, `Loads.find?_builtin`.
-/
import GuestCall.Draft.Basic
import GuestCall.Proofs.Guest.Exports
import GuestCall.Proofs.Signature.Json
import GuestCall.Proofs.Wasm.Format

namespace GuestCall.Draft

open Wasm

/-! ### Drafts that steps make -/

/-- The drafts that the steps make. -/
inductive Built : Draft → Prop
  | empty : Built .empty
  | addFunction {d d' : Draft} {name : String} {type : FuncType} {body : Body} {place : Nat}
      (h : Built d) (step : d.addFunction name type body = .ok (place, d')) : Built d'
  | addTyped {d d' : Draft} {s : Signature} {body : Body} {place : Nat} (h : Built d)
      (step : d.addTyped s body = .ok (place, d')) : Built d'
  | declare {d d' : Draft} {s : Signature} (h : Built d) (step : d.declare s = .ok d') : Built d'
  | intern {d : Draft} (h : Built d) (bytes : List UInt8) : Built (d.intern bytes).2
  | tableSection {d : Draft} (h : Built d) (name? : Option String) :
      Built { d with tableSection? := name? }

/-- The functions of a draft are the allocator and then wrapped ones. -/
def Layered (d : Draft) : Prop :=
  ∃ rest : List DraftFunction, d.functions = builtins ++ rest ∧
    ∀ f ∈ rest, ∃ name, f.visibility = .wrapped name

theorem addFunction_eq_ok {d d' : Draft} {name : String} {type : FuncType} {body : Body}
    {place : Nat} (h : d.addFunction name type body = .ok (place, d')) :
    d' = { d with functions := d.functions ++ [⟨type, .wrapped name, body⟩] } := by
  unfold addFunction at h
  split at h
  · cases h
  · cases h
    rfl

/-- A function with its signature, as a draft has it. -/
def entry (e : Signature × Body) : DraftFunction := ⟨typeOf e.1, .wrapped e.1.name, e.2⟩

theorem addTyped_eq_ok {d d' : Draft} {s : Signature} {body : Body} {place : Nat}
    (h : d.addTyped s body = .ok (place, d')) :
    d' = { d with functions := d.functions ++ [entry (s, body)], table := d.table.push s } := by
  unfold addTyped at h
  split at h
  · cases h
  · split at h
    · cases h
    · rename_i hadd
      cases h
      rw [addFunction_eq_ok hadd]
      rfl

theorem declare_eq_ok {d d' : Draft} {s : Signature} (h : d.declare s = .ok d') :
    d' = { d with table := d.table.push s } := by
  unfold declare at h
  split at h
  · cases h
  · exact (Except.ok.inj h).symm

theorem Layered.append {d d' : Draft} {name : String} {type : FuncType} {body : Body}
    (hd : d.Layered) (h : d'.functions = d.functions ++ [⟨type, .wrapped name, body⟩]) :
    d'.Layered := by
  obtain ⟨rest, hrest, hwrapped⟩ := hd
  refine ⟨rest ++ [⟨type, .wrapped name, body⟩], ?_, fun f hf => ?_⟩
  · rw [h, hrest, List.append_assoc]
  · rcases List.mem_append.mp hf with hf | hf
    · exact hwrapped f hf
    · rw [List.mem_singleton.mp hf]
      exact ⟨name, rfl⟩

/-- **The allocator stays in its place**, whatever is added to a draft. -/
theorem Built.layered {d : Draft} (h : d.Built) : d.Layered := by
  induction h with
  | empty => exact ⟨[], rfl, fun f hf => nomatch hf⟩
  | addFunction _ step ih => exact ih.append (by rw [addFunction_eq_ok step])
  | addTyped _ step ih => exact ih.append (by rw [addTyped_eq_ok step]; rfl)
  | declare _ step ih =>
    rw [declare_eq_ok step]
    exact ih
  | @intern d _ bytes ih =>
    unfold Draft.intern
    exact ih
  | tableSection _ _ ih => exact ih

/-! ### The program of a draft -/

theorem mem_types (d : Draft) {f : DraftFunction} (hf : f ∈ d.functions) : f.type ∈ d.types := by
  have hfold : ∀ (fs : List DraftFunction) (types : List FuncType),
      (∀ t ∈ types, t ∈ fs.foldl
        (fun types f => if types.contains f.type then types else types ++ [f.type]) types) ∧
      ∀ f ∈ fs, f.type ∈ fs.foldl
        (fun types f => if types.contains f.type then types else types ++ [f.type]) types := by
    intro fs
    induction fs with
    | nil => exact fun types => ⟨fun t ht => ht, fun f hf => nomatch hf⟩
    | cons g fs ih =>
      intro types
      rw [List.foldl_cons]
      by_cases hg : types.contains g.type = true
      · rw [if_pos hg]
        refine ⟨(ih types).1, fun f hf => ?_⟩
        rcases List.mem_cons.mp hf with rfl | hf
        · exact (ih types).1 _ (List.contains_iff_mem.mp hg)
        · exact (ih types).2 f hf
      · rw [if_neg hg]
        have hmono := (ih (types ++ [g.type])).1
        refine ⟨fun t ht => hmono t (List.mem_append_left _ ht), fun f hf => ?_⟩
        rcases List.mem_cons.mp hf with rfl | hf
        · exact hmono _ (List.mem_append_right _ (List.mem_singleton.mpr rfl))
        · exact (ih (types ++ [g.type])).2 f hf
  exact (hfold d.functions []).2 f hf

/-- A function of a draft and what it is loaded as. What is inside of the body is as it was written
if it is read back. -/
def Matches (f : DraftFunction) (g : Function) : Prop :=
  g.type = f.type ∧ (f.body.isLegible = true →
    g.locals = f.body.locals.flatMap (fun group => List.replicate group.1 group.2) ∧
      Op.structure? f.body.ops = some g.code)

/-- The program of a draft: its functions in their places, and everything else as it was put. -/
structure Image (d : Draft) (p : Program) : Prop where
  types : p.types = d.types
  imports : p.imports = []
  signatures : p.signatures = d.functions.map (·.type)
  functions : List.Forall₂ Matches d.functions p.functions
  memory : p.memory? = some memoryLimits
  globals : p.globals = guestGlobals
  exports : p.exports = d.exports
  start : p.start? = none
  segments : p.segments = d.segments
  customs : p.customs = d.customs

theorem ownFunctions?_toModule {d : Draft} {m : Module} {own : List FuncType}
    (htypes : m.types = d.types) (hfunctions : m.functions = d.toModule.functions)
    (h : m.ownFunctions? = some own) : own = d.functions.map (·.type) := by
  rw [Module.ownFunctions?, hfunctions, htypes] at h
  have hmap : ∀ (fs : List DraftFunction) (own : List FuncType), (∀ f ∈ fs, f ∈ d.functions) →
      (fs.map fun f => d.types.idxOf f.type).mapM (d.types[·]?) = some own →
      own = fs.map (·.type) := by
    intro fs
    induction fs with
    | nil =>
      intro own _ h
      cases h
      rfl
    | cons f fs ih =>
      intro own hfs h
      have hf : d.types[d.types.idxOf f.type]? = some f.type :=
        List.getElem?_idxOf (mem_types d (hfs f List.mem_cons_self))
      rw [List.map_cons, List.mapM_cons] at h
      obtain ⟨type, htype, h⟩ := Option.bind_eq_some_iff.mp h
      obtain ⟨rest, hrest, h⟩ := Option.bind_eq_some_iff.mp h
      cases h
      cases hf.symm.trans htype
      rw [List.map_cons, ih rest (fun g hg => hfs g (List.mem_cons_of_mem _ hg)) hrest]
  exact hmap d.functions own (fun f hf => hf) h

/-- The functions of a program, from the types and the bodies that were read back. -/
theorem matches_of_mapM {m : Module} {all : List FuncType} : ∀ {fs : List DraftFunction}
    {bodies : List Body} {functions : List Function}, Reread (fs.map (·.body)) bodies →
    ((fs.map (·.type)).zip bodies).mapM (fun (type, body) => m.function? all type body) =
      some functions →
    List.Forall₂ Matches fs functions
  | [], _, _, .nil, h => by
    cases h
    exact .nil
  | f :: fs, body :: bodies, functions, .cons hbody hbodies, h => by
    rw [List.map_cons, List.zip_cons_cons, List.mapM_cons] at h
    obtain ⟨g, hg, h⟩ := Option.bind_eq_some_iff.mp h
    obtain ⟨gs, hgs, h⟩ := Option.bind_eq_some_iff.mp h
    cases h
    refine .cons ?_ (matches_of_mapM hbodies hgs)
    obtain ⟨htype, hlocals, hcode⟩ := Module.function?_eq hg
    refine ⟨htype, fun hlegible => ?_⟩
    obtain rfl : body = f.body := hbody hlegible
    exact ⟨hlocals, hcode⟩

/-- **A finished draft is loaded as its image.** -/
theorem image_of_ofBytes? {d : Draft} {p : Program} (h : Program.ofBytes? d.toModule.bytes = some p) :
    d.Image p := by
  obtain ⟨m, hm, hp⟩ := Option.bind_eq_some_iff.mp h
  obtain ⟨bodies, hbodies, rfl⟩ := ofBytes?_bytes hm
  obtain ⟨imported, own, functions, himported, hown, -, hfunctions, rfl⟩ := Module.program?_eq hp
  obtain rfl : imported = [] := (Option.some.inj himported).symm
  obtain rfl := ownFunctions?_toModule rfl rfl hown
  exact
    { types := rfl, imports := rfl, signatures := rfl, functions := matches_of_mapM hbodies hfunctions
      memory := rfl, globals := rfl, exports := rfl, start := rfl, segments := rfl, customs := rfl }

variable {d : Draft} {p : Program}

/-- A function of the draft stands in its place. -/
theorem Image.function (h : d.Image p) {i : Nat} {f : DraftFunction}
    (hf : d.functions[i]? = some f) : ∃ g, p.functions[i]? = some g ∧ Matches f g :=
  forall₂_getElem? h.functions hf

theorem locals_ofCode (locals : List ValType) :
    (locals.map fun type => (1, type)).flatMap (fun group => List.replicate group.1 group.2) =
      locals := by
  induction locals with
  | nil => rfl
  | cons type locals ih =>
    rw [List.map_cons, List.flatMap_cons, ih]
    rfl

/-- A function that was given as code stands in its place with its code. -/
theorem Image.code (h : d.Image p) {i : Nat} {type : FuncType} {visibility : Visibility}
    {locals : List ValType} {code : List Instr}
    (hf : d.functions[i]? = some ⟨type, visibility, .ofCode locals code⟩)
    (hlegible : (Body.ofCode locals code).isLegible = true) :
    p.functions[i]? = some ⟨type, locals, code⟩ := by
  obtain ⟨g, hg, htype, hbody⟩ := h.function hf
  obtain ⟨hlocals, hcode⟩ := hbody hlegible
  have hcode : code = g.code := Option.some.inj ((Op.structure?_flatten code).symm.trans hcode)
  have hlocals : g.locals = locals := hlocals.trans (locals_ofCode locals)
  rw [hg, hcode, ← hlocals, ← show g.type = type from htype]

/-- A function that is visible is exported from its place. -/
theorem mem_exports {i : Nat} {f : DraftFunction} {name : String} (hf : d.functions[i]? = some f)
    (hname : f.visibility.exportName? = some name) : ⟨name, .function, i⟩ ∈ d.exports := by
  refine List.mem_cons_of_mem _ (List.mem_filterMap.mpr ⟨(f, i), ?_, ?_⟩)
  · exact List.mem_zipIdx_iff_getElem?.mpr hf
  · rw [hname]
    rfl

/-- What is exported as a function is a function that is visible. -/
theorem of_mem_exports {e : Export} (he : e ∈ d.exports) (hkind : e.kind = .function) :
    ∃ f, d.functions[e.index]? = some f ∧ f.visibility.exportName? = some e.name := by
  rcases List.mem_cons.mp he with rfl | he
  · cases hkind
  · obtain ⟨⟨f, i⟩, hmem, hf⟩ := List.mem_filterMap.mp he
    obtain ⟨name, hname, rfl⟩ := Option.map_eq_some_iff.mp hf
    exact ⟨f, List.mem_zipIdx_iff_getElem?.mp hmem, hname⟩

/-! ### The signatures of a finished draft -/

/-- **The signatures of a draft** are declared in the section that it has for them, and in no other. -/
theorem Image.tableOf {p : Program} (himage : d.Image p)
    (hversion : d.table.version = SignatureTable.currentVersion) (name : String) :
    GuestModule.tableOf p name =
      .ok (if d.tableSection? = some name then some d.table else none) := by
  have hcustom : p.custom? name =
      if d.tableSection? = some name then some d.table.bytes else none := by
    unfold Program.custom?
    rw [himage.customs]
    unfold Draft.customs
    rcases hsection : d.tableSection? with _ | chosen
    · rfl
    · by_cases hname : chosen = name
      · simp [hname]
      · simp [hname]
  unfold GuestModule.tableOf
  rw [hcustom]
  by_cases hsection : d.tableSection? = some name
  · rw [if_pos hsection, if_pos hsection]
    dsimp only
    rw [SignatureTable.ofBytes?_bytes]
    exact if_pos hversion
  · rw [if_neg hsection, if_neg hsection]

/-! ### The allocator of a finished draft -/

/-- A module that a draft was finished and loaded as, whatever section its signatures are looked
for in. -/
structure Loads (d : Draft) (m : GuestModule) : Prop where
  built : d.Built
  loaded : ∃ name bytes, d.finish = .ok bytes ∧ GuestModule.ofBytes name bytes = .ok m

/-- A draft is finished if its data ends before the heap and its bytes are those of a program. -/
theorem finish_eq_ok {bytes : List UInt8} : d.finish = .ok bytes ↔ d.data.stop ≤ heapStart ∧
    (∃ p, Program.ofBytes? d.toModule.bytes = some p) ∧ d.toModule.bytes = bytes := by
  unfold finish
  by_cases hstop : heapStart < d.data.stop
  · rw [if_pos hstop]
    exact iff_of_false nofun fun h => Nat.not_lt.mpr h.1 hstop
  · rw [if_neg hstop]
    rcases hp : Program.ofBytes? d.toModule.bytes with _ | p
    · simp [hp]
    · simp [hp, Nat.le_of_not_lt hstop]

/-- A draft that is finished is valid. -/
theorem valid_of_finish {bytes : List UInt8} (h : d.finish = .ok bytes) :
    ∃ p, Program.ofBytes? bytes = some p ∧ d.Image p := by
  rw [finish_eq_ok] at h
  obtain ⟨-, ⟨p, hp⟩, rfl⟩ := h
  exact ⟨p, hp, image_of_ofBytes? hp⟩

theorem Loads.image {m : GuestModule} (h : d.Loads m) : d.Image m.program ∧ m.Sound := by
  obtain ⟨name, bytes, hfinish, hm⟩ := h.loaded
  obtain ⟨hp, -, hsound⟩ := GuestModule.sound_of_ofBytes hm
  rw [finish_eq_ok] at hfinish
  obtain ⟨-, -, rfl⟩ := hfinish
  exact ⟨image_of_ofBytes? hp, hsound⟩

/-- The code of a function is what a program is run with that the draft is loaded as. -/
theorem Loads.code {m : GuestModule} (h : d.Loads m) {i : Nat} {type : FuncType} {visibility : Visibility}
    {locals : List ValType} {code : List Instr}
    (hf : d.functions[i]? = some ⟨type, visibility, .ofCode locals code⟩)
    (hlegible : (Body.ofCode locals code).isLegible = true) :
    m.program.functions[i]? = some ⟨type, locals, code⟩ := by
  obtain ⟨himage, -⟩ := h.image
  exact himage.code hf hlegible

/-- A draft whose bytes are a program is loaded with whatever signatures its program declares. -/
theorem Built.loads (hd : d.Built) (hstop : d.data.stop ≤ heapStart)
    (hvalid : (Program.ofBytes? d.toModule.bytes).isSome = true) (name : String)
    (table? : Option SignatureTable)
    (htable : ∀ p, d.Image p → GuestModule.tableOf p name = .ok table?) :
    ∃ m, d.Loads m ∧ m.table? = table? := by
  obtain ⟨p, hp⟩ := Option.isSome_iff_exists.mp hvalid
  have htable := htable p (image_of_ofBytes? hp)
  have hfinish : d.finish = .ok d.toModule.bytes := by
    rw [finish_eq_ok]
    exact ⟨hstop, ⟨p, hp⟩, rfl⟩
  refine ⟨⟨p, contentDigest d.toModule.bytes.toByteArray, table?, GuestModule.exportsOf p⟩,
    ⟨hd, name, d.toModule.bytes, hfinish, ?_⟩, rfl⟩
  unfold GuestModule.ofBytes
  simp only [hp, htable]

theorem Built.builtin {i : Nat} {f : DraftFunction} (h : d.Built) (hf : builtins[i]? = some f) :
    d.functions[i]? = some f := by
  obtain ⟨rest, hrest, -⟩ := h.layered
  have hi := (List.getElem?_eq_some_iff.mp hf).1
  rw [hrest, List.getElem?_append_left hi, hf]

/-- The host finds a visible part of the allocator in its place. -/
theorem Loads.find?_builtin {m : GuestModule} (h : d.Loads m) {i : Nat} {type : FuncType}
    {name : String} {body : Body} {shape : ExportShape}
    (hf : builtins[i]? = some ⟨type, .builtin name, body⟩)
    (hshape : ExportShape.ofType? type = some shape) : m.find? name = some ⟨name, shape, i⟩ := by
  obtain ⟨himage, hsound⟩ := h.image
  have hd := h.built.builtin hf
  refine GuestModule.find?_of_export hsound ?_ ?_ hshape
  · rw [himage.exports]
    exact mem_exports hd rfl
  · rw [himage.signatures, List.getElem?_map, hd]
    rfl

end GuestCall.Draft
