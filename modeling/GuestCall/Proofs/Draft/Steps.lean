/-
# Drafts step by step

A draft is built by steps, in whatever order, and a step that fails changes nothing. The module that is
finished then has the functions that were registered, behind the allocator, in the order in which they
were; it exports each of them under its name, with its types and from its place; and it declares the
signatures that were given, in the section that was chosen last, and in no other.

Key definitions: `Draft.Step`, `Draft.after`, the draft after some steps, `Draft.registered` and
`Draft.signed`, the functions and the signatures of the steps that succeeded.
Key theorems: `Draft.apply_eq_ok`, what a step does; `Draft.after_eq`; `Draft.loaded_as_built`.
-/
import GuestCall.Proofs.Draft.Planning

namespace GuestCall.Draft

open Wasm

/-! ### Steps -/

/-- A step by which a draft is built. -/
inductive Step where
  /-- Chooses the section for the signatures, or that they are not written down. -/
  | tableSection (name? : Option String)
  | intern (bytes : List UInt8)
  /-- Adds a function with its signature. -/
  | typed (s : Signature) (body : Body)
  /-- Adds a function with its machine types only. -/
  | untyped (name : String) (shape : ExportShape) (body : Body)
  /-- Adds a signature without a function. -/
  | declare (s : Signature)

/-- A function that a step registers. -/
structure Registration where
  name : String
  shape : ExportShape
  body : Body

namespace Registration

/-- The function of a registration, as a draft has it. -/
def function (r : Registration) : DraftFunction := ⟨r.shape.type, .wrapped r.name, r.body⟩

/-- The function of a registration, as the host finds it in its place. -/
def exported (r : Registration) (place : Nat) : ExportedFunction :=
  ⟨wrappedMark ++ r.name, r.shape, place⟩

end Registration

namespace Step

/-- The function that a step registers, if it does. -/
def registration? : Step → Option Registration
  | .typed s body => some ⟨s.name, s.shape, body⟩
  | .untyped name shape body => some ⟨name, shape, body⟩
  | .tableSection _ | .intern _ | .declare _ => none

/-- The signature that a step gives, if it does. -/
def signature? : Step → Option Signature
  | .typed s _ | .declare s => some s
  | .tableSection _ | .intern _ | .untyped .. => none

end Step

/-- The draft with one more step. -/
def apply (d : Draft) : Step → Except DraftError Draft
  | .tableSection name? => .ok { d with tableSection? := name? }
  | .intern bytes => .ok (d.intern bytes).2
  | .typed s body => (d.addTyped s body).map fun added => added.2
  | .untyped name shape body => (d.addFunction name shape.type body).map fun added => added.2
  | .declare s => d.declare s

/-- The draft after some steps. One that fails changes nothing. -/
def after (d : Draft) : List Step → Draft
  | [] => d
  | step :: rest =>
    match d.apply step with
    | .ok d => d.after rest
    | .error _ => d.after rest

/-- The steps that succeed. -/
def accepted (d : Draft) : List Step → List Step
  | [] => []
  | step :: rest =>
    match d.apply step with
    | .ok d => step :: d.accepted rest
    | .error _ => d.accepted rest

/-- The functions that some steps register. -/
def registered (d : Draft) (steps : List Step) : List Registration :=
  (d.accepted steps).filterMap Step.registration?

/-- The signatures that some steps give. -/
def signed (d : Draft) (steps : List Step) : List Signature :=
  (d.accepted steps).filterMap Step.signature?

variable {d d' : Draft}

/-- **What a step does** that succeeds: its function and its signature go behind the others. -/
theorem apply_eq_ok {step : Step} (h : d.apply step = .ok d') :
    d'.functions = d.functions ++ (step.registration?.map Registration.function).toList ∧
      d'.table = ⟨d.table.version, d.table.exports ++ step.signature?.toList⟩ ∧
      (d.Built → d'.Built) := by
  have hnone : d.table = ⟨d.table.version, d.table.exports ++ []⟩ := by rw [List.append_nil]
  cases step with
  | tableSection name? =>
    cases h
    exact ⟨(List.append_nil _).symm, hnone, fun hd => hd.tableSection name?⟩
  | intern bytes =>
    cases h
    exact ⟨(List.append_nil _).symm, hnone, fun hd => hd.intern bytes⟩
  | typed s body =>
    obtain ⟨⟨place, d₁⟩, hadd, rfl⟩ := eq_ok_of_map h
    obtain rfl := addTyped_eq_ok hadd
    exact ⟨rfl, rfl, fun hd => hd.addTyped hadd⟩
  | untyped name shape body =>
    obtain ⟨⟨place, d₁⟩, hadd, rfl⟩ := eq_ok_of_map h
    obtain rfl := addFunction_eq_ok hadd
    exact ⟨rfl, hnone, fun hd => hd.addFunction hadd⟩
  | declare s =>
    obtain rfl := declare_eq_ok h
    exact ⟨(List.append_nil _).symm, rfl, fun hd => hd.declare h⟩

/-- **What some steps make of a draft.** -/
theorem after_eq : ∀ (d : Draft) (steps : List Step),
    (d.after steps).functions = d.functions ++ (d.registered steps).map Registration.function ∧
      (d.after steps).table = ⟨d.table.version, d.table.exports ++ d.signed steps⟩ ∧
      (d.Built → (d.after steps).Built)
  | d, [] => by
    refine ⟨(List.append_nil _).symm, ?_, id⟩
    unfold signed accepted
    rw [List.filterMap_nil, List.append_nil]
    rfl
  | d, step :: rest => by
    unfold after registered signed accepted
    rcases hstep : d.apply step with e | d'
    · exact after_eq d rest
    · obtain ⟨hfunctions, htable, hbuilt⟩ := apply_eq_ok hstep
      obtain ⟨hfunctions', htable', hbuilt'⟩ := after_eq d' rest
      refine ⟨?_, ?_, fun hd => hbuilt' (hbuilt hd)⟩
      · rw [hfunctions', hfunctions, List.append_assoc]
        cases hr : step.registration? with
        | none => rw [List.filterMap_cons_none hr]; rfl
        | some r => rw [List.filterMap_cons_some hr]; rfl
      · rw [htable', htable]
        cases hs : step.signature? with
        | none => rw [List.filterMap_cons_none hs]; simp [signed]
        | some s => rw [List.filterMap_cons_some hs]; simp [signed]

/-! ### The finished module -/

/-- What the host can call of the allocator. -/
def allocatorExports : List ExportedFunction :=
  [⟨allocExport, ⟨[.i32], [.i32]⟩, 0⟩, ⟨deallocExport, ⟨[.i32, .i32], []⟩, 1⟩,
    ⟨liveExport, ⟨[], [.i32]⟩, 2⟩]

/-- The registered functions as the host finds them, behind the allocator. -/
def registeredExports (rs : List Registration) : List ExportedFunction :=
  (rs.zipIdx builtins.length).map fun r => r.1.exported r.2

/-- The exports of a draft that steps have made. -/
theorem exports_registered {rs : List Registration}
    (h : d.functions = builtins ++ rs.map Registration.function) :
    d.exports = ⟨memoryExport, .memory, 0⟩ :: ⟨allocExport, .function, 0⟩ ::
      ⟨deallocExport, .function, 1⟩ :: ⟨liveExport, .function, 2⟩ ::
      (rs.zipIdx builtins.length).map fun r => ⟨wrappedMark ++ r.1.name, .function, r.2⟩ := by
  unfold exports
  rw [h, List.zipIdx_append, List.filterMap_append, List.zipIdx_map, List.filterMap_map,
    ← List.filterMap_eq_map, Nat.zero_add]
  rfl

/-- **What the host can call** of a draft that steps have made. -/
theorem Image.exported {p : Program} (himage : d.Image p) {rs : List Registration}
    (h : d.functions = builtins ++ rs.map Registration.function) :
    p.exports.filterMap (GuestModule.exported? p) = allocatorExports ++ registeredExports rs := by
  have hsignatures : p.signatures = builtins.map (·.type) ++ rs.map (·.shape.type) := by
    rw [himage.signatures, h, List.map_append, List.map_map]
    rfl
  have hbuiltin : ∀ {name : String} {i : Nat} (shape : ExportShape),
      (builtins.map (·.type))[i]? = some shape.type →
      GuestModule.exported? p ⟨name, .function, i⟩ = some ⟨name, shape, i⟩ := by
    intro name i shape hi
    refine GuestModule.exported?_eq_some.mpr ⟨rfl, shape.type, ?_, shape, shape.ofType?_type, rfl⟩
    rw [hsignatures, List.getElem?_append_left (List.getElem?_eq_some_iff.mp hi).1, hi]
  have hregistered : ∀ r ∈ rs.zipIdx builtins.length,
      GuestModule.exported? p ⟨wrappedMark ++ r.1.name, .function, r.2⟩ =
        some (r.1.exported r.2) := by
    intro r hr
    obtain ⟨hle, hr⟩ := List.mk_mem_zipIdx_iff_le_and_getElem?_sub.mp hr
    refine GuestModule.exported?_eq_some.mpr
      ⟨rfl, r.1.shape.type, ?_, r.1.shape, r.1.shape.ofType?_type, rfl⟩
    rw [hsignatures, List.getElem?_append_right (by rwa [List.length_map]), List.length_map,
      List.getElem?_map, hr]
    rfl
  rw [himage.exports, exports_registered h, List.filterMap_cons_none rfl,
    List.filterMap_cons_some (hbuiltin ⟨[.i32], [.i32]⟩ rfl),
    List.filterMap_cons_some (hbuiltin ⟨[.i32, .i32], []⟩ rfl),
    List.filterMap_cons_some (hbuiltin ⟨[], [.i32]⟩ rfl), List.filterMap_map]
  refine congrArg (allocatorExports ++ ·) ?_
  unfold registeredExports
  rw [← List.filterMap_eq_map]
  exact List.filterMap_congr hregistered

/-- The module that a draft is loaded as which steps have made. -/
theorem loads_after {steps : List Step} {bytes : List UInt8}
    (h : (empty.after steps).finish = .ok bytes) (name : String) :
    ∃ m, GuestModule.ofBytes name bytes = .ok m ∧ (empty.after steps).Loads m ∧
      m.exports.Perm (allocatorExports ++ registeredExports (empty.registered steps)) ∧
      m.table? = if (empty.after steps).tableSection? = some name
        then some ⟨SignatureTable.currentVersion, empty.signed steps⟩ else none := by
  obtain ⟨hfunctions, htable, hbuilt⟩ := empty.after_eq steps
  obtain ⟨p, hp, himage⟩ := valid_of_finish h
  have hversion : (empty.after steps).table.version = SignatureTable.currentVersion := by
    rw [htable]
    rfl
  have hm : GuestModule.ofBytes name bytes = .ok ⟨p, contentDigest bytes.toByteArray,
      if (empty.after steps).tableSection? = some name then some (empty.after steps).table else none,
      GuestModule.exportsOf p⟩ := by
    unfold GuestModule.ofBytes
    simp only [hp, himage.tableOf hversion]
  refine ⟨_, hm, ⟨hbuilt .empty, name, bytes, h, hm⟩, ?_, ?_⟩
  · dsimp only
    rw [GuestModule.exportsOf, himage.exported hfunctions]
    exact List.mergeSort_perm _ _
  · rw [htable]
    rfl

/-- **A finished draft is loaded as it was built**, whatever steps built it and in whichever order. The
program has the allocator and the registered functions, each in its place with its types and its code. The
host can call three functions of the allocator and every registered function, under its name, with its
machine types. The signatures are those of the draft if they are looked for in the section that the draft
has for them; in any other section there are none. -/
theorem loaded_as_built {steps : List Step} {bytes : List UInt8}
    (h : (empty.after steps).finish = .ok bytes) (name : String) :
    ∃ m, GuestModule.ofBytes name bytes = .ok m ∧
      List.Forall₂ Matches (builtins ++ (empty.registered steps).map Registration.function)
        m.program.functions ∧
      m.exports.Perm (allocatorExports ++ registeredExports (empty.registered steps)) ∧
      (m.exports.map (·.name)).Nodup ∧
      m.table? = (if (empty.after steps).tableSection? = some name
        then some ⟨SignatureTable.currentVersion, empty.signed steps⟩ else none) ∧
      (empty.after steps).table = ⟨SignatureTable.currentVersion, empty.signed steps⟩ := by
  obtain ⟨hfunctions, htable, -⟩ := empty.after_eq steps
  obtain ⟨m, hm, hloads, hexports, hdeclared⟩ := loads_after h name
  obtain ⟨himage, hsound⟩ := hloads.image
  have hall := himage.functions
  rw [hfunctions] at hall
  exact ⟨m, hm, hall, hexports, GuestModule.nodup_names hsound, hdeclared, htable⟩

/-- Steps of every kind. The fourth fails, since the name is taken. -/
def mixedSteps : List Step :=
  [.intern [0x68, 0x69], .tableSection (some "signatures"),
    .typed ⟨"same", [.scalar .i64], .scalar .i64, .standard⟩ (.ofCode [] [Code.val 0]),
    .untyped "same" ⟨[.i32], [.i32]⟩ (.ofCode [] [Code.val 0]),
    .untyped "nothing" ⟨[], []⟩ (.ofCode [] []),
    .declare ⟨"later", [], .unit, .standard⟩]

/-- What the host finds in the module that these steps build. -/
theorem mixedSteps_loaded : ∃ bytes m, (empty.after mixedSteps).finish = .ok bytes ∧
    GuestModule.ofBytes "signatures" bytes = .ok m ∧
    m.exports.Perm (allocatorExports ++ [⟨"__wasmbind_same", ⟨[.i64], [.i64]⟩, 4⟩,
      ⟨"__wasmbind_nothing", ⟨[], []⟩, 5⟩]) ∧
    m.table? = some ⟨SignatureTable.currentVersion,
      [⟨"same", [.scalar .i64], .scalar .i64, .standard⟩, ⟨"later", [], .unit, .standard⟩]⟩ := by
  have hok : (empty.after mixedSteps).finish.isOk = true := by
    set_option maxRecDepth 100000 in decide +kernel
  rcases hfinish : (empty.after mixedSteps).finish with e | bytes
  · rw [hfinish] at hok
    cases hok
  · obtain ⟨m, hm, -, hexports, -, htable, -⟩ := loaded_as_built hfinish "signatures"
    exact ⟨bytes, m, rfl, hm, hexports, htable⟩

end GuestCall.Draft
