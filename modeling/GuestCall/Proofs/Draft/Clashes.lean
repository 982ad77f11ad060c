/-
# Names that clash

A draft refuses a function if its name is that of a function which it took before. So the names that were taken
are distinct, a step that is refused leaves no trace, and a draft is what the steps that succeeded make of it.
The functions of the allocator are not among those that a name is compared with, though they have their exports
from the start. Three names lead to the same exports, and each of them is taken once; a draft with such a name
can never be finished, and the error at the end does not say why.

Key definitions: `Draft.names`, the names that a draft has taken; `Draft.Step.refusal?`, why a step is refused;
`Draft.allocatorNames`, the names under which the allocator is exported, behind the mark.
Key theorems: `Draft.apply_eq_error`, `Draft.names_after`, `Draft.after_accepted`, `Draft.nodup_exports_iff`,
`Draft.clashes_surface_at_the_end`.
-/
import GuestCall.Proofs.Draft.Steps

namespace GuestCall

/-- The name of a wrapped function. -/
def DraftFunction.name? (f : DraftFunction) : Option String :=
  match f.visibility with
  | .wrapped name => some name
  | .builtin _ | .hidden => none

namespace Draft

open Wasm

/-- The names that a draft has taken. -/
def names (d : Draft) : List String := d.functions.filterMap DraftFunction.name?

/-- Why a step is refused that comes after some names were taken. -/
def Step.refusal? (taken : List String) : Step → Option DraftError
  | .tableSection _ | .intern _ => none
  | .typed s _ =>
    match s.check with
    | .error e => some (.signature e)
    | .ok _ => if s.name ∈ taken then some (.duplicate s.name) else none
  | .untyped name _ _ => if name ∈ taken then some (.duplicate name) else none
  | .declare s =>
    match s.check with
    | .error e => some (.signature e)
    | .ok _ => none

variable {d d' : Draft} {name : String}

/-! ### One step -/

theorem isTaken_iff : d.isTaken name = true ↔ name ∈ d.names := by
  unfold isTaken names
  rw [List.any_eq_true, List.mem_filterMap]
  refine exists_congr fun f => and_congr_right fun _ => ?_
  unfold DraftFunction.name?
  cases f.visibility <;> simp

theorem addFunction_eq_if (d : Draft) (name : String) (type : FuncType) (body : Body) :
    d.addFunction name type body = if name ∈ d.names then .error (.duplicate name) else
      .ok (d.functions.length, { d with functions := d.functions ++ [⟨type, .wrapped name, body⟩] }) := by
  simp only [addFunction, isTaken_iff]

/-- **When a step is refused**: its signature breaks a rule, or its name was taken. -/
theorem apply_eq_error {step : Step} {e : DraftError} :
    d.apply step = .error e ↔ step.refusal? d.names = some e := by
  cases step with
  | tableSection name? => simp [apply, Step.refusal?]
  | intern bytes => simp [apply, Step.refusal?]
  | untyped name shape body =>
    by_cases htaken : name ∈ d.names <;> simp [apply, Step.refusal?, addFunction_eq_if, htaken, Except.map]
  | declare s => cases hcheck : s.check <;> simp [apply, Step.refusal?, declare, hcheck]
  | typed s body =>
    rcases hcheck : s.check with e' | _
    · simp [apply, Step.refusal?, addTyped, hcheck, Except.map]
    · by_cases htaken : s.name ∈ d.names <;>
        simp [apply, Step.refusal?, addTyped, addFunction_eq_if, hcheck, htaken, Except.map]

/-- A function whose name was taken is refused. -/
theorem refused_of_taken {step : Step} {r : Registration} (hr : step.registration? = some r)
    {taken : List String} (htaken : r.name ∈ taken) : ∃ e, step.refusal? taken = some e := by
  cases step with
  | tableSection | intern | declare => cases hr
  | untyped name shape body =>
    cases hr
    exact ⟨_, if_pos htaken⟩
  | typed s body =>
    cases hr
    rcases hcheck : s.check with e | _
    · exact ⟨.signature e, by simp [Step.refusal?, hcheck]⟩
    · exact ⟨.duplicate s.name, by simpa [Step.refusal?, hcheck] using htaken⟩

/-- A step that succeeds takes the name of its function, which was free. -/
theorem names_apply {step : Step} (h : d.apply step = .ok d') :
    d'.names = d.names ++ (step.registration?.map (·.name)).toList ∧
      ∀ r, step.registration? = some r → r.name ∉ d.names := by
  obtain ⟨hfunctions, -, -⟩ := apply_eq_ok h
  constructor
  · unfold names
    rw [hfunctions, List.filterMap_append]
    cases step.registration? <;> rfl
  · intro r hr htaken
    obtain ⟨e, he⟩ := refused_of_taken hr htaken
    rw [← apply_eq_error] at he
    rw [he] at h
    cases h

/-! ### Many steps -/

/-- **The names that are taken** after some steps: those of the functions that they registered. -/
theorem names_after (steps : List Step) :
    (empty.after steps).names = (empty.registered steps).map (·.name) := by
  obtain ⟨hfunctions, -, -⟩ := empty.after_eq steps
  unfold names
  rw [hfunctions, List.filterMap_append, List.filterMap_map, ← List.filterMap_eq_map]
  rfl

theorem nodup_names_after : ∀ {d : Draft} (steps : List Step), d.names.Nodup → (d.after steps).names.Nodup
  | _, [], h => h
  | d, step :: rest, h => by
    unfold after
    rcases hstep : d.apply step with e | d'
    · exact nodup_names_after rest h
    · obtain ⟨hnames, hfree⟩ := names_apply hstep
      refine nodup_names_after rest ?_
      rw [hnames]
      cases hr : step.registration? with
      | none => rwa [Option.map_none, Option.toList_none, List.append_nil]
      | some r =>
        have hdisjoint : ∀ a ∈ d.names, a ∉ [r.name] := by
          intro a ha hmem
          rw [List.mem_singleton.mp hmem] at ha
          exact hfree r hr ha
        exact h.append (List.nodup_singleton _) hdisjoint

/-- **A step that is refused leaves no trace**: the steps that succeed make the same draft without the others. -/
theorem after_accepted : ∀ (d : Draft) (steps : List Step),
    d.after (d.accepted steps) = d.after steps ∧ d.accepted (d.accepted steps) = d.accepted steps
  | _, [] => ⟨rfl, rfl⟩
  | d, step :: rest => by
    rcases hstep : d.apply step with e | d'
    · have hrest := d.after_accepted rest
      simp only [accepted, after, hstep]
      exact hrest
    · obtain ⟨hafter, haccepted⟩ := d'.after_accepted rest
      simp only [accepted, after, hstep]
      exact ⟨hafter, congrArg (step :: ·) haccepted⟩

/-! ### Exports -/

/-- The names under which functions of the allocator are exported, behind the mark. -/
def allocatorNames : List String := ["builtin_alloc", "builtin_dealloc", "builtin_live"]

/-- The names of the exports: the memory, the allocator, and the names that were taken, behind the mark. -/
theorem names_exports (steps : List Step) : (empty.after steps).exports.map (·.name) =
    memoryExport :: (allocatorNames ++ (empty.after steps).names).map (wrappedMark ++ ·) := by
  obtain ⟨hfunctions, -, -⟩ := empty.after_eq steps
  have hzip := congrArg (List.map fun r : Registration => wrappedMark ++ r.name)
    (List.zipIdx_map_fst builtins.length (empty.registered steps))
  rw [List.map_map] at hzip
  have hallocator : allocatorNames.map (wrappedMark ++ ·) = [allocExport, deallocExport, liveExport] := by decide
  rw [exports_registered hfunctions, names_after, List.map_append, hallocator, List.map_map]
  simp only [List.map_cons, List.map_map]
  exact congrArg ([memoryExport, allocExport, deallocExport, liveExport] ++ ·) hzip

/-- **The exports have distinct names** just if no name was taken that the allocator is exported under. -/
theorem nodup_exports_iff (steps : List Step) : ((empty.after steps).exports.map (·.name)).Nodup ↔
    ∀ name ∈ (empty.after steps).names, name ∉ allocatorNames := by
  have hinjective : Function.Injective (wrappedMark ++ · : String → String) := fun _ _ => append_cancel
  have hmemory : memoryExport ∉ (allocatorNames ++ (empty.after steps).names).map (wrappedMark ++ ·) := by
    intro hmem
    obtain ⟨name, -, hname⟩ := List.mem_map.mp hmem
    have hunmarked : unmarked? wrappedMark memoryExport = none := by decide
    have hmarked := unmarked_append wrappedMark name
    rw [hname, hunmarked] at hmarked
    cases hmarked
  have hallocator : allocatorNames.Nodup := by decide
  have htaken : (empty.after steps).names.Nodup := nodup_names_after steps (by decide)
  rw [names_exports, List.nodup_cons, List.nodup_map_iff hinjective, List.nodup_append']
  exact ⟨fun h name hname hmem => h.2.2.2 hmem hname,
    fun h => ⟨hmemory, hallocator, htaken, fun name hmem hname => h name hname hmem⟩⟩

/-- The exports of a program have distinct names. -/
theorem nodup_of_ofBytes? {bytes : List UInt8} {p : Program} (h : Program.ofBytes? bytes = some p) :
    (p.exports.map (·.name)).Nodup := by
  obtain ⟨m, -, hm⟩ := Option.bind_eq_some_iff.mp h
  obtain ⟨imported, own, functions, -, -, hv, -, rfl⟩ := Module.program?_eq hm
  exact (Module.of_outlineIsValid hv).1

/-- A draft in which names clash is never finished, and the error names no function. -/
theorem finish_of_clash (hclash : ¬ (d.exports.map (·.name)).Nodup) :
    d.finish = .error (if heapStart < d.data.stop then .dataOverflow d.data.stop else .invalid) := by
  unfold finish
  split
  · rfl
  · rcases hp : Program.ofBytes? d.toModule.bytes with _ | p
    · simp only [hp]
    · have hnodup := nodup_of_ofBytes? hp
      rw [(image_of_ofBytes? hp).exports] at hnodup
      exact absurd hnodup hclash

/-- **Names clash with registered ones only.** After any steps, a further one is refused just if its signature
breaks a rule or its name is that of a function that was registered; then it leaves no trace, so that the steps
that succeeded make the same draft alone. The registered names are distinct, and the names of all exports are
unless one was registered that leads to an export of the allocator. No step is refused for such a name, but the
draft cannot be finished then, and the error says either that the data is too long or that the module is not
valid. -/
theorem clashes_surface_at_the_end (steps : List Step) :
    (∀ step e, (empty.after steps).apply step = .error e ↔
      step.refusal? ((empty.registered steps).map (·.name)) = some e) ∧
    (empty.after (empty.accepted steps) = empty.after steps ∧
      empty.accepted (empty.accepted steps) = empty.accepted steps) ∧
    ((empty.registered steps).map (·.name)).Nodup ∧
    (((empty.after steps).exports.map (·.name)).Nodup ↔
      ∀ r ∈ empty.registered steps, r.name ∉ allocatorNames) ∧
    ((∃ r ∈ empty.registered steps, r.name ∈ allocatorNames) →
      (empty.after steps).finish = .error (if heapStart < (empty.after steps).data.stop
        then .dataOverflow (empty.after steps).data.stop else .invalid)) := by
  have hexports : ((empty.after steps).exports.map (·.name)).Nodup ↔
      ∀ r ∈ empty.registered steps, r.name ∉ allocatorNames := by
    rw [nodup_exports_iff, names_after, List.forall_mem_map]
  refine ⟨fun step e => ?_, empty.after_accepted steps, ?_, hexports, fun ⟨r, hr, hname⟩ => ?_⟩
  · rw [← names_after]
    exact apply_eq_error
  · rw [← names_after]
    exact nodup_names_after steps (by decide)
  · exact finish_of_clash fun hnodup => hexports.mp hnodup r hr hname

/-- Steps that register a name of the allocator, twice, and a function without a name. -/
def clashingSteps : List Step :=
  [.untyped "builtin_alloc" ⟨[], []⟩ (.ofCode [] []), .untyped "builtin_alloc" ⟨[], []⟩ (.ofCode [] []),
    .typed ⟨"", [], .unit, .standard⟩ (.ofCode [] [])]

/-- The name is taken at once and refused the second time, and only the finished module is not valid. -/
theorem clashingSteps_are_invalid : ∃ r, empty.registered clashingSteps = [r] ∧ r.name = "builtin_alloc" ∧
    (empty.after clashingSteps).apply (.untyped "builtin_alloc" ⟨[], []⟩ (.ofCode [] [])) =
      .error (.duplicate "builtin_alloc") ∧
    ¬ ((empty.after clashingSteps).exports.map (·.name)).Nodup ∧
    (empty.after clashingSteps).finish = .error .invalid := by
  obtain ⟨hrefused, -, -, hexports, hfinish⟩ := clashes_surface_at_the_end clashingSteps
  have hmem : (⟨"builtin_alloc", ⟨[], []⟩, .ofCode [] []⟩ : Registration) ∈ empty.registered clashingSteps :=
    List.mem_singleton.mpr rfl
  have hclash : "builtin_alloc" ∈ allocatorNames := by decide
  refine ⟨_, rfl, rfl, (hrefused _ _).mpr rfl, fun hnodup => hexports.mp hnodup _ hmem hclash, ?_⟩
  exact hfinish ⟨_, hmem, hclash⟩

end Draft

end GuestCall
