/-
# Whatever the code does

A module may come from anywhere, so nothing is known about its code but that it was checked. Still every
call of it, with all the calls that it makes itself, only grows the memory, by whole pages and up to its
ceiling; and what a function returns has the types that it says. The memory starts within the reach of
addresses, so it stays there.

Key definition: `Memory.IsLinear`, a memory of whole pages within its ceiling.
Key theorems: `invoke_wider`, `types_of_invoke`, `functions_typed`, `freshStore_linear`.
-/
import GuestCall.Guest.Instance
import GuestCall.Proofs.Guest.Exports
import GuestCall.Proofs.Wasm.Quiet

namespace GuestCall

/-- A memory as a program can have one: whole pages, no more of them than the ceiling, and no ceiling
above what addresses reach. -/
structure Memory.IsLinear (m : Memory) : Prop where
  ceiling : ∃ ceiling ≤ pageCeiling, m.ceiling? = some ceiling
  size : m.size = m.pages * pageSize
  fits : m.allows m.pages = true

namespace Memory

variable {m m' : Memory}

theorem IsLinear.size_le (h : m.IsLinear) : m.size ≤ 2 ^ 32 := by
  obtain ⟨ceiling, hle, hceiling⟩ := h.ceiling
  have hsize := h.size
  have hfits := h.fits
  unfold allows at hfits
  rw [hceiling, decide_eq_true_eq] at hfits
  unfold pageCeiling pageSize at *
  omega

theorem IsLinear.grown (h : m.IsLinear) (hg : m.Grown m') : m'.IsLinear := by
  obtain ⟨ceiling, hle, hceiling⟩ := h.ceiling
  obtain ⟨extra, hextra⟩ := hg.size
  refine ⟨⟨ceiling, hle, hg.ceiling.trans hceiling⟩, ?_, hg.fits h.fits⟩
  have hpages : m'.pages = m.pages + extra := by
    unfold pages
    rw [hextra, Nat.add_mul_div_right _ _ (by decide)]
  rw [hextra, h.size, hpages, Nat.add_mul]

theorem isLinear_zeroed {pages ceiling : Nat} (hle : pages ≤ ceiling) (hceiling : ceiling ≤ pageCeiling) :
    (zeroed pages (some ceiling)).IsLinear := by
  have hsize : (zeroed pages (some ceiling)).size = pages * pageSize := size_zeroed ..
  have hpages : (zeroed pages (some ceiling)).pages = pages := by
    rw [Memory.pages, hsize, Nat.mul_div_cancel _ (by decide)]
  refine ⟨⟨ceiling, hceiling, rfl⟩, by rw [hpages, hsize], ?_⟩
  rw [hpages]
  exact decide_eq_true hle

end Memory

namespace Wasm

/-! ### Growth -/

/-- Of all instructions, only a call does more than a quiet one to the memory, and it does what the
function that is called does. -/
theorem keeps_wider {env : Env}
    (h : ∀ f arguments (s : Store), s.memory.Grown (env.call f arguments s).store.memory) :
    Keeps env (fun _ => true) fun s s' => s.memory.Grown s'.memory where
  refl s := .refl s.memory
  trans := .trans
  plain {p} _ stack locals s := by
    cases hquiet : p.isQuiet with
    | true => exact ((keeps_grown env).plain hquiet stack locals s).memory
    | false =>
      cases p with
      | call f =>
        simp only [Plain.run, runCall]
        split
        · rename_i type _
          have hcall := h f (stack.take type.params.length) s
          split
          · rename_i heq
            rw [heq] at hcall
            exact hcall
          · rename_i heq
            rw [heq] at hcall
            exact hcall
        · exact .refl s.memory
      | globalSet i => cases stack <;> exact .refl s.memory
      | _ => cases hquiet

mutual

theorem Instr.each_true : ∀ i : Instr, i.each (fun _ => true) = true
  | .plain _ => rfl
  | .block _ body => eachOf_true body
  | .loop _ body => eachOf_true body
  | .cond _ yes no => by rw [Instr.each, eachOf_true yes, eachOf_true no]; rfl

theorem eachOf_true : ∀ code : List Instr, eachOf (fun _ => true) code = true
  | [] => rfl
  | i :: rest => by rw [eachOf, i.each_true, eachOf_true rest]; rfl

end

/-- **A call only grows the memory**, whatever it calls itself: the induction is on how deep calls may
still go. -/
theorem invoke_wider (p : Program) : ∀ (depth f : Nat) (arguments : List Val) (s : Store),
    s.memory.Grown (p.invoke depth f arguments s).store.memory
  | 0, _, _, s => .refl s.memory
  | depth + 1, f, arguments, s => by
    rcases hf : p.functions[f]? with _ | g
    · simp only [Program.invoke, hf]
      exact .refl s.memory
    · simp only [Program.invoke, hf, Outcome.store_reply]
      exact runCode_keeps (keeps_wider (invoke_wider p depth)) g.code (eachOf_true g.code) _ _ s

/-! ### Types -/

theorem types_ofStack {types : List ValType} {stack values : List Val} {s s' : Store}
    (h : Reply.ofStack types stack s = .results values s') : values.map Val.type = types.reverse := by
  unfold Reply.ofStack at h
  dsimp only at h
  split at h
  · rename_i htypes
    cases h
    exact htypes
  · cases h

/-- **What a function returns** has the types that it says, last one first. -/
theorem types_of_invoke {p : Program} {depth f : Nat} {arguments values : List Val} {s s' : Store}
    (h : p.invoke depth f arguments s = .results values s') :
    ∃ g, p.functions[f]? = some g ∧ values.map Val.type = g.type.results.reverse := by
  cases depth with
  | zero => cases h
  | succ depth =>
    unfold Program.invoke at h
    split at h
    · rename_i g hg
      refine ⟨g, hg, ?_⟩
      dsimp only at h
      unfold Outcome.reply at h
      split at h
      · exact types_ofStack h
      · exact types_ofStack h
      · cases h
      · exact types_ofStack h
      · cases h
    · cases h

/-- Where nothing is imported, every function has the type that its place says. -/
theorem functions_typed {m : Module} {p : Program} (hp : m.program? = some p) (himports : p.imports = [])
    {f : Nat} {type : FuncType} {g : Function} (htype : p.signatures[f]? = some type)
    (hg : p.functions[f]? = some g) : g.type = type := by
  obtain ⟨imported, own, functions, himported, -, -, hfunctions, rfl⟩ := Module.program?_eq hp
  have hnone : m.imports = [] := himports
  obtain rfl : imported = [] := by
    unfold Module.importedFunctions? at himported
    rw [hnone] at himported
    exact (Option.some.inj himported).symm
  obtain ⟨body, hbody⟩ : ∃ body, (own.zip m.bodies)[f]? = some body := by
    have hlength := (forall₂_of_mapM hfunctions).length_eq
    have hf : f < functions.length := (List.getElem?_eq_some_iff.mp hg).1
    exact ⟨_, List.getElem?_eq_getElem (hlength ▸ hf)⟩
  obtain ⟨g', hg', hmade⟩ := forall₂_getElem? (forall₂_of_mapM hfunctions) hbody
  obtain rfl : g = g' := Option.some.inj (hg.symm.trans hg')
  have hown := (List.getElem?_zip_eq_some.mp hbody).1
  have hsame : type = body.1 := Option.some.inj (htype.symm.trans hown)
  rw [(Module.function?_eq hmade).1, hsame]

/-! ### The memory that an instance starts with -/

theorem freshMemory_linear {m : Module} {p : Program} (hp : m.program? = some p) :
    p.freshMemory.IsLinear := by
  obtain ⟨imported, own, functions, -, -, hvalid, -, rfl⟩ := Module.program?_eq hp
  have hlimits := (Module.of_outlineIsValid hvalid).2.2
  unfold Program.freshMemory
  dsimp only
  rcases hhead : m.allMemories.head? with _ | ⟨min, max?⟩
  · exact Memory.isLinear_zeroed (Nat.le_refl 0) (Nat.zero_le _)
  · have hlimits := hlimits _ (List.mem_of_head? hhead)
    simp only [Module.limitsAreValid, Bool.and_eq_true, decide_eq_true_eq] at hlimits
    obtain ⟨hmin, hmax⟩ := hlimits
    cases max? with
    | none => exact Memory.isLinear_zeroed hmin (Nat.le_refl _)
    | some max =>
      simp only [Bool.and_eq_true, decide_eq_true_eq] at hmax
      exact Memory.isLinear_zeroed hmax.2 hmax.1

theorem placeSegments_grown : ∀ {segments : List Segment} {memory memory' : Memory},
    placeSegments? segments memory = some memory' → memory.Grown memory'
  | [], memory, memory', h => by
    cases h
    exact .refl memory
  | s :: rest, memory, memory', h => by
    rw [placeSegments?] at h
    split at h
    · rename_i placed hplace
      have hgrown : memory.Grown placed := by
        unfold Segment.place? at hplace
        split at hplace
        · cases hplace
          exact .refl memory
        · split at hplace
          · split at hplace
            · cases hplace
              exact memory.grown_write _ _
            · cases hplace
          · cases hplace
      exact hgrown.trans (placeSegments_grown h)
    · cases h

/-- **A store that an instance starts with** belongs to a program that imports nothing, and its memory
is within the reach of addresses. -/
theorem freshStore_linear {m : Module} {p : Program} (hp : m.program? = some p) {s : Store}
    (h : p.freshStore = .ok s) : p.imports = [] ∧ s.memory.IsLinear := by
  have hfresh := freshMemory_linear hp
  unfold Program.freshStore at h
  split at h
  · cases h
  · rename_i himports
    refine ⟨himports, ?_⟩
    split at h
    · cases h
    · rename_i memory hplace
      have hplaced := hfresh.grown (placeSegments_grown hplace)
      dsimp only at h
      split at h
      · cases h
        exact hplaced
      · split at h
        · rename_i f _ _ _ _ hinvoke
          cases h
          have hwider := invoke_wider p depthLimit f [] ⟨memory, p.globals.map Global.start⟩
          rw [hinvoke] at hwider
          exact hplaced.grown hwider
        · cases h

end Wasm

end GuestCall
