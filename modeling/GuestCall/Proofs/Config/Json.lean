/-
# Configurations as texts

A configuration is written as a text of its JSON form, and it is read back from that text just if it obeys
the rules; if it breaks one, the reader says which. An object may list some of the fields only, in any order:
the others are then as in the default configuration. So fields that obey the rules can be left out at will.

Key definitions: `Config.members`, the fields as members of an object; `Config.only`, the configuration that
has just some of the fields.
Key theorems: `Json.field?_of_subperm`, `Config.ofJson?_members`, `Config.survives_in_part`.
-/
import Mathlib.Data.List.Perm.Subperm
import GuestCall.Config
import GuestCall.Proofs.Json.Lines

namespace GuestCall

open Json

/-! ### Fields -/

/-- A field of a record is found among some of the members of an object, if it is one of them. -/
theorem Json.field?_of_subperm {members all : List (String × Json)} {name : String} {value : Json}
    (hsub : members.Subperm all) (hall : all.filter (·.1 == name) = [(name, value)]) :
    field? name members = some (if name ∈ members.map (·.1) then some value else none) := by
  have hfound : (members.filter (·.1 == name)).Subperm [(name, value)] := by
    rw [← hall]
    exact hsub.filter _
  unfold field?
  rcases hfilter : members.filter (·.1 == name) with _ | ⟨m, rest⟩
  · have hno : name ∉ members.map (·.1) := by
      intro hname
      obtain ⟨m, hm, hkey⟩ := List.mem_map.mp hname
      have hne := List.filter_eq_nil_iff.mp hfilter m hm
      rw [hkey] at hne
      exact hne (beq_self_eq_true name)
    rw [hfilter, if_neg hno]
  · rw [hfilter] at hfound
    have hm : m ∈ members.filter (·.1 == name) := by
      rw [hfilter]
      exact List.mem_cons_self
    obtain rfl := List.mem_singleton.mp (hfound.subset List.mem_cons_self)
    obtain rfl : rest = [] := by
      have hlength := hfound.length_le
      rw [List.length_cons, List.length_singleton] at hlength
      exact List.length_eq_zero_iff.mp (Nat.le_zero.mp (Nat.le_of_succ_le_succ hlength))
    rw [hfilter, if_pos (List.mem_map_of_mem (List.mem_filter.mp hm).1)]

/-- A field that may be missing is read as its value, or as what stands for it. -/
theorem Json.getOr_ite {α : Type} {read : Json → Option α} {json : Json} {value default : α}
    (h : read json = some value) (given : Prop) [Decidable given] :
    getOr read default (if given then some json else none) =
      some (if given then value else default) := by
  by_cases hgiven : given
  · rw [if_pos hgiven, if_pos hgiven]
    exact h
  · rw [if_neg hgiven, if_neg hgiven]
    rfl

theorem AccessStyle.ofJson?_toJson (style : AccessStyle) : ofJson? style.toJson = some style := by
  cases style <;> rfl

namespace Config

/-- The fields of a configuration as the members of an object. -/
def members (c : Config) : List (String × Json) :=
  [("access_style", c.accessStyle.toJson), ("export_prefix", .string c.exportMark),
    ("metadata_section", .string c.metadataSection), ("cache_modules", .bool c.cacheModules),
    ("max_memory_pages", .number c.maxMemoryPages.toNat)]

/-- The configuration that has just the fields of some names; the others are as in the default one. -/
def only (c : Config) (names : List String) : Config where
  accessStyle := if "access_style" ∈ names then c.accessStyle else default.accessStyle
  exportMark := if "export_prefix" ∈ names then c.exportMark else default.exportMark
  metadataSection := if "metadata_section" ∈ names then c.metadataSection else default.metadataSection
  cacheModules := if "cache_modules" ∈ names then c.cacheModules else default.cacheModules
  maxMemoryPages := if "max_memory_pages" ∈ names then c.maxMemoryPages else default.maxMemoryPages

variable {c : Config} {given : List (String × Json)}

theorem only_all (c : Config) : c.only (c.members.map (·.1)) = c := by
  simp [only, members]

/-- **Some of the fields are read as the configuration that has just these.** -/
theorem ofJson?_members (h : given.Subperm c.members) :
    ofJson? (.object given) = some (c.only (given.map (·.1))) := by
  have hfields : fields? fieldNames (.object given) = some
      [if "access_style" ∈ given.map (·.1) then some c.accessStyle.toJson else none,
        if "export_prefix" ∈ given.map (·.1) then some (.string c.exportMark) else none,
        if "metadata_section" ∈ given.map (·.1) then some (.string c.metadataSection) else none,
        if "cache_modules" ∈ given.map (·.1) then some (.bool c.cacheModules) else none,
        if "max_memory_pages" ∈ given.map (·.1) then some (.number c.maxMemoryPages.toNat)
          else none] := by
    unfold fields? fieldNames
    simp only [List.mapM_cons, List.mapM_nil]
    rw [field?_of_subperm h rfl, field?_of_subperm h rfl, field?_of_subperm h rfl,
      field?_of_subperm h rfl, field?_of_subperm h rfl]
    rfl
  have hmark : string? (.string c.exportMark) = some c.exportMark := rfl
  have hsection : string? (.string c.metadataSection) = some c.metadataSection := rfl
  have hcache : bool? (.bool c.cacheModules) = some c.cacheModules := rfl
  unfold ofJson?
  rw [hfields]
  dsimp only
  rw [getOr_ite c.accessStyle.ofJson?_toJson, getOr_ite hmark, getOr_ite hsection, getOr_ite hcache,
    getOr_ite (word?_number c.maxMemoryPages)]
  rfl

/-! ### Rules -/

theorem check_eq_ok : c.check = .ok () ↔ c.exportMark ≠ "" ∧ c.metadataSection ≠ "" ∧
    ¬ (c.maxMemoryPages = 0 ∨ pageCeiling < c.maxMemoryPages.toNat) := by
  unfold check fault?
  split_ifs <;> simp_all

/-- A configuration that obeys the rules does so in part. -/
theorem check_only (h : c.check = .ok ()) (names : List String) : (c.only names).check = .ok () := by
  obtain ⟨hmark, hsection, hpages⟩ := check_eq_ok.mp h
  refine check_eq_ok.mpr ⟨?_, ?_, ?_⟩ <;> unfold only <;> dsimp only <;> split
  · exact hmark
  · decide
  · exact hsection
  · decide
  · exact hpages
  · decide

/-! ### Texts -/

theorem spells (c : Config) : Spells c.toJson c.bytes := by
  refine spells_lines 0 fun m hm => ?_
  simp only [List.mem_cons, List.not_mem_nil, or_false] at hm
  rcases hm with rfl | rfl | rfl | rfl | rfl
  · cases c.accessStyle <;> exact .string _
  · exact .string c.exportMark
  · exact .string c.metadataSection
  · cases c.cacheModules <;> exact .bool _
  · exact .number _

/-- What a text with some of the fields is read as. -/
theorem ofText_members {text : String} (h : given.Subperm c.members)
    (htext : Json.ofBytes? text.toUTF8.data.toList = some (.object given)) :
    ofText text = (c.only (given.map (·.1))).check.map fun _ => c.only (given.map (·.1)) := by
  unfold ofText ofBytes
  rw [htext, Option.bind_some, ofJson?_members h]

/-- What the text of a configuration is read as. -/
theorem ofText_pretty (c : Config) : ofText c.pretty = c.check.map fun _ => c := by
  have hread := Json.ofBytes?_spelled blanks_nil c.spells blanks_nil
  rw [List.nil_append, List.append_nil] at hread
  have htext : Json.ofBytes? c.pretty.toUTF8.data.toList = some (.object c.members) := by
    unfold pretty
    rw [toUTF8_textOf c.spells.isText]
    exact hread
  have hall := ofText_members (List.Subperm.refl c.members) htext
  rw [only_all] at hall
  exact hall

/-- **A configuration survives being written just if it obeys the rules**, and if it breaks one, the reader
says which. A text of an object with some of its fields, in any order, is read as the configuration that has
just these, or as the fault of that one, which has none if the whole has none. However such an object is
spelled, and whatever blanks stand around it, there is a text of it. -/
theorem survives_in_part :
    (∀ c : Config, (c.check = .ok () → ofText c.pretty = .ok c) ∧
      ∀ fault, c.check = .error fault → ofText c.pretty = .error fault) ∧
    (∀ (c : Config) (given : List (String × Json)) (text : String), given.Subperm c.members →
      Json.ofBytes? text.toUTF8.data.toList = some (.object given) →
      (c.check = .ok () → ofText text = .ok (c.only (given.map (·.1)))) ∧
      ofText text = (c.only (given.map (·.1))).check.map fun _ => c.only (given.map (·.1))) ∧
    ∀ (given : List (String × Json)) (before bytes after : List UInt8), Blanks before →
      Spells (.object given) bytes → Blanks after → ∃ text : String,
        text.toUTF8.data.toList = before ++ (bytes ++ after) ∧
        Json.ofBytes? text.toUTF8.data.toList = some (.object given) := by
  refine ⟨fun c => ⟨fun hcheck => ?_, fun fault hfault => ?_⟩, ?_, ?_⟩
  · rw [ofText_pretty, hcheck]
    rfl
  · rw [ofText_pretty, hfault]
    rfl
  · intro c given text h htext
    have hall := ofText_members h htext
    refine ⟨fun hcheck => ?_, hall⟩
    rw [hall, check_only hcheck]
    rfl
  · intro given before bytes after hbefore hobject hafter
    have htext := toUTF8_textOf (hbefore.isText.append (hobject.isText.append hafter.isText))
    refine ⟨_, htext, ?_⟩
    rw [htext]
    exact Json.ofBytes?_spelled hbefore hobject hafter

/-- Two of the fields, in another order than they are written in, and with blanks between them. -/
theorem two_fields_are_read : ofText " \x7b\"max_memory_pages\":5,\n\"export_prefix\": \"\\n\"\x7d" =
    .ok { default with exportMark := "\n", maxMemoryPages := 5 } := by
  have hobject : Spells (.object [("max_memory_pages", .number 5), ("export_prefix", .string "\n")])
      _ :=
    .object (.cons blanks_nil blanks_nil (.number 5) blanks_nil
      (.last (blanks_newLine 0) blanks_space (.string "\n") blanks_nil))
  have hread : Json.ofBytes?
      " \x7b\"max_memory_pages\":5,\n\"export_prefix\": \"\\n\"\x7d".toUTF8.data.toList =
        some (.object _) :=
    Json.ofBytes?_spelled blanks_space hobject blanks_nil
  have hsub : [("max_memory_pages", Json.number 5), ("export_prefix", .string "\n")].Subperm
      (members { default with exportMark := "\n", maxMemoryPages := 5 }) :=
    ⟨[("export_prefix", .string "\n"), ("max_memory_pages", .number 5)], .swap _ _ _,
      .cons _ (.cons_cons _ (.cons _ (.cons _ (.cons_cons _ .slnil))))⟩
  exact (survives_in_part.2.1 _ _ _ hsub hread).1 rfl

end Config

end GuestCall
