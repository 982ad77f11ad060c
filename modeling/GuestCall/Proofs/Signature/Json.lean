/-
# The bytes of signature tables

A table is written as a text of its JSON form, so it is read back from its bytes, whatever the names,
the kinds and the version in it are. Bytes that come from somewhere else may spell a table in other ways,
with blanks, fields in another order, or a convention that could be left out; the table that is read from
them still survives being written and read again.

Key theorems: `SignatureTable.ofBytes?_bytes`, `SignatureTable.survives`.
-/
import GuestCall.Proofs.Json.Spelling
import GuestCall.Signature.Json

namespace GuestCall

open Json

/-- A kind under a name. -/
theorem ScalarKind.spells_under (name : String) (kind : ScalarKind) :
    Spells (.object [(name, kind.toJson)]) (compact (.object [(name, kind.toJson)])) := by
  refine spells_object fun m hm => ?_
  rw [List.mem_singleton.mp hm]
  exact .string kind.name

theorem ParamKind.spells (p : ParamKind) : Spells p.toJson p.toJson.compact := by
  cases p with
  | scalar kind | slice kind | sliceMut kind | vec kind => exact kind.spells_under _
  | str => exact .string _

theorem ReturnKind.spells (r : ReturnKind) : Spells r.toJson r.toJson.compact := by
  cases r with
  | scalar kind | vec kind => exact kind.spells_under _
  | unit | str | bigDecimal => exact .string _

theorem Signature.spells (s : Signature) : Spells s.toJson s.toJson.compact := by
  have hparams : Spells (.array (s.params.map ParamKind.toJson))
      (compact (.array (s.params.map ParamKind.toJson))) := by
    refine spells_array fun item hitem => ?_
    obtain ⟨p, -, rfl⟩ := List.mem_map.mp hitem
    exact p.spells
  refine spells_object fun m hm => ?_
  rcases List.mem_append.mp hm with hm | hm
  · simp only [List.mem_cons, List.not_mem_nil, or_false] at hm
    rcases hm with rfl | rfl | rfl
    · exact .string s.name
    · exact hparams
    · exact s.ret.spells
  · split at hm
    · rw [List.mem_singleton.mp hm]
      cases s.convention <;> exact .string _
    · cases hm

theorem SignatureTable.spells (t : SignatureTable) : Spells t.toJson t.bytes := by
  refine spells_object fun m hm => ?_
  simp only [List.mem_cons, List.not_mem_nil, or_false] at hm
  rcases hm with rfl | rfl
  · exact .number _
  · refine spells_array fun item hitem => ?_
    obtain ⟨s, -, rfl⟩ := List.mem_map.mp hitem
    exact s.spells

/-- **A table is read back from its bytes.** -/
theorem SignatureTable.ofBytes?_bytes (t : SignatureTable) : ofBytes? t.bytes = some t := by
  have hread := Json.ofBytes?_spelled blanks_nil t.spells blanks_nil
  rw [List.nil_append, List.append_nil] at hread
  unfold ofBytes?
  rw [hread]
  exact ofJson?_toJson t

/-- **A table survives being kept in a module.** What is kept is a JSON text of the table, and the table is
read back from it. Whatever bytes a table was read from, writing it and reading it again changes nothing. -/
theorem SignatureTable.survives :
    (∀ t : SignatureTable, Spells t.toJson t.bytes ∧ ofBytes? t.bytes = some t) ∧
    ∀ bytes : List UInt8, ((ofBytes? bytes).bind fun t => ofBytes? t.bytes) = ofBytes? bytes := by
  refine ⟨fun t => ⟨t.spells, t.ofBytes?_bytes⟩, fun bytes => ?_⟩
  cases hread : ofBytes? bytes with
  | none => rfl
  | some t => exact t.ofBytes?_bytes

/-- Fields in another order, blanks, and nothing about the result. -/
example : SignatureTable.ofBytes? (ascii
    "\x7b\"exports\": [\x7b\"params\":[\"str\"],\"name\":\"a\"\x7d],\"version\":1\x7d") =
      some ⟨1, [⟨"a", [.str], .unit, .standard⟩]⟩ := by
  decide +kernel

end GuestCall
