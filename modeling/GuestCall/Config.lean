/-
# Configuration

How modules are bound: how scalars are composed, which exports are wrapped and under which prefix,
which section holds their signatures, whether compiled modules are kept, and how far the host may
grow a memory.

Key definitions:
* `Config`, with `Config.default`;
* `Config.fault?`, the rule that a configuration breaks;
* `Config.pretty` and `Config.ofText`, its JSON form.
-/
import GuestCall.Json.Reader
import GuestCall.Json.Shape
import GuestCall.Memory.Basic

namespace GuestCall

/-- The mark of wrapped exports. -/
def wrappedMark : String := "__wasmbind_"

/-- The section that holds signatures. -/
def metadataSection : String := "wasmbind"

/-- How modules are bound. -/
structure Config where
  accessStyle : AccessStyle
  /-- The mark that the names of wrapped exports start with. -/
  exportMark : String
  /-- The custom section that holds the signature table. -/
  metadataSection : String
  cacheModules : Bool
  /-- The most pages that the host grows a memory to. -/
  maxMemoryPages : UInt32
  deriving DecidableEq

/-- Why a configuration is refused. -/
inductive ConfigFault where
  /-- The text is not the JSON form of a configuration. -/
  | json
  | emptyExportMark
  | emptyMetadataSection
  | pageLimit (pages : UInt32)
  /-- A reason that a caller gives in words. -/
  | note (text : String)
  deriving DecidableEq

/-- What the fault says. -/
def ConfigFault.message : ConfigFault → String
  | .json => "malformed JSON"
  | .emptyExportMark => "export prefix must not be empty"
  | .emptyMetadataSection => "metadata section name must not be empty"
  | .pageLimit pages => s!"max_memory_pages must be within 1..={pageCeiling}, got {pages.toNat}"
  | .note text => text

namespace Config

/-- What is not configured is this way. -/
def default : Config :=
  { accessStyle := .littleEndian, exportMark := wrappedMark
    metadataSection := GuestCall.metadataSection, cacheModules := true, maxMemoryPages := 1024 }

/-- The first rule that a configuration breaks. -/
def fault? (c : Config) : Option ConfigFault :=
  if c.exportMark = "" then some .emptyExportMark
  else if c.metadataSection = "" then some .emptyMetadataSection
  else if c.maxMemoryPages = 0 ∨ pageCeiling < c.maxMemoryPages.toNat then
    some (.pageLimit c.maxMemoryPages)
  else none

/-- Whether a configuration obeys the rules. -/
def check (c : Config) : Except ConfigFault Unit :=
  match c.fault? with
  | some fault => .error fault
  | none => .ok ()

end Config

namespace AccessStyle

/-- The JSON form of a style. -/
def toJson : AccessStyle → Json
  | .native => .string "native"
  | .littleEndian => .string "little_endian"

/-- The style of a JSON form. -/
def ofJson? (j : Json) : Option AccessStyle :=
  match j.plain? with
  | some "native" => some .native
  | some "little_endian" => some .littleEndian
  | _ => none

end AccessStyle

namespace Config

/-- The names of the fields, in order. -/
def fieldNames : List String :=
  ["access_style", "export_prefix", "metadata_section", "cache_modules", "max_memory_pages"]

/-- The JSON form of a configuration. -/
def toJson (c : Config) : Json :=
  .object [("access_style", c.accessStyle.toJson), ("export_prefix", .string c.exportMark),
    ("metadata_section", .string c.metadataSection), ("cache_modules", .bool c.cacheModules),
    ("max_memory_pages", .number c.maxMemoryPages.toNat)]

/-- The configuration of a JSON form; missing fields are as in the default one. -/
def ofJson? (j : Json) : Option Config :=
  match j.fields? fieldNames with
  | some [style, mark, section_, cache, pages] => do
    let style ← Json.getOr AccessStyle.ofJson? default.accessStyle style
    let mark ← Json.getOr Json.string? default.exportMark mark
    let name ← Json.getOr Json.string? default.metadataSection section_
    let cache ← Json.getOr Json.bool? default.cacheModules cache
    let pages ← Json.getOr Json.word? default.maxMemoryPages pages
    return ⟨style, mark, name, cache, pages⟩
  | _ => none

/-- The bytes of the JSON form of a configuration. -/
def bytes (c : Config) : List UInt8 := c.toJson.pretty

/-- The JSON form of a configuration, one field a line. -/
def pretty (c : Config) : String := Json.textOf c.bytes

/-- The configuration of some bytes, which has to obey the rules. -/
def ofBytes (bytes : List UInt8) : Except ConfigFault Config :=
  match (Json.ofBytes? bytes).bind ofJson? with
  | none => .error .json
  | some c => c.check.map fun _ => c

/-- The configuration of a text, which has to obey the rules. -/
def ofText (text : String) : Except ConfigFault Config := ofBytes text.toUTF8.data.toList

end Config

end GuestCall
