/-
# Hosts

A host loads modules and makes instances and bindings of them, all in one configuration. If it is
configured to, it keeps every module it has loaded and finds it again by the digest of its bytes.

Key definitions:
* `Host`, with `Host.ofConfig`;
* `Host.load`, `Host.instantiate` and `Host.bind`.
-/
import GuestCall.Call.Binding

namespace GuestCall

/-- A module that a host has loaded. The serial number tells loaded modules apart. -/
structure LoadedModule where
  serial : Nat
  module : GuestModule

/-- A host, with the modules it keeps. -/
structure Host where
  config : Config
  /-- The serial number of the next module. -/
  nextSerial : Nat
  /-- The modules it keeps, last one first. -/
  kept : List LoadedModule

namespace Host

/-- A host that has loaded nothing. The configuration has to obey the rules. -/
def ofConfig (c : Config) : Except BindError Host :=
  match c.check with
  | .ok _ => .ok ⟨c, 0, []⟩
  | .error fault => .error (.config fault)

/-- The module of some digest that is kept. -/
def find? (h : Host) (digest : String) : Option LoadedModule :=
  h.kept.find? (·.module.digest == digest)

/-- How many modules are kept. -/
def keptCount (h : Host) : Nat := h.kept.length

/-- The host without the modules it keeps. -/
def forget (h : Host) : Host := { h with kept := [] }

/-- Loads a module from its bytes. One that cannot be loaded is not kept. -/
def compile (bytes : List UInt8) (h : Host) : Except BindError LoadedModule × Host :=
  match GuestModule.ofBytes h.config.metadataSection bytes with
  | .error e => (.error e, h)
  | .ok module =>
    let loaded : LoadedModule := ⟨h.nextSerial, module⟩
    let kept := if h.config.cacheModules then loaded :: h.kept else h.kept
    (.ok loaded, { h with nextSerial := h.nextSerial + 1, kept })

/-- The module of some bytes: the one that is kept, or a new one. -/
def load (bytes : List UInt8) (h : Host) : Except BindError LoadedModule × Host :=
  if h.config.cacheModules then
    match h.find? (contentDigest bytes.toByteArray) with
    | some loaded => (.ok loaded, h)
    | none => h.compile bytes
  else h.compile bytes

/-- An instance of the module of some bytes. -/
def instantiate (bytes : List UInt8) (h : Host) : Except BindError Instance × Host :=
  match h.load bytes with
  | (.error e, h) => (.error e, h)
  | (.ok loaded, h) => (Instance.ofModule loaded.module h.config, h)

/-- A binding of the module of some bytes. -/
def bind (bytes : List UInt8) (h : Host) : Except BindError Binding × Host :=
  match h.instantiate bytes with
  | (.error e, h) => (.error e, h)
  | (.ok i, h) => (Binding.ofInstance i h.config, h)

end Host

end GuestCall
