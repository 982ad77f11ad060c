/-
# A module is read back as it was written

What the writer makes of a module is, if the reader accepts it, read as that module. The bodies of
functions are framed by their lengths, so what is inside of one body has no effect on the others. The
inside is read back too, unless an access promises an alignment beyond every memory: the bits of such
an alignment run into the flag that follows it.

Key definitions: `Body.isLegible`, and `Reread`, the bodies that some bodies are read back as.
Key theorem: `ofBytes?_bytes`, a module that is accepted is the one that was written.
-/
import GuestCall.Proofs.Scalar.Layout
import GuestCall.Proofs.Wasm.Reading

namespace GuestCall.Wasm

open Leb128

/-! ### Types -/

theorem RefType.ofCode?_code (t : RefType) : RefType.ofCode? t.code = some t := by
  cases t <;> rfl

theorem ValType.ofCode?_code (t : ValType) : ValType.ofCode? t.code = some t := by
  cases t with
  | num type => cases type <;> rfl
  | ref type => cases type <;> rfl

theorem ValType.read_reads (t : ValType) : Reads ValType.read [t.code] (· = t) :=
  readCode_reads t.ofCode?_code

theorem FuncType.read_reads (t : FuncType) : Reads FuncType.read t.bytes (· = t) := by
  intro rest x rest' hr
  have hparams := readVector_eq arityLimit t.params fun p _ => p.read_reads
  have hresults := readVector_eq arityLimit t.results fun p _ => p.read_reads
  simp only [FuncType.bytes, List.cons_append, List.append_assoc, FuncType.read, if_true] at hr
  obtain h1 | h1 := hparams.cases (vectorBytes (fun r => [r.code]) t.results ++ rest)
  · rw [h1] at hr
    cases hr
  obtain h2 | h2 := hresults.cases rest
  · simp only [h1, h2] at hr
    cases hr
  simp only [h1, h2] at hr
  cases hr
  exact ⟨rfl, rfl⟩

theorem BlockType.read_reads (t : BlockType) : Reads BlockType.read t.bytes (· = t) := by
  intro rest x rest' hr
  cases t with
  | empty =>
    cases hr
    exact ⟨rfl, rfl⟩
  | value type =>
    have hcode : type.code ≠ 0x40 ∧ 0x40 < type.code ∧ type.code < 0x80 := by
      cases type with
      | num type => cases type <;> decide
      | ref type => cases type <;> decide
    simp only [BlockType.bytes, List.cons_append, List.nil_append, BlockType.read, if_neg hcode.1,
      if_pos hcode.2, ValType.ofCode?_code, Option.map_some] at hr
    cases hr
    exact ⟨rfl, rfl⟩
  | index i =>
    -- A number that is not negative starts with no byte that could be a type.
    obtain ⟨b, tail, hb, hfirst⟩ := signed_first (Int.natCast_nonneg i)
    have h40 : b ≠ 0x40 := by
      rintro rfl
      exact absurd hfirst (by decide)
    have hrange : ¬ (0x40 < b ∧ b < 0x80) := by
      rw [UInt8.lt_iff_toNat_lt, UInt8.lt_iff_toNat_lt]
      change ¬ (64 < b.toNat ∧ b.toNat < 128)
      omega
    simp only [BlockType.bytes, hb, List.cons_append, BlockType.read, if_neg h40,
      if_neg hrange] at hr
    obtain h1 | h1 := (readSigned_reads 33 i).cases rest
    · rw [hb, List.cons_append] at h1
      rw [h1] at hr
      cases hr
    · rw [hb, List.cons_append] at h1
      simp only [h1, if_pos (Int.natCast_nonneg i), Int.toNat_natCast] at hr
      cases hr
      exact ⟨rfl, rfl⟩

/-! ### Instructions -/

theorem read32_reads (v : UInt32) : Reads read32 (LittleEndian.put32 v) (· = v) := by
  intro rest x rest' hr
  simp only [LittleEndian.put32, List.cons_append, List.nil_append, read32] at hr
  cases hr
  exact ⟨LittleEndian.get32_put32 v rfl, rfl⟩

theorem read64_reads (v : UInt64) : Reads read64 (LittleEndian.put64 v) (· = v) := by
  intro rest x rest' hr
  simp only [LittleEndian.put64, List.cons_append, List.nil_append, read64] at hr
  cases hr
  exact ⟨LittleEndian.get64_put64 v rfl, rfl⟩

/-- A constant starts with a byte for its type. -/
theorem constBytes_reads (v : CoreValue) : ∃ b tail, constBytes v = b :: tail ∧
    b ∈ [0x41, 0x42, 0x43, 0x44] ∧ constType? b = some v.type ∧
    Reads (readConst v.type) tail (· = v) := by
  cases v with
  | i32 v =>
    refine ⟨0x41, _, rfl, by decide, rfl, fun rest x rest' hr => ?_⟩
    cases (readSigned_reads 32 v.toInt32.toInt).map hr
    simp
  | i64 v =>
    refine ⟨0x42, _, rfl, by decide, rfl, fun rest x rest' hr => ?_⟩
    cases (readSigned_reads 64 v.toInt64.toInt).map hr
    simp
  | f32 v =>
    refine ⟨0x43, _, rfl, by decide, rfl, fun rest x rest' hr => ?_⟩
    simp only [CoreValue.type, readConst] at hr
    cases (read32_reads v.bits).map hr
    exact ⟨rfl, rfl⟩
  | f64 v =>
    refine ⟨0x44, _, rfl, by decide, rfl, fun rest x rest' hr => ?_⟩
    simp only [CoreValue.type, readConst] at hr
    cases (read64_reads v.bits).map hr
    exact ⟨rfl, rfl⟩

/-- Whether the alignment of an access leaves the flag alone that says that the memory is named. -/
def MemArg.isLegible (a : MemArg) : Bool := a.align < 64

theorem MemArg.read_reads {a : MemArg} (h : a.isLegible = true) : Reads MemArg.read a.bytes (· = a) := by
  have h : a.align < 64 := of_decide_eq_true h
  intro rest x rest' hr
  by_cases hm : a.memory = 0
  · rw [MemArg.bytes, if_pos hm, List.append_assoc, MemArg.read] at hr
    obtain h1 | h1 := (readWord_reads a.align).cases (unsigned a.offset ++ rest)
    · rw [h1] at hr
      cases hr
    obtain h2 | h2 := (readUnsigned_reads 64 a.offset).cases rest
    · simp only [h1, h2, if_pos h] at hr
      cases hr
    simp only [h1, h2, if_pos h] at hr
    cases hr
    exact ⟨by rw [← hm], rfl⟩
  · have hflags : a.align ||| 64 = a.align + 64 := lor_mul_pow (k := 6) 1 h
    rw [MemArg.bytes, if_neg hm, List.append_assoc, List.append_assoc, hflags, MemArg.read] at hr
    obtain h1 | h1 :=
      (readWord_reads (a.align + 64)).cases (unsigned a.memory ++ (unsigned a.offset ++ rest))
    · rw [h1] at hr
      cases hr
    obtain h2 | h2 := (readWord_reads a.memory).cases (unsigned a.offset ++ rest)
    · simp only [h1, h2, show ¬ (a.align + 64 < 64) by omega, show a.align + 64 < 128 by omega,
        if_true, if_false] at hr
      cases hr
    obtain h3 | h3 := (readUnsigned_reads 64 a.offset).cases rest
    · simp only [h1, h2, h3, show ¬ (a.align + 64 < 64) by omega, show a.align + 64 < 128 by omega,
        if_true, if_false] at hr
      cases hr
    simp only [h1, h2, h3, show ¬ (a.align + 64 < 64) by omega, show a.align + 64 < 128 by omega,
      if_true, if_false, Nat.add_sub_cancel] at hr
    cases hr
    exact ⟨rfl, rfl⟩

/-- Whether an instruction is read back as it was written. -/
def Plain.isLegible : Plain → Bool
  | .load _ arg | .store _ arg => arg.isLegible
  | _ => true

/-- An instruction that is a byte of its own. -/
theorem Plain.readAfter_code {b : UInt8} {p : Plain} (h : Plain.ofCode? b = some p) :
    Reads (Plain.readAfter b) [] (· = p) := by
  intro rest x rest' hr
  simp only [List.nil_append, Plain.readAfter, h] at hr
  cases hr
  exact ⟨rfl, rfl⟩

/-- An instruction with one number. -/
theorem Plain.readAfter_indexed {b : UInt8} {make : Nat → Plain} (h : Plain.ofCode? b = none)
    (hmake : Plain.indexed? b = some make) (i : Nat) :
    Reads (Plain.readAfter b) (unsigned i) (· = make i) := by
  intro rest x rest' hr
  simp only [Plain.readAfter, h, hmake, readIndexed] at hr
  cases (readWord_reads i).map hr
  exact ⟨rfl, rfl⟩

/-- An instruction with the place of an access. -/
theorem Plain.readAfter_access {b : UInt8} {make : MemArg → Plain} (h : Plain.ofCode? b = none)
    (hindexed : Plain.indexed? b = none) (hmake : Plain.access? b = some make) {a : MemArg}
    (ha : a.isLegible = true) : Reads (Plain.readAfter b) a.bytes (· = make a) := by
  intro rest x rest' hr
  simp only [Plain.readAfter, h, hindexed, hmake] at hr
  cases (MemArg.read_reads ha).map hr
  exact ⟨rfl, rfl⟩

/-- An instruction with two numbers. -/
theorem Plain.readAfter_copy (bytes : List UInt8) : Plain.readAfter 0xFC (0x0A :: bytes) =
    (readWord bytes).bind fun read => readIndexed (.memoryCopy read.1) read.2 := by
  have hcode : readWord (0x0A :: bytes) = some (10, bytes) := rfl
  unfold Plain.readAfter
  simp only [show Plain.ofCode? 0xFC = none from rfl, show Plain.indexed? 0xFC = none from rfl,
    show Plain.access? 0xFC = none from rfl, show constType? 0xFC = none from rfl,
    show (0xFC : UInt8) ≠ 0xD0 from by decide, if_false, if_true, hcode]
  cases readWord bytes <;> rfl

/-- The bytes that start an item of flat code that is no instruction by itself. -/
def isBlockCode (b : UInt8) : Bool := b ∈ [0x02, 0x03, 0x04, 0x05, 0x0B]

/-- An instruction starts with a byte that says how the rest is read. -/
theorem Plain.bytes_reads (p : Plain) : ∃ b tail, p.bytes = b :: tail ∧ isBlockCode b = false ∧
    (p.isLegible = true → Reads (Plain.readAfter b) tail (· = p)) := by
  cases p with
  | unreachable | nop | ret | drop | select =>
    exact ⟨_, [], rfl, rfl, fun _ => readAfter_code rfl⟩
  | br i | brIf i | call i | localGet i | localSet i | localTee i | globalGet i | globalSet i
  | memorySize i | memoryGrow i =>
    exact ⟨_, _, rfl, rfl, fun _ => readAfter_indexed rfl rfl i⟩
  | const v =>
    obtain ⟨b, tail, hb, hmem, htype, hreads⟩ := constBytes_reads v
    have hcodes : ∀ b ∈ [0x41, 0x42, 0x43, 0x44], isBlockCode b = false ∧
        Plain.ofCode? b = none ∧ Plain.indexed? b = none ∧ Plain.access? b = none := by
      decide +kernel
    obtain ⟨hblock, hcode, hindexed, haccess⟩ := hcodes b hmem
    refine ⟨b, tail, hb, hblock, fun _ rest x rest' hr => ?_⟩
    simp only [Plain.readAfter, hcode, hindexed, haccess, htype] at hr
    cases hreads.map hr
    exact ⟨rfl, rfl⟩
  | refNull type =>
    refine ⟨0xD0, [type.code], rfl, rfl, fun _ rest x rest' hr => ?_⟩
    cases (readCode_reads type.ofCode?_code).map hr
    exact ⟨rfl, rfl⟩
  | load op arg =>
    refine ⟨op.code, arg.bytes, rfl, by cases op <;> rfl, fun ha => ?_⟩
    exact readAfter_access (by cases op <;> rfl) (by cases op <;> rfl) (by cases op <;> rfl) ha
  | store op arg =>
    refine ⟨op.code, arg.bytes, rfl, by cases op <;> rfl, fun ha => ?_⟩
    exact readAfter_access (by cases op <;> rfl) (by cases op <;> rfl) (by cases op <;> rfl) ha
  | memoryCopy target source =>
    refine ⟨0xFC, 0x0A :: (unsigned target ++ unsigned source), rfl, rfl,
      fun _ rest x rest' hr => ?_⟩
    rw [List.cons_append, List.append_assoc, readAfter_copy] at hr
    obtain h1 | h1 := (readWord_reads target).cases (unsigned source ++ rest)
    · rw [h1] at hr
      cases hr
    · simp only [h1, Option.bind_some, readIndexed] at hr
      cases (readWord_reads source).map hr
      exact ⟨rfl, rfl⟩
  | num op =>
    exact ⟨op.code, [], rfl, by cases op <;> rfl, fun _ => readAfter_code (by cases op <;> rfl)⟩

@[inherit_doc Plain.isLegible]
def Op.isLegible : Op → Bool
  | .plain p => p.isLegible
  | _ => true

theorem Op.bytes_ne_nil (op : Op) : op.bytes ≠ [] := by
  cases op with
  | plain p =>
    obtain ⟨b, tail, hb, -⟩ := p.bytes_reads
    rw [Op.bytes, hb]
    exact List.cons_ne_nil _ _
  | block | loop | cond | otherwise | close => exact List.cons_ne_nil _ _

theorem Op.read_reads {op : Op} (h : op.isLegible = true) : Reads Op.read op.bytes (· = op) := by
  intro rest x rest' hr
  cases op with
  | plain p =>
    obtain ⟨b, tail, hb, hblock, hreads⟩ := p.bytes_reads
    have hne : b ≠ 0x02 ∧ b ≠ 0x03 ∧ b ≠ 0x04 ∧ b ≠ 0x05 ∧ b ≠ 0x0B := by
      simpa [isBlockCode] using hblock
    obtain ⟨h2, h3, h4, h5, hB⟩ := hne
    simp only [Op.bytes, hb, List.cons_append, Op.read, if_neg h2, if_neg h3, if_neg h4, if_neg h5,
      if_neg hB] at hr
    cases (hreads h).map hr
    exact ⟨rfl, rfl⟩
  | block type =>
    cases type.read_reads.map hr
    exact ⟨rfl, rfl⟩
  | loop type =>
    cases type.read_reads.map hr
    exact ⟨rfl, rfl⟩
  | cond type =>
    cases type.read_reads.map hr
    exact ⟨rfl, rfl⟩
  | otherwise | close =>
    cases hr
    exact ⟨rfl, rfl⟩

/-! ### Function bodies -/

@[inherit_doc Plain.isLegible]
def Body.isLegible (b : Body) : Bool := b.ops.all Op.isLegible

theorem readLocals_reads (group : Nat × ValType) :
    Reads readLocals (unsigned group.1 ++ [group.2.code]) (· = group) := by
  intro rest x rest' hr
  rw [List.append_assoc, readLocals] at hr
  obtain h1 | h1 := (readWord_reads group.1).cases ([group.2.code] ++ rest)
  · rw [h1] at hr
    cases hr
  · simp only [h1] at hr
    cases group.2.read_reads.map hr
    exact ⟨rfl, rfl⟩

theorem Body.ofInner?_inner {b b' : Body} (h : b.isLegible = true)
    (hr : Body.ofInner? b.inner = some b') : b' = b := by
  have hlegible : ∀ op ∈ b.ops, Reads Op.read op.bytes (· = op) ∧ op.bytes ≠ [] :=
    fun op hop => ⟨Op.read_reads (List.all_eq_true.mp h op hop), op.bytes_ne_nil⟩
  rw [Body.inner, Body.ofInner?] at hr
  obtain h1 | h1 := (readVector_eq itemLimit b.locals
    fun group _ => readLocals_reads group).cases (b.ops.flatMap Op.bytes)
  · rw [h1] at hr
    cases hr
  · simp only [h1] at hr
    obtain ⟨ops, hops, rfl⟩ := Option.map_eq_some_iff.mp hr
    rw [readToEnd_flatMap b.ops hlegible hops]

/-- A body is framed by its length, and what is inside is read back if it is legible. -/
theorem Body.read_reads (b : Body) :
    Reads Body.read b.bytes (fun b' => b.isLegible = true → b' = b) := by
  intro rest x rest' hr
  rw [Body.bytes, Body.read] at hr
  obtain h1 | h1 := (readBlob_reads b.inner).cases rest
  · rw [h1] at hr
    cases hr
  · simp only [h1] at hr
    obtain ⟨b', hb', heq⟩ := Option.map_eq_some_iff.mp hr
    cases heq
    exact ⟨fun h => ofInner?_inner h hb', rfl⟩

/-! ### The items of the other sections -/

theorem Limits.read_reads (l : Limits) : Reads Limits.read l.bytes (· = l) := by
  intro rest x rest' hr
  obtain ⟨min, max?⟩ := l
  cases max? with
  | none =>
    rw [Limits.bytes, List.cons_append, Limits.read] at hr
    obtain h1 | h1 := (readWord_reads min).cases rest
    · rw [h1] at hr
      cases hr
    · simp only [h1, if_true] at hr
      cases hr
      exact ⟨rfl, rfl⟩
  | some max =>
    simp only [Limits.bytes, List.cons_append, List.append_assoc, Limits.read] at hr
    obtain h1 | h1 := (readWord_reads min).cases (unsigned max ++ rest)
    · rw [h1] at hr
      cases hr
    · simp only [h1, if_neg (show ¬ (1 : UInt8) = 0 by decide), if_true] at hr
      cases (readWord_reads max).map hr
      exact ⟨rfl, rfl⟩

theorem GlobalType.read_reads (t : GlobalType) : Reads GlobalType.read t.bytes (· = t) := by
  intro rest x rest' hr
  have hm : mutability? (if t.isMutable then 1 else 0) = some t.isMutable := by
    cases t.isMutable <;> rfl
  rw [show t.bytes ++ rest = [t.type.code] ++ ([if t.isMutable then 1 else 0] ++ rest) from rfl,
    GlobalType.read] at hr
  obtain h1 | h1 := t.type.read_reads.cases ([if t.isMutable then 1 else 0] ++ rest)
  · rw [h1] at hr
    cases hr
  · simp only [h1] at hr
    cases (readCode_reads hm).map hr
    exact ⟨rfl, rfl⟩

theorem readClosed_reads {α : Type} {read : Read α} {bytes : List UInt8} {y : α}
    (h : Reads read bytes (· = y)) : Reads (readClosed read) (bytes ++ [0x0B]) (· = y) := by
  intro rest x rest' hr
  rw [List.append_assoc, List.singleton_append, readClosed] at hr
  obtain h1 | h1 := h.cases (0x0B :: rest)
  · rw [h1] at hr
    cases hr
  · simp only [h1] at hr
    cases hr
    exact ⟨rfl, rfl⟩

theorem ConstExpr.read_reads (e : ConstExpr) : Reads ConstExpr.read e.bytes (· = e) := by
  intro rest x rest' hr
  cases e with
  | value v =>
    obtain ⟨b, tail, hb, -, htype, hreads⟩ := constBytes_reads v
    simp only [ConstExpr.bytes, hb, List.cons_append, ConstExpr.read, htype] at hr
    cases (readClosed_reads hreads).map hr
    exact ⟨rfl, rfl⟩
  | null type =>
    cases (readClosed_reads (readCode_reads type.ofCode?_code)).map hr
    exact ⟨rfl, rfl⟩
  | global i =>
    cases (readClosed_reads (readWord_reads i)).map hr
    exact ⟨rfl, rfl⟩

theorem Global.read_reads (g : Global) : Reads Global.read g.bytes (· = g) := by
  intro rest x rest' hr
  rw [Global.bytes, List.append_assoc, Global.read] at hr
  obtain h1 | h1 := g.type.read_reads.cases (g.init.bytes ++ rest)
  · rw [h1] at hr
    cases hr
  · simp only [h1] at hr
    cases g.init.read_reads.map hr
    exact ⟨rfl, rfl⟩

theorem ImportType.read_reads (t : ImportType) : Reads ImportType.read t.bytes (· = t) := by
  intro rest x rest' hr
  cases t with
  | function type =>
    cases (readWord_reads type).map hr
    exact ⟨rfl, rfl⟩
  | memory limits =>
    cases limits.read_reads.map hr
    exact ⟨rfl, rfl⟩
  | global type =>
    cases type.read_reads.map hr
    exact ⟨rfl, rfl⟩

theorem Import.read_reads (i : Import) : Reads Import.read i.bytes (· = i) := by
  intro rest x rest' hr
  rw [Import.bytes, List.append_assoc, List.append_assoc, Import.read] at hr
  obtain h1 | h1 := (readName_reads i.scope).cases (nameBytes i.name ++ (i.type.bytes ++ rest))
  · rw [h1] at hr
    cases hr
  obtain h2 | h2 := (readName_reads i.name).cases (i.type.bytes ++ rest)
  · simp only [h1, h2] at hr
    cases hr
  simp only [h1, h2] at hr
  cases i.type.read_reads.map hr
  exact ⟨rfl, rfl⟩

theorem ExportKind.ofCode?_code (k : ExportKind) : ExportKind.ofCode? k.code = some k := by
  cases k <;> rfl

theorem Export.read_reads (e : Export) : Reads Export.read e.bytes (· = e) := by
  intro rest x rest' hr
  rw [Export.bytes, List.append_assoc, List.cons_append, Export.read] at hr
  obtain h1 | h1 := (readName_reads e.name).cases (e.kind.code :: (unsigned e.index ++ rest))
  · rw [h1] at hr
    cases hr
  simp only [h1, readCode, ExportKind.ofCode?_code, Option.map_some] at hr
  cases (readWord_reads e.index).map hr
  exact ⟨rfl, rfl⟩

theorem Segment.read_reads (s : Segment) : Reads Segment.read s.bytes (· = s) := by
  intro rest x rest' hr
  obtain ⟨offset?, contents⟩ := s
  cases offset? with
  | none =>
    cases (readBlob_reads contents).map hr
    exact ⟨rfl, rfl⟩
  | some offset =>
    change readPlaced ((offset.bytes ++ blobBytes contents) ++ rest) = _ at hr
    rw [List.append_assoc, readPlaced] at hr
    obtain h1 | h1 := offset.read_reads.cases (blobBytes contents ++ rest)
    · rw [h1] at hr
      cases hr
    · simp only [h1] at hr
      cases (readBlob_reads contents).map hr
      exact ⟨rfl, rfl⟩

/-! ### Sections -/

/-- The bytes of a section. -/
def Section.bytes (s : Section) : List UInt8 := sectionBytes s.id s.payload

/-- The section of some items, if there are any. -/
def itemSections {α : Type} (id : UInt8) (bytes : α → List UInt8) (items : List α) : List Section :=
  if items.isEmpty then [] else [⟨id, vectorBytes bytes items⟩]

/-- The section of the start function, if there is one. -/
def startSections : Option Nat → List Section
  | some f => [⟨8, unsigned f⟩]
  | none => []

/-- A custom section. -/
def Custom.section (c : Custom) : Section := ⟨0, nameBytes c.name ++ c.contents⟩

/-- The custom sections. -/
def customSections (customs : List Custom) : List Section := customs.map Custom.section

/-- The sections of a module in the order in which they are written. -/
def Module.sections (m : Module) : List Section :=
  itemSections 1 FuncType.bytes m.types ++ itemSections 2 Import.bytes m.imports ++
    itemSections 3 unsigned m.functions ++ itemSections 5 Limits.bytes m.memories ++
    itemSections 6 Global.bytes m.globals ++ itemSections 7 Export.bytes m.exports ++
    startSections m.start? ++ itemSections 10 Body.bytes m.bodies ++
    itemSections 11 Segment.bytes m.segments ++ customSections m.customs

theorem flatMap_itemSections {α : Type} (id : UInt8) (bytes : α → List UInt8) (items : List α) :
    (itemSections id bytes items).flatMap Section.bytes = itemSection id bytes items := by
  unfold itemSections itemSection
  split
  · rfl
  · exact List.flatMap_singleton ..

theorem Module.bytes_eq (m : Module) : m.bytes = header ++ m.sections.flatMap Section.bytes := by
  have hcustoms : (customSections m.customs).flatMap Section.bytes =
      m.customs.flatMap fun c => sectionBytes 0 (nameBytes c.name ++ c.contents) := by
    rw [customSections, List.flatMap_map]
    rfl
  simp only [Module.bytes, Module.sections, List.flatMap_append, flatMap_itemSections, hcustoms,
    List.append_assoc]
  cases m.start? with
  | none => rfl
  | some f =>
    rw [startSections, List.flatMap_singleton]
    rfl

theorem Section.read_reads (s : Section) : Reads Section.read s.bytes (· = s) := by
  intro rest x rest' hr
  cases (readBlob_reads s.payload).map hr
  exact ⟨rfl, rfl⟩

/-- A written module is cut into its sections. -/
theorem sections?_bytes {m : Module} {ss : List Section} (h : sections? m.bytes = some ss) :
    ss = m.sections := by
  have hskip : skipHeader? m.bytes = some (m.sections.flatMap Section.bytes) := by
    rw [Module.bytes_eq]
    rfl
  simp only [sections?, hskip] at h
  exact readToEnd_flatMap m.sections (fun s _ => ⟨s.read_reads, List.cons_ne_nil _ _⟩) h

/-! ### Modules -/

@[simp]
theorem find?_itemSections {α : Type} (id id' : UInt8) (bytes : α → List UInt8) (items : List α) :
    (itemSections id' bytes items).find? (·.id == id) =
      if id' = id then (itemSections id' bytes items).head? else none := by
  unfold itemSections
  by_cases hid : id' = id <;> by_cases hitems : items.isEmpty <;> simp [hid, hitems]

@[simp]
theorem find?_startSections (id : UInt8) (start? : Option Nat) :
    (startSections start?).find? (·.id == id) =
      if 8 = id then (startSections start?).head? else none := by
  cases start? with
  | none => simp [startSections]
  | some f => by_cases hid : 8 = id <;> simp [startSections, hid]

@[simp]
theorem find?_customs {id : UInt8} (h : id ≠ 0) (customs : List Custom) :
    (customSections customs).find? (·.id == id) = none := by
  simp [customSections, Custom.section, h.symm]

/-- The items of a section that is there if there are any. -/
theorem sectionOr?_items {α β : Type} {read : Read α} {bytes : β → List UInt8} {R : β → α → Prop}
    (items : List β) {id : UInt8} {sections : List Section} {xs : List α}
    (hfind : sections.find? (·.id == id) = (itemSections id bytes items).head?)
    (hreads : ∀ y ∈ items, Reads read (bytes y) (R y))
    (h : sectionOr? (readVector itemLimit read) [] id sections = some xs) :
    List.Forall₂ R items xs := by
  rw [sectionOr?, hfind, itemSections] at h
  cases items with
  | nil =>
    cases h
    exact .nil
  | cons y items => exact (readVector_reads itemLimit hreads).readAll h

/-- The same items, if each is read back. -/
theorem sectionOr?_eq {α : Type} {read : Read α} {bytes : α → List UInt8} (items : List α)
    {id : UInt8} {sections : List Section} {xs : List α}
    (hfind : sections.find? (·.id == id) = (itemSections id bytes items).head?)
    (hreads : ∀ y, Reads read (bytes y) (· = y))
    (h : sectionOr? (readVector itemLimit read) [] id sections = some xs) : xs = items :=
  forall₂_eq (sectionOr?_items items hfind (fun y _ => hreads y) h)

/-- The start function. -/
theorem sectionOr?_start {f? start? : Option Nat} {sections : List Section}
    (hfind : sections.find? (·.id == 8) = (startSections start?).head?)
    (h : sectionOr? (fun bytes => (readWord bytes).map fun (f, rest) => (some f, rest)) none 8
      sections = some f?) : f? = start? := by
  rw [sectionOr?, hfind] at h
  cases start? with
  | none =>
    cases h
    rfl
  | some f =>
    have hreads : Reads (fun bytes => (readWord bytes).map fun (f, rest) => (some f, rest))
        (unsigned f) (· = some f) := by
      intro rest x rest' hr
      cases (readWord_reads f).map hr
      exact ⟨rfl, rfl⟩
    exact hreads.readAll h

theorem filter_itemSections {α : Type} {id : UInt8} (h : id ≠ 0) (bytes : α → List UInt8)
    (items : List α) : (itemSections id bytes items).filter (·.id == 0) = [] := by
  unfold itemSections
  split <;> simp [h]

theorem filter_sections (m : Module) :
    m.sections.filter (·.id == 0) = customSections m.customs := by
  have hstart : (startSections m.start?).filter (·.id == 0) = [] := by
    cases m.start? <;> rfl
  have hcustoms : (customSections m.customs).filter (·.id == 0) = customSections m.customs := by
    simp [customSections, Custom.section]
  simp [Module.sections, filter_itemSections, hstart, hcustoms]

theorem customs?_map : ∀ {customs cs : List Custom},
    (customSections customs).mapM (fun s => Custom.ofPayload? s.payload) = some cs → cs = customs
  | [], cs, h => by
    cases h
    rfl
  | c :: customs, cs, h => by
    rw [customSections, List.map_cons, List.mapM_cons] at h
    obtain ⟨c', hc, h⟩ := Option.bind_eq_some_iff.mp h
    obtain ⟨cs', hcs, h⟩ := Option.bind_eq_some_iff.mp h
    cases h
    rw [customs?_map hcs]
    cases (readName_reads c.name).map hc
    rfl

/-- The bodies that some bodies are read back as. -/
def Reread (bodies bodies' : List Body) : Prop :=
  List.Forall₂ (fun b b' => b.isLegible = true → b' = b) bodies bodies'

/-- A module that is accepted is the one that was written, but for bodies that are not legible. -/
theorem ofBytes?_bytes {m m' : Module} (h : Module.ofBytes? m.bytes = some m') :
    ∃ bodies, Reread m.bodies bodies ∧ m' = { m with bodies } := by
  unfold Module.ofBytes? at h
  split at h
  · cases h
  rename_i ss hss
  obtain rfl := sections?_bytes hss
  split at h
  swap
  · cases h
  unfold Module.ofSections? at h
  obtain ⟨types, htypes, h⟩ := Option.bind_eq_some_iff.mp h
  obtain ⟨imports, himports, h⟩ := Option.bind_eq_some_iff.mp h
  obtain ⟨functions, hfunctions, h⟩ := Option.bind_eq_some_iff.mp h
  obtain ⟨memories, hmemories, h⟩ := Option.bind_eq_some_iff.mp h
  obtain ⟨globals, hglobals, h⟩ := Option.bind_eq_some_iff.mp h
  obtain ⟨exports, hexports, h⟩ := Option.bind_eq_some_iff.mp h
  obtain ⟨start?, hstart, h⟩ := Option.bind_eq_some_iff.mp h
  obtain ⟨bodies, hbodies, h⟩ := Option.bind_eq_some_iff.mp h
  obtain ⟨segments, hsegments, h⟩ := Option.bind_eq_some_iff.mp h
  obtain ⟨customs, hcustoms, h⟩ := Option.bind_eq_some_iff.mp h
  cases h
  rw [customs?, filter_sections] at hcustoms
  cases sectionOr?_eq m.types (by simp [Module.sections]) FuncType.read_reads htypes
  cases sectionOr?_eq m.imports (by simp [Module.sections]) Import.read_reads himports
  cases sectionOr?_eq m.functions (by simp [Module.sections]) readWord_reads hfunctions
  cases sectionOr?_eq m.memories (by simp [Module.sections]) Limits.read_reads hmemories
  cases sectionOr?_eq m.globals (by simp [Module.sections]) Global.read_reads hglobals
  cases sectionOr?_eq m.exports (by simp [Module.sections]) Export.read_reads hexports
  cases sectionOr?_eq m.segments (by simp [Module.sections]) Segment.read_reads hsegments
  cases customs?_map hcustoms
  have hstart : start? = m.start? := sectionOr?_start (by simp [Module.sections]) hstart
  subst hstart
  exact ⟨bodies, sectionOr?_items m.bodies (by simp [Module.sections])
    (fun b _ => b.read_reads) hbodies, rfl⟩

end GuestCall.Wasm
