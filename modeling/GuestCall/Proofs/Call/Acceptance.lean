/-
# Descriptors that are accepted

A descriptor is accepted on its own terms. Its capacity has to have a size that an address can have, and it has to
cover the length; that the memory has any of it is not asked. So whatever three words a guest writes, if they fit
each other they are accepted, in a memory of any size with room for the words, and the count of elements that the
host then makes room for is the one that stands there. Only reading tells. Where the memory does not have all of
the data, an element that it does not have is out of bounds, or the text as a whole; an array without elements
is read wherever it is said to be.

Key definition: `Descriptor.beyond`, what comes of data that the memory does not have.
Key theorems: `adoptBuffer_put`, `decodeResult_beyond`, `descriptors_are_taken_on_trust`.
-/
import GuestCall.Proofs.Call.Coverage
import GuestCall.Proofs.Call.Decoding
import GuestCall.Proofs.Draft.Heap

namespace GuestCall

open Ledger GuestCall.Action

namespace Descriptor

/-- What comes of data that the memory does not have all of. -/
def beyond (m : Memory) (d : Descriptor) : ReturnKind → Except BindError Value
  | .vec kind =>
    if d.len = 0 then .ok (.array (.ofElements kind [])) else .error (d.uncovered m (.vec kind))
  | ret => .error (d.uncovered m ret)

end Descriptor

variable {style : AccessStyle} {name : String} {ret : ReturnKind} {width : Nat} {b b' : Books Instance}
  {p : UInt32} {d : Descriptor}

/-- What is handed on of a descriptor that is accepted. -/
theorem adoptBuffer_hands {data : Handle} {count : UInt32}
    (hread : Descriptor.read style b.guest.store.memory p = .ok d)
    (h : adoptBuffer style name width (.i32 p) b = (.ok (data, count), b')) :
    data.ptr = d.ptr ∧ count = d.len ∧ data.len.toNat = d.cap.toNat * width ∧
      count.toNat * width ≤ data.len.toNat ∧ b'.guest.store.memory = b.guest.store.memory := by
  obtain ⟨address, d', haddress, -, hread', hfits, hlen, hr, rfl⟩ := adoptBuffer_eq_ok.mp h
  cases haddress
  obtain rfl : d = d' := Except.ok.inj (hread.symm.trans hread')
  cases hr
  have hroom : (d.dataHandle width b.ledger.nextId b.guest.observe.epoch).len.toNat = d.cap.toNat * width :=
    UInt32.toNat_ofNat_of_lt' (d.fits_iff.mp hfits)
  refine ⟨rfl, rfl, hroom, ?_, b.memory_followed d width p⟩
  rw [hroom]
  exact Nat.mul_le_mul_right _ (UInt32.le_iff_toNat_le.mp hlen)

/-- **Any three words that fit each other are accepted**, in a memory of any size. -/
theorem adoptBuffer_put (style : AccessStyle) (name : String) (hfits : d.Fits width) (hlen : d.len ≤ d.cap)
    {m : Memory} (hp : p ≠ 0) (hroom : p.toNat + 12 ≤ m.size) (hsize : m.size < 2 ^ 32)
    (hmemory : b.guest.store.memory = m.putDescriptor p.toNat d) :
    ∃ data b', adoptBuffer style name width (.i32 p) b = (.ok (data, d.len), b') ∧ data.ptr = d.ptr ∧
      b'.guest.store.memory.size = m.size := by
  have hread : Descriptor.read style b.guest.store.memory p = .ok d := by
    rw [hmemory]
    exact Descriptor.read_putDescriptor style d hroom hsize
  refine ⟨_, _, adoptBuffer_eq_ok.mpr ⟨p, d, rfl, hp, hread, hfits, hlen, rfl, rfl⟩, rfl, ?_⟩
  rw [b.memory_followed, hmemory, Memory.size_putDescriptor]

/-- **What comes of an accepted descriptor**: its data is read, or what the memory does not have of it. -/
theorem decodeResult_beyond (name : String) (hret : ret.isBuffer = true)
    (hsize : b.guest.store.memory.size < 2 ^ 32) (hp : p ≠ 0)
    (hread : Descriptor.read style b.guest.store.memory p = .ok d) (hfits : d.Fits ret.elementWidth)
    (hlen : d.len ≤ d.cap) :
    let m := b.guest.store.memory
    let decoded := (decodeResult style name ret [.i32 p] b).1
    (d.ptr.toNat + d.len.toNat * ret.elementWidth ≤ m.size → d.Reads name m ret decoded) ∧
      (m.size < d.ptr.toNat + d.len.toNat * ret.elementWidth → decoded = d.beyond m ret) := by
  intro m decoded
  have hadopt := adoptBuffer_eq style name ret.elementWidth hp hread
  rw [if_pos hfits, if_neg (UInt32.not_lt.mpr hlen)] at hadopt
  have hstays : d.StaysBelow m ret := fun kind _ => Memory.roomFor_end kind hsize d.ptr.toNat_lt
  obtain ⟨hreads, hshort⟩ := decodeResult_reads hret hadopt rfl (b.memory_followed d _ p) hsize.le
  have hcovers : d.Covered m ret → d.Reads name m ret decoded := by
    intro hcovered
    obtain ⟨result, hresult, hreads⟩ := hreads hcovered
    rwa [show decoded = result from congrArg Prod.fst hresult]
  have hmisses : ¬ d.Covered m ret → decoded = .error (d.uncovered m ret) := fun hcovered =>
    congrArg Prod.fst (hshort hcovered hstays)
  refine ⟨fun hinside => hcovers (.inl hinside), fun houtside => ?_⟩
  have houtside : ¬ d.ptr.toNat + d.len.toNat * ret.elementWidth ≤ m.size := Nat.not_le.mpr houtside
  cases ret with
  | unit | scalar => cases hret
  | str | bigDecimal => exact hmisses fun hcovered => hcovered.elim houtside nofun
  | vec kind =>
    change decoded = if d.len = 0 then .ok (.array (.ofElements kind [])) else .error (d.uncovered m (.vec kind))
    by_cases hempty : d.len = 0
    · have hreads := hcovers (.inr ⟨hempty, kind, rfl⟩)
      rw [if_pos hempty]
      generalize decoded = result at hreads ⊢
      cases hreads with
      | vec =>
        rw [hempty]
        rfl
      | noText buffer => rcases buffer with buffer | buffer <;> cases buffer
    · rw [if_neg hempty]
      exact hmisses fun hcovered => hcovered.elim houtside fun h => hempty h.1

/-- **Descriptors are taken on trust.** One is accepted just if its address is not zero, it is read, its capacity
has a size that an address can have, and it covers the length. Then the host goes by its words, and all that
bounds the count of elements is that capacity: any three words that fit each other are accepted, however far
they reach beyond the memory that they stand in. What the memory does not have shows only when it is read. -/
theorem descriptors_are_taken_on_trust (style : AccessStyle) (name : String) :
    (∀ width raw b, (∃ r b', adoptBuffer style name width raw b = (.ok r, b')) ↔
      ∃ p d, raw = .i32 p ∧ p ≠ 0 ∧ Descriptor.read style b.guest.store.memory p = .ok d ∧
        d.cap.toNat * width < 2 ^ 32 ∧ d.len ≤ d.cap) ∧
    (∀ width p b d data count b', Descriptor.read style b.guest.store.memory p = .ok d →
      adoptBuffer style name width (.i32 p) b = (.ok (data, count), b') →
      data.ptr = d.ptr ∧ count = d.len ∧ data.len.toNat = d.cap.toNat * width ∧
        count.toNat * width ≤ data.len.toNat ∧ b'.guest.store.memory = b.guest.store.memory) ∧
    (∀ width (d : Descriptor), d.cap.toNat * width < 2 ^ 32 → d.len ≤ d.cap →
      ∀ (b : Books Instance) (m : Memory) (p : UInt32), p ≠ 0 → p.toNat + 12 ≤ m.size → m.size < 2 ^ 32 →
      b.guest.store.memory = m.putDescriptor p.toNat d →
      ∃ data b', adoptBuffer style name width (.i32 p) b = (.ok (data, d.len), b') ∧ data.ptr = d.ptr ∧
        b'.guest.store.memory.size = m.size) ∧
    ∀ (ret : ReturnKind) (b : Books Instance) p d, ret.isBuffer = true →
      b.guest.store.memory.size < 2 ^ 32 → p ≠ 0 →
      Descriptor.read style b.guest.store.memory p = .ok d → d.cap.toNat * ret.elementWidth < 2 ^ 32 →
      d.len ≤ d.cap →
      let m := b.guest.store.memory
      let decoded := (decodeResult style name ret [.i32 p] b).1
      (d.ptr.toNat + d.len.toNat * ret.elementWidth ≤ m.size → d.Reads name m ret decoded) ∧
        (m.size < d.ptr.toNat + d.len.toNat * ret.elementWidth → decoded = d.beyond m ret) := by
  refine ⟨fun width raw b => ⟨?_, ?_⟩, fun width p b d data count b' => ?_, fun width d hfits hlen => ?_,
    fun ret b p d hret hsize hp hread hfits => ?_⟩
  · rintro ⟨r, b', h⟩
    obtain ⟨p, d, hraw, hp, hread, hfits, hlen, -, -⟩ := adoptBuffer_eq_ok.mp h
    exact ⟨p, d, hraw, hp, hread, d.fits_iff.mp hfits, hlen⟩
  · rintro ⟨p, d, hraw, hp, hread, hfits, hlen⟩
    exact ⟨_, _, adoptBuffer_eq_ok.mpr ⟨p, d, hraw, hp, hread, d.fits_iff.mpr hfits, hlen, rfl, rfl⟩⟩
  · exact adoptBuffer_hands
  · intro b m p hp hroom hsize hmemory
    exact adoptBuffer_put style name (d.fits_iff.mpr hfits) hlen hp hroom hsize hmemory
  · exact decodeResult_beyond name hret hsize hp hread (d.fits_iff.mpr hfits)

/-- Two descriptors in a memory of one page. One says that an empty array is behind the page, and the array is
decoded. The other one says that there is one more byte than the page has, and the count is handed on. -/
theorem descriptors_beyond_a_page : ∃ memory memory' : Memory, memory.size = 65536 ∧ memory'.size = 65536 ∧
    Descriptor.read .native memory 16 = .ok ⟨65537, 0, 0⟩ ∧
    (decodeResult .native "trust" (.vec .u8) [.i32 16] ⟨.empty, idle memory⟩).1 =
      .ok (.array (.ofElements .u8 [])) ∧
    (decodeResult .native "trust" .str [.i32 16] ⟨.empty, idle memory⟩).1 =
      .error (.outOfBounds 65537 0 65536) ∧
    (∃ data b', adoptBuffer .native "trust" 1 (.i32 16) ⟨.empty, idle memory'⟩ = (.ok (data, 65537), b') ∧
      data.ptr = 0 ∧ b'.guest.store.memory.size = 65536) ∧
    (decodeResult .native "trust" (.vec .u8) [.i32 16] ⟨.empty, idle memory'⟩).1 =
      .error (.outOfBounds 65536 1 65536) := by
  obtain ⟨-, -, haccepts, hdecodes⟩ := descriptors_are_taken_on_trust .native "trust"
  obtain ⟨page, hpage⟩ : ∃ page : Memory, page.size = 65536 := ⟨.zeroed 1 none, Memory.size_zeroed 1 none⟩
  have hroom : (16 : UInt32).toNat + 12 ≤ page.size := by
    rw [hpage]
    decide
  have hshort : page.size < 2 ^ 32 := by
    rw [hpage]
    decide
  have hstands : ∀ d, ∃ memory : Memory, memory = page.putDescriptor (16 : UInt32).toNat d ∧
      memory.size = 65536 ∧ Descriptor.read .native memory 16 = .ok d := fun d =>
    ⟨_, rfl, (Memory.size_putDescriptor ..).trans hpage, Descriptor.read_putDescriptor .native d hroom hshort⟩
  obtain ⟨memory, -, hsize, hread⟩ := hstands ⟨65537, 0, 0⟩
  obtain ⟨memory', hput, hsize', hread'⟩ := hstands ⟨0, 65537, 65537⟩
  have hmemory : ∀ memory, (⟨.empty, idle memory⟩ : Books Instance).guest.store.memory = memory := fun _ => rfl
  have hempty := fun ret hret hfits => (hdecodes ret ⟨.empty, idle memory⟩ 16 ⟨65537, 0, 0⟩ hret
    (by rw [hmemory, hsize]; decide) (by decide) hread hfits (by decide)).2
  have hlong := (hdecodes (.vec .u8) ⟨.empty, idle memory'⟩ 16 ⟨0, 65537, 65537⟩ rfl
    (by rw [hmemory, hsize']; decide) (by decide) hread' (by decide) (by decide)).2
  have haccepted := haccepts 1 ⟨0, 65537, 65537⟩ (by decide) (by decide) ⟨.empty, idle memory'⟩ page 16
    (by decide) hroom hshort hput
  rw [hpage] at haccepted
  refine ⟨memory, memory', hsize, hsize', hread, ?_, ?_, haccepted, ?_⟩
  · exact hempty (.vec .u8) rfl (by decide) (by rw [hmemory, hsize]; decide)
  · rw [hempty .str rfl (by decide) (by rw [hmemory, hsize]; decide)]
    change Except.error (BindError.outOfBounds 65537 0 memory.size) = _
    rw [hsize]
  · rw [hlong (by rw [hmemory, hsize']; decide)]
    change Except.error (BindError.outOfBounds (0 + memory'.roomFor .u8 0 * 1) 1 memory'.size) = _
    rw [Memory.roomFor, hsize']
    rfl

end GuestCall
