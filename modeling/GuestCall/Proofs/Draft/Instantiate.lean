/-
# Instances of finished drafts

A finished draft can always be instantiated: it imports nothing, its static data lies in the first page,
and it shows its memory. The heap of the instance starts empty, and its memory holds the static data.

Key theorems: `Draft.Loads.instantiates`, `Draft.Loads.fresh_holds`.
-/
import GuestCall.Proofs.Guest.Heap

namespace GuestCall

namespace Memory

/-- The memory of a guest before anything is placed in it. -/
theorem isGuest_zeroed : (zeroed 1 (some 256)).IsGuest :=
  ⟨rfl, 1, size_zeroed .., Nat.le_refl _, by decide⟩

end Memory

namespace Draft

open Wasm

variable {d : Draft} {m : GuestModule} {p : Program}

theorem Image.memory_eq (h : d.Image p) : p.freshMemory = .zeroed 1 (some 256) := by
  unfold Program.freshMemory
  rw [h.memory]
  rfl

/-- The static data of a finished draft fits into the first page, and stands there. -/
theorem place_segments (memory : Memory) (hd : d.data.stop ≤ heapStart)
    (hsize : memory.size = pageSize) : ∃ memory', placeSegments? d.segments memory = some memory' ∧
      memory'.size = memory.size ∧ memory'.ceiling? = memory.ceiling? ∧
      memory'.Holds dataStart d.data.contents := by
  have hstart : dataStart.toUInt32.toNat = dataStart := by decide
  unfold segments
  split
  · rename_i hempty
    rw [List.isEmpty_iff.mp hempty]
    exact ⟨memory, rfl, rfl, rfl, by rw [hsize]; decide, rfl⟩
  · have hfits : dataStart.toUInt32.toNat + d.data.contents.length ≤ memory.size := by
      unfold StaticData.stop at hd
      rw [hstart, hsize]
      unfold heapStart at hd
      unfold pageSize
      omega
    refine ⟨memory.write dataStart.toUInt32.toNat d.data.contents.toByteArray, ?_,
      Memory.size_write .., Memory.ceiling_write .., ?_⟩
    · simp only [placeSegments?, Segment.place?, ConstExpr.val?, Val.ofCore]
      rw [if_pos hfits]
    · rw [hstart] at hfits ⊢
      exact Memory.holds_write hfits

theorem Loads.stop_le (h : d.Loads m) : d.data.stop ≤ heapStart := by
  obtain ⟨name, bytes, hfinish, -⟩ := h.loaded
  obtain ⟨hstop, -, -⟩ := finish_eq_ok.mp hfinish
  exact hstop

/-- **A finished draft has instances**: with one page of memory, which holds its static data, and with an empty
heap. -/
theorem Loads.instantiates (h : d.Loads m) (c : Config) :
    ∃ i memory, Instance.ofModule m c = .ok i ∧
      i.At m (guestStore memory heapStart.toUInt32 0) ∧ memory.IsGuest ∧
      memory.size = pageSize ∧ memory.Holds dataStart d.data.contents := by
  obtain ⟨himage, -⟩ := h.image
  have hzeroed := Memory.isGuest_zeroed
  obtain ⟨memory, hplace, hsize, hceiling, hholds⟩ :=
    place_segments (.zeroed 1 (some 256)) h.stop_le (Memory.size_zeroed ..)
  have hstore : m.program.freshStore = .ok (guestStore memory heapStart.toUInt32 0) := by
    unfold Program.freshStore
    rw [himage.imports, himage.memory_eq, himage.segments, hplace, himage.start, himage.globals]
    rfl
  have hshows : m.program.showsMemory memoryExport = true := by
    unfold Program.showsMemory
    rw [himage.exports, exports, List.any_cons, beq_self_eq_true]
    rfl
  refine ⟨⟨m, guestStore memory heapStart.toUInt32 0, c.maxMemoryPages, 0, memory.size⟩, memory, ?_,
    ⟨rfl, rfl⟩, ⟨hceiling.trans hzeroed.ceiling, ?_⟩, hsize.trans (Memory.size_zeroed ..), hholds⟩
  · unfold Instance.ofModule
    rw [hstore]
    dsimp only
    rw [if_pos hshows]
    rfl
  · rw [hsize]
    exact hzeroed.size

/-- A fresh instance holds the static data. -/
theorem Loads.fresh_holds (h : d.Loads m) {c : Config} {i : Instance} (hi : Instance.ofModule m c = .ok i) :
    i.store.memory.Holds dataStart d.data.contents := by
  obtain ⟨i', memory, hi', hat, -, -, hholds⟩ := h.instantiates c
  obtain rfl : i = i' := Except.ok.inj (hi.symm.trans hi')
  rwa [hat.store, memory_guestStore]

end Draft

end GuestCall
