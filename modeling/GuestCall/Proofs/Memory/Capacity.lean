/-
# Room for some bytes

Whoever needs room for some bytes in a memory has it grow up to there. A memory of whole pages that is
large enough stays as it is, even if it is larger than it could have grown. Otherwise it grows by just as
many pages as it takes, whose bytes are zero; and where that is more than the host allows, or the memory
itself refuses, nothing changes. The error says how many bytes were missing, with one exception at the end of
all addresses.

Key definition: `Memory.pagesFor`.
Key theorems: `isLeast_pagesFor`, `byteAt_grow`, `ensure_refused`, `ensure_grows`, `room_is_made_exactly`,
`ensure_error`, `shortfall_is_told`.
-/
import GuestCall.Proofs.Memory.Styles
import GuestCall.Proofs.Wasm.Quiet
import Mathlib.Order.Bounds.Basic

namespace GuestCall.Memory

variable {m m' : Memory} {limit : UInt32} {bytes extra : Nat}

/-- How many pages it takes to have some bytes. -/
def pagesFor (bytes : Nat) : Nat := (bytes + pageSize - 1) / pageSize

theorem isLeast_pagesFor (bytes : Nat) : IsLeast {pages | bytes ≤ pages * pageSize} (pagesFor bytes) := by
  have hroom : bytes ≤ pagesFor bytes * pageSize := by
    unfold pagesFor pageSize
    omega
  refine ⟨hroom, fun pages hpages => ?_⟩
  have hpages : bytes ≤ pages * pageSize := hpages
  unfold pagesFor pageSize at *
  omega

/-- A memory of whole pages that is too small has too few of them. -/
theorem pages_lt_pagesFor (hwhole : m.size = m.pages * pageSize) (h : m.size < bytes) :
    m.pages < pagesFor bytes := by
  have hroom : bytes ≤ pagesFor bytes * pageSize := (isLeast_pagesFor bytes).1
  rw [hwhole] at h
  exact Nat.lt_of_mul_lt_mul_right (Nat.lt_of_lt_of_le h hroom)

/-! ### Growth -/

/-- There is nothing behind the end of a memory. -/
theorem byteAt_of_size_le {i : Nat} (h : m.size ≤ i) : m.byteAt i = 0 := dif_neg (Nat.not_lt.mpr h)

/-- Growth keeps every byte, and the ones behind the old end are zero. -/
theorem byteAt_grow (h : m.grow? extra = some m') (i : Nat) :
    m'.byteAt i = if i < m.size then m.byteAt i else 0 := by
  have hkept : m'.byteAt i = m.byteAt i := by
    obtain ⟨-, rfl⟩ := grow?_eq_some.mp h
    exact byteAt_appendPages m.bytes m.ceiling? extra i
  by_cases hi : i < m.size
  · rw [if_pos hi, hkept]
  · rw [if_neg hi, hkept, byteAt_of_size_le (Nat.le_of_not_lt hi)]

/-- A memory of whole pages grows to as many pages as it may have, and no others. -/
theorem grow_to {pages : Nat} (hwhole : m.size = m.pages * pageSize) (hle : m.pages ≤ pages) :
    if m.allows pages = true then ∃ m', m.grow? (pages - m.pages) = some m' ∧ m'.size = pages * pageSize
    else m.grow? (pages - m.pages) = none := by
  have hgrow : ∀ m', m.grow? (pages - m.pages) = some m' → m'.size = pages * pageSize := fun m' h => by
    rw [size_grow h, hwhole, ← Nat.add_mul, Nat.add_sub_of_le hle]
  unfold grow? at hgrow ⊢
  rw [Nat.add_sub_of_le hle] at hgrow ⊢
  by_cases hallows : m.allows pages = true
  · rw [if_pos hallows] at hgrow ⊢
    rw [if_pos hallows]
    exact ⟨_, rfl, hgrow _ rfl⟩
  · rw [if_neg hallows, if_neg hallows]

/-! ### Making room -/

theorem ensure_enough (h : bytes ≤ m.size) : m.ensure limit bytes = (.ok false, m) := if_pos h

/-- **Room is refused** beyond the limit of the host, or where the memory does not grow so far. -/
theorem ensure_refused (h : m.size < bytes)
    (hrefused : limit.toNat < pagesFor bytes ∨ m.grow? (pagesFor bytes - m.pages) = none) :
    ∃ requested fault, m.ensure limit bytes = (.error (.allocation requested fault), m) := by
  unfold ensure
  rw [if_neg (Nat.not_le.mpr h)]
  dsimp only
  by_cases hlimit : limit.toNat < pagesFor bytes
  · exact ⟨_, _, if_pos hlimit⟩
  · rw [if_neg (show ¬ limit.toNat < (bytes + pageSize - 1) / pageSize from hlimit),
      show m.grow? ((bytes + pageSize - 1) / pageSize - m.pages) = none from
        hrefused.resolve_left hlimit]
    exact ⟨_, _, rfl⟩

/-- **Room is made** by growing the memory. -/
theorem ensure_grows (h : m.size < bytes) (hlimit : pagesFor bytes ≤ limit.toNat)
    (hgrow : m.grow? (pagesFor bytes - m.pages) = some m') :
    m.ensure limit bytes = (.ok true, m') := by
  unfold ensure
  rw [if_neg (Nat.not_le.mpr h)]
  dsimp only
  rw [if_neg (show ¬ limit.toNat < (bytes + pageSize - 1) / pageSize from Nat.not_lt.mpr hlimit),
    show m.grow? ((bytes + pageSize - 1) / pageSize - m.pages) = some m' from hgrow]

/-- Growing the memory up to a number of bytes works, or there is no memory. -/
theorem ensure_grown (m : Memory) (limit : UInt32) (bytes : Nat) :
    ∃ result m', m.ensure limit bytes = (result, m') ∧ m.Grown m' ∧
      (∀ did, result = .ok did → bytes ≤ m'.size) ∧ ∀ e, result = .error e → e.kind = .allocation := by
  unfold ensure
  by_cases hle : bytes ≤ m.size
  · rw [if_pos hle]
    exact ⟨_, _, rfl, .refl m, fun _ _ => hle, fun _ he => (nomatch he)⟩
  rw [if_neg hle]
  dsimp only
  split
  · exact ⟨_, _, rfl, .refl m, nofun, fun e he => by cases he; rfl⟩
  split
  · rename_i grown hgrow
    refine ⟨_, _, rfl, grown_grow hgrow, fun _ _ => ?_, fun _ he => (nomatch he)⟩
    have hsize := size_grow hgrow
    have hpages : m.pages * pageSize ≤ m.size := Nat.div_mul_le_self ..
    rw [hsize, Nat.sub_mul]
    unfold pageSize at *
    omega
  · exact ⟨_, _, rfl, .refl m, nofun, fun e he => by cases he; rfl⟩

/-- Room that was made is there. -/
theorem ensure_again {grew : Bool} (h : m.ensure limit bytes = (.ok grew, m')) :
    m'.ensure limit bytes = (.ok false, m') := by
  obtain ⟨result, m'', hensure, -, hroom, -⟩ := m.ensure_grown limit bytes
  cases h.symm.trans hensure
  exact ensure_enough (hroom grew rfl)

/-- **Room is made by as few pages as it takes.** Whoever needs room for some bytes in a memory of whole
pages, with any limit and in either style, leaves a memory that is large enough as it is, even if it exceeds
the limit. Otherwise let `pages` be the least number of pages that holds the bytes: the memory has fewer. If
they are beyond the limit, or the memory may not have so many, there is an allocation error and the memory
stays as it is. Else it has just as many afterwards, the old bytes are in place, and the new ones are zero; the
pages that it grows by are a number that a word holds. Where there is room or room was made, there is no need
to grow any more. -/
theorem room_is_made_exactly (style : AccessStyle) (limit : UInt32) {m : Memory}
    (hwhole : m.size = m.pages * pageSize) (bytes : Nat) :
    (bytes ≤ m.size → m.access style limit (.ensure bytes) = (.ok (.grew false), m)) ∧
    (m.size < bytes → ∃ pages, IsLeast {pages | bytes ≤ pages * pageSize} pages ∧ m.pages < pages ∧
      if limit.toNat < pages ∨ m.allows pages = false then
        ∃ requested fault,
          m.access style limit (.ensure bytes) = (.error (.allocation requested fault), m)
      else (pages - m.pages).toUInt32.toNat = pages - m.pages ∧
        ∃ m', m.access style limit (.ensure bytes) = (.ok (.grew true), m') ∧
          m'.size = pages * pageSize ∧ m'.ceiling? = m.ceiling? ∧
          ∀ i, m'.byteAt i = if i < m.size then m.byteAt i else 0) ∧
    ∀ answer m', m.access style limit (.ensure bytes) = (.ok answer, m') →
      m'.access style limit (.ensure bytes) = (.ok (.grew false), m') := by
  have haccess : ∀ {m₁ m₂ : Memory} {result}, m₁.ensure limit bytes = (result, m₂) →
      m₁.access style limit (.ensure bytes) = (result.map .grew, m₂) := fun hensure => by
    rw [access, hensure]
  refine ⟨fun hle => haccess (ensure_enough hle), fun hlt => ?_, fun answer m' hok => ?_⟩
  · have hpages := pages_lt_pagesFor hwhole hlt
    have hgrow := grow_to hwhole (Nat.le_of_lt hpages)
    refine ⟨pagesFor bytes, isLeast_pagesFor bytes, hpages, ?_⟩
    by_cases hrefused : limit.toNat < pagesFor bytes ∨ m.allows (pagesFor bytes) = false
    · rw [if_pos hrefused]
      obtain ⟨requested, fault, hensure⟩ := ensure_refused hlt <| hrefused.imp_right fun hallows => by
        rwa [if_neg (Bool.eq_false_iff.mp hallows)] at hgrow
      exact ⟨requested, fault, haccess hensure⟩
    rw [if_neg hrefused]
    obtain ⟨hlimit, hallows⟩ := not_or.mp hrefused
    rw [if_pos (Bool.eq_true_of_not_eq_false hallows)] at hgrow
    obtain ⟨m', hgrow, hsize⟩ := hgrow
    have hword : pagesFor bytes - m.pages < 2 ^ 32 := by
      have := limit.toNat_lt
      omega
    exact ⟨UInt32.toNat_ofNat_of_lt' hword, m', haccess (ensure_grows hlt (Nat.le_of_not_lt hlimit) hgrow),
      hsize, (grown_grow hgrow).ceiling, byteAt_grow hgrow⟩
  · rcases hensure : m.ensure limit bytes with ⟨e | grew, m''⟩
    · cases (haccess hensure).symm.trans hok
    · cases (haccess hensure).symm.trans hok
      exact haccess (ensure_again hensure)

/-- A memory of one page that may have two grows by one of them, and is refused a third one. -/
theorem second_page_is_made : ∃ m m' : Memory, m.size = m.pages * pageSize ∧ m.byteAt 5 = 7 ∧
    m.access .native 3 (.ensure 65537) = (.ok (.grew true), m') ∧ m'.size = 2 * pageSize ∧
    m'.byteAt 5 = 7 ∧ m'.byteAt 65536 = 0 ∧
    m'.access .native 3 (.ensure 65537) = (.ok (.grew false), m') ∧
    ∃ requested fault, m'.access .native 3 (.ensure 131073) = (.error (.allocation requested fault), m') := by
  let m : Memory := (zeroed 1 (some 2)).write 5 [7].toByteArray
  have hsize : m.size = 65536 := (size_write ..).trans (size_zeroed ..)
  have hpages : m.pages = 1 := by rw [pages, hsize]; rfl
  have hwhole : m.size = m.pages * pageSize := by rw [hsize, hpages]; rfl
  have hceiling : m.ceiling? = some 2 := ceiling_write ..
  have hbyte : m.byteAt 5 = 7 := by
    rw [byteAt_write (by rw [size_zeroed]; decide)]
    rfl
  obtain ⟨-, hmade, hagain⟩ := room_is_made_exactly .native 3 hwhole 65537
  obtain ⟨pages, hleast, -, hmade⟩ := hmade (by rw [hsize]; decide)
  obtain rfl : pages = 2 := hleast.unique (isLeast_pagesFor 65537)
  rw [if_neg (by rw [allows, hceiling]; decide)] at hmade
  obtain ⟨-, m', hgrown, hsize', hceiling', hbytes⟩ := hmade
  have hpages' : m'.pages = 2 := by rw [Memory.pages, hsize']; rfl
  obtain ⟨-, hrefused, -⟩ := room_is_made_exactly .native 3 (m := m') (by rw [hsize', hpages']) 131073
  obtain ⟨pages, hleast, -, hrefused⟩ := hrefused (by rw [hsize']; decide)
  obtain rfl : pages = 3 := hleast.unique (isLeast_pagesFor 131073)
  rw [if_pos (by rw [allows, hceiling', hceiling]; decide)] at hrefused
  refine ⟨m, m', hwhole, hbyte, hgrown, hsize', ?_, ?_, hagain _ m' hgrown, hrefused⟩
  · rw [hbytes, hsize, if_pos (by decide), hbyte]
  · rw [hbytes, hsize, if_neg (by decide)]

/-! ### What is missing -/

/-- The two ways in which room is refused, and how many bytes each of them says were asked for. -/
theorem ensure_error {requested : UInt32} {fault : AllocationFault}
    (h : m.ensure limit bytes = (.error (.allocation requested fault), m')) : m.size < bytes ∧ m' = m ∧
      (limit.toNat < pagesFor bytes ∧ requested = (min (bytes - m.size) 0xFFFFFFFF).toUInt32 ∧
          fault = .pageLimit (pagesFor bytes) limit.toNat ∨
        pagesFor bytes ≤ limit.toNat ∧ requested = (bytes - m.size).toUInt32 ∧ fault = .growthRefused) := by
  unfold ensure at h
  by_cases hle : bytes ≤ m.size
  · rw [if_pos hle] at h
    cases h
  rw [if_neg hle] at h
  dsimp only at h
  change (if limit.toNat < pagesFor bytes then _ else _) = _ at h
  by_cases hlimit : limit.toNat < pagesFor bytes
  · rw [if_pos hlimit] at h
    cases h
    exact ⟨Nat.lt_of_not_le hle, rfl, .inl ⟨hlimit, rfl, rfl⟩⟩
  · rw [if_neg hlimit] at h
    split at h
    · cases h
    · cases h
      exact ⟨Nat.lt_of_not_le hle, rfl, .inr ⟨Nat.le_of_not_lt hlimit, rfl, rfl⟩⟩

/-- **Whoever is refused room learns how much is missing.** With any limit that can be configured and in
either style, the error says how many bytes the memory lacks, or the greatest word where they are more. There
is one exception: an empty memory is asked for all addresses, the host would let it have them, and the memory
itself refuses. Then it lacks 2^32 bytes, which is zero as a word. -/
theorem shortfall_is_told (style : AccessStyle) {limit : UInt32} (hlimit : limit.toNat ≤ pageCeiling)
    {m m' : Memory} {bytes : Nat} {requested : UInt32} {fault : AllocationFault}
    (h : m.access style limit (.ensure bytes) = (.error (.allocation requested fault), m')) :
    m.size < bytes ∧
    if m.size = 0 ∧ bytes = 2 ^ 32 ∧ limit.toNat = pageCeiling then requested = 0 ∧ fault = .growthRefused
    else requested.toNat = min (bytes - m.size) 0xFFFFFFFF := by
  have hensure : m.ensure limit bytes = (.error (.allocation requested fault), m') := by
    rw [access] at h
    rcases hensure : m.ensure limit bytes with ⟨e | grew, m''⟩ <;> rw [hensure] at h <;> cases h
    rfl
  obtain ⟨hlt, -, hpaths⟩ := ensure_error hensure
  refine ⟨hlt, ?_⟩
  have hroom : bytes ≤ pagesFor bytes * pageSize := (isLeast_pagesFor bytes).1
  rcases hpaths with ⟨hpages, rfl, rfl⟩ | ⟨hpages, rfl, rfl⟩
  · -- more pages than the limit: the bytes are more than all addresses if the limit is all pages
    have hcommon : ¬ (m.size = 0 ∧ bytes = 2 ^ 32 ∧ limit.toNat = pageCeiling) := by
      rintro ⟨-, rfl, hall⟩
      rw [hall] at hpages
      exact absurd hpages (by decide)
    rw [if_neg hcommon]
    exact UInt32.toNat_ofNat_of_lt' (by unfold UInt32.size; omega)
  · -- no more pages than there can be: the bytes are no more than all addresses
    have hall : bytes ≤ 2 ^ 32 := by
      unfold pageSize pageCeiling at *
      omega
    by_cases hnone : m.size = 0 ∧ bytes = 2 ^ 32 ∧ limit.toNat = pageCeiling
    · rw [if_pos hnone]
      obtain ⟨hsize, hbytes, -⟩ := hnone
      rw [hsize, hbytes]
      exact ⟨rfl, rfl⟩
    · have hlimit' : bytes = 2 ^ 32 → limit.toNat = pageCeiling := by
        rintro rfl
        exact Nat.le_antisymm hlimit hpages
      have hword : bytes - m.size < 2 ^ 32 := by omega
      rw [if_neg hnone, Nat.min_eq_left (by omega)]
      exact UInt32.toNat_ofNat_of_lt' hword

/-- A memory without pages that may have one page, asked for two pages and for all addresses. -/
theorem all_addresses_seem_not_missing :
    (∃ requested fault, ((zeroed 0 (some 1)).access .native 65536 (.ensure 131072)).1 =
      .error (.allocation requested fault) ∧ requested.toNat = 131072) ∧
    ((zeroed 0 (some 1)).access .native 65536 (.ensure (2 ^ 32))).1 =
      .error (.allocation 0 .growthRefused) := by
  have hempty : (zeroed 0 (some 1)).size = 0 := size_zeroed 0 (some 1)
  have hpages : (zeroed 0 (some 1)).pages = 0 := by rw [pages, hempty]; rfl
  have hlimit : (65536 : UInt32).toNat ≤ pageCeiling := by decide
  have hrefused : ∀ bytes, pageSize < bytes → ∃ requested fault,
      (zeroed 0 (some 1)).access .native 65536 (.ensure bytes) =
        (.error (.allocation requested fault), zeroed 0 (some 1)) := fun bytes hbytes => by
    have hmany : ¬ pagesFor bytes ≤ 1 := by
      unfold pagesFor pageSize at *
      omega
    have hgrow : (zeroed 0 (some 1)).grow? (pagesFor bytes - (zeroed 0 (some 1)).pages) = none := by
      rw [grow?, hpages, Nat.zero_add, Nat.sub_zero, if_neg]
      simpa [allows, zeroed] using hmany
    have hmore : (zeroed 0 (some 1)).size < bytes := by
      rw [hempty]
      exact Nat.zero_lt_of_lt hbytes
    obtain ⟨requested, fault, hensure⟩ : ∃ requested fault, (zeroed 0 (some 1)).ensure 65536 bytes =
        (.error (.allocation requested fault), zeroed 0 (some 1)) := ensure_refused hmore (.inr hgrow)
    exact ⟨requested, fault, by rw [access, hensure]; rfl⟩
  obtain ⟨requested, fault, htwo⟩ := hrefused 131072 (by decide)
  obtain ⟨requested', fault', hall⟩ := hrefused (2 ^ 32) (by decide)
  have htold := (shortfall_is_told .native hlimit htwo).2
  have hcut := (shortfall_is_told .native hlimit hall).2
  rw [if_neg (by rw [hempty]; decide), hempty] at htold
  rw [if_pos (by rw [hempty]; decide)] at hcut
  obtain ⟨rfl, rfl⟩ := hcut
  rw [htwo, hall]
  exact ⟨⟨_, _, rfl, htold⟩, rfl⟩

end GuestCall.Memory
