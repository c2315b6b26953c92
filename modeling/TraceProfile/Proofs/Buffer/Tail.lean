import TraceProfile.Buffer.Window

/-!
# Windows that have moved on

When new entries are written the oldest ones of a window go. What is left is a tail of the window:
fewer entries, but each at the position where it was (`Window.get?_drop`, `Window.slots_drop`).
-/

namespace TraceProfile.Window

/-- The window after its oldest entries have gone. -/
def drop (w : Window) (count : Nat) : Window :=
  .ofEntries (w.start + count) (w.entries.extract count)

variable {w : Window}

theorem slots_drop (w : Window) (count : Nat) : (w.drop count).slots = w.slots.drop count := by
  rw [(w.drop count).slots_eq, w.slots_eq]
  exact Slot.number_extract count w.start w.entries

theorem slotsFrom_eq_slots_drop (w : Window) (position : Nat) :
    w.slotsFrom position = (w.drop (position - w.start)).slots := by
  rw [slotsFrom_eq_drop, slots_drop]

/-! ## Entries by their positions -/

theorem get?_start_add (w : Window) (i : Nat) : w.get? (w.start + i) = w.entries[i]? := by
  rw [get?, if_pos (Nat.le_add_right w.start i), Nat.add_sub_cancel_left]

theorem get?_eq_some_iff {position : Nat} {entry : Entry} :
    w.get? position = some entry ↔
      ∃ i, position = w.start + i ∧ w.entries[i]? = some entry := by
  constructor
  · intro h
    rw [get?] at h
    split at h
    · next hle => exact ⟨position - w.start, by omega, h⟩
    · exact absurd h (by simp)
  · rintro ⟨i, rfl, hentry⟩
    rw [get?_start_add, hentry]

theorem exists_get?_iff {position : Nat} :
    (∃ entry, w.get? position = some entry) ↔ w.start ≤ position ∧ position < w.stop := by
  simp only [get?_eq_some_iff, stop]
  constructor
  · rintro ⟨entry, i, rfl, hentry⟩
    obtain ⟨hi, -⟩ := Array.getElem?_eq_some_iff.1 hentry
    omega
  · rintro ⟨hstart, hstop⟩
    have hi : position - w.start < w.entries.size := by omega
    exact ⟨w.entries[position - w.start], position - w.start, by omega,
      Array.getElem?_eq_getElem hi⟩

theorem getElem?_slots (w : Window) (i : Nat) :
    w.slots[i]? = w.entries[i]?.map fun entry => ⟨w.start + i, entry⟩ := by
  rw [w.slots_eq, Slot.number_eq_mapIdx, List.getElem?_mapIdx, Array.getElem?_toList]

theorem length_slots (w : Window) : w.slots.length = w.entries.size := by
  rw [w.slots_eq, Slot.number_eq_mapIdx, List.length_mapIdx, Array.length_toList]

theorem get?_start_add_of_lt {i : Nat} (hi : i < w.entries.size) :
    w.get? (w.start + i) = some w.entries[i] := by
  rw [get?_start_add, Array.getElem?_eq_getElem hi]

/-- The rest of a window starts with the entry that stands there. -/
theorem drop_slots_eq_cons {i : Nat} {entry : Entry} (h : w.get? (w.start + i) = some entry) :
    w.slots.drop i = ⟨w.start + i, entry⟩ :: w.slots.drop (i + 1) := by
  have hslot : w.slots[i]? = some ⟨w.start + i, entry⟩ := by
    rw [getElem?_slots, ← get?_start_add, h]
    rfl
  obtain ⟨hlt, hslot⟩ := List.getElem?_eq_some_iff.1 hslot
  rw [List.drop_eq_getElem_cons hlt, hslot]

theorem drop_slots_eq_nil {i : Nat} (hi : w.entries.size ≤ i) : w.slots.drop i = [] := by
  apply List.drop_eq_nil_of_le
  rw [length_slots]
  exact hi

/-- The slots of a window are its entries with their positions. -/
theorem mem_slots_iff {slot : Slot} : slot ∈ w.slots ↔ w.get? slot.position = some slot.entry := by
  rw [List.mem_iff_getElem?, get?_eq_some_iff]
  simp only [getElem?_slots, Option.map_eq_some_iff]
  constructor
  · rintro ⟨i, entry, hentry, rfl⟩
    exact ⟨i, rfl, hentry⟩
  · rintro ⟨i, hposition, hentry⟩
    exact ⟨i, slot.entry, hentry, by rw [← hposition]⟩

/-- No two slots have the same position. -/
theorem pairwise_slots (w : Window) :
    w.slots.Pairwise fun earlier later => earlier.position < later.position := by
  rw [List.pairwise_iff_getElem]
  intro i j hi hj hij
  have hearlier := List.getElem?_eq_getElem hi
  have hlater := List.getElem?_eq_getElem hj
  rw [getElem?_slots, Option.map_eq_some_iff] at hearlier hlater
  obtain ⟨_, -, hearlier⟩ := hearlier
  obtain ⟨_, -, hlater⟩ := hlater
  rw [← hearlier, ← hlater]
  exact Nat.add_lt_add_left hij w.start

/-- An entry that is still in the window stands where it stood. -/
theorem get?_drop (w : Window) (count position : Nat) :
    (w.drop count).get? position =
      if w.start + count ≤ position then w.get? position else none := by
  by_cases hle : w.start + count ≤ position
  · obtain ⟨i, rfl⟩ := Nat.exists_eq_add_of_le hle
    rw [if_pos hle, Nat.add_assoc, get?_start_add, ← Nat.add_assoc]
    refine (get?_start_add (w.drop count) i).trans ?_
    show (w.entries.extract count w.entries.size)[i]? = _
    rw [Array.getElem?_extract, Nat.min_self]
    split
    · rfl
    · exact (Array.getElem?_eq_none (by omega)).symm
  · rw [if_neg hle]
    exact if_neg hle

end TraceProfile.Window
