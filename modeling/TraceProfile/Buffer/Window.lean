import TraceProfile.Buffer.Entry

/-!
# Windows onto the buffer

Positions in the buffer keep growing while old entries are overwritten, so what can be read is a
window: the position of its oldest entry and the entries from there on. A `Slot` is an entry with
its position. Everything that is read from a window is a function of its slots, or of a tail of
them, and so does not depend on entries that have been overwritten before.
-/

namespace TraceProfile

/-- An entry with its position in the buffer. -/
structure Slot where
  /-- The position. -/
  position : Nat
  /-- The entry. -/
  entry : Entry
deriving DecidableEq

/-- Consecutive entries with their positions, the first at the given one. -/
def Slot.number (position : Nat) (entries : Array Entry) : List Slot :=
  (entries.mapIdx fun i entry => ⟨position + i, entry⟩).toList

theorem Slot.number_eq_mapIdx (position : Nat) (entries : Array Entry) :
    number position entries = entries.toList.mapIdx fun i entry => ⟨position + i, entry⟩ := by
  rw [number, Array.toList_mapIdx]

theorem Slot.number_extract (count position : Nat) (entries : Array Entry) :
    number (position + count) (entries.extract count) = (number position entries).drop count := by
  have hall : (entries.extract count).toList = entries.toList.drop count := by
    rw [Array.toList_extract, List.extract_eq_take_drop, List.take_of_length_le (by simp)]
  refine List.ext_getElem? fun i => ?_
  rw [number_eq_mapIdx, number_eq_mapIdx, hall]
  simp [Nat.add_assoc]

/-- Takes the first slot if its entry is one that `read` accepts. -/
def takeIf {α : Type} (read : Entry → Option α) : List Slot → Option α × List Slot
  | [] => (none, [])
  | slot :: rest =>
    match read slot.entry with
    | some a => (some a, rest)
    | none => (none, slot :: rest)

theorem length_takeIf_le {α : Type} (read : Entry → Option α) (slots : List Slot) :
    (takeIf read slots).2.length ≤ slots.length := by
  fun_cases takeIf read slots <;> simp

/-- The entries that can still be read. All that is read from them starts with their slots, so these
are kept beside them. -/
structure Window where
  /-- The position of the first entry. -/
  start : Nat
  /-- The entries, oldest first. -/
  entries : Array Entry
  /-- The entries with their positions. -/
  slots : List Slot := Slot.number start entries
  /-- The slots are those of the entries. -/
  slots_eq : slots = Slot.number start entries := by rfl

namespace Window

/-- The window onto the given entries, the first of them at the given position. -/
def ofEntries (start : Nat) (entries : Array Entry) : Window := { start, entries }

/-- The position that the next entry will be written to. -/
def stop (w : Window) : Nat := w.start + w.entries.size

/-- The slots from a position on; all of them if it lies before the window. -/
def slotsFrom (w : Window) (position : Nat) : List Slot :=
  if position ≤ w.start then w.slots
  else Slot.number position (w.entries.extract (position - w.start))

/-- The slots from a position on are the last ones of the window. -/
theorem slotsFrom_eq_drop (w : Window) (position : Nat) :
    w.slotsFrom position = w.slots.drop (position - w.start) := by
  rw [slotsFrom]
  split
  · next h => rw [Nat.sub_eq_zero_of_le h, List.drop_zero]
  · next h =>
    rw [w.slots_eq, ← Slot.number_extract, Nat.add_sub_cancel' (Nat.le_of_not_le h)]

/-- The entry at a position. -/
def get? (w : Window) (position : Nat) : Option Entry :=
  if w.start ≤ position then w.entries[position - w.start]? else none

end Window

/-- A place between two slots of a window. -/
structure Cursor where
  /-- The window. -/
  window : Window
  /-- The number of slots before the place. -/
  index : Nat

namespace Cursor

/-- The cursor before the slot at a position, or at the nearer end of the window. -/
def ofWindow (w : Window) (position : Nat) : Cursor := ⟨w, min (position - w.start) w.entries.size⟩

/-- The position of the slot that follows. -/
def position (c : Cursor) : Nat := c.window.start + c.index

/-- The slot that follows. -/
def peek? (c : Cursor) : Option Slot :=
  c.window.entries[c.index]?.map fun entry => ⟨c.position, entry⟩

/-- The cursor after the slot that follows. -/
def advance (c : Cursor) : Cursor := { c with index := c.index + 1 }

/-- The slot that follows and the cursor after it; the end stays where it is. -/
def next (c : Cursor) : Option Slot × Cursor :=
  match c.peek? with
  | some slot => (some slot, c.advance)
  | none => (none, c)

/-- Moves over the slot that follows if its entry is of the given kind. -/
def nextIf (c : Cursor) (kind : Kind) : Option Entry × Cursor :=
  match c.peek? with
  | some slot => if slot.entry.kind = kind then (some slot.entry, c.advance) else (none, c)
  | none => (none, c)

end Cursor

end TraceProfile
