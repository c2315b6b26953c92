import TraceProfile.Json.Value
import TraceProfile.Number.Numeral
import TraceProfile.Table.Interner
import TraceProfile.Table.Layout

/-!
# Frames and the frame table

A frame is identified by a key: a label frame by its text and its other properties, a frame of
compiled code by the start of the code, its depth among the frames that were inlined there, and the
range of the recording in which the code was known. The frame table lists the distinct keys in the
order of their first use, each with its row, in which texts are replaced by their indices.
-/

namespace TraceProfile

/-- The flag bits that have a meaning: the frame is a script function, or it is a native function
that belongs into a view of scripts only. -/
def FrameFlags.known : UInt64 := 3

/-- The flag bits that have a meaning, out of all recorded ones. -/
def FrameFlags.truncate (bits : UInt64) : UInt64 := bits &&& FrameFlags.known

/-- Whether a frame belongs into a view of scripts only. -/
def FrameFlags.relevantForJs (bits : UInt64) : Bool := FrameFlags.truncate bits ≠ 0

/-- A frame that is described by a text. -/
structure LabelFrame where
  /-- The text. -/
  location : String
  /-- Whether the frame belongs into a view of scripts only. -/
  relevantForJs : Bool := false
  /-- The line. -/
  line : Option Nat := none
  /-- The column. -/
  column : Option Nat := none
  /-- The category. -/
  category : Option Nat := none
deriving DecidableEq

/-- A frame of compiled code, within one range of the recording. -/
structure CodeFrame where
  /-- The start of the code that holds the frame. -/
  canonical : UInt64
  /-- The depth among the frames inlined at one address, the outermost being zero. -/
  depth : Nat
deriving DecidableEq

/-- The identity of a frame. -/
inductive FrameKey where
  /-- A frame that is described by a text. -/
  | normal (frame : LabelFrame)
  /-- A frame of compiled code, known in the range with the given index. -/
  | jit (frame : CodeFrame) (range : Nat)
deriving DecidableEq

/-! ## The order of frames -/

namespace LabelFrame

/-- Compares field by field. -/
def order : LabelFrame → LabelFrame → Ordering :=
  compareLex (compareOn location) <| compareLex (compareOn relevantForJs) <|
    compareLex (compareOn line) <| compareLex (compareOn column) (compareOn category)

instance : Ord LabelFrame := ⟨order⟩

instance : Std.TransOrd LabelFrame :=
  inferInstanceAs <| Std.TransCmp <|
    compareLex (compareOn location) <| compareLex (compareOn relevantForJs) <|
      compareLex (compareOn line) <| compareLex (compareOn column) (compareOn category)

instance : Std.LawfulEqOrd LabelFrame where
  eq_of_compare {a b} h := by
    simp only [compare, order, compareLex_eq_eq] at h
    cases a
    cases b
    simp_all [compareOn]

end LabelFrame

namespace CodeFrame

/-- Compares field by field. -/
def order : CodeFrame → CodeFrame → Ordering :=
  compareLex (compareOn canonical) (compareOn depth)

instance : Ord CodeFrame := ⟨order⟩

instance : Std.TransOrd CodeFrame :=
  inferInstanceAs <| Std.TransCmp <| compareLex (compareOn canonical) (compareOn depth)

instance : Std.LawfulEqOrd CodeFrame where
  eq_of_compare {a b} h := by
    simp only [compare, order, compareLex_eq_eq] at h
    cases a
    cases b
    simp_all [compareOn]

end CodeFrame

namespace FrameKey

/-- The frame of compiled code, if it is one. -/
def code? : FrameKey → Option CodeFrame
  | normal _ => none
  | jit frame _ => some frame

/-- The range in which compiled code is known. -/
def range? : FrameKey → Option Nat
  | normal _ => none
  | jit _ range => some range

/-- The label frame, if it is one. -/
def label? : FrameKey → Option LabelFrame
  | normal frame => some frame
  | jit .. => none

/-- Label frames come before compiled code; this is ordered by frame, and then by range. -/
def order : FrameKey → FrameKey → Ordering
  | normal a, normal b => compare a b
  | normal _, jit .. => .lt
  | jit .., normal _ => .gt
  | jit a range, jit b range' => (compare a b).then (compare range range')

/-- The order compares part by part, a missing part being the least. -/
theorem order_eq :
    order = compareLex (compareOn code?) (compareLex (compareOn range?) (compareOn label?)) := by
  funext a b
  cases a <;> cases b <;> try rfl
  exact congrArg (Ordering.then _) Ordering.then_eq.symm

instance : Ord FrameKey := ⟨order⟩

instance : Std.TransOrd FrameKey := by
  have h : Std.TransCmp (compareLex (compareOn code?)
    (compareLex (compareOn range?) (compareOn label?))) := inferInstance
  rw [← order_eq] at h
  exact h

instance : Std.LawfulEqOrd FrameKey where
  eq_of_compare {a b} h := by
    simp only [compare, order_eq, compareLex_eq_eq] at h
    cases a <;> cases b <;> simp_all [compareOn, code?, range?, label?]

end FrameKey

/-! ## Keys, rows, and the table -/

namespace FrameKey

/-- A frame with nothing but a text. -/
def ofLabel (location : String) : FrameKey := .normal { location }

/-- A frame of which nothing but the address is known. -/
def ofAddress (address : UInt64) : FrameKey := .ofLabel (Number.hexAddress address.toNat)

/-- The distinct keys of a list in ascending order. -/
def sortDistinct (keys : List FrameKey) : List FrameKey :=
  (keys.mergeSort fun a b => (compare a b).isLE).eraseReps

end FrameKey

/-- A row of the frame table. -/
structure FrameRow where
  /-- The text, by its index. -/
  location : Nat
  /-- The tier that compiled the code, by its index. -/
  implementation : Option Nat := none
  /-- What the compiler reports about its optimizations. -/
  optimizations : Option Json := none
  /-- The line. -/
  line : Option Nat := none
  /-- The column. -/
  column : Option Nat := none
  /-- The category. -/
  category : Option Nat := none
  /-- Whether the frame belongs into a view of scripts only. -/
  relevantForJs : Bool := false

namespace FrameRow

/-- The row of a label frame; its text is interned. -/
def ofLabelFrame (frame : LabelFrame) (strings : StringTable) : FrameRow × StringTable :=
  let (location, strings) := strings.intern frame.location
  ({ location
     line := frame.line
     column := frame.column
     category := frame.category
     relevantForJs := frame.relevantForJs }, strings)

/-- The row of a frame of which nothing but the address is known; its text is interned. -/
def ofAddress (address : UInt64) (strings : StringTable) : FrameRow × StringTable :=
  let (location, strings) := strings.intern (Number.hexAddress address.toNat)
  ({ location }, strings)

/-- The columns of the frame table. -/
def columns : List String :=
  ["location", "implementation", "optimizations", "line", "column", "category", "relevantForJS"]

/-- The cells of a row. -/
def toJson (row : FrameRow) : Json :=
  .arr [.nat row.location, .ofOption .nat row.implementation, row.optimizations.getD .null,
    .ofOption .nat row.line, .ofOption .nat row.column, .ofOption .nat row.category,
    .bool row.relevantForJs]

end FrameRow

/-- The distinct frames of a profile. -/
structure FrameTable where
  /-- The keys by index. -/
  keys : Interner FrameKey := {}
  /-- The rows by index. -/
  rows : Array FrameRow := #[]

namespace FrameTable

/-- The table with a frame added, unless it has the frame. A new frame gets the row that `makeRow`
gives for the current string table. -/
def insert (t : FrameTable) (key : FrameKey) (strings : StringTable)
    (makeRow : StringTable → FrameRow × StringTable) : FrameTable × StringTable :=
  if t.keys.contains key then (t, strings)
  else
    let (row, strings) := makeRow strings
    ({ keys := t.keys.insert key, rows := t.rows.push row }, strings)

/-- The index of a frame, which is added if the table does not have it. -/
def intern (t : FrameTable) (key : FrameKey) (strings : StringTable)
    (makeRow : StringTable → FrameRow × StringTable) : Nat × FrameTable × StringTable :=
  let index := t.keys.idxOf key
  if index < t.keys.size then (index, t, strings) else (index, t.insert key strings makeRow)

theorem intern_eq (t : FrameTable) (key : FrameKey) (strings : StringTable)
    (makeRow : StringTable → FrameRow × StringTable) :
    t.intern key strings makeRow = (t.keys.idxOf key, t.insert key strings makeRow) := by
  simp only [intern, insert]
  by_cases h : key ∈ t.keys.toList
  · rw [if_pos (Interner.idxOf_lt_size_iff.2 h), if_pos (Interner.contains_iff.2 h)]
  · rw [if_neg (mt Interner.idxOf_lt_size_iff.1 h)]

/-- The emitted table. -/
def toJson (t : FrameTable) : Json :=
  tableJson FrameRow.columns (t.rows.toList.map FrameRow.toJson)

end FrameTable

end TraceProfile
