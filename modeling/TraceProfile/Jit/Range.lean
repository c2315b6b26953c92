import TraceProfile.Table.Frame

/-!
# What was known about compiled code

Compiled code can be moved and thrown away, so a return address has a meaning only for as long as
the context that runs the code is alive. A `Resolver` answers what an address means at that time.
A `Range` keeps the answers for the positions of the buffer at which they hold: the frames of each
address that the resolver knew, and the row of each of these frames, ready for the frame table. The
rows refer to texts by their index in a string table that is kept beside the range.

A resolver is asked once for each distinct address, in the order of first appearance. Frames of
different addresses may share code and depth; such a frame gets the row of the first answer. What is
known is kept in search trees, by address and by frame.
-/

namespace TraceProfile.Jit

/-- A frame at an address of compiled code, as a resolver describes it. -/
structure Descriptor where
  /-- The start of the code that holds the frame. -/
  canonical : UInt64
  /-- The text. -/
  label : String
  /-- The tier that compiled the code. -/
  implementation : Option String := none
  /-- What the compiler reports about its optimizations. -/
  optimizations : Option Json := none
  /-- The line. -/
  line : Option Nat := none
  /-- The column. -/
  column : Option Nat := none
  /-- The category. -/
  category : Option Nat := none
  /-- Whether the frame belongs into a view of scripts only. -/
  relevantForJs : Bool := false

/-- The frames at an address, the outermost first, and none if the address is not known. -/
abbrev Resolver := UInt64 → List Descriptor

/-- The row of a frame; its texts are interned, the label first. -/
def Descriptor.render (d : Descriptor) (strings : StringTable) : FrameRow × StringTable :=
  let (location, strings) := strings.intern d.label
  let (implementation, strings) := match d.implementation with
    | some tier =>
      let (index, strings) := strings.intern tier
      (some index, strings)
    | none => (none, strings)
  ({ location
     implementation
     optimizations := d.optimizations
     line := d.line
     column := d.column
     category := d.category
     relevantForJs := d.relevantForJs }, strings)

/-- Descriptors with the frames that they describe: the position in an answer is the depth. -/
def Descriptor.framesOf (descriptors : List Descriptor) : List (CodeFrame × Descriptor) :=
  descriptors.mapIdx fun depth d => (⟨d.canonical, depth⟩, d)

/-- The knowledge about compiled code that holds for the positions `start ≤ p < stop`. -/
structure Range where
  /-- The first position. -/
  start : Nat
  /-- The position after the last. -/
  stop : Nat
  /-- The frames at each known address. -/
  addresses : Std.TreeMap UInt64 (List CodeFrame)
  /-- The row of each of these frames. -/
  rows : Std.TreeMap CodeFrame FrameRow

namespace Range

/-- Whether the knowledge holds at a position. -/
def contains (r : Range) (position : Nat) : Bool := r.start ≤ position && position < r.stop

/-- The frames at an address. -/
def frames? (r : Range) (address : UInt64) : Option (List CodeFrame) := r.addresses[address]?

/-- The row of a frame. -/
def row? (r : Range) (frame : CodeFrame) : Option FrameRow := r.rows[frame]?

/-- A range with the same knowledge. -/
def deepCopy (r : Range) : Range where
  start := r.start
  stop := r.stop
  addresses := r.addresses
  rows := r.rows

@[simp]
theorem deepCopy_eq (r : Range) : r.deepCopy = r := rfl

/-- The addresses that a resolver is asked for. -/
def queries (addresses : List UInt64) : List UInt64 := (Interner.ofList addresses).toList

/-- The answers of a resolver that knows the address, in the order of the questions. -/
def answers (resolver : Resolver) (addresses : List UInt64) : List (UInt64 × List Descriptor) :=
  ((queries addresses).map fun address => (address, resolver address)).filter (!·.2.isEmpty)

/-- Adds the row of a frame unless the frame has one. -/
def addRow (rendered : Std.TreeMap CodeFrame FrameRow × StringTable)
    (frame : CodeFrame × Descriptor) : Std.TreeMap CodeFrame FrameRow × StringTable :=
  match rendered with
  | (rows, strings) =>
    if rows.contains frame.1 then (rows, strings)
    else
      let (row, strings) := frame.2.render strings
      (rows.insert frame.1 row, strings)

/-- The knowledge of a resolver about addresses, with the string table that its rows refer to. -/
def resolve (start stop : Nat) (resolver : Resolver) (addresses : List UInt64)
    (strings : StringTable) : Range × StringTable :=
  let known := answers resolver addresses
  let frames := known.flatMap fun answer => Descriptor.framesOf answer.2
  let (rows, strings) := frames.foldl addRow (∅, strings)
  ({ start, stop, rows
     addresses := .ofList <| known.map fun answer =>
       (answer.1, (Descriptor.framesOf answer.2).map Prod.fst) }, strings)

end Range

end TraceProfile.Jit
