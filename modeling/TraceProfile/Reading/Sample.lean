import TraceProfile.Buffer.Fragments
import TraceProfile.Buffer.Window
import TraceProfile.Table.Frame

/-!
# Recorded samples

A sample is a thread entry directly followed by a time entry, then its frames from the outermost to
the innermost, and possibly a responsiveness. A label frame is a label entry, possibly flags, the
fragments of its text, and possibly a line, a column and a category, in this order. A frame of
compiled or of native code is one entry. The first entry that is none of these ends the sample.

`RecordedSample.readAll` finds the samples of a thread. No entry of a sample but the first is a
thread entry, so a sample is read at every thread entry without skipping anything in between. A
thread entry without a time starts no sample.
-/

namespace TraceProfile

/-- A natural number, if the integer is one. -/
def natOfInt32? (n : Int32) : Option Nat := if 0 ≤ n.toInt then some n.toInt.toNat else none

/-- A frame as it stands in the buffer. -/
inductive RecordedFrame where
  /-- A label frame. -/
  | label (frame : LabelFrame)
  /-- A frame of compiled code, with the position at which it stands. -/
  | compiled (position : Nat) (address : UInt64)
  /-- A frame of native code. -/
  | native (address : UInt64)
deriving DecidableEq

/-- Takes the fragments of a text up to the one that completes it. -/
def TextBuilder.collect (b : TextBuilder) : List Slot → TextBuilder × List Slot
  | ⟨position, .stringFragment chars⟩ :: rest =>
    if b.isComplete then (b, ⟨position, .stringFragment chars⟩ :: rest)
    else (b.push chars).collect rest
  | slots => (b, slots)

theorem TextBuilder.length_collect_le (b : TextBuilder) (slots : List Slot) :
    (b.collect slots).2.length ≤ slots.length := by
  fun_induction TextBuilder.collect b slots with
  | case1 => simp
  | case2 _ _ _ _ _ ih => exact Nat.le_succ_of_le ih
  | case3 => simp

namespace RecordedFrame

/-- Reads what follows a label entry that declares a length: a label frame, and the slots after
it. A line, column or category below zero counts as none. -/
def readLabel (length : UInt64) (slots : List Slot) : LabelFrame × List Slot :=
  let flags := takeIf Entry.frameFlags? slots
  let text := TextBuilder.collect { limit := some length.toNat } flags.2
  let line := takeIf Entry.lineNumber? text.2
  let column := takeIf Entry.columnNumber? line.2
  let category := takeIf Entry.categoryPair? column.2
  ({ location := text.1.finish
     relevantForJs := flags.1.any FrameFlags.relevantForJs
     line := line.1.bind natOfInt32?
     column := column.1.bind natOfInt32?
     category := category.1.bind natOfInt32? }, category.2)

theorem length_readLabel_le (length : UInt64) (slots : List Slot) :
    (readLabel length slots).2.length ≤ slots.length := by
  simp only [readLabel]
  exact Nat.le_trans (length_takeIf_le ..) <| Nat.le_trans (length_takeIf_le ..) <|
    Nat.le_trans (length_takeIf_le ..) <| Nat.le_trans (TextBuilder.length_collect_le ..) <|
    length_takeIf_le ..

/-- Reads frames as long as there are any, and gives the slots after them. -/
def readAll : List Slot → List RecordedFrame × List Slot
  | [] => ([], [])
  | slot :: rest =>
    match slot.entry with
    | .label length =>
      let frame := readLabel length rest
      let more := readAll frame.2
      (.label frame.1 :: more.1, more.2)
    | .jitReturnAddr address =>
      let more := readAll rest
      (.compiled slot.position address :: more.1, more.2)
    | .nativeLeafAddr address =>
      let more := readAll rest
      (.native address :: more.1, more.2)
    | _ => ([], slot :: rest)
termination_by slots => slots.length
decreasing_by
  · exact Nat.lt_succ_of_le (length_readLabel_le ..)
  · exact Nat.lt_succ_self _
  · exact Nat.lt_succ_self _

end RecordedFrame

/-- A sample as it stands in the buffer. -/
structure RecordedSample where
  /-- The position of the thread entry that starts the sample. -/
  position : Nat
  /-- The thread. -/
  tid : Int32
  /-- The time. -/
  time : Binary64
  /-- The frames, outermost first. -/
  frames : List RecordedFrame
  /-- How long the thread had been unresponsive, if that was recorded. -/
  responsiveness : Option Binary64
deriving DecidableEq

namespace RecordedSample

/-- The samples of a thread, in the order of the buffer. -/
def readAll (tid : Int32) : List Slot → List RecordedSample
  | ⟨position, .threadId t⟩ :: ⟨timePosition, .time time⟩ :: rest =>
    if t = tid then
      let frames := RecordedFrame.readAll rest
      { position, tid, time
        frames := frames.1
        responsiveness := (takeIf Entry.responsiveness? frames.2).1 }
        :: readAll tid (⟨timePosition, .time time⟩ :: rest)
    else readAll tid (⟨timePosition, .time time⟩ :: rest)
  | _ :: rest => readAll tid rest
  | [] => []

/-- The positions of the thread entries of a thread that are not directly followed by a time. -/
def untimed (tid : Int32) : List Slot → List Nat
  | ⟨_, .threadId _⟩ :: ⟨timePosition, .time time⟩ :: rest =>
    untimed tid (⟨timePosition, .time time⟩ :: rest)
  | ⟨position, .threadId t⟩ :: rest =>
    if t = tid then position :: untimed tid rest else untimed tid rest
  | _ :: rest => untimed tid rest
  | [] => []

end RecordedSample

namespace Window

/-- The samples of a thread, in the order of the buffer. -/
def samples (w : Window) (tid : Int32) : List RecordedSample := RecordedSample.readAll tid w.slots

/-- The positions at which a sample of a thread starts that has no time. -/
def untimedSamples (w : Window) (tid : Int32) : List Nat := RecordedSample.untimed tid w.slots

end Window

end TraceProfile
