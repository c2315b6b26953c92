import TraceProfile.Jit.Range

/-!
# Ranges along the buffer

A timeline holds ranges in the order in which they were added. An address at a position is looked up
in the first range that covers the position and knows the address. As a rule contexts follow one
another, each range starts where the one before has ended or later, and the range that covers a
position is found by bisection. If a range starts before the end of an earlier one, the timeline is
marked as overlapping and all ranges are tried in turn.

Ranges that end before the oldest entry of the buffer are of no more use; `discard` drops them and
brings the mark up to date.
-/

namespace TraceProfile.Jit

/-- Ranges in the order in which they were added. -/
structure Timeline where
  /-- The ranges. -/
  ranges : Array Range := #[]
  /-- Whether some range starts before the end of an earlier one. -/
  overlapping : Bool := false

/-- Whether no range starts before the end of an earlier one. -/
def Consecutive (ranges : List Range) : Prop :=
  ranges.Pairwise fun earlier later => earlier.stop ≤ later.start

/-- Whether ranges are consecutive and none of them starts before a position. -/
def consecutiveFrom (position : Nat) : List Range → Bool
  | [] => true
  | range :: rest =>
    position ≤ range.start && consecutiveFrom (max position range.stop) rest

theorem consecutiveFrom_iff {position : Nat} {ranges : List Range} :
    consecutiveFrom position ranges = true
      ↔ (∀ range ∈ ranges, position ≤ range.start) ∧ Consecutive ranges := by
  induction ranges generalizing position with
  | nil => simp [consecutiveFrom, Consecutive]
  | cons range ranges ih =>
    simp only [consecutiveFrom, Bool.and_eq_true, decide_eq_true_eq, ih, List.mem_cons,
      forall_eq_or_imp, Consecutive, List.pairwise_cons, Nat.max_le]
    constructor
    · intro ⟨hrange, hrest, hpairwise⟩
      exact ⟨⟨hrange, fun r hr => (hrest r hr).1⟩, fun r hr => (hrest r hr).2, hpairwise⟩
    · intro ⟨⟨hrange, hrest⟩, hstop, hpairwise⟩
      exact ⟨hrange, fun r hr => ⟨hrest r hr, hstop r hr⟩, hpairwise⟩

instance (ranges : List Range) : Decidable (Consecutive ranges) :=
  decidable_of_iff (consecutiveFrom 0 ranges = true) <| by simp [consecutiveFrom_iff]

namespace Timeline

/-- The first range that ends after the start of a range to be added. -/
def conflict? (t : Timeline) (start : Nat) : Option Range :=
  t.ranges.find? fun range => start < range.stop

/-- Adds a range at the end. -/
def push (t : Timeline) (range : Range) : Timeline where
  ranges := t.ranges.push range
  overlapping := t.overlapping || (t.conflict? range.start).isSome

/-- A timeline of copies of the ranges. -/
def deepCopy (t : Timeline) : Timeline where
  ranges := t.ranges.map Range.deepCopy
  overlapping := t.overlapping

@[simp]
theorem deepCopy_eq (t : Timeline) : t.deepCopy = t := by
  have hcopy : Range.deepCopy = id := funext Range.deepCopy_eq
  rw [deepCopy, hcopy, Array.map_id]

/-- Whether nothing is known at a position or after it, going by the range added last. -/
def hasExpired (t : Timeline) (position : Nat) : Bool :=
  match t.ranges.back? with
  | some range => range.stop ≤ position
  | none => true

/-- Drops the ranges that end at a position or before it. -/
def discard (t : Timeline) (position : Nat) : Timeline :=
  let ranges := t.ranges.filter fun range => position < range.stop
  { ranges, overlapping := !decide (Consecutive ranges.toList) }

/-- The frames of an address in the range with the given index, if it covers the position. -/
def framesIn? (t : Timeline) (address : UInt64) (position index : Nat) :
    Option (Nat × List CodeFrame) :=
  match t.ranges[index]? with
  | some range =>
    if range.contains position then (range.frames? address).map fun frames => (index, frames)
    else none
  | none => none

/-- The first range that covers the position and knows the address, among as many as given from an
index on. -/
def scanFrom? (t : Timeline) (address : UInt64) (position index : Nat) :
    Nat → Option (Nat × List CodeFrame)
  | 0 => none
  | count + 1 =>
    match t.framesIn? address position index with
    | some found => some found
    | none => t.scanFrom? address position (index + 1) count

/-- The first range that covers the position and knows the address, all ranges tried in turn. -/
def scan? (t : Timeline) (address : UInt64) (position : Nat) : Option (Nat × List CodeFrame) :=
  t.scanFrom? address position 0 t.ranges.size

/-- The place between `low` and `high` before which all ranges end at the position or before it, and
after which all end later, if the ends ascend. -/
def bisect (ranges : Array Range) (position low high : Nat) (h : high ≤ ranges.size) : Nat :=
  if hlt : low < high then
    let middle := low + (high - low) / 2
    have : middle < ranges.size := by omega
    if ranges[middle].stop ≤ position then bisect ranges position (middle + 1) high h
    else bisect ranges position low middle (by omega)
  else low
termination_by high - low
decreasing_by
  · omega
  · omega

/-- The frames of an address at a position, with the index of the range that knows them. -/
def lookup? (t : Timeline) (address : UInt64) (position : Nat) : Option (Nat × List CodeFrame) :=
  if t.overlapping then t.scan? address position
  else
    t.framesIn? address position (bisect t.ranges position 0 t.ranges.size (Nat.le_refl _))

end Timeline

end TraceProfile.Jit
