import TraceProfile.Buffer.Ownership
import TraceProfile.Jit.Timeline

/-!
# Coverage of a recording by known code

A coverage is a timeline together with the string table that the rows of its ranges refer to. The
string table only grows, so that rows stay right when ranges are added and dropped.
-/

namespace TraceProfile.Jit

/-- Ranges of known code and the texts that they refer to. -/
structure Coverage where
  /-- The ranges. -/
  timeline : Timeline := {}
  /-- The texts. -/
  strings : StringTable := {}

namespace Coverage

/-- Adds what a resolver knows about addresses at the positions `start ≤ p < stop`. -/
def add (c : Coverage) (start stop : Nat) (resolver : Resolver) (addresses : List UInt64) :
    Coverage :=
  let (range, strings) := Range.resolve start stop resolver addresses c.strings
  { timeline := c.timeline.push range, strings }

/-- Adds what a resolver knows about the code of a thread that is found in a window, from the
position on at which the context of that code was received. -/
def addContext (c : Coverage) (start : Nat) (window : Window) (tid : Int32) (resolver : Resolver) :
    Coverage :=
  c.add start window.stop resolver (window.jitAddresses start tid)

/-- A coverage that can be added to without a change to the one that it was copied from. -/
def deepCopy (c : Coverage) : Coverage where
  timeline := c.timeline.deepCopy
  strings := c.strings

/-- Values do not change, so a copy is the value itself. -/
@[simp]
theorem deepCopy_eq (c : Coverage) : c.deepCopy = c := by
  simp [deepCopy]

@[simp]
theorem map_deepCopy (c? : Option Coverage) : c?.map deepCopy = c? := by
  cases c? <;> simp

/-- Whether nothing is known at a position or after it, going by the range added last. -/
def hasExpired (c : Coverage) (position : Nat) : Bool := c.timeline.hasExpired position

/-- Drops the ranges that end at a position or before it. -/
def discard (c : Coverage) (position : Nat) : Coverage :=
  { c with timeline := c.timeline.discard position }

/-- The frames of an address at a position, with the index of the range that knows them. -/
def lookup? (c : Coverage) (address : UInt64) (position : Nat) : Option (Nat × List CodeFrame) :=
  c.timeline.lookup? address position

end Coverage

end TraceProfile.Jit
