import TraceProfile.Buffer.Ownership
import TraceProfile.Json.Value

/-!
# Markers

A marker is kept outside the buffer, which holds only a reference to it. Where the reference stands
says which thread the marker belongs to; the marker itself says when it happened.
-/

namespace TraceProfile

/-- Something that happened on a thread. -/
structure Marker where
  /-- The name. -/
  name : String
  /-- The time. -/
  time : Binary64
  /-- Free data about it. -/
  data : Option Json := none

/-- The markers that references stand for. -/
abbrev MarkerStore := UInt64 → Option Marker

/-- A reference to a marker, with the position at which it stands. -/
structure MarkerUse where
  /-- The position. -/
  position : Nat
  /-- The reference. -/
  ref : UInt64
deriving DecidableEq

namespace Window

/-- The references to markers that belong to a thread. -/
def markerUses (w : Window) (tid : Int32) : List MarkerUse :=
  Slot.readOwned (fun slot => slot.entry.marker?.map (MarkerUse.mk slot.position)) tid false w.slots

/-- The markers of a thread that a store knows. -/
def markers (w : Window) (tid : Int32) (store : MarkerStore) : List Marker :=
  (w.markerUses tid).filterMap fun use => store use.ref

/-- The references to markers of a thread that a store does not know. -/
def unknownMarkers (w : Window) (tid : Int32) (store : MarkerStore) : List MarkerUse :=
  (w.markerUses tid).filter fun use => (store use.ref).isNone

end Window

end TraceProfile
