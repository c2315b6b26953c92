import TraceProfile.Buffer.Window

/-!
# The thread that an entry belongs to

Threads write into one buffer. An entry belongs to the thread that the closest thread entry at or
before it names; entries before the first thread entry belong to none. Markers and compiled code
are attributed to threads in this way. `Slot.ownedBy` lists the slots that belong to a thread;
`Slot.readOwned` reads something from each of them without forming that list.
-/

namespace TraceProfile

/-- Whether a slot belongs to a thread, given whether the slot before it does. -/
def Slot.isOwned (slot : Slot) (tid : Int32) (owned : Bool) : Bool :=
  match slot.entry with
  | .threadId t => decide (t = tid)
  | _ => owned

/-- The slots that belong to a thread, given whether the slot before them does. -/
def Slot.ownedBy (tid : Int32) (owned : Bool) : List Slot → List Slot
  | [] => []
  | slot :: rest =>
    let owned := slot.isOwned tid owned
    if owned then slot :: Slot.ownedBy tid owned rest else Slot.ownedBy tid owned rest

/-- What is read from the slots that belong to a thread, given whether the slot before them does. -/
def Slot.readOwned {α : Type} (read : Slot → Option α) (tid : Int32) (owned : Bool) :
    List Slot → List α
  | [] => []
  | slot :: rest =>
    let owned := slot.isOwned tid owned
    match if owned then read slot else none with
    | some a => a :: Slot.readOwned read tid owned rest
    | none => Slot.readOwned read tid owned rest

/-- What is read is read from the slots that belong to the thread, one after the other. -/
theorem Slot.readOwned_eq {α : Type} (read : Slot → Option α) (tid : Int32) (owned : Bool)
    (slots : List Slot) :
    readOwned read tid owned slots = (ownedBy tid owned slots).filterMap read := by
  induction slots generalizing owned with
  | nil => rfl
  | cons slot slots ih =>
    simp only [readOwned, ownedBy]
    cases slot.isOwned tid owned with
    | false => simp [ih]
    | true => cases hread : read slot <;> simp [ih, hread]

/-- The addresses of compiled code that belong to a thread, among the slots from a position on.
A thread entry before that position does not count. -/
def Window.jitAddresses (w : Window) (position : Nat) (tid : Int32) : List UInt64 :=
  Slot.readOwned (·.entry.jitReturnAddr?) tid false (w.slotsFrom position)

end TraceProfile
