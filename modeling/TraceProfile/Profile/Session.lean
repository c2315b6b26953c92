import TraceProfile.Profile.Thread

/-!
# Sessions

What has to be remembered about a thread between two profiles of it. Compiled code can be resolved
only while the script context that runs it is alive. A session knows from which position on the
current context has been there; when the context is about to go, the code found since that position
is resolved and kept, until the buffer has moved past all of it.

Taking a profile resolves the code of the current context for that profile alone: beyond dropping
what is out of date it leaves the session as it was.
-/

namespace TraceProfile

/-- What is remembered about a thread. -/
structure Session where
  /-- The id of the thread. -/
  tid : Int32
  /-- The position of the buffer at which the current context was received. -/
  contextStart : Option Nat := none
  /-- What is known about the code of contexts that are gone. -/
  retained : Option Jit.Coverage := none

namespace Session

/-- What is still of use when the buffer starts at a position. -/
def kept (retained : Option Jit.Coverage) (position : Nat) : Option Jit.Coverage :=
  retained.bind fun c => if c.hasExpired position then none else some (c.discard position)

/-- Drops what is out of date when the buffer starts at a position. -/
def prune (s : Session) (position : Nat) : Session :=
  { s with retained := kept s.retained position }

/-- A context becomes available when the buffer has reached a position. -/
def receiveContext (s : Session) (position : Nat) : Session :=
  { s with contextStart := some position }

/-- The context is about to go: its code is resolved and kept. Nothing happens without a context. -/
def loseContext (s : Session) (w : Window) (resolver : Jit.Resolver) : Session :=
  match s.contextStart with
  | none => s
  | some start =>
    let coverage := (kept s.retained w.start).getD {}
    { s with
      contextStart := none
      retained := some (coverage.addContext start w s.tid resolver) }

/-- What is known about the code in a window: that of contexts that are gone and, if it can be
resolved, that of the current one. The current one is added to a copy of what is retained. -/
def coverage (s : Session) (w : Window) (resolver : Option Jit.Resolver) : Jit.Coverage :=
  let previous := ((kept s.retained w.start).map Jit.Coverage.deepCopy).getD {}
  match s.contextStart, resolver with
  | some start, some resolver => previous.addContext start w s.tid resolver
  | _, _ => previous

/-- The profile of the thread in a window, and the session after it was taken. -/
def profile (s : Session) (w : Window) (resolver : Option Jit.Resolver) (store : MarkerStore)
    (settings : Settings) : ThreadProfile × Session :=
  (.ofWindow s.tid w (s.coverage w resolver) store settings, s.prune w.start)

/-- The addresses that are resolved when the current context is resolved. -/
def queries (s : Session) (w : Window) : List UInt64 :=
  match s.contextStart with
  | some start => Jit.Range.queries (w.jitAddresses start s.tid)
  | none => []

/-- What there is to tell when a range is added to a coverage. -/
def rangeNotices (c : Jit.Coverage) (start stop : Nat) : List Notice :=
  match c.timeline.conflict? start with
  | some earlier => [.overlappingRange start stop earlier.start earlier.stop]
  | none => []

/-- What there is to tell when the current context is resolved. -/
def contextNotices (s : Session) (w : Window) : List Notice :=
  match s.contextStart with
  | some start => rangeNotices ((kept s.retained w.start).getD {}) start w.stop
  | none => []

/-- What there is to tell when a profile is taken. -/
def profileNotices (s : Session) (w : Window) (resolver : Option Jit.Resolver)
    (store : MarkerStore) : List Notice :=
  (if s.retained.any (·.hasExpired w.start) then [.expiredCoverage s.tid w.start] else [])
    ++ (if resolver.isSome then s.contextNotices w else [])
    ++ ThreadProfile.notices s.tid w store

end Session

end TraceProfile
