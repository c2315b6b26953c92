import TraceProfile.Profile.Session
import TraceProfile.Proofs.Profile.Linked

/-!
# Histories of a session

A session lives through events in any order: contexts are received and lost, and profiles are taken
in between. What every event keeps holds after every history. The first such fact is that the
coverage a session retains is valid, so that no profile has a reference that leads nowhere,
whatever the windows hold and whatever the resolvers answer.
-/

namespace TraceProfile.Session

/-- What happens to a session. -/
inductive Event where
  /-- A context becomes available when the buffer has reached a position. -/
  | receive (position : Nat)
  /-- The context is about to go, while a window of the buffer can be read. -/
  | lose (window : Window) (resolver : Jit.Resolver)
  /-- A profile is taken. -/
  | profile (window : Window) (resolver : Option Jit.Resolver) (store : MarkerStore)
      (settings : Settings)

/-- The session after an event. -/
def step (s : Session) : Event → Session
  | .receive position => s.receiveContext position
  | .lose window resolver => s.loseContext window resolver
  | .profile window resolver store settings => (s.profile window resolver store settings).2

/-- The session after a history. -/
def run (s : Session) (events : List Event) : Session := events.foldl step s

/-- What each event keeps, every history keeps. -/
theorem run_induction {P : Session → Prop} (hstep : ∀ s event, P s → P (s.step event))
    {s : Session} (h : P s) (events : List Event) : P (s.run events) := by
  induction events generalizing s with
  | nil => exact h
  | cons event events ih => exact ih (hstep s event h)

theorem tid_step (s : Session) (event : Event) : (s.step event).tid = s.tid := by
  cases event with
  | receive position => rfl
  | lose window resolver =>
    rw [step, loseContext]
    split <;> rfl
  | profile window resolver store settings => rfl

/-- A session is about the same thread throughout. -/
theorem tid_run (s : Session) (events : List Event) : (s.run events).tid = s.tid :=
  run_induction (P := fun s' => s'.tid = s.tid) (fun s' event h => (tid_step s' event).trans h) rfl
    events

/-! ## What is retained is valid -/

/-- The coverage that is retained is valid. -/
def Valid (s : Session) : Prop := ∀ c, s.retained = some c → c.Valid

/-- What is still of use of valid knowledge is valid; nothing at all is. -/
theorem valid_kept {s : Session} (h : s.Valid) (position : Nat) :
    ∀ c, kept s.retained position = some c → c.Valid := by
  intro c hc
  obtain ⟨c', hretained, hkept⟩ := Option.bind_eq_some_iff.1 hc
  split at hkept
  · exact absurd hkept (by simp)
  · obtain rfl := Option.some.inj hkept
    exact (h c' hretained).discard position

theorem valid_getD_kept {s : Session} (h : s.Valid) (position : Nat) :
    ((kept s.retained position).getD {}).Valid := by
  rcases hkept : kept s.retained position with _ | c
  · exact Jit.Coverage.valid_empty
  · exact valid_kept h position c hkept

/-- The coverage that a profile starts from is valid. -/
theorem valid_coverage {s : Session} (h : s.Valid) (w : Window)
    (resolver : Option Jit.Resolver) : (s.coverage w resolver).Valid := by
  have hkept := valid_getD_kept h w.start
  simp only [coverage, Jit.Coverage.map_deepCopy]
  split
  · exact hkept.add _ _ _ _
  · exact hkept

theorem valid_step (s : Session) (event : Event) (h : s.Valid) : (s.step event).Valid := by
  cases event with
  | receive position => exact h
  | lose window resolver =>
    rw [step, loseContext]
    split
    · exact h
    · intro c hc
      obtain rfl := Option.some.inj hc
      exact (valid_getD_kept h window.start).add _ _ _ _
  | profile window resolver store settings => exact valid_kept h window.start

theorem valid_run (tid : Int32) (events : List Event) : (({ tid } : Session).run events).Valid :=
  run_induction valid_step (fun c hc => absurd hc (by simp)) events

/-- Whatever has happened to a session, no reference of a profile that is taken leads nowhere, and
no text and no stack is listed twice. -/
theorem linked_profile (tid : Int32) (events : List Event) (w : Window)
    (resolver : Option Jit.Resolver) (store : MarkerStore) (settings : Settings) :
    ((({ tid } : Session).run events).profile w resolver store settings).1.Linked :=
  ThreadProfile.linked_ofWindow (valid_coverage (valid_run tid events) w resolver) _ w store
    settings

end TraceProfile.Session
