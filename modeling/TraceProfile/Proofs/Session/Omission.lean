import TraceProfile.Proofs.Jit.Retention
import TraceProfile.Proofs.Session.History

/-!
# Profiles can be left out

Taking a profile drops from the session what is out of date where the window starts. As long as no
window starts before an earlier one, nothing that happens later can tell whether this was done:
every event drops what is out of date before it does anything else, and dropping twice leaves what
dropping at the later position leaves (`kept_kept`). Two sessions that hold the same in this sense
agree from a position on (`AgreeFrom`). Events that happen to both keep the agreement, and so does a
profile that is taken of one of them only. The profiles of a history are therefore the same
whichever other profiles are taken in between (`profiles_omit`).
-/

namespace TraceProfile.Session

/-! ## Histories of which some profiles are struck out -/

/-- The window that an event looks at. -/
def Event.window? : Event → Option Window
  | .receive _ => none
  | .lose w _ => some w
  | .profile w _ _ _ => some w

/-- The profile that an event gives. -/
def Event.profile? (s : Session) : Event → Option ThreadProfile
  | .profile w resolver store settings => some (s.profile w resolver store settings).1
  | .receive _ => none
  | .lose _ _ => none

/-- The profiles that are taken in a history, in order. -/
def profiles (s : Session) : List Event → List ThreadProfile
  | [] => []
  | event :: events => (event.profile? s).toList ++ (s.step event).profiles events

/-- A line of an account of a history. Lines about profiles may be struck out, others not. -/
inductive Line where
  /-- The event stays. -/
  | standing (event : Event)
  /-- The profile is struck out. -/
  | struck (window : Window) (resolver : Option Jit.Resolver) (store : MarkerStore)
      (settings : Settings)

namespace Line

/-- The event of a line, struck out or not. -/
def event : Line → Event
  | standing event => event
  | struck w resolver store settings => .profile w resolver store settings

/-- The event of a line that is not struck out. -/
def standing? : Line → Option Event
  | standing event => some event
  | struck _ _ _ _ => none

end Line

/-- The profiles of the lines that are not struck out, in a history in which all lines happen. -/
def standingProfiles (s : Session) : List Line → List ThreadProfile
  | [] => []
  | line :: lines =>
    (line.standing?.bind (·.profile? s)).toList ++ (s.step line.event).standingProfiles lines

/-- No window of the history starts before an earlier one. -/
def Advances (events : List Event) : Prop :=
  (events.filterMap Event.window?).Pairwise fun earlier later => earlier.start ≤ later.start

/-! ## Sessions that agree -/

/-- Dropping what is out of date at a position and then at a later one leaves what dropping at the
later one leaves. -/
theorem kept_kept (retained : Option Jit.Coverage) {position later : Nat} (hle : position ≤ later) :
    kept (kept retained position) later = kept retained later := by
  cases retained with
  | none => rfl
  | some c =>
    by_cases hexpired : c.hasExpired position = true
    · have hfirst : kept (some c) position = none := by simp [kept, hexpired]
      have hlater : c.hasExpired later = true := by
        rw [Jit.Coverage.hasExpired, Jit.Timeline.hasExpired] at hexpired ⊢
        split
        · next last hlast =>
          rw [hlast] at hexpired
          exact decide_eq_true (Nat.le_trans (of_decide_eq_true hexpired) hle)
        · rfl
      rw [hfirst]
      simp [kept, hlater]
    · have hlive : c.hasExpired position = false := by simpa using hexpired
      have hfirst : kept (some c) position = some (c.discard position) := by simp [kept, hlive]
      have hsame : (c.discard position).hasExpired later = c.hasExpired later :=
        Jit.Timeline.hasExpired_discard hlive later
      have hdiscard : (c.discard position).discard later = c.discard later := by
        simp only [Jit.Coverage.discard, Jit.Timeline.discard_discard c.timeline hle]
      rw [hfirst, kept, kept, Option.bind_some, Option.bind_some, hsame, hdiscard]

/-- The sessions are about the same thread and context, and from the position on the same is of use
of what they retain. -/
structure AgreeFrom (position : Nat) (s s' : Session) : Prop where
  tid_eq : s.tid = s'.tid
  contextStart_eq : s.contextStart = s'.contextStart
  kept_eq : ∀ later, position ≤ later → kept s.retained later = kept s'.retained later

namespace AgreeFrom

variable {position : Nat} {s s' : Session}

theorem refl (position : Nat) (s : Session) : AgreeFrom position s s :=
  ⟨rfl, rfl, fun _ _ => rfl⟩

theorem coverage_eq (h : AgreeFrom position s s') {w : Window} (hw : position ≤ w.start)
    (resolver : Option Jit.Resolver) : s.coverage w resolver = s'.coverage w resolver := by
  have hkept := h.kept_eq w.start hw
  simp only [coverage, h.tid_eq, h.contextStart_eq, hkept]

/-- The sessions give the same profiles. -/
theorem profile?_eq (h : AgreeFrom position s s') {event : Event}
    (hevent : ∀ w, event.window? = some w → position ≤ w.start) :
    event.profile? s = event.profile? s' := by
  cases event with
  | receive start => rfl
  | lose w resolver => rfl
  | profile w resolver store settings =>
    have hcoverage := h.coverage_eq (hevent w rfl) resolver
    simp only [Event.profile?, profile, h.tid_eq, hcoverage]

/-- An event that happens to both sessions keeps the agreement. -/
theorem step (h : AgreeFrom position s s') {event : Event}
    (hevent : ∀ w, event.window? = some w → position ≤ w.start) :
    AgreeFrom position (s.step event) (s'.step event) := by
  cases event with
  | receive start => exact ⟨h.tid_eq, rfl, h.kept_eq⟩
  | lose w resolver =>
    have hkept := h.kept_eq w.start (hevent w rfl)
    have hcontext := h.contextStart_eq
    rcases hstart : s.contextStart with _ | start
    · rw [hstart] at hcontext
      simp only [Session.step, loseContext, hstart, ← hcontext]
      exact h
    · rw [hstart] at hcontext
      simp only [Session.step, loseContext, hstart, ← hcontext]
      refine ⟨h.tid_eq, rfl, ?_⟩
      intro later _
      rw [hkept, h.tid_eq]
  | profile w resolver store settings =>
    have hkept := h.kept_eq w.start (hevent w rfl)
    refine ⟨h.tid_eq, h.contextStart_eq, ?_⟩
    intro later _
    show kept (kept s.retained w.start) later = kept (kept s'.retained w.start) later
    rw [hkept]

/-- A profile that is taken of one of the sessions only keeps the agreement from where its window
starts. -/
theorem step_profile (h : AgreeFrom position s s') {w : Window} (hw : position ≤ w.start)
    (resolver : Option Jit.Resolver) (store : MarkerStore) (settings : Settings) :
    AgreeFrom w.start (s.step (.profile w resolver store settings)) s' := by
  refine ⟨h.tid_eq, h.contextStart_eq, ?_⟩
  intro later hlater
  show kept (kept s.retained w.start) later = kept s'.retained later
  rw [kept_kept s.retained hlater]
  exact h.kept_eq later (Nat.le_trans hw hlater)

/-- Of two sessions that agree, one goes through all lines and the other only through those that are
not struck out. -/
theorem profiles_eq (h : AgreeFrom position s s') {lines : List Line}
    (hstart : ∀ w ∈ (lines.map Line.event).filterMap Event.window?, position ≤ w.start)
    (hadvances : Advances (lines.map Line.event)) :
    s'.profiles (lines.filterMap Line.standing?) = s.standingProfiles lines := by
  induction lines generalizing position s s' with
  | nil => rfl
  | cons line lines ih =>
    have hfirst : ∀ w, line.event.window? = some w → position ≤ w.start := by
      intro w hw
      exact hstart w (by simp [hw])
    have hrest : ∀ w ∈ (lines.map Line.event).filterMap Event.window?, position ≤ w.start := by
      intro w hw
      apply hstart w
      rw [List.map_cons, List.filterMap_cons]
      split
      · exact hw
      · exact List.mem_cons_of_mem _ hw
    have hadvances_rest : Advances (lines.map Line.event) := by
      rw [Advances, List.map_cons, List.filterMap_cons] at hadvances
      split at hadvances
      · exact hadvances
      · exact hadvances.of_cons
    cases line with
    | standing event =>
      have hprofile : event.profile? s = event.profile? s' := h.profile?_eq hfirst
      have htail := ih (h.step hfirst) hrest hadvances_rest
      simp only [List.filterMap_cons, Line.standing?, profiles, standingProfiles, Line.event,
        Option.bind_some] at htail ⊢
      rw [htail, hprofile]
    | struck w resolver store settings =>
      -- The later windows start where this one starts or after it.
      have hlater : ∀ w' ∈ (lines.map Line.event).filterMap Event.window?, w.start ≤ w'.start :=
        (List.pairwise_cons.1 hadvances).1
      have hagree := h.step_profile (hfirst w rfl) resolver store settings
      have htail := ih hagree hlater hadvances_rest
      simp only [List.filterMap_cons, Line.standing?, standingProfiles, Line.event,
        Option.bind_none, Option.toList_none, List.nil_append] at htail ⊢
      exact htail

end AgreeFrom

/-! ## Leaving profiles out -/

/-- Whichever profiles of a history are struck out, the others come out as they were. In particular
a profile that is taken twice is the same both times, and taking it leaves the start of the context
as it was. -/
theorem profiles_omit (s : Session) {lines : List Line}
    (hadvances : Advances (lines.map Line.event)) :
    s.profiles (lines.filterMap Line.standing?) = s.standingProfiles lines ∧
      ∀ (w : Window) (resolver : Option Jit.Resolver) (store : MarkerStore) (settings : Settings),
        ((s.profile w resolver store settings).2.profile w resolver store settings).1 =
            (s.profile w resolver store settings).1 ∧
          (s.profile w resolver store settings).2.contextStart = s.contextStart := by
  refine ⟨?_, ?_⟩
  · have hstart : ∀ w ∈ (lines.map Line.event).filterMap Event.window?, 0 ≤ w.start :=
      fun w _ => Nat.zero_le w.start
    exact (AgreeFrom.refl 0 s).profiles_eq hstart hadvances
  · intro w resolver store settings
    have hagree := (AgreeFrom.refl w.start s).step_profile (Nat.le_refl _) resolver store settings
    have hcoverage := hagree.coverage_eq (Nat.le_refl _) resolver
    refine ⟨?_, rfl⟩
    show ThreadProfile.ofWindow _ w ((s.profile w resolver store settings).2.coverage w resolver)
      store settings = ThreadProfile.ofWindow _ w (s.coverage w resolver) store settings
    exact congrArg (ThreadProfile.ofWindow s.tid w · store settings) hcoverage

/-- The range of the second context starts inside that of the first. Of the profiles that are struck
one drops nothing, and the other drops the range of the first context, as the profile that stands
would have done by itself. -/
theorem profiles_omit_overlap :
    let sample : Array Entry := #[.threadId 7, .time ⟨0⟩, .jitReturnAddr 32]
    let all := Window.ofEntries 0 (sample ++ sample)
    let rest := Window.ofEntries 3 sample
    let resolver (label : String) : Jit.Resolver := fun _ => [{ canonical := 32, label }]
    let lines : List Line :=
      [.standing (.receive 0), .standing (.lose (.ofEntries 0 sample) (resolver "old")),
        .struck all none (fun _ => none) {}, .standing (.receive 1),
        .standing (.lose all (resolver "new")), .struck rest none (fun _ => none) {},
        .standing (.profile rest none (fun _ => none) {})]
    let s : Session := { tid := 7 }
    Advances (lines.map Line.event) ∧
      (s.profiles (lines.filterMap Line.standing?)).map ThreadProfile.strings =
        [["old", "new", "(root)"]] ∧
      s.profiles (lines.filterMap Line.standing?) = s.standingProfiles lines := by
  intro sample all rest resolver lines s
  have hadvances : Advances (lines.map Line.event) := by
    unfold Advances
    decide
  exact ⟨hadvances, by decide +kernel, (profiles_omit s hadvances).1⟩

end TraceProfile.Session
