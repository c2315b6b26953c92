import TraceProfile.Proofs.Session.Contexts
import TraceProfile.Proofs.Session.History

/-!
# Whose answer is shown

All windows of a history show one recording, of which ever more is written and ever more is
overwritten (`Follows`). `Contexts` keeps account of the contexts of such a history without any
ranges, tables or lookups, and `Remembers` relates this account to the session: what the session
retains is what is known about the contexts that were lost. Each event keeps this relation, so it
holds after every history, and it decides what a profile shows for each frame (`FrameShows`).
-/

namespace TraceProfile.Session

/-! ## Histories along a recording -/

/-- Where the window starts and ends after an event, if it started at the given position before. -/
def Event.bounds (start : Nat) : Event → Nat × Nat
  | .receive position => (start, position)
  | .lose w _ => (w.start, w.stop)
  | .profile w _ _ _ => (w.start, w.stop)

/-- The event comes after a window with the given bounds: the window shows the recording, and
neither its start nor its end goes back. -/
def Event.Fits (recording : Nat → Entry) (start stop : Nat) : Event → Prop
  | .receive position => stop ≤ position
  | .lose w _ => w.Shows recording ∧ start ≤ w.start ∧ stop ≤ w.stop
  | .profile w _ _ _ => w.Shows recording ∧ start ≤ w.start ∧ stop ≤ w.stop

/-- The history happens along the recording, after a window with the given bounds. -/
def Follows (recording : Nat → Entry) (start stop : Nat) : List Event → Prop
  | [] => True
  | event :: events => event.Fits recording start stop ∧
      Follows recording (event.bounds start).1 (event.bounds start).2 events

/-- The contexts of a history. -/
structure Contexts where
  /-- Where the context that is there was received. -/
  live : Option Nat := none
  /-- The contexts that were lost, in order. -/
  lost : List Context := []

namespace Contexts

/-- The contexts after an event. -/
def step (x : Contexts) : Event → Contexts
  | .receive position => { x with live := some position }
  | .lose w resolver =>
    match x.live with
    | none => x
    | some start => { live := none, lost := x.lost ++ [⟨start, w, resolver⟩] }
  | .profile _ _ _ _ => x

/-- The contexts after a history. -/
def after (events : List Event) : Contexts := events.foldl step {}

/-- The contexts that have been resolved when a profile is taken: those that were lost and, if it
can be resolved, the one that is there. -/
def resolved (x : Contexts) (w : Window) (resolver : Option Jit.Resolver) : List Context :=
  match x.live, resolver with
  | some start, some resolver => x.lost ++ [⟨start, w, resolver⟩]
  | _, _ => x.lost

end Contexts

/-- What is to be shown for a frame of a sample that starts at `first`. An address at a position
that a context covers is shown as the resolver of the context says, if the sample starts in the
context or the resolver was asked for the address anyway; otherwise the address itself is shown. -/
def FrameShows (tid : Int32) (contexts : List Context) (first : Nat) :
    RecordedFrame → List ShownFrame → Prop
  | .label frame, part => part = [frame.shown]
  | .native address, part => part = [.ofAddress address]
  | .compiled position address, part =>
    (∀ x ∈ contexts, x.Covers position →
        (x.start ≤ first ∨ address ∈ x.addresses tid → part = x.framesAt address) ∧
          (address ∉ x.addresses tid → part = [.ofAddress address])) ∧
      ((∀ x ∈ contexts, ¬ x.Covers position) → part = [.ofAddress address])

/-! ## What a session remembers -/

/-- The session agrees with the account of its contexts, after a window with the given bounds: it
knows since when the context has been there, which was received after the others were lost, and what
it retains is what is known about these. -/
structure Remembers (recording : Nat → Entry) (x : Contexts) (start stop : Nat) (s : Session) :
    Prop where
  contextStart_eq : s.contextStart = x.live
  live_after : ∀ p, x.live = some p → p ≤ stop ∧ ∀ y ∈ x.lost, y.window.stop ≤ p
  ordered : Context.Ordered x.lost
  within : ∀ y ∈ x.lost, y.Within recording start stop
  knows : Knows (s.retained.getD {}) s.tid x.lost start

namespace Remembers

variable {recording : Nat → Entry} {x : Contexts} {start stop : Nat} {s : Session}

theorem init (recording : Nat → Entry) (tid : Int32) :
    Remembers recording {} 0 0 { tid } where
  contextStart_eq := rfl
  live_after := fun p hp => absurd hp (by simp)
  ordered := ⟨fun y hy => absurd hy List.not_mem_nil, .nil⟩
  within := fun y hy => absurd hy List.not_mem_nil
  knows := .empty fun y hy => absurd hy List.not_mem_nil

/-- The contexts that are resolved for a profile follow one another, in windows onto the
recording. -/
theorem resolved_ordered (h : Remembers recording x start stop s) {w : Window}
    (hw : w.Shows recording) (hstart : start ≤ w.start) (hstop : stop ≤ w.stop)
    (resolver : Option Jit.Resolver) :
    Context.Ordered (x.resolved w resolver) ∧
      ∀ y ∈ x.resolved w resolver, y.Within recording w.start w.stop := by
  have hlost : ∀ y ∈ x.lost, y.Within recording w.start w.stop := by
    intro y hy
    exact (h.within y hy).mono hstart hstop
  unfold Contexts.resolved
  split
  · next first r hlive =>
    obtain ⟨hle, hall⟩ := h.live_after first hlive
    refine ⟨h.ordered.append (Nat.le_trans hle hstop) hall, ?_⟩
    intro y hy
    rcases List.mem_append.1 hy with hy | hy
    · exact hlost y hy
    · rw [List.mem_singleton.1 hy]
      exact ⟨hw, Nat.le_refl _, Nat.le_refl _⟩
  · exact ⟨h.ordered, hlost⟩

/-- The coverage of a profile is what is known about the contexts that are resolved for it. -/
theorem knows_coverage (h : Remembers recording x start stop s) {w : Window}
    (hstart : start ≤ w.start) (resolver : Option Jit.Resolver) :
    Knows (s.coverage w resolver) s.tid (x.resolved w resolver) w.start := by
  have hkept := h.knows.kept h.ordered hstart
  have hcontext := h.contextStart_eq
  rcases hx : x.live with _ | first
  · rw [hx] at hcontext
    simp only [coverage, Jit.Coverage.map_deepCopy, hcontext, Contexts.resolved, hx]
    exact hkept
  · rw [hx] at hcontext
    simp only [coverage, Jit.Coverage.map_deepCopy, hcontext, Contexts.resolved, hx]
    cases resolver with
    | none => exact hkept
    | some r => exact hkept.addContext first w r

/-- Each event keeps the relation. -/
theorem step (h : Remembers recording x start stop s) {event : Event}
    (hfits : event.Fits recording start stop) :
    Remembers recording (x.step event) (event.bounds start).1 (event.bounds start).2
      (s.step event) := by
  cases event with
  | receive position =>
    have hle : stop ≤ position := hfits
    refine ⟨rfl, ?_, h.ordered, ?_, h.knows⟩
    · intro p hp
      obtain rfl : position = p := Option.some.inj hp
      refine ⟨Nat.le_refl _, ?_⟩
      intro y hy
      exact Nat.le_trans (h.within y hy).2.2 hle
    · intro y hy
      exact (h.within y hy).mono (Nat.le_refl start) hle
  | lose w resolver =>
    obtain ⟨hshows, hstart, hstop⟩ := hfits
    obtain ⟨hordered, hall⟩ := h.resolved_ordered hshows hstart hstop (some resolver)
    have hknows := h.knows_coverage hstart (some resolver)
    have hlive := h.contextStart_eq
    rcases hx : x.live with _ | first
    · rw [hx] at hlive
      simp only [Contexts.resolved, hx] at hordered hall
      simp only [Session.step, loseContext, hlive, Contexts.step, hx]
      exact ⟨hlive.trans hx.symm, fun p hp => absurd (hx.symm.trans hp) (by simp), hordered, hall,
        h.knows.later hstart⟩
    · -- What is retained is the coverage of a profile for which the context is resolved.
      rw [hx] at hlive
      simp only [Contexts.resolved, hx] at hordered hall hknows
      simp only [coverage, Jit.Coverage.map_deepCopy, hlive] at hknows
      simp only [Session.step, loseContext, hlive, Contexts.step, hx]
      exact ⟨rfl, fun p hp => absurd hp (by simp), hordered, hall, hknows⟩
  | profile w resolver store settings =>
    obtain ⟨hshows, hstart, hstop⟩ := hfits
    refine ⟨h.contextStart_eq, ?_, h.ordered, ?_, h.knows.kept h.ordered hstart⟩
    · intro p hp
      obtain ⟨hle, hall⟩ := h.live_after p hp
      exact ⟨Nat.le_trans hle hstop, hall⟩
    · intro y hy
      exact (h.within y hy).mono hstart hstop

/-- Every history along the recording keeps the relation, and what comes after it goes on from
there. -/
theorem run (h : Remembers recording x start stop s) {events more : List Event}
    (hfollows : Follows recording start stop (events ++ more)) :
    ∃ start' stop', Remembers recording (events.foldl Contexts.step x) start' stop' (s.run events) ∧
      Follows recording start' stop' more := by
  induction events generalizing x start stop s with
  | nil => exact ⟨start, stop, h, hfollows⟩
  | cons event events ih =>
    obtain ⟨hfits, hrest⟩ := hfollows
    exact ih (h.step hfits) hrest

end Remembers

/-! ## What a profile shows -/

/-- If the sample starts in a context, the resolver of the context was asked for the addresses of
the sample that the context covers. -/
theorem mem_addresses {recording : Nat → Entry} {w : Window} (hw : w.Shows recording) {tid : Int32}
    {sample : RecordedSample} (hsample : sample ∈ w.samples tid) {position : Nat} {address : UInt64}
    (hframe : .compiled position address ∈ sample.frames) {y : Context}
    (hy : y.Within recording w.start w.stop) (hcovers : y.Covers position)
    (hfirst : y.start ≤ sample.position) : address ∈ y.addresses tid := by
  obtain ⟨hle, -, hgoverns, haddress⟩ := hw.governs hsample hframe
  have hstart : y.window.start ≤ sample.position := Nat.le_trans hy.2.1 hle
  exact hy.1.mem_jitAddresses hgoverns haddress hstart hfirst hcovers.2

/-- What is shown for each frame of a sample, given what is known about contexts. -/
theorem frameShows_of_knows {recording : Nat → Entry} {w : Window} (hw : w.Shows recording)
    {tid : Int32} {contexts : List Context} (hordered : Context.Ordered contexts)
    (hwithin : ∀ y ∈ contexts, y.Within recording w.start w.stop)
    (hcoherent : ∀ y ∈ contexts, y.resolver.Coherent) {c : Jit.Coverage}
    (hknows : Knows c tid contexts w.start) {sample : RecordedSample}
    (hsample : sample ∈ w.samples tid) {frame : RecordedFrame} (hframe : frame ∈ sample.frames)
    {part : List ShownFrame} (hpart : frame.shown? c = some part) :
    FrameShows tid contexts sample.position frame part := by
  cases frame with
  | label frame => exact Option.some.inj (hpart.symm.trans (RecordedFrame.shown?_label c frame))
  | native address =>
    exact Option.some.inj (hpart.symm.trans (RecordedFrame.shown?_native c address))
  | compiled position address =>
    have hposition : w.start ≤ position := by
      obtain ⟨hle, -, hgoverns, -⟩ := hw.governs hsample hframe
      exact Nat.le_trans hle (Nat.le_of_lt hgoverns.lt)
    constructor
    · intro y hy hcovers
      obtain ⟨hasked, hnot⟩ :=
        hknows.shown?_of_covers hordered hy (hcoherent y hy) hcovers hposition address
      constructor
      · rintro (hfirst | hmem)
        · have hmem := mem_addresses hw hsample hframe (hwithin y hy) hcovers hfirst
          exact Option.some.inj (hpart.symm.trans (hasked hmem))
        · exact Option.some.inj (hpart.symm.trans (hasked hmem))
      · intro hmem
        exact Option.some.inj (hpart.symm.trans (hnot hmem))
    · intro hnone
      exact Option.some.inj (hpart.symm.trans (hknows.shown?_of_not_covers hnone address))

/-- A resolver that puts each address into code of its own is coherent. -/
theorem coherent_single (label : String) :
    Jit.Resolver.Coherent fun address => [{ canonical := address, label }] := by
  intro frame address address' d d' hd hd'
  simp only [Jit.Descriptor.framesOf, List.mapIdx_cons, List.mapIdx_nil, List.mem_singleton,
    Prod.mk.injEq] at hd hd'
  obtain ⟨rfl, rfl⟩ := hd
  obtain ⟨heq, rfl⟩ := hd'
  rw [(CodeFrame.mk.inj heq).1]

/-- Whatever has happened before along the recording, the rows of a profile show the samples of the
window in order, and each address in them as the context says that was there at the time. -/
theorem profile_shows_contexts {recording : Nat → Entry} (tid : Int32) (before later : List Event)
    (w : Window) (resolver : Option Jit.Resolver) (store : MarkerStore) (settings : Settings)
    (hfollows : Follows recording 0 0 (before ++ .profile w resolver store settings :: later))
    (hcoherent : ∀ x ∈ (Contexts.after before).resolved w resolver, x.resolver.Coherent) :
    List.Forall₂ (fun sample row => ∃ parts,
        List.Forall₂ (FrameShows tid ((Contexts.after before).resolved w resolver) sample.position)
          sample.frames parts ∧
        row.Shows
          ((({ tid } : Session).run before).profile w resolver store settings).1.stack?
          sample.time sample.responsiveness ({ location := settings.rootLabel } :: parts.flatten))
      (ThreadProfile.shownSamples tid w settings)
      ((({ tid } : Session).run before).profile w resolver store settings).1.samples := by
  obtain ⟨start, stop, hremembers, ⟨hshows, hstart, hstop⟩, -⟩ :=
    (Remembers.init recording tid).run hfollows
  have htid : (({ tid } : Session).run before).tid = tid := tid_run _ before
  obtain ⟨hordered, hwithin⟩ := hremembers.resolved_ordered hshows hstart hstop resolver
  have hknows := hremembers.knows_coverage hstart resolver
  rw [htid] at hknows
  have hrows := ThreadProfile.showsRecorded_ofWindow hknows.valid tid w store settings
  rw [profile, htid]
  refine List.forall₂_iff_get.2 ⟨hrows.length_eq, ?_⟩
  intro i hi hi'
  obtain ⟨parts, hparts, hshow⟩ := hrows.get hi hi'
  refine ⟨parts, List.forall₂_iff_get.2 ⟨hparts.length_eq, ?_⟩, hshow⟩
  intro j hj hj'
  have hsample : (ThreadProfile.shownSamples tid w settings).get ⟨i, hi⟩ ∈ w.samples tid :=
    (List.mem_filter.1 (List.get_mem _ _)).1
  exact frameShows_of_knows hshows hordered hwithin hcoherent hknows hsample (List.get_mem _ _)
    (hparts.get hj hj')

/-- The same code is run in a context that was lost and in the one that came after it, and the
resolvers of the two know it by other names. Each sample is shown by the name that its own context
gave. -/
theorem profile_shows_contexts_reload :
    let recording (position : Nat) : Entry :=
      if position % 3 = 0 then .threadId 7
      else if position % 3 = 1 then .time ⟨0⟩ else .jitReturnAddr 32
    let sample : Array Entry := #[.threadId 7, .time ⟨0⟩, .jitReturnAddr 32]
    let resolver (label : String) : Jit.Resolver := fun address => [{ canonical := address, label }]
    let before : List Event :=
      [.receive 0, .lose (.ofEntries 0 sample) (resolver "old"), .receive 3]
    let w := Window.ofEntries 0 (sample ++ sample)
    let p := ((({ tid := 7 } : Session).run before).profile w (some (resolver "new"))
      (fun _ => none) {}).1
    Follows recording 0 0 (before ++ [.profile w (some (resolver "new")) (fun _ => none) {}]) ∧
      (∀ x ∈ (Contexts.after before).resolved w (some (resolver "new")), x.resolver.Coherent) ∧
      p.samples.map (fun row => (row.stack.bind p.stack?).map (·.map ShownFrame.location)) =
        [some ["(root)", "old"], some ["(root)", "new"]] ∧
      List.Forall₂ (fun sample row => ∃ parts,
          List.Forall₂ (FrameShows 7 ((Contexts.after before).resolved w (some (resolver "new")))
            sample.position) sample.frames parts ∧
          row.Shows p.stack? sample.time sample.responsiveness
            ({ location := "(root)" } :: parts.flatten))
        (ThreadProfile.shownSamples 7 w {}) p.samples := by
  intro recording sample resolver before w p
  have hfollows : Follows recording 0 0
      (before ++ [.profile w (some (resolver "new")) (fun _ => none) {}]) := by
    have hsample : (Window.ofEntries 0 sample).Shows recording := by
      unfold Window.Shows
      decide
    have hw : w.Shows recording := by
      unfold Window.Shows
      decide
    exact ⟨Nat.le_refl 0, ⟨hsample, by decide, by decide⟩, Nat.le_refl 3,
      ⟨hw, by decide, by decide⟩, trivial⟩
  have hcoherent :
      ∀ x ∈ (Contexts.after before).resolved w (some (resolver "new")), x.resolver.Coherent := by
    intro x hx
    rcases List.mem_cons.1 hx with rfl | hx
    · exact coherent_single "old"
    · rw [List.mem_singleton.1 hx]
      exact coherent_single "new"
  exact ⟨hfollows, hcoherent, by decide +kernel,
    profile_shows_contexts 7 before [] w (some (resolver "new")) (fun _ => none) {} hfollows
      hcoherent⟩
end TraceProfile.Session
