import TraceProfile.Profile.Session
import TraceProfile.Proofs.Reading.Ownership

/-!
# Threads do not see each other

All threads write into one buffer, and what one of them writes may be cut off, out of order, or
meaningless. This changes nothing for the others: in two windows that are the same to a thread
(`Window.SameOwn`), a session about the thread takes the same profile, asks a resolver the same
questions in the same order, and remembers the same afterwards. Only the ranges of time without
samples are those of the whole window.
-/

namespace TraceProfile

theorem ThreadProfile.ofWindow_of_sameOwn {w w' : Window} {tid : Int32} (h : w.SameOwn w' tid)
    (coverage : Jit.Coverage) (store : MarkerStore) (settings : Settings) :
    ofWindow tid w' coverage store settings =
      { ofWindow tid w coverage store settings with
        pausedRanges := PausedRange.readAll w'.entries.toList } := by
  have hsamples : shownSamples tid w settings = shownSamples tid w' settings := by
    rw [shownSamples, shownSamples, h.samples_eq]
  have hmarkers : shownMarkers tid w store settings = shownMarkers tid w' store settings := by
    rw [shownMarkers, shownMarkers, h.markers_eq]
  simp only [ofWindow, sampleRows, markerRows, hsamples, hmarkers]

namespace Session

variable {s : Session} {w w' : Window}

theorem addContext_of_sameOwn (h : w.SameOwn w' s.tid) (c : Jit.Coverage) (start : Nat)
    (resolver : Jit.Resolver) :
    c.addContext start w s.tid resolver = c.addContext start w' s.tid resolver := by
  have hstop : w.stop = w'.stop := by
    rw [Window.stop, Window.stop, h.start_eq, h.size_eq]
  rw [Jit.Coverage.addContext, Jit.Coverage.addContext, hstop, h.jitAddresses_eq]

theorem coverage_of_sameOwn (h : w.SameOwn w' s.tid) (resolver : Option Jit.Resolver) :
    s.coverage w resolver = s.coverage w' resolver := by
  simp only [coverage, h.start_eq, addContext_of_sameOwn h]

theorem queries_of_sameOwn (h : w.SameOwn w' s.tid) : s.queries w = s.queries w' := by
  simp only [queries, h.jitAddresses_eq]

theorem loseContext_of_sameOwn (h : w.SameOwn w' s.tid) (resolver : Jit.Resolver) :
    s.loseContext w resolver = s.loseContext w' resolver := by
  simp only [loseContext, h.start_eq, addContext_of_sameOwn h]

/-- In windows that are the same to the thread of a session, a profile differs in nothing but the
ranges of time without samples, the same addresses are asked for in the same order, and the session
is the same afterwards, whether a profile was taken or the context was lost. -/
theorem profile_of_sameOwn (h : w.SameOwn w' s.tid) (resolver : Option Jit.Resolver)
    (store : MarkerStore) (settings : Settings) :
    (s.profile w' resolver store settings).1 =
        { (s.profile w resolver store settings).1 with
          pausedRanges := PausedRange.readAll w'.entries.toList } ∧
      (s.profile w' resolver store settings).2 = (s.profile w resolver store settings).2 ∧
      s.queries w' = s.queries w ∧
      ∀ resolver', s.loseContext w' resolver' = s.loseContext w resolver' := by
  refine ⟨?_, ?_, (queries_of_sameOwn h).symm,
    fun resolver' => (loseContext_of_sameOwn h resolver').symm⟩
  · rw [profile, profile, ← coverage_of_sameOwn h]
    exact ThreadProfile.ofWindow_of_sameOwn h _ store settings
  · rw [profile, profile, h.start_eq]

/-- The own entries of the thread start with an address and a marker before any time, and hold a
label without a text. The windows differ in the entry in front, and in times, addresses, markers and
pauses of other threads. -/
theorem profile_of_sameOwn_malformed :
    let own : Array Entry := #[.jitReturnAddr 16, .marker 1, .threadId 3, .time ⟨1⟩,
      .jitReturnAddr 32, .label 2]
    let w := Window.ofEntries 5 (#[.time ⟨7⟩, .threadId 3] ++ own ++
      #[.threadId 4, .time ⟨2⟩, .jitReturnAddr 48, .marker 2, .threadId 3, .marker 1])
    let w' := Window.ofEntries 5 (#[.label 9, .threadId 3] ++ own ++
      #[.threadId 8, .jitReturnAddr 64, .threadId 4, .pause ⟨2⟩, .threadId 3, .marker 1])
    let s : Session := { tid := 3, contextStart := some 8 }
    let resolver : Jit.Resolver := fun a => [{ canonical := a, label := "loop" }]
    let store : MarkerStore := fun ref => some { name := "mark", time := ⟨ref⟩ }
    w.SameOwn w' s.tid ∧ s.queries w = [32] ∧
      (s.profile w (some resolver) store {}).1.strings = ["loop", "(root)", "", "mark"] ∧
      (s.profile w' (some resolver) store {}).1 =
        { (s.profile w (some resolver) store {}).1 with
          pausedRanges := PausedRange.readAll w'.entries.toList } ∧
      (s.profile w' (some resolver) store {}).2 = (s.profile w (some resolver) store {}).2 ∧
      s.queries w' = s.queries w ∧
      ∀ resolver', s.loseContext w' resolver' = s.loseContext w resolver' := by
  intro own w w' s resolver store
  have hsame : w.SameOwn w' s.tid := Window.sameOwn_iff.2 (by decide +kernel)
  exact ⟨hsame, by decide +kernel, by decide +kernel,
    profile_of_sameOwn hsame (some resolver) store {}⟩

end Session

end TraceProfile
