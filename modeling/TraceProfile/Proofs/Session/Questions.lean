import TraceProfile.Profile.Session
import TraceProfile.Proofs.Jit.Consultation
import TraceProfile.Proofs.Reading.Attribution
import TraceProfile.Proofs.Reading.Ownership

/-!
# What a resolver is asked

When the code of a context is resolved, be it because the context is about to go or for a profile,
the resolver is asked for the addresses of one thread since the context was received. Which they are
is said here by positions alone (`Window.Concerns`): the closest thread entry before the address
names the thread and stands where the context already was. The resolver is asked for each of these
addresses once, in the order in which they first appear, and for no other
(`Session.firstAppearances_transcript`).

Samples are read by other rules, with look-ahead, but no frame of a sample is missed: whatever
stands in the window, the thread entry of a sample is the closest one before each of its addresses.
What is then known is what the resolver answered, whether it always says the same or not.
-/

namespace TraceProfile

/-- An address of compiled code stands at the position; the closest thread entry before it names the
thread, and stands at `start` or later. -/
structure Window.Concerns (w : Window) (tid : Int32) (start position : Nat) (address : UInt64) :
    Prop where
  stands : w.get? position = some (.jitReturnAddr address)
  governed : ∃ first, start ≤ first ∧ first < position ∧ w.get? first = some (.threadId tid) ∧
    ∀ p, first < p → p < position → ∀ t, w.get? p ≠ some (.threadId t)

/-! ## Addresses in a window -/

/-- An address of compiled code, with the position at which it stands. -/
def Slot.place? (slot : Slot) : Option (Nat × UInt64) :=
  slot.entry.jitReturnAddr?.map fun address => (slot.position, address)

/-- The addresses that are collected for a thread, with their positions. -/
def Window.places (w : Window) (tid : Int32) (start : Nat) : List (Nat × UInt64) :=
  ((w.drop (start - w.start)).own tid).filterMap Slot.place?

theorem Slot.place?_eq_some_iff {slot : Slot} {position : Nat} {address : UInt64} :
    slot.place? = some (position, address) ↔ slot = ⟨position, .jitReturnAddr address⟩ := by
  obtain ⟨position', entry⟩ := slot
  cases entry <;> simp [place?, Entry.jitReturnAddr?]

namespace Window

variable {w : Window} {tid : Int32} {start : Nat}

/-- What belongs to a thread in the rest of a window from `start` on. -/
theorem concerns_iff {position : Nat} {address : UInt64} :
    w.Concerns tid start position address ↔
      (w.drop (start - w.start)).get? position = some (.jitReturnAddr address) ∧
        (w.drop (start - w.start)).Belongs tid position := by
  have hget (p : Nat) (entry : Entry) :
      (w.drop (start - w.start)).get? p = some entry ↔ start ≤ p ∧ w.get? p = some entry := by
    rw [get?_drop]
    split
    · next hle => exact ⟨fun h => ⟨by omega, h⟩, fun h => h.2⟩
    · next hle =>
      constructor
      · exact fun h => absurd h (by simp)
      · rintro ⟨hstart, h⟩
        obtain ⟨hlow, -⟩ := exists_get?_iff.1 ⟨entry, h⟩
        omega
  simp only [hget]
  constructor
  · rintro ⟨hstands, first, hstart, hlt, hfirst, hclosest⟩
    refine ⟨⟨by omega, hstands⟩, ⟨_, (hget _ _).2 ⟨by omega, hstands⟩⟩, first, by omega,
      (hget _ _).2 ⟨hstart, hfirst⟩, ?_⟩
    intro p hp hle t ht
    obtain ⟨-, ht⟩ := (hget _ _).1 ht
    rcases Nat.eq_or_lt_of_le hle with rfl | hlt'
    · exact absurd (hstands.symm.trans ht) (by simp)
    · exact hclosest p hp hlt' t ht
  · rintro ⟨⟨-, hstands⟩, -, first, hle, hfirst, hclosest⟩
    obtain ⟨hstart, hfirst⟩ := (hget _ _).1 hfirst
    have hlt : first < position := by
      refine Nat.lt_of_le_of_ne hle ?_
      rintro rfl
      exact absurd (hstands.symm.trans hfirst) (by simp)
    refine ⟨hstands, first, hstart, hlt, hfirst, fun p hp hlt' t ht => ?_⟩
    exact hclosest p hp (Nat.le_of_lt hlt') t ((hget _ _).2 ⟨by omega, ht⟩)

theorem mem_places_iff {position : Nat} {address : UInt64} :
    (position, address) ∈ w.places tid start ↔ w.Concerns tid start position address := by
  simp only [places, List.mem_filterMap, Slot.place?_eq_some_iff, exists_eq_right]
  rw [concerns_iff, mem_own_iff]

theorem places_eq_placed (w : Window) (tid : Int32) (start : Nat) :
    w.places tid start = placed Slot.position (fun slot => slot.entry.jitReturnAddr?)
      ((w.drop (start - w.start)).own tid) := rfl

theorem pairwise_places (w : Window) (tid : Int32) (start : Nat) :
    (w.places tid start).Pairwise fun earlier later => earlier.1 < later.1 := by
  rw [places_eq_placed]
  exact pairwise_placed ((w.drop (start - w.start)).pairwise_own tid)

theorem map_snd_places (w : Window) (tid : Int32) (start : Nat) :
    (w.places tid start).map Prod.snd = w.jitAddresses start tid := by
  rw [jitAddresses_eq_own, places_eq_placed, map_snd_placed]

/-- The addresses that are collected are those that concern the thread. -/
theorem firstAppearances_jitAddresses (w : Window) (tid : Int32) (start : Nat) :
    FirstAppearances (w.Concerns tid start) (w.jitAddresses start tid).eraseDups := by
  have hconcerns : (fun position address => (position, address) ∈ w.places tid start) =
      w.Concerns tid start := by
    funext position address
    exact propext mem_places_iff
  rw [← hconcerns, ← map_snd_places]
  exact firstAppearances_eraseDups (w.pairwise_places tid start)

/-- Every window shows some recording. -/
theorem shows_get? (w : Window) :
    w.Shows fun position => (w.get? position).getD (.time default) := by
  intro i hi
  have hentry := w.get?_start_add i
  rw [Array.getElem?_eq_getElem hi] at hentry
  show w.entries[i] = (w.get? (w.start + i)).getD _
  rw [hentry, Option.getD_some]

/-- An address among the frames of a sample concerns the thread, from the thread entry of the sample
on. -/
theorem concerns_of_mem_samples {sample : RecordedSample} (hsample : sample ∈ w.samples tid)
    (hstart : start ≤ sample.position) {position : Nat} {address : UInt64}
    (hframe : .compiled position address ∈ sample.frames) :
    w.Concerns tid start position address := by
  obtain ⟨hlow, hhigh, hgoverns, hstands⟩ := w.shows_get?.governs hsample hframe
  have hlt := hgoverns.lt
  have hget {p : Nat} (hle : sample.position ≤ p) (hle' : p ≤ position) {entry : Entry}
      (h : (w.get? p).getD (.time default) = entry) : w.get? p = some entry := by
    obtain ⟨entry', hentry'⟩ := exists_get?_iff.2 ⟨Nat.le_trans hlow hle, by omega⟩
    rw [hentry'] at h ⊢
    exact congrArg some h
  refine ⟨hget (Nat.le_of_lt hlt) (Nat.le_refl _) hstands, sample.position, hstart, hlt,
    hget (Nat.le_refl _) (Nat.le_of_lt hlt) hgoverns.names, ?_⟩
  intro p hp hp' t ht
  refine hgoverns.closest p hp (Nat.le_of_lt hp') t ?_
  rw [ht, Option.getD_some]

end Window

/-! ## The transcript of a context -/

namespace Session

/-- What the resolver is asked when the code of the current context is resolved, with its answers.
The resolver is a state that each question may change. -/
def transcript {σ : Type} (s : Session) (w : Window) (ask : σ → UInt64 → List Jit.Descriptor × σ)
    (state : σ) : Jit.Transcript :=
  match s.contextStart with
  | some start =>
    let strings := ((kept s.retained w.start).getD {}).strings
    (Jit.Consultation.run ask state strings (w.jitAddresses start s.tid)).transcript
  | none => []

/-- Whatever stands in the window, wherever the context was received, and whatever the resolver
says: it is asked for the addresses that concern the thread, once each, in the order of their first
appearance. This is so when the context is lost and when a profile is taken. No compiled frame of a
sample that starts in the context is missed. The range that is added knows the addresses to which
the one answer was not empty. -/
theorem firstAppearances_transcript (tid : Int32) (start : Nat) (retained : Option Jit.Coverage)
    (w : Window) {σ : Type} (ask : σ → UInt64 → List Jit.Descriptor × σ) (state : σ) :
    let s : Session := { tid, contextStart := some start, retained }
    let t := s.transcript w ask state
    let known := (kept retained w.start).getD {}
    let coverage := known.consult start w.stop ask state (w.jitAddresses start tid)
    FirstAppearances (w.Concerns tid start) (t.map Prod.fst) ∧
      s.queries w = t.map Prod.fst ∧
      (∀ sample ∈ w.samples tid, start ≤ sample.position →
        ∀ position address, .compiled position address ∈ sample.frames →
          address ∈ t.map Prod.fst) ∧
      (s.loseContext w t.resolver).retained = some coverage ∧
      s.coverage w (some t.resolver) = coverage ∧
      ∃ range : Jit.Range,
        coverage.timeline.ranges.toList = known.timeline.ranges.toList ++ [range] ∧
        range.start = start ∧ range.stop = w.stop ∧
        ∀ address, (range.frames? address).isSome = true ↔
          ∃ descriptors, (address, descriptors) ∈ t ∧ descriptors ≠ [] := by
  intro s t known coverage
  have hasked : t.map Prod.fst = (w.jitAddresses start tid).eraseDups :=
    (Jit.Consultation.keeps_run ask state known.strings (w.jitAddresses start tid)).asked
  have hcoverage : coverage = known.addContext start w tid t.resolver :=
    known.consult_eq_add start w.stop ask state (w.jitAddresses start tid)
  have hfirst : FirstAppearances (w.Concerns tid start) (t.map Prod.fst) := by
    rw [hasked]
    exact w.firstAppearances_jitAddresses tid start
  have hprofile : s.coverage w (some t.resolver) = coverage := by
    simp only [Session.coverage, Jit.Coverage.map_deepCopy]
    exact hcoverage.symm
  refine ⟨hfirst, ?_, ?_, ?_, hprofile, ?_⟩
  · rw [hasked]
    exact Interner.toList_ofList _
  · intro sample hsample hstart position address hframe
    exact (hfirst.mem_iff address).2
      ⟨position, Window.concerns_of_mem_samples hsample hstart hframe⟩
  · exact congrArg some hcoverage.symm
  · refine ⟨(Jit.Range.resolve start w.stop t.resolver (w.jitAddresses start tid)
      known.strings).1, ?_, rfl, rfl, ?_⟩
    · rw [hcoverage]
      exact known.ranges_add start w.stop t.resolver (w.jitAddresses start tid)
    · exact (Jit.Range.renders_resolve start w.stop hasked known.strings).isSome_frames?_iff

/-- An address before any thread entry and one of another thread are not asked for; one that no
sample reads is. One that stands twice is asked for once. The resolver knows the first address that
it is asked for, and no other. -/
theorem firstAppearances_transcript_untimed :
    let w : Window := .ofEntries 10 #[.jitReturnAddr 16, .threadId 1, .time ⟨0⟩, .jitReturnAddr 32,
      .threadId 2, .jitReturnAddr 48, .threadId 1, .jitReturnAddr 64, .jitReturnAddr 32]
    let s : Session := { tid := 1, contextStart := some 8 }
    let ask (fresh : Bool) (address : UInt64) : List Jit.Descriptor × Bool :=
      (if fresh then [{ canonical := address, label := "loop" }] else [], false)
    let t := s.transcript w ask true
    t.map Prod.fst = [32, 64] ∧
      (w.samples 1).map RecordedSample.frames = [[.compiled 13 32]] ∧
      (∃ position, w.Concerns 1 8 position 64) ∧
      s.queries w = [32, 64] ∧
      ∃ range : Jit.Range, ((s.loseContext w t.resolver).retained.getD {}).timeline.ranges.toList =
          [range] ∧
        (range.frames? 32).isSome = true ∧ (range.frames? 64).isSome = false := by
  intro w s ask t
  obtain ⟨hfirst, hqueries, -, hlost, -, range, hranges, -, -, hknown⟩ :=
    firstAppearances_transcript 1 8 none w ask true
  have htranscript : t = [(32, [{ canonical := 32, label := "loop" }]), (64, [])] := rfl
  have hasked : t.map Prod.fst = [32, 64] := by rw [htranscript]; rfl
  refine ⟨hasked, by decide +kernel, (hfirst.mem_iff 64).1 ?_, hqueries.trans hasked, range, ?_, ?_,
    ?_⟩
  · show 64 ∈ t.map Prod.fst
    rw [hasked]
    decide
  · rw [hlost]
    exact hranges
  · rw [hknown]
    refine ⟨[{ canonical := 32, label := "loop" }], ?_, by simp⟩
    show _ ∈ t
    simp [htranscript]
  · rw [← Bool.not_eq_true, hknown]
    show ¬ ∃ descriptors, _ ∈ t ∧ _
    simp [htranscript]

end Session

end TraceProfile
