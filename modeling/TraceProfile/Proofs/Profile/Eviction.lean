import TraceProfile.Proofs.Buffer.Tail
import TraceProfile.Proofs.Profile.Samples
import TraceProfile.Proofs.Reading.Runs

/-!
# Only whole samples go

A window loses its oldest entries one by one, and the place up to which they are gone may lie in the
middle of a sample. Such a sample is gone as a whole: what is left of it starts no sample and is
part of no other one. All samples that start later are shown as before. The tables of the two
profiles differ, since each lists only what it needs, so what is compared is what a reader sees of
the rows (`SampleRow.ShowsSame`).
-/

namespace TraceProfile

/-! ## Where samples start -/

/-- A sample of the thread that is shown starts at the position: a thread entry of the thread stands
there, and right after it the time of the sample. -/
def Window.StartsSample (w : Window) (tid : Int32) (settings : Settings) (position : Nat) : Prop :=
  w.get? position = some (.threadId tid) ∧
    ∃ time, w.get? (position + 1) = some (.time time) ∧ settings.includes time = true

/-- The positions are those at which the samples of the rows start, one for each row, in order, and
no sample is without a row. -/
structure Window.RowsStartAt (w : Window) (tid : Int32) (settings : Settings)
    (positions : List Nat) (rows : List SampleRow) : Prop where
  ascending : positions.Pairwise (· < ·)
  mem_iff : ∀ position, position ∈ positions ↔ w.StartsSample tid settings position
  times : List.Forall₂ (fun position row => w.get? (position + 1) = some (.time row.time))
    positions rows

namespace Window

variable {w : Window} {tid : Int32}

/-- A sample starts with a thread entry of its thread and the time right after it. -/
theorem get?_of_mem_samples {sample : RecordedSample} (h : sample ∈ w.samples tid) :
    w.get? sample.position = some (.threadId tid) ∧
      w.get? (sample.position + 1) = some (.time sample.time) := by
  obtain ⟨before, timePosition, rest, hslots, -⟩ := RecordedSample.exists_of_mem_readAll h
  have hfirst := w.getElem?_slots before.length
  have hsecond := w.getElem?_slots (before.length + 1)
  rw [hslots, List.getElem?_append_right (by omega)] at hfirst hsecond
  rw [Nat.sub_self] at hfirst
  rw [Nat.add_sub_cancel_left] at hsecond
  obtain ⟨_, hentry, hslot⟩ := Option.map_eq_some_iff.1 hfirst.symm
  obtain ⟨_, hentry', hslot'⟩ := Option.map_eq_some_iff.1 hsecond.symm
  obtain ⟨hposition, rfl⟩ := Slot.mk.inj hslot
  obtain ⟨-, rfl⟩ := Slot.mk.inj hslot'
  rw [← hposition, Nat.add_assoc, get?_start_add, get?_start_add]
  exact ⟨hentry, hentry'⟩

/-- Where a thread entry of the thread is followed by a time, a sample starts. -/
theorem exists_mem_samples {position : Nat} {time : Binary64}
    (hthread : w.get? position = some (.threadId tid))
    (htime : w.get? (position + 1) = some (.time time)) :
    ∃ sample ∈ w.samples tid, sample.position = position ∧ sample.time = time := by
  obtain ⟨i, rfl, -⟩ := get?_eq_some_iff.1 hthread
  rw [Nat.add_assoc] at htime
  obtain ⟨early, heq, -⟩ := RecordedSample.readAll_split tid (w.slots.take i) (w.slots.drop i)
  rw [List.take_append_drop, drop_slots_eq_cons hthread, drop_slots_eq_cons htime,
    RecordedSample.readAll, if_pos rfl] at heq
  rw [samples, heq]
  exact ⟨_, List.mem_append_right early List.mem_cons_self, rfl, rfl⟩

/-- Samples stand in ascending order. -/
theorem pairwise_samples (w : Window) (tid : Int32) :
    ((w.samples tid).map RecordedSample.position).Pairwise (· < ·) := by
  have hslots := w.pairwise_slots
  rw [← List.pairwise_map] at hslots
  exact hslots.sublist (RecordedSample.sublist_positions tid w.slots)

/-- The samples that are left are those that start after the entries that have gone. -/
theorem samples_drop (w : Window) (tid : Int32) (count : Nat) :
    (w.drop count).samples tid =
      (w.samples tid).filter fun sample => w.start + count ≤ sample.position := by
  obtain ⟨early, heq, hearly⟩ :=
    RecordedSample.readAll_split tid (w.slots.take count) (w.slots.drop count)
  rw [List.take_append_drop, ← slots_drop] at heq
  have hgone : early.filter (fun sample => w.start + count ≤ sample.position) = [] := by
    rw [List.filter_eq_nil_iff]
    intro sample hsample
    obtain ⟨slot, hslot, hposition⟩ := hearly sample hsample
    obtain ⟨i, hi⟩ := List.mem_iff_getElem?.1 hslot
    rw [List.getElem?_take] at hi
    split at hi
    · next hlt =>
      rw [getElem?_slots] at hi
      obtain ⟨entry, -, rfl⟩ := Option.map_eq_some_iff.1 hi
      simp only [← hposition, decide_eq_true_eq]
      omega
    · exact absurd hi (by simp)
  have hleft : ((w.drop count).samples tid).filter
      (fun sample => w.start + count ≤ sample.position) = (w.drop count).samples tid := by
    rw [List.filter_eq_self]
    intro sample hsample
    obtain ⟨hthread, -⟩ := get?_of_mem_samples hsample
    exact decide_eq_true (exists_get?_iff.1 ⟨_, hthread⟩).1
  have hall : w.samples tid = early ++ (w.drop count).samples tid := heq
  rw [hall, List.filter_append, hgone, List.nil_append, hleft]

end Window

/-! ## Rows with the positions of their samples -/

/-- A reader sees the same in both rows: times, and the frames of the stack from the root on. -/
def SampleRow.ShowsSame (stack? stack?' : Nat → Option (List ShownFrame)) (row row' : SampleRow) :
    Prop :=
  ∃ time responsiveness frames,
    row.Shows stack? time responsiveness frames ∧ row'.Shows stack?' time responsiveness frames

/-- Two rows that show the same recorded sample show the same. -/
theorem SampleRow.ShowsRecorded.showsSame {stack? stack?' : Nat → Option (List ShownFrame)}
    {c : Jit.Coverage} {rootLabel : String} {sample : RecordedSample} {row row' : SampleRow}
    (h : row.ShowsRecorded stack? c rootLabel sample)
    (h' : row'.ShowsRecorded stack?' c rootLabel sample) : row.ShowsSame stack? stack?' row' := by
  obtain ⟨parts, hparts, hrow⟩ := h
  obtain ⟨parts', hparts', hrow'⟩ := h'
  have hunique : Relator.RightUnique fun (frame : RecordedFrame) part =>
      frame.shown? c = some part := by
    intro frame part part' hpart hpart'
    exact Option.some.inj (hpart.symm.trans hpart')
  obtain rfl := List.right_unique_forall₂' hunique hparts hparts'
  exact ⟨_, _, _, hrow, hrow'⟩

/-- The elements of a list, each paired with what belongs to it in another one. -/
theorem forall₂_zip_map {α β γ : Type} {R : α → β → Prop} {l : List α} {l' : List β}
    (h : List.Forall₂ R l l') (f : α → γ) :
    List.Forall₂ (fun a p => p.1 = f a ∧ R a p.2) l ((l.map f).zip l') := by
  induction h with
  | nil => exact .nil
  | cons hab _ ih => exact .cons ⟨rfl, hab⟩ ih

/-- Two lists that go with a third go with each other. -/
theorem forall₂_of_common {α β γ : Type} {R : γ → α → Prop} {S : γ → β → Prop}
    {T : α → β → Prop} (hT : ∀ c a b, R c a → S c b → T a b) {l : List γ} {as : List α}
    {bs : List β} (h : List.Forall₂ R l as) (h' : List.Forall₂ S l bs) : List.Forall₂ T as bs := by
  induction h generalizing bs with
  | nil =>
    cases h'
    exact .nil
  | cons hca _ ih =>
    cases h' with
    | cons hcb hrest => exact .cons (hT _ _ _ hca hcb) (ih hrest)

namespace ThreadProfile

/-- The positions of the samples of a thread that are shown, in order. -/
def shownPositions (tid : Int32) (w : Window) (settings : Settings) : List Nat :=
  (shownSamples tid w settings).map RecordedSample.position

theorem rowsStartAt_shownPositions {coverage : Jit.Coverage} (h : coverage.Valid) (tid : Int32)
    (w : Window) (settings : Settings) :
    w.RowsStartAt tid settings (shownPositions tid w settings)
      (sampleRows tid w (.ofCoverage coverage) settings).1 where
  ascending := by
    have hshown : (shownSamples tid w settings).Sublist (w.samples tid) := List.filter_sublist
    exact (w.pairwise_samples tid).sublist (hshown.map RecordedSample.position)
  mem_iff := by
    intro position
    rw [shownPositions, List.mem_map]
    constructor
    · rintro ⟨sample, hsample, rfl⟩
      obtain ⟨hmem, hincludes⟩ := List.mem_filter.1 hsample
      obtain ⟨hthread, htime⟩ := Window.get?_of_mem_samples hmem
      exact ⟨hthread, sample.time, htime, hincludes⟩
    · rintro ⟨hthread, time, htime, hincludes⟩
      obtain ⟨sample, hmem, hposition, rfl⟩ := Window.exists_mem_samples hthread htime
      exact ⟨sample, List.mem_filter.2 ⟨hmem, hincludes⟩, hposition⟩
  times := by
    rw [shownPositions, List.forall₂_map_left_iff]
    have hrows := showsRecorded_sampleRows h tid w settings
    have hmem : ∀ sample ∈ shownSamples tid w settings,
        w.get? (sample.position + 1) = some (.time sample.time) := by
      intro sample hsample
      exact (Window.get?_of_mem_samples (List.mem_filter.1 hsample).1).2
    refine ((List.forall₂_and_left _ _).2 ⟨hmem, hrows⟩).imp ?_
    rintro sample row ⟨htime, parts, -, hrow⟩
    rw [hrow.time_eq]
    exact htime

/-- Where the oldest entries of a window have gone, the rows are those of the samples that start
later, in order, and a reader sees the same in them: times and frames. Each row has its position,
that of the thread entry at which its sample starts, and every sample that is shown has a row. -/
theorem sampleRows_drop {coverage : Jit.Coverage} (h : coverage.Reached) (tid : Int32) (w : Window)
    (count : Nat) (settings : Settings) :
    ∃ positions positions',
      w.RowsStartAt tid settings positions
          (sampleRows tid w (.ofCoverage coverage) settings).1 ∧
        (w.drop count).RowsStartAt tid settings positions'
          (sampleRows tid (w.drop count) (.ofCoverage coverage) settings).1 ∧
        List.Forall₂ (fun (row row' : Nat × SampleRow) => row.1 = row'.1 ∧
            row.2.ShowsSame (sampleRows tid w (.ofCoverage coverage) settings).2.stack?
              (sampleRows tid (w.drop count) (.ofCoverage coverage) settings).2.stack? row'.2)
          ((positions.zip (sampleRows tid w (.ofCoverage coverage) settings).1).filter
            fun row => w.start + count ≤ row.1)
          (positions'.zip (sampleRows tid (w.drop count) (.ofCoverage coverage) settings).1) := by
  refine ⟨shownPositions tid w settings, shownPositions tid (w.drop count) settings,
    rowsStartAt_shownPositions h.valid tid w settings,
    rowsStartAt_shownPositions h.valid tid (w.drop count) settings, ?_⟩
  -- The samples that are left are the later ones; each shows in both profiles what was recorded.
  have hleft : shownSamples tid (w.drop count) settings =
      (shownSamples tid w settings).filter fun sample => w.start + count ≤ sample.position := by
    rw [shownSamples, shownSamples, Window.samples_drop, List.filter_comm]
  have hrows := forall₂_zip_map (showsRecorded_sampleRows h.valid tid w settings)
    RecordedSample.position
  have hrows' := forall₂_zip_map (showsRecorded_sampleRows h.valid tid (w.drop count) settings)
    RecordedSample.position
  have hlater := List.rel_filter
    (p := fun sample : RecordedSample => decide (w.start + count ≤ sample.position))
    (q := fun row : Nat × SampleRow => decide (w.start + count ≤ row.1)) (by
      rintro sample row ⟨hposition, -⟩
      simp only [hposition]) hrows
  rw [← hleft] at hlater
  refine forall₂_of_common ?_ hlater hrows'
  rintro sample row row' ⟨hposition, hshows⟩ ⟨hposition', hshows'⟩
  exact ⟨hposition.trans hposition'.symm, hshows.showsSame hshows'⟩

/-- The cut is inside the first sample, and its row is gone as a whole. The row of the second one
stays. It has another stack index now, and shows the same frames. -/
theorem sampleRows_drop_inside :
    let w : Window := .ofEntries 5 #[.threadId 3, .time ⟨1⟩, .nativeLeafAddr 16, .nativeLeafAddr 17,
      .threadId 3, .time ⟨2⟩, .jitReturnAddr 32, .label 9, .time ⟨3⟩]
    let coverage := Jit.Coverage.add {} 0 100
      (fun address => [{ canonical := address, label := "loop" }]) [32]
    let result := sampleRows 3 w (.ofCoverage coverage) {}
    let result' := sampleRows 3 (w.drop 3) (.ofCoverage coverage) {}
    coverage.Reached ∧
      result.1.map (fun row => (row.stack.bind result.2.stack?).map (·.map ShownFrame.location)) =
        [some ["(root)", "0x10", "0x11"], some ["(root)", "loop", ""]] ∧
      result'.1.map (fun row => (row.stack.bind result'.2.stack?).map (·.map ShownFrame.location)) =
        [some ["(root)", "loop", ""]] ∧
      ∃ positions positions',
        w.RowsStartAt 3 {} positions result.1 ∧ (w.drop 3).RowsStartAt 3 {} positions' result'.1 ∧
          List.Forall₂ (fun (row row' : Nat × SampleRow) => row.1 = row'.1 ∧
              row.2.ShowsSame result.2.stack? result'.2.stack? row'.2)
            ((positions.zip result.1).filter fun row => w.start + 3 ≤ row.1)
            (positions'.zip result'.1) := by
  intro w coverage result result'
  have hcoverage : coverage.Reached := .add .empty 0 100 _ [32]
  exact ⟨hcoverage, by decide +kernel, by decide +kernel, sampleRows_drop hcoverage 3 w 3 {}⟩

end ThreadProfile

end TraceProfile
