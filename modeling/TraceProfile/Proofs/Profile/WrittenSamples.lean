import TraceProfile.Proofs.Profile.Samples
import TraceProfile.Proofs.Reading.Written

/-!
# From writing a sample to reading its row

Samples are written entry by entry, read from a window, and put into three tables that all samples
share. Nothing is lost on the way: for each sample of the thread there is one row, and its stack,
followed through the tables, reads as the frames that were written, between which no others appear.
-/

namespace TraceProfile

/-- What is shown for a frame that was written at a position: a label frame and a frame of native
code as they are, a frame of compiled code by the rows that the coverage has for its address, or by
its address if that is not known. -/
def WrittenFrame.ShownAs (c : Jit.Coverage) (position : Nat) :
    WrittenFrame → List ShownFrame → Prop
  | .label l, part => part = [l.frame.shown]
  | .native address, part => part = [.ofAddress address]
  | .compiled address, part =>
    match c.lookup? address position with
    | none => part = [.ofAddress address]
    | some (range, frames) => frames.mapM (fun frame =>
        (c.timeline.row? frame range).bind (·.shown? c.strings.toList)) = some part

/-- What is shown for the recorded frame is what has to be shown for the written one. -/
theorem WrittenFrame.shownAs_of_shown? {c : Jit.Coverage} (hc : c.Valid) {position : Nat}
    {frame : WrittenFrame} {part : List ShownFrame}
    (h : (frame.recorded position).shown? c = some part) : frame.ShownAs c position part := by
  cases frame with
  | label l => exact Option.some.inj (h.symm.trans (RecordedFrame.shown?_label c l.frame))
  | native address => exact Option.some.inj (h.symm.trans (RecordedFrame.shown?_native c address))
  | compiled address =>
    rw [ShownAs]
    split
    · next hlookup =>
      have hshown := RecordedFrame.shown?_of_lookup?_eq_none hlookup
      exact Option.some.inj (h.symm.trans hshown)
    · next range frames hlookup =>
      rw [← RecordedFrame.shown?_of_lookup?_eq_some hc hlookup]
      exact h

namespace ThreadProfile

/-- The samples of a thread that are read from the window are those that were written. -/
theorem samples_written (tid : Int32) (start : Nat) (gap : Gap) (samples : List WrittenSample) :
    (Window.ofEntries start
        (gap.entries ++ samples.flatMap WrittenSample.entries).toArray).samples tid =
      ((positions WrittenSample.entries (start + gap.entries.length) samples).filter
        fun s => s.2.tid = tid).map fun s => s.2.recorded s.1 := by
  show RecordedSample.readAll tid (Slot.number start _) = _
  rw [Slot.number_eq_place, Slot.place_append, RecordedSample.readAll_append,
    RecordedSample.readAll_written]
  intro slot hslot
  exact gap.threadless _ (Slot.mem_place hslot)

/-- There is one row for each sample of the thread that was written, in order. The row has its
times, and its stack reads as the root and then what is shown for each of its frames, the outermost
first. -/
theorem sampleRows_written (tid : Int32) (start : Nat) (gap : Gap) (samples : List WrittenSample)
    {coverage : Jit.Coverage} (hcoverage : coverage.Reached) {settings : Settings}
    (hsettings : settings.sinceTime = none) :
    List.Forall₂ (fun (s : Nat × WrittenSample) row => ∃ parts,
        List.Forall₂ (fun (frame : Nat × WrittenFrame) part =>
          frame.2.ShownAs coverage frame.1 part) (s.2.framesFrom s.1) parts ∧
        row.Shows
          (sampleRows tid (.ofEntries start
            (gap.entries ++ samples.flatMap WrittenSample.entries).toArray)
            (.ofCoverage coverage) settings).2.stack?
          s.2.time s.2.responsiveness ({ location := settings.rootLabel } :: parts.flatten))
      ((positions WrittenSample.entries (start + gap.entries.length) samples).filter
        fun s => s.2.tid = tid)
      (sampleRows tid (.ofEntries start
        (gap.entries ++ samples.flatMap WrittenSample.entries).toArray)
        (.ofCoverage coverage) settings).1 := by
  have hsamples := samples_written tid start gap samples
  generalize Window.ofEntries start
    (gap.entries ++ samples.flatMap WrittenSample.entries).toArray = w at hsamples
  have hall : ∀ time, settings.includes time = true := by
    intro time
    rw [Settings.includes, hsettings]
  have hshown : shownSamples tid w settings =
      ((positions WrittenSample.entries (start + gap.entries.length) samples).filter
        fun s => s.2.tid = tid).map fun s => s.2.recorded s.1 := by
    rw [← hsamples]
    exact List.filter_eq_self.2 fun sample _ => hall sample.time
  have hrows := showsRecorded_sampleRows hcoverage.valid tid w settings
  rw [hshown, List.forall₂_map_left_iff] at hrows
  refine hrows.imp ?_
  rintro ⟨position, s⟩ row ⟨parts, hparts, hrow⟩
  refine ⟨parts, ?_, hrow⟩
  have hframes := List.forall₂_map_left_iff.1 hparts
  refine hframes.imp ?_
  intro frame part hpart
  exact WrittenFrame.shownAs_of_shown? hcoverage.valid hpart

/-- Two samples of a thread with one of another thread between them. The label frame that both start
with has a line and a column below zero, which counts as none; compiled code is known. -/
theorem sampleRows_written_pair :
    let gap : Gap := { entries := [.pause ⟨0⟩], threadless := by decide, foreign := by decide }
    let outer : WrittenFrame := .label
      { text := "main", flags := 5, line := some 10, column := some (-1), length_lt := by decide }
    let samples : List WrittenSample :=
      [{ tid := 3, time := ⟨1⟩, frames := [outer, .compiled 32], after := gap },
        { tid := 4, time := ⟨2⟩, frames := [.native 16], after := gap },
        { tid := 3, time := ⟨3⟩, frames := [outer, .native 16], responsiveness := some ⟨0⟩,
          after := gap }]
    let coverage := Jit.Coverage.add {} 0 100
      (fun address => [{ canonical := address, label := "loop" }]) [32]
    let settings : Settings := {}
    let result := sampleRows 3 (.ofEntries 5
      (gap.entries ++ samples.flatMap WrittenSample.entries).toArray)
      (.ofCoverage coverage) settings
    coverage.Reached ∧ settings.sinceTime = none ∧
      result.1.map (fun row => (row.stack.bind result.2.stack?).map
        (·.map fun frame => (frame.location, frame.line))) =
        [some [("(root)", none), ("main", some 10), ("loop", none)],
          some [("(root)", none), ("main", some 10), ("0x10", none)]] ∧
      List.Forall₂ (fun (s : Nat × WrittenSample) row => ∃ parts,
          List.Forall₂ (fun (frame : Nat × WrittenFrame) part =>
            frame.2.ShownAs coverage frame.1 part) (s.2.framesFrom s.1) parts ∧
          row.Shows result.2.stack? s.2.time s.2.responsiveness
            ({ location := settings.rootLabel } :: parts.flatten))
        ((positions WrittenSample.entries (5 + gap.entries.length) samples).filter
          fun s => s.2.tid = 3) result.1 := by
  intro gap outer samples coverage settings result
  have hcoverage : coverage.Reached := .add .empty 0 100 _ [32]
  exact ⟨hcoverage, rfl, by decide +kernel, sampleRows_written 3 5 gap samples hcoverage rfl⟩

end ThreadProfile

end TraceProfile
