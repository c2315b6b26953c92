import TraceProfile.Proofs.Profile.Linked

/-!
# What the rows of samples show

The rows of the sample table, read back through the tables, show the samples: their times, and after
the root what is shown for each recorded frame, the outermost first. A label frame and a frame of
native code show themselves. For a frame of compiled code that depends on the coverage
(`RecordedFrame.shown?`).
-/

namespace TraceProfile

/-- What is shown for a recorded frame, given what is known about compiled code. -/
def RecordedFrame.shown? (c : Jit.Coverage) (frame : RecordedFrame) : Option (List ShownFrame) :=
  (frame.keys c.timeline).mapM (FrameKey.shown? c.timeline c.strings.toList)

/-- The row shows the times of a sample, and its stack reads as the given frames. -/
structure SampleRow.Shows (row : SampleRow) (stack? : Nat → Option (List ShownFrame))
    (time : Binary64) (responsiveness : Option Binary64) (frames : List ShownFrame) : Prop where
  time_eq : row.time = time
  responsiveness_eq : row.responsiveness = responsiveness
  stack_eq : ∃ stack, row.stack = some stack ∧ stack? stack = some frames

/-- The row shows a recorded sample: the root, and then what is shown for each frame. -/
def SampleRow.ShowsRecorded (row : SampleRow) (stack? : Nat → Option (List ShownFrame))
    (c : Jit.Coverage) (rootLabel : String) (sample : RecordedSample) : Prop :=
  ∃ parts, List.Forall₂ (fun frame part => frame.shown? c = some part) sample.frames parts ∧
    row.Shows stack? sample.time sample.responsiveness ({ location := rootLabel } :: parts.flatten)

/-! ## Recorded frames -/

namespace RecordedFrame

theorem shown?_label (c : Jit.Coverage) (frame : LabelFrame) :
    (label frame).shown? c = some [frame.shown] := rfl

theorem shown?_native (c : Jit.Coverage) (address : UInt64) :
    (native address).shown? c = some [.ofAddress address] := rfl

/-- Compiled code that is not known is shown by its address. -/
theorem shown?_of_lookup?_eq_none {c : Jit.Coverage} {position : Nat} {address : UInt64}
    (h : c.lookup? address position = none) :
    (compiled position address).shown? c = some [.ofAddress address] := by
  have hkeys : c.timeline.keys? address position = none := Option.map_eq_none_iff.2 h
  rw [shown?, keys, hkeys]
  rfl

/-- Compiled code that is known is shown by the rows that are ready for it. -/
theorem shown?_of_lookup?_eq_some {c : Jit.Coverage} (hc : c.Valid) {position : Nat}
    {address : UInt64} {range : Nat} {frames : List CodeFrame}
    (h : c.lookup? address position = some (range, frames)) :
    (compiled position address).shown? c = frames.mapM fun frame =>
      (c.timeline.row? frame range).bind (·.shown? c.strings.toList) := by
  have hkeys : c.timeline.keys? address position =
      some (frames.map fun frame => .jit frame range) :=
    Option.map_eq_some_iff.2 ⟨(range, frames), h, rfl⟩
  rw [shown?, keys, hkeys]
  have hrows : ∀ frame ∈ frames, ∃ row, c.timeline.row? frame range = some row :=
    fun frame hframe => hc.exists_row? h hframe
  clear h hkeys
  induction frames with
  | nil => rfl
  | cons frame frames ih =>
    obtain ⟨row, hrow⟩ := hrows frame List.mem_cons_self
    have hrest := ih fun frame' hframe' => hrows frame' (List.mem_cons_of_mem frame hframe')
    dsimp only at hrest ⊢
    rw [List.map_cons, List.mapM_cons, List.mapM_cons, hrest, FrameKey.shown?, hrow]
    rfl

end RecordedFrame

/-! ## Rows -/

theorem exists_mapM_eq_some {α β : Type} {f : α → Option β} (l : List α)
    (h : ∀ a, ∃ b, f a = some b) : ∃ l', l.mapM f = some l' := by
  induction l with
  | nil => exact ⟨[], rfl⟩
  | cons a l ih =>
    obtain ⟨b, hb⟩ := h a
    obtain ⟨l', hl'⟩ := ih
    exact ⟨b :: l', by simp [hb, hl']⟩

/-- What is shown for recorded frames is shown for each of them, one after the other. -/
theorem exists_parts {c : Jit.Coverage} (h : c.timeline.Readable c.strings.toList)
    (frames : List RecordedFrame) :
    ∃ parts,
      List.Forall₂ (fun frame part => RecordedFrame.shown? c frame = some part) frames parts ∧
      (frames.flatMap (·.keys c.timeline)).mapM (FrameKey.shown? c.timeline c.strings.toList) =
        some parts.flatten := by
  induction frames with
  | nil => exact ⟨[], .nil, rfl⟩
  | cons frame frames ih =>
    obtain ⟨parts, hparts, hall⟩ := ih
    obtain ⟨part, hpart⟩ := exists_mapM_eq_some (frame.keys c.timeline) (FrameKey.exists_shown? h)
    refine ⟨part :: parts, .cons hpart hparts, ?_⟩
    rw [List.flatMap_cons, List.mapM_append, hpart, hall]
    rfl

/-- The row of a sample shows the sample. -/
theorem Tables.RowOf.showsRecorded {c : Jit.Coverage} (hc : c.timeline.Readable c.strings.toList)
    {t : Tables} (ht : t.Valid) (hgrows : (ofCoverage c).GrowsTo t) {strings : List String}
    (hstrings : t.strings.toList <+: strings) {rootLabel : String} {sample : RecordedSample}
    {row : SampleRow} (h : t.RowOf (.ofLabel rootLabel) sample row) :
    row.ShowsRecorded (readStack? t.nodes.toList t.frames.rows.toList strings) c rootLabel
      sample := by
  obtain ⟨htime, hresponsiveness, stack, hstack, hkeys⟩ := h
  have htimeline : t.timeline = c.timeline := hgrows.timeline
  have hshown : FrameKey.shown? t.timeline t.strings.toList =
      FrameKey.shown? c.timeline c.strings.toList := by
    funext key
    rw [htimeline]
    exact FrameKey.shown?_mono hc hgrows.strings key
  obtain ⟨parts, hparts, hall⟩ := exists_parts hc sample.frames
  refine ⟨parts, hparts, htime, hresponsiveness, stack, hstack, ?_⟩
  rw [readStack?_of_keys? ht hstrings hkeys, hshown, htimeline, List.mapM_cons, hall]
  rfl

namespace ThreadProfile

/-- The rows of the samples show the samples, in order, whatever the tables had before. -/
theorem showsRecorded_sampleRows_of_growsTo {coverage : Jit.Coverage} (h : coverage.Valid)
    {tables : Tables} (htables : tables.Valid)
    (hgrows : (Tables.ofCoverage coverage).GrowsTo tables) (tid : Int32) (w : Window)
    (settings : Settings) :
    List.Forall₂ (fun sample row => row.ShowsRecorded
        (sampleRows tid w tables settings).2.stack? coverage settings.rootLabel sample)
      (shownSamples tid w settings) (sampleRows tid w tables settings).1 := by
  obtain ⟨hvalid, hgrows', hrows⟩ := Tables.addSamples_spec htables (.ofLabel settings.rootLabel)
    (shownSamples tid w settings)
  refine hrows.imp ?_
  intro sample row hrow
  exact hrow.showsRecorded h.readable hvalid (hgrows.trans hgrows') List.prefix_rfl

/-- The rows of the samples show the samples, in order. -/
theorem showsRecorded_sampleRows {coverage : Jit.Coverage} (h : coverage.Valid) (tid : Int32)
    (w : Window) (settings : Settings) :
    List.Forall₂ (fun sample row => row.ShowsRecorded
        (sampleRows tid w (.ofCoverage coverage) settings).2.stack? coverage settings.rootLabel
        sample)
      (shownSamples tid w settings) (sampleRows tid w (.ofCoverage coverage) settings).1 :=
  showsRecorded_sampleRows_of_growsTo h (Tables.valid_ofCoverage h.readable) (.refl _) tid w
    settings

/-- The samples of a profile show the samples of the window, in order. -/
theorem showsRecorded_ofWindow {coverage : Jit.Coverage} (h : coverage.Valid) (tid : Int32)
    (w : Window) (store : MarkerStore) (settings : Settings) :
    List.Forall₂ (fun sample row => row.ShowsRecorded
        (ofWindow tid w coverage store settings).stack? coverage settings.rootLabel sample)
      (shownSamples tid w settings) (ofWindow tid w coverage store settings).samples := by
  obtain ⟨tables, hvalid, hgrows, strings, hstrings, hnodes, hframes, hstrings', hrows, -⟩ :=
    ofWindow_spec h tid w store settings
  have hstack : (ofWindow tid w coverage store settings).stack? =
      readStack? tables.nodes.toList tables.frames.rows.toList strings.toList := by
    funext index
    rw [stack?, hnodes, hframes, hstrings']
  refine hrows.imp ?_
  intro sample row hrow
  rw [hstack]
  exact hrow.showsRecorded h.readable hvalid hgrows hstrings

end ThreadProfile

end TraceProfile
