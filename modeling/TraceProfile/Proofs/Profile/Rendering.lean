import TraceProfile.Proofs.Jit.Consultation
import TraceProfile.Proofs.Profile.Sharing

/-!
# Rows that are ready stay right

The rows of compiled code are made when the resolver is asked, long before the tables of a profile
are. They refer to texts by index, ranges are dropped, and the tables go on interning texts of their
own. `Tables.Renders` says that all of this is in step: what is looked up was answered, has a row,
and the row shows the descriptor that was reported first, in its range as in the frame table.
-/

namespace TraceProfile

namespace Tables

/-- The frame gets an index in the frame table without anything to tell, and its row there shows the
given frame. -/
structure Enters (t : Tables) (key : FrameKey) (shown : ShownFrame) : Prop where
  frameNotices_eq : t.frameNotices key = []
  exists_row : ∃ row, (t.frameIndex key).2.frames.rows[(t.frameIndex key).1]? = some row ∧
    row.shown? (t.frameIndex key).2.strings.toList = some shown

/-- The ranges of the tables were made from the sources, and are in step with them. -/
structure Renders (t : Tables) (sources : List Jit.Source) : Prop where
  ranges : List.Forall₂ (fun source range => range.Renders t.strings.toList source) sources
    t.timeline.ranges.toList
  lookup_frames : ∀ address position index frames,
    t.timeline.lookup? address position = some (index, frames) →
      ∃ source descriptors, sources[index]? = some source ∧
        source.start ≤ position ∧ position < source.stop ∧
        (address, descriptors) ∈ source.transcript ∧ descriptors ≠ [] ∧
        frames = descriptors.mapIdx fun depth d => ⟨d.canonical, depth⟩
  lookup_row : ∀ address position index frames,
    t.timeline.lookup? address position = some (index, frames) →
      ∀ frame ∈ frames, ∃ row, t.timeline.row? frame index = some row
  row_shows : ∀ frame index row, t.timeline.row? frame index = some row →
    ∃ source d, sources[index]? = some source ∧
      source.transcript.reported.lookup frame = some d ∧
      row.shown? t.strings.toList = some d.shown ∧ t.Enters (.jit frame index) d.shown

/-- A frame of compiled code that has a row is entered with what its row shows. -/
theorem Valid.enters {t : Tables} (h : t.Valid) {frame : CodeFrame} {index : Nat}
    {row : FrameRow} (hrow : t.timeline.row? frame index = some row) {shown : ShownFrame}
    (hshown : row.shown? t.strings.toList = some shown) : t.Enters (.jit frame index) shown := by
  obtain ⟨hvalid, hgrows, hget⟩ := frameIndex_spec h (.jit frame index)
  constructor
  · rw [frameNotices, hrow]
    exact if_pos (Or.inr rfl)
  · obtain ⟨row', hrow', hsame⟩ := hvalid.shown_row _ _ hget
    refine ⟨row', hrow', ?_⟩
    rw [hsame, hgrows.timeline, FrameKey.shown?, hrow]
    exact FrameRow.shown?_mono hgrows.strings hshown

/-- Tables that have grown from a coverage are in step with what the coverage was made from. -/
theorem Valid.renders {c : Jit.Coverage} {sources : List Jit.Source} (hmade : c.MadeFrom sources)
    {t : Tables} (h : t.Valid) (hgrows : (ofCoverage c).GrowsTo t) : t.Renders sources := by
  have htimeline : t.timeline = c.timeline := hgrows.timeline
  have hranges : List.Forall₂ (fun source range => range.Renders t.strings.toList source) sources
      t.timeline.ranges.toList := by
    rw [htimeline]
    exact hmade.renders.imp fun _ _ hrenders => hrenders.mono hgrows.strings
  have hsource {index : Nat} {range : Jit.Range} (hrange : t.timeline.ranges[index]? = some range) :
      ∃ source, sources[index]? = some source ∧ range.Renders t.strings.toList source := by
    rw [← Array.getElem?_toList] at hrange
    exact exists_getElem?_of_forall₂ hranges hrange
  refine ⟨hranges, ?_, ?_, ?_⟩
  · -- lookup_frames
    intro address position index frames hlookup
    obtain ⟨-, range, hrange, hcontains, hframes⟩ :=
      Jit.Timeline.framesIn?_eq_some_iff.1 (Jit.Timeline.framesIn?_of_lookup? hlookup)
    obtain ⟨source, hget, hrenders⟩ := hsource hrange
    obtain ⟨descriptors, hanswer⟩ := (hrenders.frames?_eq_some_iff address frames).1 hframes
    rw [Jit.Range.contains, hrenders.start_eq, hrenders.stop_eq, Bool.and_eq_true,
      decide_eq_true_eq, decide_eq_true_eq] at hcontains
    exact ⟨source, descriptors, hget, hcontains.1, hcontains.2, hanswer⟩
  · -- lookup_row
    intro address position index frames hlookup frame hframe
    rw [htimeline] at hlookup ⊢
    exact hmade.reached.valid.exists_row? hlookup hframe
  · -- row_shows
    intro frame index row hrow
    obtain ⟨range, -, hrange, hrow'⟩ := Jit.Coverage.exists_range_of_row? hrow
    obtain ⟨source, hget, hrenders⟩ := hsource hrange
    have hframe := hrenders.rows_show frame
    split at hframe
    · next d hd =>
      obtain ⟨row', hrow'', hshown⟩ := hframe
      obtain rfl : row' = row := Option.some.inj (hrow''.symm.trans hrow')
      exact ⟨source, d, hget, hd, hshown, h.enters hrow hshown⟩
    · exact absurd (hframe.symm.trans hrow') (by simp)

end Tables

namespace Ledger

/-- Whatever is asked of tables that take over a coverage, its rows are in step with what the
coverage was made from. Coverages that are made by asking resolvers are those that are reached by
adding and discarding: what comes of asking a resolver that changes is what is added for the one
that answers like its transcript, and a resolver that does not change is such a resolver. -/
theorem run_renders {c : Jit.Coverage} {sources : List Jit.Source} (h : c.MadeFrom sources)
    (requests : List Request) :
    (run { tables := .ofCoverage c } requests).tables.Renders sources ∧
      (∀ c' : Jit.Coverage, c'.Reached ↔ ∃ sources', c'.MadeFrom sources') ∧
      (∀ (start stop : Nat) (σ : Type) (ask : σ → UInt64 → List Jit.Descriptor × σ) (state : σ)
        (addresses : List UInt64),
        c.consult start stop ask state addresses =
          c.add start stop
            (Jit.Consultation.run ask state c.strings addresses).transcript.resolver addresses) ∧
      ∀ (start stop : Nat) (resolver : Jit.Resolver) (σ : Type) (state : σ)
        (addresses : List UInt64),
        c.consult start stop (fun state address => (resolver address, state)) state addresses =
          c.add start stop resolver addresses := by
  obtain ⟨hrun, hgrows⟩ := (consistent_ofCoverage h.reached).run requests
  exact ⟨hrun.valid.renders h hgrows,
    fun _ => ⟨fun hreached => hreached.exists_madeFrom, fun ⟨_, hmade⟩ => hmade.reached⟩,
    fun start stop _ => c.consult_eq_add start stop,
    fun start stop resolver _ => c.consult_of_pure start stop resolver⟩

/-- The resolver counts how often it was asked, and describes the frame that both addresses share
in another way each time: the first description is shown. The range that was made before is dropped
and leaves its texts behind; the rows of the other stay right while texts are asked for. To go on
with a resolver that counts is to add the one answer that it gives. -/
theorem run_renders_counting :
    let ask (count : Nat) (address : UInt64) : List Jit.Descriptor × Nat :=
      ([{ canonical := 16, label := if count = 0 then "outer" else "late" },
        { canonical := address, label := "inner", implementation := "ion" }], count + 1)
    let c := ((({} : Jit.Coverage).consult 0 4 ask 7 [40]).consult 4 9 ask 0 [20, 21, 20]).discard 4
    let requests : List Request :=
      [.text "main", .root (.jit ⟨21, 1⟩ 0), .text "outer", .append 0 (.jit ⟨16, 0⟩ 0), .stack 1]
    let t := (run { tables := .ofCoverage c } requests).tables
    let more := (Jit.Consultation.run ask 2 c.strings [20]).transcript
    ∃ sources, c.MadeFrom sources ∧
      sources.map (·.transcript.map fun answer => (answer.1, answer.2.map (·.label))) =
        [[(20, ["outer", "inner"]), (21, ["late", "inner"])]] ∧
      t.timeline.lookup? 21 5 = some (0, [⟨16, 0⟩, ⟨21, 1⟩]) ∧
      ((t.timeline.row? ⟨16, 0⟩ 0).bind (·.shown? t.strings.toList)).map (·.location) =
        some "outer" ∧
      t.Renders sources ∧
      (more.resolver 20).map (·.label) = ["late", "inner"] ∧
      c.consult 9 12 ask 2 [20] = c.add 9 12 more.resolver [20] := by
  intro ask c requests t more
  have hmade : c.MadeFrom _ :=
    .discard (.consult (.consult .empty 0 4 ask 7 [40]) 4 9 ask 0 [20, 21, 20]) 4
  obtain ⟨hrenders, -, hadd, -⟩ := run_renders hmade requests
  exact ⟨_, hmade, by decide +kernel, by decide +kernel, by decide +kernel, hrenders,
    by decide +kernel, hadd 9 12 Nat ask 2 [20]⟩

end Ledger

end TraceProfile
