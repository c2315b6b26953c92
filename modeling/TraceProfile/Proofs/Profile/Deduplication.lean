import TraceProfile.Proofs.Profile.Linked
import TraceProfile.Proofs.Profile.Listing

/-!
# The tables of a profile, without tables

If nothing is known about compiled code, a profile can be said outright: `ThreadProfile.plain` makes
it from the samples and markers that are shown, by searching lists. It lists the frames, the
beginnings of the stacks and the texts where they appear first, and refers to each by its position.
The tables, which are filled while samples are added one by one, come to the same
(`ofWindow_eq_plain`). So what is skipped leaves nothing behind in any table.
-/

namespace TraceProfile

/-! ## Profiles from lists -/

/-- What a recorded frame is shown by if nothing is known about compiled code. -/
def RecordedFrame.plain : RecordedFrame → LabelFrame
  | .label frame => frame
  | .compiled _ address => { location := Number.hexAddress address.toNat }
  | .native address => { location := Number.hexAddress address.toNat }

/-- The stack of a sample from the root on, if nothing is known about compiled code. -/
def RecordedSample.plain (rootLabel : String) (sample : RecordedSample) : List LabelFrame :=
  { location := rootLabel } :: sample.frames.map RecordedFrame.plain

/-- The row of a frame, given all texts. -/
def FrameRow.ofPlain (texts : List String) (frame : LabelFrame) : FrameRow where
  location := texts.idxOf frame.location
  line := frame.line
  column := frame.column
  category := frame.category
  relevantForJs := frame.relevantForJs

/-- The row of a stack, given all frames and the paths of all stacks: it refers to the path that is
shorter by one, if that is not empty, and to the last frame. -/
def StackNode.ofPlain (frames : List LabelFrame) (paths : List (List LabelFrame))
    (stack : List LabelFrame) : StackNode where
  parent := paths.idxOf? stack.dropLast
  frame := (stack.getLast?.map frames.idxOf).getD frames.length

namespace ThreadProfile

/-- The stacks of the samples that are shown, if nothing is known about compiled code. -/
def sequences (tid : Int32) (w : Window) (settings : Settings) : List (List LabelFrame) :=
  (shownSamples tid w settings).map (·.plain settings.rootLabel)

/-- The profile of a thread in a window, if nothing is known about compiled code. -/
def plain (tid : Int32) (w : Window) (store : MarkerStore) (settings : Settings) : ThreadProfile :=
  let markers := shownMarkers tid w store settings
  let frames := (sequences tid w settings).flatten.eraseDups
  let paths := ((sequences tid w settings).flatMap beginnings).eraseDups
  let texts :=
    ((sequences tid w settings).flatten.map (·.location) ++ markers.map (·.name)).eraseDups
  { tid
    name := settings.threadName
    processType := settings.processType
    pausedRanges := PausedRange.readAll w.entries.toList
    samples := (shownSamples tid w settings).map fun sample =>
      { stack := some (paths.idxOf (sample.plain settings.rootLabel))
        time := sample.time
        responsiveness := sample.responsiveness }
    markers := markers.map fun marker =>
      { name := texts.idxOf marker.name, time := marker.time, data := marker.data }
    nodes := paths.map (.ofPlain frames paths)
    frames := frames.map (.ofPlain texts)
    strings := texts }

/-- Whatever is stored is referred to: each stack is that of a sample or a beginning of it, each
frame stands in a stack, and each text is that of a frame or the name of a marker. -/
structure Used (p : ThreadProfile) : Prop where
  stack_used : ∀ index < p.nodes.length, ∃ row ∈ p.samples, ∃ stack, row.stack = some stack ∧
    ∃ outer inner, StackNode.frames? p.nodes index = some outer ∧
      StackNode.frames? p.nodes stack = some (outer ++ inner)
  frame_used : ∀ index < p.frames.length, ∃ node ∈ p.nodes, node.frame = index
  string_used : ∀ index < p.strings.length,
    (∃ row ∈ p.frames, row.location = index) ∨ ∃ row ∈ p.markers, row.name = index

end ThreadProfile

/-! ## Recorded frames without coverage -/

theorem RecordedFrame.keys_empty (frame : RecordedFrame) :
    frame.keys ({} : Jit.Timeline) = [.normal frame.plain] := by
  cases frame with
  | label frame => rfl
  | compiled position address => rfl
  | native address => rfl

theorem Tables.sequence_empty (rootLabel : String) (sample : RecordedSample) :
    sequence {} (.ofLabel rootLabel) sample = (sample.plain rootLabel).map .normal := by
  have hkeys : (fun frame : RecordedFrame => frame.keys ({} : Jit.Timeline)) =
      fun frame => [.normal frame.plain] := funext RecordedFrame.keys_empty
  rw [sequence, hkeys, RecordedSample.plain, List.map_cons, List.map_map, ← List.map_eq_flatMap]
  rfl

/-! ## Rows -/

theorem textAt?_eq_some_none_iff {strings : List String} {index : Option Nat} :
    textAt? strings index = some none ↔ index = none := by
  cases index with
  | none => exact ⟨fun _ => rfl, fun _ => rfl⟩
  | some index => simp [textAt?]

/-- There is only one row that shows a label frame. -/
theorem FrameRow.eq_ofPlain {texts : List String} (hnodup : texts.Nodup) {row : FrameRow}
    {frame : LabelFrame} (h : row.shown? texts = some frame.shown) :
    row = .ofPlain texts frame := by
  rw [shown?] at h
  split at h
  · next location implementation hlocation himplementation =>
    obtain ⟨rfl, rfl, hoptimizations, hline, hcolumn, hcategory, hrelevant⟩ :=
      ShownFrame.mk.inj (Option.some.inj h)
    have htier := textAt?_eq_some_none_iff.1 himplementation
    have hindex := idxOf_of_getElem? hnodup hlocation
    obtain ⟨location, implementation, optimizations, line, column, category, relevant⟩ := row
    simp_all [ofPlain]
  · exact absurd h (by simp)

namespace Tables

/-- The tables list label frames and paths of them, and the texts of the frames. -/
structure ListsPlain (t : Tables) (frames : List LabelFrame) (paths : List (List LabelFrame)) :
    Prop where
  valid : t.Valid
  strings_eq : t.strings.toList = (frames.map (·.location)).eraseDups
  keys_eq : t.frames.keys.toList = frames.eraseDups.map .normal
  size_nodes : t.nodes.size = paths.eraseDups.length
  keys?_eq : ∀ index stack, paths.eraseDups[index]? = some stack →
    t.keys? index = some (stack.map .normal)

namespace ListsPlain

variable {t : Tables} {frames : List LabelFrame} {paths : List (List LabelFrame)}

theorem getElem?_of_get? (h : t.ListsPlain frames paths) {index : Nat} {frame : LabelFrame}
    (hget : t.frames.keys.get? index = some (.normal frame)) :
    frames.eraseDups[index]? = some frame := by
  rw [Interner.get?_eq_getElem?, h.keys_eq, List.getElem?_map, Option.map_eq_some_iff] at hget
  obtain ⟨frame', hframe', heq⟩ := hget
  rw [hframe', FrameKey.normal.inj heq]

theorem getElem?_of_keys? (h : t.ListsPlain frames paths) {index : Nat} {stack : List LabelFrame}
    (hkeys : t.keys? index = some (stack.map .normal)) :
    paths.eraseDups[index]? = some stack := by
  have hlt := lt_size_of_keys? hkeys
  rw [h.size_nodes] at hlt
  have hlisted := List.getElem?_eq_getElem hlt
  have hsame := (h.keys?_eq index _ hlisted).symm.trans hkeys
  have hinjective : Function.Injective (List.map FrameKey.normal) :=
    List.map_injective_iff.2 fun _ _ => FrameKey.normal.inj
  rw [hlisted, hinjective (Option.some.inj hsame)]

/-- The rows of the stack table are those of the stacks. -/
theorem nodes_eq (h : t.ListsPlain frames paths) :
    t.nodes.toList = paths.eraseDups.map (.ofPlain frames.eraseDups paths.eraseDups) := by
  have hnil : [] ∉ paths.eraseDups := by
    intro hmem
    obtain ⟨index, hindex⟩ := List.mem_iff_getElem?.1 hmem
    obtain ⟨node, -, hnode⟩ := exists_describes_of_keys? (h.keys?_eq index [] hindex)
    exact hnode.ne_nil rfl
  refine List.ext_getElem (by rw [List.length_map, Interner.length_toList, h.size_nodes]) ?_
  intro index hnode hstack
  rw [List.length_map] at hstack
  rw [List.getElem_map]
  have hlisted := List.getElem?_eq_getElem hstack
  generalize paths.eraseDups[index] = stack at hlisted ⊢
  obtain ⟨node, hget, outerKeys, lastKey, heq, hlast, hparent⟩ :=
    exists_describes_of_keys? (h.keys?_eq index stack hlisted)
  rw [Interner.get?_eq_getElem?, List.getElem?_eq_getElem hnode] at hget
  rw [Option.some.inj hget]
  -- The stack is split at its last frame, as its row describes it.
  obtain ⟨outer, lasts, rfl, rfl, hlasts⟩ := List.map_eq_append_iff.1 heq
  obtain ⟨last, rfl, rfl⟩ := List.map_eq_singleton_iff.1 hlasts
  have hframe := idxOf_of_getElem? (nodup_eraseDups frames) (h.getElem?_of_get? hlast)
  obtain ⟨parent, frame⟩ := node
  rw [StackNode.ofPlain, List.dropLast_concat, List.getLast?_concat, Option.map_some,
    Option.getD_some, hframe]
  cases parent with
  | none =>
    obtain rfl : outer = [] := List.map_eq_nil_iff.1 hparent
    rw [List.idxOf?_eq_none_iff.2 hnil]
  | some parent =>
    rw [idxOf?_of_getElem? (nodup_eraseDups paths) (h.getElem?_of_keys? hparent)]

/-- The rows of the frame table are those of the frames, also when texts have been added. -/
theorem rows_eq (h : t.ListsPlain frames paths) {texts : List String} (hnodup : texts.Nodup)
    (htexts : t.strings.toList <+: texts) :
    t.frames.rows.toList = frames.eraseDups.map (.ofPlain texts) := by
  have hlength : t.frames.rows.toList.length = frames.eraseDups.length := by
    rw [Array.length_toList, h.valid.size_rows, ← Interner.length_toList, h.keys_eq,
      List.length_map]
  refine List.ext_getElem (by rw [List.length_map, hlength]) ?_
  intro index hrow hframe
  rw [List.length_map] at hframe
  rw [List.getElem_map]
  have hkey : t.frames.keys.get? index = some (.normal frames.eraseDups[index]) := by
    rw [Interner.get?_eq_getElem?, h.keys_eq, List.getElem?_map, List.getElem?_eq_getElem hframe]
    rfl
  obtain ⟨row, hget, hshown⟩ := h.valid.shown_row index _ hkey
  rw [← Array.getElem?_toList, List.getElem?_eq_getElem hrow] at hget
  rw [Option.some.inj hget]
  exact FrameRow.eq_ofPlain hnodup (FrameRow.shown?_mono htexts hshown)

/-- The row of a stack leads to the positions of its frames. -/
theorem frames?_eq (h : t.ListsPlain frames paths) {index : Nat} {stack : List LabelFrame}
    (hlisted : paths.eraseDups[index]? = some stack) :
    StackNode.frames? t.nodes.toList index = some (stack.map frames.eraseDups.idxOf) := by
  obtain ⟨indices, hindices, hmap⟩ := keys?_eq_some_iff.1 (h.keys?_eq index stack hlisted)
  rw [hindices]
  congr 1
  clear hindices hlisted
  induction indices generalizing stack with
  | nil =>
    obtain rfl : stack = [] := by simpa using hmap.symm
    rfl
  | cons frameIndex indices ih =>
    obtain _ | ⟨frame, stack⟩ := stack
    · exact absurd hmap (by simp)
    obtain ⟨hframe, hrest⟩ := List.cons.inj hmap
    have hfirst := idxOf_of_getElem? (nodup_eraseDups frames) (h.getElem?_of_get? hframe)
    rw [List.map_cons, hfirst, ih hrest]

end ListsPlain

/-- The tables that samples need list the frames of these samples and the beginnings of their
stacks, and nothing else. -/
theorem listsPlain_addSamples (rootLabel : String) (samples : List RecordedSample) :
    ((ofCoverage {}).addSamples (.ofLabel rootLabel) samples).2.ListsPlain
      (samples.map (·.plain rootLabel)).flatten
      ((samples.map (·.plain rootLabel)).flatMap beginnings) := by
  have hvalid := valid_ofCoverage Jit.Coverage.Reached.empty.valid.readable
  obtain ⟨hvalid', hgrows, -⟩ := addSamples_spec hvalid (.ofLabel rootLabel) samples
  obtain ⟨hstrings, hkeys, hsize, hstacks⟩ :=
    (lists_ofCoverage {}).addSamples hvalid (.ofLabel rootLabel) samples
  have hnormal : Function.Injective FrameKey.normal := fun _ _ => FrameKey.normal.inj
  have htimeline : (ofCoverage {}).timeline = {} := rfl
  have hframes : samples.flatMap (sequence {} (.ofLabel rootLabel)) =
      ((samples.map (·.plain rootLabel)).flatten).map .normal := by
    rw [funext (sequence_empty rootLabel), List.map_flatten, List.map_map]
    rfl
  have hbeginnings :
      (samples.flatMap fun sample => beginnings (sequence {} (.ofLabel rootLabel) sample)) =
        ((samples.map (·.plain rootLabel)).flatMap beginnings).map (List.map .normal) := by
    rw [List.map_flatMap, List.flatMap_map]
    simp only [sequence_empty, beginnings_map]
  have htexts : FrameKey.text? {} ∘ FrameKey.normal = some ∘ LabelFrame.location := rfl
  rw [hgrows.timeline, htimeline, List.nil_append, hframes, List.filterMap_map, htexts,
    List.filterMap_eq_map] at hstrings
  rw [htimeline, List.nil_append, hframes, eraseDups_map_of_injective hnormal] at hkeys
  rw [htimeline, List.nil_append, hbeginnings,
    eraseDups_map_of_injective hnormal.list_map] at hsize hstacks
  refine ⟨hvalid', hstrings, hkeys, hsize.trans (List.length_map _), ?_⟩
  intro index stack hstack
  refine hstacks index _ ?_
  rw [List.getElem?_map, hstack]
  rfl

end Tables

/-! ## Samples and markers -/

theorem eq_map_of_forall₂ {α β : Type} {f : α → β} {l : List α} {l' : List β}
    (h : List.Forall₂ (fun a b => b = f a) l l') : l' = l.map f := by
  induction h with
  | nil => rfl
  | cons hab _ ih => rw [hab, ih, List.map_cons]

/-- The names of markers are added to the list of texts, and each row refers to its name there. -/
theorem MarkerRow.ofMarkers_eq {strings : StringTable} {texts : List String}
    (h : strings.toList = texts.eraseDups) (markers : List Marker) :
    (ofMarkers strings markers).2.toList = (texts ++ markers.map (·.name)).eraseDups ∧
      (ofMarkers strings markers).1 = markers.map fun marker =>
        { name := (texts ++ markers.map (·.name)).eraseDups.idxOf marker.name
          time := marker.time
          data := marker.data } := by
  have htexts : (ofMarkers strings markers).2.toList =
      (texts ++ markers.map (·.name)).eraseDups := by
    induction markers generalizing strings texts with
    | nil => simpa [ofMarkers] using h
    | cons marker markers ih =>
      have hrest := ih (Interner.toList_insert_of_eq_eraseDups h marker.name)
      simp only [ofMarkers, Interner.intern_eq]
      rw [hrest, List.append_assoc]
      rfl
  refine ⟨htexts, eq_map_of_forall₂ ?_⟩
  refine (ofMarkers_spec strings markers).2.imp ?_
  rintro marker ⟨name, time, data⟩ ⟨hname, rfl, rfl⟩
  rw [Interner.get?_eq_getElem?, htexts] at hname
  rw [idxOf_of_getElem? (nodup_eraseDups _) hname]

namespace ThreadProfile

variable (tid : Int32) (w : Window) (store : MarkerStore) (settings : Settings)

theorem listsPlain_sampleRows :
    (sampleRows tid w (.ofCoverage {}) settings).2.ListsPlain (sequences tid w settings).flatten
      ((sequences tid w settings).flatMap beginnings) :=
  Tables.listsPlain_addSamples settings.rootLabel (shownSamples tid w settings)

/-- The rows of the samples refer to their stacks. -/
theorem fst_sampleRows_empty :
    (sampleRows tid w (.ofCoverage {}) settings).1 =
      (shownSamples tid w settings).map fun sample =>
        { stack := some (((sequences tid w settings).flatMap beginnings).eraseDups.idxOf
            (sample.plain settings.rootLabel))
          time := sample.time
          responsiveness := sample.responsiveness } := by
  have hvalid := Tables.valid_ofCoverage Jit.Coverage.Reached.empty.valid.readable
  obtain ⟨-, hgrows, hrows⟩ := Tables.addSamples_spec hvalid (.ofLabel settings.rootLabel)
    (shownSamples tid w settings)
  refine eq_map_of_forall₂ (hrows.imp ?_)
  rintro sample ⟨stack, time, responsiveness⟩ ⟨rfl, rfl, index, rfl, hkeys⟩
  rw [hgrows.timeline] at hkeys
  have hplain := hkeys.trans (congrArg some (Tables.sequence_empty settings.rootLabel sample))
  have hlisted := (listsPlain_sampleRows tid w settings).getElem?_of_keys? hplain
  rw [idxOf_of_getElem? (nodup_eraseDups _) hlisted]

theorem ofWindow_empty : ofWindow tid w {} store settings = plain tid w store settings := by
  have hlists := listsPlain_sampleRows tid w settings
  obtain ⟨hstrings, hmarkers⟩ :=
    MarkerRow.ofMarkers_eq hlists.strings_eq (shownMarkers tid w store settings)
  have hprefix : _ <+: _ := (MarkerRow.ofMarkers_spec
    (sampleRows tid w (.ofCoverage {}) settings).2.strings (shownMarkers tid w store settings)).1
  rw [hstrings] at hprefix
  have hrows := hlists.rows_eq (nodup_eraseDups _) hprefix
  rw [ofWindow, plain, ThreadProfile.mk.injEq]
  exact ⟨rfl, rfl, rfl, rfl, fst_sampleRows_empty tid w settings, hmarkers, hlists.nodes_eq, hrows,
    hstrings⟩

variable {tid w settings} in
/-- The row of a stack leads to the positions of its frames. -/
theorem frames?_plain {index : Nat} {stack : List LabelFrame}
    (hlisted : ((sequences tid w settings).flatMap beginnings).eraseDups[index]? = some stack) :
    StackNode.frames? (plain tid w store settings).nodes index =
      some (stack.map (sequences tid w settings).flatten.eraseDups.idxOf) := by
  rw [← ofWindow_empty]
  exact (listsPlain_sampleRows tid w settings).frames?_eq hlisted

theorem used_plain : (plain tid w store settings).Used := by
  constructor
  · -- stack_used
    intro index hindex
    rw [plain, List.length_map] at hindex
    have hlisted := List.getElem?_eq_getElem hindex
    generalize ((sequences tid w settings).flatMap beginnings).eraseDups[index] = stack at hlisted
    obtain ⟨sequence, hsequence, hstack⟩ :=
      List.mem_flatMap.1 (List.mem_eraseDups.1 (List.mem_of_getElem? hlisted))
    obtain ⟨sample, hsample, rfl⟩ := List.mem_map.1 hsequence
    obtain ⟨-, inner, hinner⟩ := mem_beginnings_iff.1 hstack
    have hwhole : sample.plain settings.rootLabel ∈
        ((sequences tid w settings).flatMap beginnings).eraseDups := by
      rw [List.mem_eraseDups, List.mem_flatMap]
      exact ⟨_, hsequence, mem_beginnings_iff.2 ⟨List.cons_ne_nil _ _, List.prefix_rfl⟩⟩
    have hread := frames?_plain store (List.getElem?_idxOf hwhole)
    rw [congrArg (List.map _) hinner.symm, List.map_append] at hread
    exact ⟨_, List.mem_map_of_mem hsample, _, rfl, _, _, frames?_plain store hlisted, hread⟩
  · -- frame_used
    intro index hindex
    rw [plain, List.length_map] at hindex
    have hlisted := List.getElem?_eq_getElem hindex
    generalize (sequences tid w settings).flatten.eraseDups[index] = frame at hlisted
    obtain ⟨sequence, hsequence, hframe⟩ :=
      List.mem_flatten.1 (List.mem_eraseDups.1 (List.mem_of_getElem? hlisted))
    -- The frame is the last one of the beginning that ends with it.
    obtain ⟨outer, inner, rfl⟩ := List.append_of_mem hframe
    have hstack : outer ++ [frame] ∈
        ((sequences tid w settings).flatMap beginnings).eraseDups := by
      rw [List.mem_eraseDups, List.mem_flatMap]
      exact ⟨_, hsequence, mem_beginnings_iff.2 ⟨by simp, inner, by simp⟩⟩
    refine ⟨_, List.mem_map_of_mem hstack, ?_⟩
    rw [StackNode.ofPlain, List.getLast?_concat]
    exact idxOf_of_getElem? (nodup_eraseDups _) hlisted
  · -- string_used
    intro index hindex
    have hlisted := List.getElem?_eq_getElem hindex
    generalize (plain tid w store settings).strings[index] = text at hlisted
    have htext := List.mem_eraseDups.1 (List.mem_of_getElem? hlisted)
    have hposition := idxOf_of_getElem? (nodup_eraseDups _) hlisted
    rcases List.mem_append.1 htext with hlocation | hname
    · obtain ⟨frame, hframe, rfl⟩ := List.mem_map.1 hlocation
      exact .inl ⟨_, List.mem_map_of_mem (List.mem_eraseDups.2 hframe), hposition⟩
    · obtain ⟨marker, hmarker, rfl⟩ := List.mem_map.1 hname
      exact .inr ⟨_, List.mem_map_of_mem hmarker, hposition⟩

/-- A profile without known code is the plain one, and nothing in it is unused. -/
theorem ofWindow_eq_plain :
    ofWindow tid w {} store settings = plain tid w store settings ∧
      (ofWindow tid w {} store settings).Used := by
  rw [ofWindow_empty]
  exact ⟨rfl, used_plain tid w store settings⟩

/-- Two samples share their outer frames and end in functions of one name on different lines. A
sample that is too early, one without a time and one of another thread leave nothing behind. -/
theorem ofWindow_eq_plain_shared :
    let sample (tid : Int32) (time : Int) (frames : List Entry) : List Entry :=
      .threadId tid :: .time (.ofInt time) :: frames
    let function (name : String) : List Entry := Entry.labelFrame name 1
    let w := Window.ofEntries 3 <| List.toArray <| List.flatten
      [sample 1 1 (function "early"),
        sample 1 2 (function "main" ++ function "step" ++ [.lineNumber 3, .marker 8]),
        .threadId 1 :: function "untimed",
        sample 2 3 (function "other"),
        sample 1 4 (function "main" ++ function "step" ++ [.lineNumber 4, .nativeLeafAddr 16])]
    let store : MarkerStore := fun _ => some { name := "main", time := .ofInt 2, data := none }
    let settings : Settings := { sinceTime := some (.ofInt 2) }
    let p := ofWindow 1 w {} store settings
    p.samples.map SampleRow.stack = [some 2, some 4] ∧
      p.nodes = [⟨none, 0⟩, ⟨some 0, 1⟩, ⟨some 1, 2⟩, ⟨some 1, 3⟩, ⟨some 3, 4⟩] ∧
      p.frames.map (fun row => (row.location, row.line)) =
        [(0, none), (1, none), (2, some 3), (2, some 4), (3, none)] ∧
      p.strings = ["(root)", "main", "step", "0x10"] ∧ p.markers.map MarkerRow.name = [1] ∧
      p = plain 1 w store settings ∧ p.Used := by
  intro sample function w store settings p
  obtain ⟨hplain, hused⟩ := ofWindow_eq_plain 1 w store settings
  exact ⟨by decide +kernel, by decide +kernel, by decide +kernel, by decide +kernel,
    by decide +kernel, hplain, hused⟩

end ThreadProfile

end TraceProfile
