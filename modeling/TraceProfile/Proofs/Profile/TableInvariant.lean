import Mathlib.Data.List.Forall2
import TraceProfile.Proofs.Profile.Display

/-!
# The tables of a thread stay valid

Samples are added one frame at a time to three tables that refer to each other and to rows that were
made ready before. `Tables.Valid` is what every such step keeps: each row of the frame table shows
the frame that it was made for, and each row of the stack table refers to an earlier row and to a
frame that exists. `Tables.GrowsTo` is what every step adds to: nothing that has an index moves.

A stack that has no row yet is known by its innermost frame and the row around it. The frames of
such a stack are given by `Tables.Describes`, those of a row by `Tables.keys?`. The main statement
is `addSamples_spec`: the row of a sample leads to exactly the frames that the sample recorded.
-/

namespace TraceProfile

/-- The rows that are ready for compiled code refer to texts that exist. -/
def Jit.Timeline.Readable (t : Timeline) (strings : List String) : Prop :=
  ∀ frame range row, t.row? frame range = some row → ∃ shown, row.shown? strings = some shown

theorem Jit.Timeline.Readable.mono {t : Timeline} {strings strings' : List String}
    (h : t.Readable strings) (hs : strings <+: strings') : t.Readable strings' := by
  intro frame range row hrow
  obtain ⟨shown, hshown⟩ := h frame range row hrow
  exact ⟨shown, FrameRow.shown?_mono hs hshown⟩

namespace FrameKey

/-- What is shown of a frame, given the ranges of known code and the texts of their rows. -/
def shown? (timeline : Jit.Timeline) (strings : List String) : FrameKey → Option ShownFrame
  | .normal frame => some frame.shown
  | .jit frame range =>
    match timeline.row? frame range with
    | some row => row.shown? strings
    | none => some (.ofAddress frame.canonical)

theorem exists_shown? {timeline : Jit.Timeline} {strings : List String}
    (h : timeline.Readable strings) (key : FrameKey) :
    ∃ shown, key.shown? timeline strings = some shown := by
  cases key with
  | normal frame => exact ⟨_, rfl⟩
  | jit frame range =>
    rw [shown?]
    split
    · next row hrow => exact h frame range row hrow
    · exact ⟨_, rfl⟩

/-- What is shown of a frame does not change when texts are added. -/
theorem shown?_mono {timeline : Jit.Timeline} {strings strings' : List String}
    (h : timeline.Readable strings) (hs : strings <+: strings') (key : FrameKey) :
    key.shown? timeline strings' = key.shown? timeline strings := by
  obtain ⟨shown, hshown⟩ := exists_shown? h key
  rw [hshown]
  cases key with
  | normal frame => exact hshown
  | jit frame range =>
    rw [shown?] at hshown ⊢
    split at hshown
    · exact FrameRow.shown?_mono hs hshown
    · exact hshown

/-- The row made for a frame shows the frame. -/
theorem makeRow_spec (timeline : Jit.Timeline) (key : FrameKey) (strings : StringTable) :
    strings.GrowsTo (key.makeRow timeline strings).2 ∧
      (key.makeRow timeline strings).1.shown? (key.makeRow timeline strings).2.toList =
        key.shown? timeline (key.makeRow timeline strings).2.toList := by
  cases key with
  | normal frame =>
    simp only [makeRow, FrameRow.ofLabelFrame, Interner.intern_eq]
    refine ⟨Interner.growsTo_insert _ _, ?_⟩
    rw [FrameRow.shown?, Interner.getElem?_idxOf_insert]
    rfl
  | jit frame range =>
    rw [makeRow]
    split
    · next row hrow =>
      refine ⟨Interner.GrowsTo.refl _, ?_⟩
      rw [shown?, hrow]
    · next hrow =>
      simp only [FrameRow.ofAddress, Interner.intern_eq]
      refine ⟨Interner.growsTo_insert _ _, ?_⟩
      rw [shown?, hrow, FrameRow.shown?, Interner.getElem?_idxOf_insert]
      rfl

end FrameKey

namespace Tables

/-- What every step that adds to the tables keeps: there is one row for each key, which shows the
frame of the key, and each stack comes after the stack around it and has a frame that exists. -/
structure Valid (t : Tables) : Prop where
  readable : t.timeline.Readable t.strings.toList
  size_rows : t.frames.rows.size = t.frames.keys.size
  shown_row : ∀ index key, t.frames.keys.get? index = some key →
    ∃ row, t.frames.rows[index]? = some row ∧
      row.shown? t.strings.toList = key.shown? t.timeline t.strings.toList
  parent_lt : ∀ index node, t.nodes.get? index = some node →
    ∀ parent, node.parent = some parent → parent < index
  frame_lt : ∀ index node, t.nodes.get? index = some node → node.frame < t.frames.keys.size

/-- The later tables have all that the earlier ones have under the same indices, and the same ranges
of known code. -/
structure GrowsTo (t t' : Tables) : Prop where
  strings : t.strings.GrowsTo t'.strings
  keys : t.frames.keys.GrowsTo t'.frames.keys
  rows : t.frames.rows.toList <+: t'.frames.rows.toList
  nodes : t.nodes.GrowsTo t'.nodes
  timeline : t'.timeline = t.timeline

theorem GrowsTo.refl (t : Tables) : t.GrowsTo t :=
  ⟨.refl _, .refl _, List.prefix_rfl, .refl _, rfl⟩

theorem GrowsTo.trans {t t' t'' : Tables} (h : t.GrowsTo t') (h' : t'.GrowsTo t'') :
    t.GrowsTo t'' where
  strings := h.strings.trans h'.strings
  keys := h.keys.trans h'.keys
  rows := h.rows.trans h'.rows
  nodes := h.nodes.trans h'.nodes
  timeline := h'.timeline.trans h.timeline

/-- Tables without rows are valid if the ranges that they take over are readable. -/
theorem valid_ofCoverage {c : Jit.Coverage} (h : c.timeline.Readable c.strings.toList) :
    (ofCoverage c).Valid where
  readable := h
  size_rows := rfl
  shown_row := fun index key hkey => absurd hkey (by simp [ofCoverage, Interner.get?])
  parent_lt := fun index node hnode => absurd hnode (by simp [ofCoverage, Interner.get?])
  frame_lt := fun index node hnode => absurd hnode (by simp [ofCoverage, Interner.get?])

/-! ## Frames -/

/-- A frame that the table has is found, and nothing changes. -/
theorem frameIndex_of_mem {t : Tables} {key : FrameKey} (h : key ∈ t.frames.keys.toList) :
    t.frameIndex key = (t.frames.keys.idxOf key, t) := by
  simp [frameIndex, FrameTable.intern_eq, FrameTable.insert, Interner.contains_iff.2 h]

/-- A new frame is added at the end, with the row made for it. -/
theorem frameIndex_of_not_mem {t : Tables} {key : FrameKey} (h : key ∉ t.frames.keys.toList) :
    t.frameIndex key = (t.frames.keys.size,
      { t with
        strings := (key.makeRow t.timeline t.strings).2
        frames := ⟨t.frames.keys.insert key,
          t.frames.rows.push (key.makeRow t.timeline t.strings).1⟩ }) := by
  have hcontains := mt Interner.contains_iff.1 h
  simp [frameIndex, FrameTable.intern_eq, FrameTable.insert, hcontains,
    Interner.idxOf_of_not_mem h]

/-- The tables stay valid when texts are added. -/
theorem Valid.growStrings {t : Tables} (h : t.Valid) {strings : StringTable}
    (hstrings : t.strings.GrowsTo strings) : Valid { t with strings } where
  readable := h.readable.mono hstrings
  size_rows := h.size_rows
  shown_row := by
    intro index key hkey
    obtain ⟨row, hrow, hshown⟩ := h.shown_row index key hkey
    obtain ⟨shown, hsome⟩ := FrameKey.exists_shown? h.readable key
    refine ⟨row, hrow, ?_⟩
    rw [FrameKey.shown?_mono h.readable hstrings, hsome]
    exact FrameRow.shown?_mono hstrings (hshown.trans hsome)
  parent_lt := h.parent_lt
  frame_lt := h.frame_lt

/-- The tables stay valid when a frame is added with a row that shows it. -/
theorem Valid.addFrame {t : Tables} (h : t.Valid) {key : FrameKey}
    (hnew : key ∉ t.frames.keys.toList) {row : FrameRow}
    (hrow : row.shown? t.strings.toList = key.shown? t.timeline t.strings.toList) :
    Valid { t with frames := ⟨t.frames.keys.insert key, t.frames.rows.push row⟩ } where
  readable := h.readable
  size_rows := by
    show (t.frames.rows.push row).size = (t.frames.keys.insert key).size
    rw [Array.size_push, h.size_rows, ← Interner.length_toList,
      ← Interner.length_toList (t.frames.keys.insert key), Interner.toList_insert_of_not_mem hnew,
      List.length_append, List.length_singleton]
  shown_row := by
    intro index key' hkey'
    -- The new row stands at the end, all others stay where they are.
    rcases Interner.get?_of_get?_insert hkey' with hold | ⟨rfl, rfl⟩
    · obtain ⟨old, hget, hshown⟩ := h.shown_row index key' hold
      refine ⟨old, ?_, hshown⟩
      obtain ⟨hlt, hget'⟩ := Array.getElem?_eq_some_iff.1 hget
      rw [Array.getElem?_push_lt hlt, hget']
    · refine ⟨row, ?_, hrow⟩
      rw [← h.size_rows]
      exact Array.getElem?_push_size
  parent_lt := h.parent_lt
  frame_lt := by
    intro index node hnode
    have hlt := h.frame_lt index node hnode
    have hle := (Interner.growsTo_insert t.frames.keys key).size_le
    exact Nat.lt_of_lt_of_le hlt hle

/-- Asking for a frame keeps the tables valid, moves nothing, and gives an index of the frame. -/
theorem frameIndex_spec {t : Tables} (h : t.Valid) (key : FrameKey) :
    (t.frameIndex key).2.Valid ∧ t.GrowsTo (t.frameIndex key).2 ∧
      (t.frameIndex key).2.frames.keys.get? (t.frameIndex key).1 = some key := by
  have hget := Interner.get?_idxOf_insert t.frames.keys key
  by_cases hmem : key ∈ t.frames.keys.toList
  · rw [frameIndex_of_mem hmem]
    rw [Interner.insert_of_mem hmem] at hget
    exact ⟨h, .refl t, hget⟩
  · rw [frameIndex_of_not_mem hmem]
    rw [Interner.idxOf_of_not_mem hmem] at hget
    obtain ⟨hstrings, hrow⟩ := FrameKey.makeRow_spec t.timeline key t.strings
    refine ⟨(h.growStrings hstrings).addFrame hmem hrow, ?_, hget⟩
    exact ⟨hstrings, Interner.growsTo_insert _ _, by simp, .refl _, rfl⟩

/-! ## Stacks -/

/-- The frames of the stack with the given index, by their keys, the outermost first. -/
def keys? (t : Tables) (index : Nat) : Option (List FrameKey) :=
  (StackNode.frames? t.nodes.toList index).bind fun frames => frames.mapM t.frames.keys.get?

/-- The frames of a stack that need not have a row yet: those of the stack around the innermost
frame, which has a row, and the innermost frame. -/
def Describes (t : Tables) (node : StackNode) (keys : List FrameKey) : Prop :=
  ∃ outer last, keys = outer ++ [last] ∧ t.frames.keys.get? node.frame = some last ∧
    match node.parent with
    | none => outer = []
    | some parent => t.keys? parent = some outer

theorem keys?_eq_some_iff {t : Tables} {index : Nat} {keys : List FrameKey} :
    t.keys? index = some keys ↔
      ∃ frames, StackNode.frames? t.nodes.toList index = some frames ∧
        frames.map t.frames.keys.get? = keys.map some := by
  rw [keys?, Option.bind_eq_some_iff]
  simp only [mapM_eq_some_iff]

theorem GrowsTo.keys? {t t' : Tables} (h : t.GrowsTo t') {index : Nat} {keys : List FrameKey}
    (hkeys : t.keys? index = some keys) : t'.keys? index = some keys := by
  obtain ⟨frames, hframes, hmap⟩ := keys?_eq_some_iff.1 hkeys
  refine keys?_eq_some_iff.2 ⟨frames, StackNode.frames?_mono h.nodes hframes, ?_⟩
  rw [← hmap]
  refine List.map_congr_left fun frame hframe => ?_
  have hsome : t.frames.keys.get? frame ∈ keys.map some := hmap ▸ List.mem_map_of_mem hframe
  obtain ⟨key, -, hkey⟩ := List.mem_map.1 hsome
  rw [← hkey]
  exact h.keys.get? hkey.symm

theorem GrowsTo.describes {t t' : Tables} (h : t.GrowsTo t') {node : StackNode}
    {keys : List FrameKey} (hnode : t.Describes node keys) : t'.Describes node keys := by
  obtain ⟨outer, last, heq, hlast, hparent⟩ := hnode
  refine ⟨outer, last, heq, h.keys.get? hlast, ?_⟩
  cases hp : node.parent with
  | none =>
    rw [hp] at hparent
    exact hparent
  | some parent =>
    rw [hp] at hparent
    exact h.keys? hparent

/-- The row of a stack leads to the frames of the stack. -/
theorem keys?_of_describes {t : Tables} (h : t.Valid) {index : Nat} {node : StackNode}
    {keys : List FrameKey} (hget : t.nodes.get? index = some node) (hnode : t.Describes node keys) :
    t.keys? index = some keys := by
  obtain ⟨outer, last, rfl, hlast, hparent⟩ := hnode
  have hparent_lt := h.parent_lt index node hget
  rw [Interner.get?_eq_getElem?] at hget
  obtain ⟨parent, frame⟩ := node
  cases parent with
  | none =>
    obtain rfl : outer = [] := hparent
    refine keys?_eq_some_iff.2 ⟨[frame], ?_, by simp [hlast]⟩
    exact StackNode.frames?_eq_some_iff.2 ⟨_, [], hget, rfl, rfl⟩
  | some parent =>
    obtain ⟨frames, hframes, hmap⟩ := keys?_eq_some_iff.1 hparent
    refine keys?_eq_some_iff.2 ⟨frames ++ [frame], ?_, by simp [hmap, hlast]⟩
    exact StackNode.frames?_eq_some_iff.2 ⟨_, frames, hget, rfl, hparent_lt parent rfl, hframes⟩

/-- A stack that leads to frames has a row, which is a row of a stack of these frames. -/
theorem exists_describes_of_keys? {t : Tables} {index : Nat} {keys : List FrameKey}
    (h : t.keys? index = some keys) :
    ∃ node, t.nodes.get? index = some node ∧ t.Describes node keys := by
  obtain ⟨frames, hframes, hmap⟩ := keys?_eq_some_iff.1 h
  obtain ⟨⟨parent, frame⟩, outer, hnode, rfl, hparent⟩ :=
    StackNode.frames?_eq_some_iff.1 hframes
  rw [← Interner.get?_eq_getElem?] at hnode
  rw [List.map_append, List.map_singleton] at hmap
  obtain ⟨outerKeys, lastKeys, rfl, houter, hlast⟩ := List.map_eq_append_iff.1 hmap.symm
  obtain ⟨last, rfl, hlast'⟩ := List.map_eq_singleton_iff.1 hlast
  refine ⟨⟨parent, frame⟩, hnode, outerKeys, last, rfl, hlast'.symm, ?_⟩
  cases parent with
  | none =>
    obtain rfl : outer = [] := hparent
    simpa using houter
  | some parent => exact keys?_eq_some_iff.2 ⟨outer, hparent.2, houter.symm⟩

theorem lt_size_of_keys? {t : Tables} {index : Nat} {keys : List FrameKey}
    (h : t.keys? index = some keys) : index < t.nodes.size := by
  obtain ⟨node, hnode, -⟩ := exists_describes_of_keys? h
  exact Interner.lt_size_of_get? hnode

/-- Asking for a stack keeps the tables valid, moves nothing, and gives an index of the stack. -/
theorem stackIndex_spec {t : Tables} (h : t.Valid) {node : StackNode} {keys : List FrameKey}
    (hnode : t.Describes node keys) :
    (t.stackIndex node).2.Valid ∧ t.GrowsTo (t.stackIndex node).2 ∧
      (t.stackIndex node).2.keys? (t.stackIndex node).1 = some keys := by
  have heq : t.stackIndex node
      = (t.nodes.idxOf node, { t with nodes := t.nodes.insert node }) := by
    simp [stackIndex, Interner.intern_eq]
  rw [heq]
  have hgrows : t.GrowsTo { t with nodes := t.nodes.insert node } :=
    ⟨.refl _, .refl _, List.prefix_rfl, Interner.growsTo_insert _ _, rfl⟩
  have hget : (t.nodes.insert node).get? (t.nodes.idxOf node) = some node :=
    Interner.get?_idxOf_insert _ _
  obtain ⟨outer, last, -, hlast, hparent⟩ := id hnode
  have hvalid : Valid { t with nodes := t.nodes.insert node } := by
    refine ⟨h.readable, h.size_rows, h.shown_row, ?_, ?_⟩
    · intro index node' hnode' parent hp
      rcases Interner.get?_of_get?_insert hnode' with hold | ⟨rfl, rfl⟩
      · exact h.parent_lt index node' hold parent hp
      · rw [hp] at hparent
        exact lt_size_of_keys? hparent
    · intro index node' hnode'
      rcases Interner.get?_of_get?_insert hnode' with hold | ⟨rfl, rfl⟩
      · exact h.frame_lt index node' hold
      · exact Interner.lt_size_of_get? hlast
  exact ⟨hvalid, hgrows, keys?_of_describes hvalid hget (hgrows.describes hnode)⟩

theorem root_spec {t : Tables} (h : t.Valid) (key : FrameKey) :
    (t.root key).2.Valid ∧ t.GrowsTo (t.root key).2 ∧
      (t.root key).2.Describes (t.root key).1 [key] := by
  obtain ⟨hvalid, hgrows, hkey⟩ := frameIndex_spec h key
  exact ⟨hvalid, hgrows, [], key, rfl, hkey, rfl⟩

theorem append_spec {t : Tables} (h : t.Valid) {outer : StackNode} {keys : List FrameKey}
    (houter : t.Describes outer keys) (key : FrameKey) :
    (t.append outer key).2.Valid ∧ t.GrowsTo (t.append outer key).2 ∧
      (t.append outer key).2.Describes (t.append outer key).1 (keys ++ [key]) := by
  obtain ⟨hvalid, hgrows, hparent⟩ := stackIndex_spec h houter
  obtain ⟨hvalid', hgrows', hkey⟩ := frameIndex_spec hvalid key
  exact ⟨hvalid', hgrows.trans hgrows', keys, key, rfl, hkey, hgrows'.keys? hparent⟩

theorem appendAll_spec {t : Tables} (h : t.Valid) {outer : StackNode} {keys : List FrameKey}
    (houter : t.Describes outer keys) (frames : List FrameKey) :
    (t.appendAll outer frames).2.Valid ∧ t.GrowsTo (t.appendAll outer frames).2 ∧
      (t.appendAll outer frames).2.Describes (t.appendAll outer frames).1 (keys ++ frames) := by
  induction frames generalizing t outer keys with
  | nil => exact ⟨h, .refl t, by rwa [List.append_nil]⟩
  | cons key frames ih =>
    obtain ⟨hvalid, hgrows, hnode⟩ := append_spec h houter key
    obtain ⟨hvalid', hgrows', hnode'⟩ := ih hvalid hnode
    rw [List.append_assoc] at hnode'
    exact ⟨hvalid', hgrows.trans hgrows', hnode'⟩

/-- The index of a stack leads to the frames that the stack was made from. -/
theorem internStack_spec {t : Tables} (h : t.Valid) (outermost : FrameKey)
    (frames : List FrameKey) :
    (t.internStack outermost frames).2.Valid ∧ t.GrowsTo (t.internStack outermost frames).2 ∧
      (t.internStack outermost frames).2.keys? (t.internStack outermost frames).1 =
        some (outermost :: frames) := by
  obtain ⟨hroot, hgrows, hnode⟩ := root_spec h outermost
  obtain ⟨hall, hgrows', hnode'⟩ := appendAll_spec hroot hnode frames
  obtain ⟨hstack, hgrows'', hkeys⟩ := stackIndex_spec hall hnode'
  exact ⟨hstack, (hgrows.trans hgrows').trans hgrows'', hkeys⟩

/-! ## Samples -/

/-- The row shows the time of the sample and leads to its frames. -/
def RowOf (t : Tables) (outermost : FrameKey) (sample : RecordedSample) (row : SampleRow) : Prop :=
  row.time = sample.time ∧ row.responsiveness = sample.responsiveness ∧
    ∃ stack, row.stack = some stack ∧
      t.keys? stack = some (outermost :: sample.frames.flatMap (·.keys t.timeline))

theorem GrowsTo.rowOf {t t' : Tables} (h : t.GrowsTo t') {outermost : FrameKey}
    {sample : RecordedSample} {row : SampleRow} (hrow : t.RowOf outermost sample row) :
    t'.RowOf outermost sample row := by
  obtain ⟨htime, hresponsiveness, stack, hstack, hkeys⟩ := hrow
  refine ⟨htime, hresponsiveness, stack, hstack, ?_⟩
  rw [h.timeline]
  exact h.keys? hkeys

theorem addSample_spec {t : Tables} (h : t.Valid) (outermost : FrameKey)
    (sample : RecordedSample) :
    (t.addSample outermost sample).2.Valid ∧ t.GrowsTo (t.addSample outermost sample).2 ∧
      (t.addSample outermost sample).2.RowOf outermost sample (t.addSample outermost sample).1 := by
  have hspec := internStack_spec h outermost (sample.frames.flatMap (·.keys t.timeline))
  rw [addSample]
  generalize t.internStack outermost (sample.frames.flatMap (·.keys t.timeline)) = result at hspec
  obtain ⟨stack, t'⟩ := result
  obtain ⟨hvalid, hgrows, hkeys⟩ := hspec
  refine ⟨hvalid, hgrows, rfl, rfl, stack, rfl, ?_⟩
  rw [hgrows.timeline]
  exact hkeys

/-- Adding samples keeps the tables valid and moves nothing, and there is one row for each sample,
in order, that leads to the frames of the sample. -/
theorem addSamples_spec {t : Tables} (h : t.Valid) (outermost : FrameKey)
    (samples : List RecordedSample) :
    (t.addSamples outermost samples).2.Valid ∧ t.GrowsTo (t.addSamples outermost samples).2 ∧
      List.Forall₂ ((t.addSamples outermost samples).2.RowOf outermost) samples
        (t.addSamples outermost samples).1 := by
  induction samples generalizing t with
  | nil => exact ⟨h, .refl t, .nil⟩
  | cons sample samples ih =>
    obtain ⟨hvalid, hgrows, hrow⟩ := addSample_spec h outermost sample
    obtain ⟨hvalid', hgrows', hrows⟩ := ih hvalid
    exact ⟨hvalid', hgrows.trans hgrows', .cons (hgrows'.rowOf hrow) hrows⟩

/-! ## Reading back -/

/-- What a reader sees of a stack is what is shown of its frames. Texts that are added later make no
difference. -/
theorem readStack?_of_keys? {t : Tables} (h : t.Valid) {strings : List String}
    (hstrings : t.strings.toList <+: strings) {index : Nat} {keys : List FrameKey}
    (hkeys : t.keys? index = some keys) :
    readStack? t.nodes.toList t.frames.rows.toList strings index =
      keys.mapM (FrameKey.shown? t.timeline t.strings.toList) := by
  obtain ⟨frames, hframes, hmap⟩ := keys?_eq_some_iff.1 hkeys
  rw [readStack?, hframes, Option.bind_some]
  clear hframes hkeys
  induction frames generalizing keys with
  | nil =>
    obtain rfl : keys = [] := by simpa using hmap.symm
    rfl
  | cons frame frames ih =>
    obtain _ | ⟨key, keys⟩ := keys
    · exact absurd hmap (by simp)
    obtain ⟨hkey, hrest⟩ := List.cons.inj hmap
    obtain ⟨row, hrow, hshown⟩ := h.shown_row frame key hkey
    obtain ⟨shown, hsome⟩ := FrameKey.exists_shown? h.readable key
    have hread : t.frames.rows.toList[frame]?.bind (·.shown? strings) = some shown := by
      rw [Array.getElem?_toList, hrow]
      exact FrameRow.shown?_mono hstrings (hshown.trans hsome)
    rw [List.mapM_cons, List.mapM_cons, hread, hsome, ih hrest]

end Tables

end TraceProfile
