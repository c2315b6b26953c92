import TraceProfile.Jit.Coverage
import TraceProfile.Proofs.Profile.Display

/-!
# What a range holds

A range is made from the answers of a resolver. `Range.Holds` says what it then holds, without the
search trees: the frames at each address that was asked for and known, and for each of these frames
a row that shows the first descriptor that was reported for it. This stays true when texts are added
to the string table, which is all that happens to a range once it has been made.

A resolver is coherent if it always describes a frame of some code at some depth in the same way.
The rows of what it was asked for then show exactly its answers.
-/

namespace TraceProfile.Jit

/-- The frames that a resolver reports for some addresses, in the order of the questions. -/
def Range.reported (resolver : Resolver) (addresses : List UInt64) :
    List (CodeFrame × Descriptor) :=
  (answers resolver addresses).flatMap fun answer => Descriptor.framesOf answer.2

/-- Each frame of the list has a row, which shows its first descriptor; no other frame has one. -/
def RowsShow (rows : Std.TreeMap CodeFrame FrameRow) (strings : List String)
    (frames : List (CodeFrame × Descriptor)) : Prop :=
  ∀ frame, match frames.lookup frame with
    | some d => ∃ row, rows[frame]? = some row ∧ row.shown? strings = some d.shown
    | none => rows[frame]? = none

/-- The range holds the answers of a resolver to questions for some addresses. -/
structure Range.Holds (r : Range) (strings : List String) (resolver : Resolver)
    (addresses : List UInt64) : Prop where
  frames?_eq : ∀ address, r.frames? address =
    if address ∈ addresses ∧ resolver address ≠ [] then
      some ((Descriptor.framesOf (resolver address)).map Prod.fst)
    else none
  rows_show : RowsShow r.rows strings (reported resolver addresses)

/-- A resolver describes a frame of some code at some depth in one way only. -/
def Resolver.Coherent (resolver : Resolver) : Prop :=
  ∀ frame address address' d d', (frame, d) ∈ Descriptor.framesOf (resolver address) →
    (frame, d') ∈ Descriptor.framesOf (resolver address') → d = d'

/-! ## Rendering -/

theorem RowsShow.mono {rows : Std.TreeMap CodeFrame FrameRow} {strings strings' : List String}
    {frames : List (CodeFrame × Descriptor)} (h : RowsShow rows strings frames)
    (hs : strings <+: strings') : RowsShow rows strings' frames := by
  intro frame
  have hframe := h frame
  split at hframe
  · obtain ⟨row, hrow, hshown⟩ := hframe
    exact ⟨row, hrow, FrameRow.shown?_mono hs hshown⟩
  · exact hframe

theorem Range.Holds.mono {r : Range} {strings strings' : List String} {resolver : Resolver}
    {addresses : List UInt64} (h : r.Holds strings resolver addresses)
    (hs : strings <+: strings') : r.Holds strings' resolver addresses :=
  ⟨h.frames?_eq, h.rows_show.mono hs⟩

/-- The row of a descriptor shows the descriptor. -/
theorem Descriptor.render_spec (d : Descriptor) (strings : StringTable) :
    strings.GrowsTo (d.render strings).2 ∧
      (d.render strings).1.shown? (d.render strings).2.toList = some d.shown := by
  obtain ⟨canonical, label, implementation, optimizations, line, column, category, relevant⟩ := d
  cases implementation with
  | none =>
    simp only [render, Interner.intern_eq]
    refine ⟨Interner.growsTo_insert _ _, ?_⟩
    rw [FrameRow.shown?, Interner.getElem?_idxOf_insert]
    rfl
  | some tier =>
    simp only [render, Interner.intern_eq]
    have hgrows := Interner.growsTo_insert (strings.insert label) tier
    refine ⟨(Interner.growsTo_insert _ _).trans hgrows, ?_⟩
    have hlabel := Interner.getElem?_idxOf_insert strings label
    rw [FrameRow.shown?, getElem?_mono hgrows hlabel]
    simp only [textAt?, Interner.getElem?_idxOf_insert]
    rfl

/-- Adding the row of one more frame: the frame gets a row only if it has none yet. -/
theorem addRow_spec {rows : Std.TreeMap CodeFrame FrameRow} {strings : StringTable}
    {frames : List (CodeFrame × Descriptor)} (h : RowsShow rows strings.toList frames)
    (frame : CodeFrame) (d : Descriptor) :
    strings.GrowsTo (Range.addRow (rows, strings) (frame, d)).2 ∧
      RowsShow (Range.addRow (rows, strings) (frame, d)).1
        (Range.addRow (rows, strings) (frame, d)).2.toList (frames ++ [(frame, d)]) := by
  obtain ⟨hgrows, hshown⟩ := d.render_spec strings
  have hcontains : rows.contains frame = (frames.lookup frame).isSome := by
    have hframe := h frame
    rw [Std.TreeMap.contains_eq_isSome_getElem?]
    split at hframe
    · next d' hd' =>
      obtain ⟨row, hrow, -⟩ := hframe
      rw [hrow, hd']
      rfl
    · next hnone =>
      rw [hframe, hnone]
      rfl
  rw [Range.addRow]
  split
  · next hc =>
    refine ⟨.refl _, fun frame' => ?_⟩
    have hframe' := h frame'
    rw [List.lookup_append]
    rw [hcontains] at hc
    obtain ⟨d', hd'⟩ := Option.isSome_iff_exists.1 hc
    by_cases heq : frame' = frame
    · rw [heq] at hframe' ⊢
      rw [hd'] at hframe' ⊢
      exact hframe'
    · have hne : (frame' == frame) = false := by simpa using heq
      simpa [List.lookup_cons, hne] using hframe'
  · next hc =>
    refine ⟨hgrows, fun frame' => ?_⟩
    have hframe' := (h.mono hgrows) frame'
    rw [List.lookup_append]
    rw [hcontains, Bool.not_eq_true, Option.isSome_eq_false_iff, Option.isNone_iff_eq_none] at hc
    simp only [Std.TreeMap.getElem?_insert, Std.compare_eq_iff_eq]
    by_cases heq : frame' = frame
    · rw [heq, hc]
      simpa [List.lookup_cons] using hshown
    · have hne : (frame' == frame) = false := by simpa using heq
      have hne' : ¬ frame = frame' := fun e => heq e.symm
      simpa [List.lookup_cons, hne, hne'] using hframe'

theorem foldl_addRow_spec {rows : Std.TreeMap CodeFrame FrameRow} {strings : StringTable}
    {frames : List (CodeFrame × Descriptor)} (h : RowsShow rows strings.toList frames)
    (more : List (CodeFrame × Descriptor)) :
    strings.GrowsTo (more.foldl Range.addRow (rows, strings)).2 ∧
      RowsShow (more.foldl Range.addRow (rows, strings)).1
        (more.foldl Range.addRow (rows, strings)).2.toList (frames ++ more) := by
  induction more generalizing rows strings frames with
  | nil => exact ⟨.refl _, by rwa [List.append_nil]⟩
  | cons fd more ih =>
    obtain ⟨hgrows, hshow⟩ := addRow_spec h fd.1 fd.2
    obtain ⟨hgrows', hshow'⟩ := ih hshow
    rw [List.append_assoc] at hshow'
    exact ⟨hgrows.trans hgrows', hshow'⟩

/-! ## Resolving -/

namespace Range

theorem mem_queries {addresses : List UInt64} {address : UInt64} :
    address ∈ queries addresses ↔ address ∈ addresses := by
  rw [queries, Interner.toList_ofList, List.mem_eraseDups]

theorem mem_answers {resolver : Resolver} {addresses : List UInt64} {address : UInt64}
    {descriptors : List Descriptor} :
    (address, descriptors) ∈ answers resolver addresses ↔
      address ∈ addresses ∧ descriptors = resolver address ∧ resolver address ≠ [] := by
  simp only [answers, List.mem_filter, List.mem_map, mem_queries, Prod.mk.injEq]
  constructor
  · rintro ⟨⟨a, ha, rfl, rfl⟩, hne⟩
    exact ⟨ha, rfl, by simpa using hne⟩
  · rintro ⟨ha, rfl, hne⟩
    exact ⟨⟨address, ha, rfl, rfl⟩, by simpa using hne⟩

/-- No address is answered twice. -/
theorem nodup_answers (resolver : Resolver) (addresses : List UInt64) :
    ((answers resolver addresses).map Prod.fst).Nodup := by
  have hall : ((queries addresses).map fun address => (address, resolver address)).map Prod.fst
      = queries addresses := by
    rw [List.map_map]
    exact List.map_id _
  have hnodup : (queries addresses).Nodup := Interner.nodup_toList _
  rw [← hall] at hnodup
  exact hnodup.sublist (List.filter_sublist.map Prod.fst)

theorem mem_reported {resolver : Resolver} {addresses : List UInt64}
    {frame : CodeFrame × Descriptor} :
    frame ∈ reported resolver addresses ↔
      ∃ address ∈ addresses, frame ∈ Descriptor.framesOf (resolver address) := by
  simp only [reported, List.mem_flatMap, Prod.exists, mem_answers]
  constructor
  · rintro ⟨address, -, ⟨ha, rfl, -⟩, hframe⟩
    exact ⟨address, ha, hframe⟩
  · rintro ⟨address, ha, hframe⟩
    refine ⟨address, _, ⟨ha, rfl, fun hnil => ?_⟩, hframe⟩
    rw [hnil] at hframe
    exact absurd hframe (by simp [Descriptor.framesOf])

/-- A range made from the answers of a resolver holds these answers. -/
theorem holds_resolve (start stop : Nat) (resolver : Resolver) (addresses : List UInt64)
    (strings : StringTable) :
    strings.GrowsTo (resolve start stop resolver addresses strings).2 ∧
      (resolve start stop resolver addresses strings).1.Holds
        (resolve start stop resolver addresses strings).2.toList resolver addresses := by
  have hempty : RowsShow ∅ strings.toList [] := fun frame => Std.TreeMap.getElem?_emptyc
  obtain ⟨hgrows, hshow⟩ := foldl_addRow_spec hempty (reported resolver addresses)
  refine ⟨hgrows, fun address => ?_, hshow⟩
  have hdistinct : ((answers resolver addresses).map fun answer =>
      (answer.1, (Descriptor.framesOf answer.2).map Prod.fst)).Pairwise
        fun a b => ¬ compare a.1 b.1 = .eq := by
    have hnodup := nodup_answers resolver addresses
    rw [List.Nodup, List.pairwise_map] at hnodup
    rw [List.pairwise_map]
    exact hnodup.imp fun hne heq => hne (Std.compare_eq_iff_eq.1 heq)
  split
  · next h =>
    refine Std.TreeMap.getElem?_ofList_of_mem Std.ReflCmp.compare_self hdistinct ?_
    exact List.mem_map.2 ⟨(address, resolver address), mem_answers.2 ⟨h.1, rfl, h.2⟩, rfl⟩
  · next h =>
    refine Std.TreeMap.getElem?_ofList_of_contains_eq_false ?_
    rw [Bool.eq_false_iff]
    intro hmem
    obtain ⟨pair, hpair, heq⟩ := List.mem_map.1 (List.contains_iff_mem.1 hmem)
    obtain ⟨⟨a, descriptors⟩, hanswer, rfl⟩ := List.mem_map.1 hpair
    obtain ⟨ha, -, hne⟩ := mem_answers.1 hanswer
    obtain rfl : a = address := heq
    exact h ⟨ha, hne⟩

/-- A row of the range can be read. -/
theorem Holds.exists_shown? {r : Range} {strings : List String} {resolver : Resolver}
    {addresses : List UInt64} (h : r.Holds strings resolver addresses) {frame : CodeFrame}
    {row : FrameRow} (hrow : r.row? frame = some row) :
    ∃ shown, row.shown? strings = some shown := by
  have hframe := h.rows_show frame
  split at hframe
  · next d hd =>
    obtain ⟨row', hrow', hshown⟩ := hframe
    obtain rfl : row' = row := Option.some.inj (hrow'.symm.trans hrow)
    exact ⟨_, hshown⟩
  · exact absurd (hframe.symm.trans hrow) (by simp)

/-- Every frame at an address has a row. -/
theorem Holds.exists_row? {r : Range} {strings : List String} {resolver : Resolver}
    {addresses : List UInt64} (h : r.Holds strings resolver addresses) {address : UInt64}
    {frames : List CodeFrame} (hframes : r.frames? address = some frames) {frame : CodeFrame}
    (hmem : frame ∈ frames) : ∃ row, r.row? frame = some row := by
  rw [h.frames?_eq] at hframes
  split at hframes
  · next hasked =>
    obtain rfl := Option.some.inj hframes
    obtain ⟨⟨frame', d⟩, hd, rfl⟩ := List.mem_map.1 hmem
    have hreported := mem_reported.2 ⟨address, hasked.1, hd⟩
    have hframe := h.rows_show frame'
    split at hframe
    · obtain ⟨row, hrow, -⟩ := hframe
      exact ⟨row, hrow⟩
    · next hnone =>
      have hne := List.lookup_eq_none_iff.1 hnone _ hreported
      exact absurd hne (by simp)
  · exact absurd hframes (by simp)

/-- If the resolver is coherent, the row of a frame shows what the resolver says about it. -/
theorem Holds.row?_of_coherent {r : Range} {strings : List String} {resolver : Resolver}
    {addresses : List UInt64} (h : r.Holds strings resolver addresses)
    (hcoherent : resolver.Coherent) {address : UInt64} (haddress : address ∈ addresses)
    {frame : CodeFrame} {d : Descriptor}
    (hd : (frame, d) ∈ Descriptor.framesOf (resolver address)) :
    ∃ row, r.row? frame = some row ∧ row.shown? strings = some d.shown := by
  have hframe := h.rows_show frame
  split at hframe
  · next d' hd' =>
    -- The row shows the first descriptor that was reported, which is this one.
    obtain ⟨before, after, heq, -⟩ := List.lookup_eq_some_iff.1 hd'
    have hreported : (frame, d') ∈ reported resolver addresses := by
      rw [heq]
      simp
    obtain ⟨address', -, hframe'⟩ := mem_reported.1 hreported
    obtain rfl := hcoherent frame address address' d d' hd hframe'
    exact hframe
  · next hnone =>
    have hne := List.lookup_eq_none_iff.1 hnone _ (mem_reported.2 ⟨address, haddress, hd⟩)
    exact absurd hne (by simp)

end Range

end TraceProfile.Jit
