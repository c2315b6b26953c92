import TraceProfile.Proofs.Jit.Retention

/-!
# References in a profile

`ThreadProfile.Linked` says that no reference of a profile leads nowhere and that no row of the
tables that others refer to is there twice. A profile is linked if the coverage that it starts from
is valid; nothing is asked of the entries of the window, the markers or the settings.
-/

namespace TraceProfile

/-- All references lead somewhere: those of samples to stacks, those of stacks to frames and
outwards to earlier stacks until there is none around them, those of frames and markers to texts.
Texts and stacks are listed once. -/
structure ThreadProfile.Linked (p : ThreadProfile) : Prop where
  sample_stack : ∀ row ∈ p.samples, ∃ stack, row.stack = some stack ∧ stack < p.nodes.length
  parent_lt : ∀ (index : Nat) (node : StackNode), p.nodes[index]? = some node →
    ∀ parent, node.parent = some parent → parent < index
  exists_frames? : ∀ index < p.nodes.length, ∃ frames, StackNode.frames? p.nodes index = some frames
  frame_lt : ∀ node ∈ p.nodes, node.frame < p.frames.length
  location_lt : ∀ row ∈ p.frames, row.location < p.strings.length
  implementation_lt : ∀ row ∈ p.frames, ∀ index, row.implementation = some index →
    index < p.strings.length
  name_lt : ∀ row ∈ p.markers, row.name < p.strings.length
  nodup_strings : p.strings.Nodup
  nodup_nodes : p.nodes.Nodup

/-- If stacks come after the stacks around them, the way outwards ends. -/
theorem StackNode.exists_frames? {nodes : List StackNode}
    (h : ∀ (index : Nat) (node : StackNode), nodes[index]? = some node →
      ∀ parent, node.parent = some parent → parent < index)
    (index : Nat) (hindex : index < nodes.length) :
    ∃ frames, StackNode.frames? nodes index = some frames := by
  induction index using Nat.strongRecOn with
  | _ index ih =>
    obtain ⟨⟨parent, frame⟩, hnode⟩ : ∃ node, nodes[index]? = some node :=
      ⟨nodes[index], List.getElem?_eq_getElem hindex⟩
    rw [StackNode.frames?, hnode]
    cases parent with
    | none => exact ⟨[frame], rfl⟩
    | some parent =>
      have hlt := h index _ hnode parent rfl
      obtain ⟨outer, houter⟩ := ih parent hlt (by omega)
      exact ⟨outer ++ [frame], by simp [hlt, houter]⟩

/-- The names of markers are interned in order, and each row refers to the name of its marker. -/
theorem MarkerRow.ofMarkers_spec (strings : StringTable) (markers : List Marker) :
    strings.GrowsTo (ofMarkers strings markers).2 ∧
      List.Forall₂ (fun marker row =>
          (ofMarkers strings markers).2.get? row.name = some marker.name ∧
            row.time = marker.time ∧ row.data = marker.data)
        markers (ofMarkers strings markers).1 := by
  induction markers generalizing strings with
  | nil => exact ⟨.refl _, .nil⟩
  | cons marker markers ih =>
    obtain ⟨hgrows, hrows⟩ := ih (strings.insert marker.name)
    simp only [ofMarkers, Interner.intern_eq]
    refine ⟨(Interner.growsTo_insert _ _).trans hgrows, .cons ⟨?_, rfl, rfl⟩ hrows⟩
    exact hgrows.get? (Interner.get?_idxOf_insert _ _)

namespace ThreadProfile

/-- What the tables of a profile are made of: the rows of the samples and the tables with them, and
the string table with the names of the markers. -/
theorem ofWindow_spec {coverage : Jit.Coverage} (h : coverage.Valid) (tid : Int32) (w : Window)
    (store : MarkerStore) (settings : Settings) :
    ∃ tables : Tables, tables.Valid ∧ (Tables.ofCoverage coverage).GrowsTo tables ∧
      ∃ strings : StringTable, tables.strings.GrowsTo strings ∧
        (ofWindow tid w coverage store settings).nodes = tables.nodes.toList ∧
        (ofWindow tid w coverage store settings).frames = tables.frames.rows.toList ∧
        (ofWindow tid w coverage store settings).strings = strings.toList ∧
        List.Forall₂ (tables.RowOf (.ofLabel settings.rootLabel)) (shownSamples tid w settings)
          (ofWindow tid w coverage store settings).samples ∧
        List.Forall₂ (fun marker row => strings.get? row.name = some marker.name ∧
            row.time = marker.time ∧ row.data = marker.data) (shownMarkers tid w store settings)
          (ofWindow tid w coverage store settings).markers := by
  obtain ⟨hvalid, hgrows, hrows⟩ := Tables.addSamples_spec (Tables.valid_ofCoverage h.readable)
    (.ofLabel settings.rootLabel) (shownSamples tid w settings)
  obtain ⟨hstrings, hmarkers⟩ := MarkerRow.ofMarkers_spec
    (sampleRows tid w (.ofCoverage coverage) settings).2.strings (shownMarkers tid w store settings)
  exact ⟨_, hvalid, hgrows, _, hstrings, rfl, rfl, rfl, hrows, hmarkers⟩

/-- A profile is linked if the coverage that it starts from is valid. -/
theorem linked_ofWindow {coverage : Jit.Coverage} (h : coverage.Valid) (tid : Int32) (w : Window)
    (store : MarkerStore) (settings : Settings) :
    (ofWindow tid w coverage store settings).Linked := by
  obtain ⟨tables, hvalid, -, strings, hstrings, hnodes, hframes, hstrings', hrows, hmarkers⟩ :=
    ofWindow_spec h tid w store settings
  generalize ofWindow tid w coverage store settings = p at *
  have hparent : ∀ (index : Nat) (node : StackNode), p.nodes[index]? = some node →
      ∀ parent, node.parent = some parent → parent < index := by
    intro index node hnode
    rw [hnodes, ← Interner.get?_eq_getElem?] at hnode
    exact hvalid.parent_lt index node hnode
  have hreadable : ∀ row ∈ p.frames, ∃ shown, row.shown? p.strings = some shown := by
    intro row hrow
    rw [hframes] at hrow
    obtain ⟨index, hindex⟩ := List.mem_iff_getElem?.1 hrow
    rw [Array.getElem?_toList] at hindex
    obtain ⟨hlt, -⟩ := Array.getElem?_eq_some_iff.1 hindex
    obtain ⟨key, hkey⟩ := Interner.exists_get?_of_lt_size (hvalid.size_rows ▸ hlt)
    obtain ⟨row', hrow', hshown⟩ := hvalid.shown_row index key hkey
    obtain rfl : row' = row := Option.some.inj (hrow'.symm.trans hindex)
    obtain ⟨shown, hsome⟩ := FrameKey.exists_shown? hvalid.readable key
    rw [hstrings']
    exact ⟨shown, FrameRow.shown?_mono hstrings (hshown.trans hsome)⟩
  refine
    { sample_stack := ?_
      parent_lt := hparent
      exists_frames? := StackNode.exists_frames? hparent
      frame_lt := ?_
      location_lt := ?_
      implementation_lt := ?_
      name_lt := ?_
      nodup_strings := ?_
      nodup_nodes := ?_ }
  · -- sample_stack
    intro row hrow
    obtain ⟨index, hindex⟩ := List.mem_iff_getElem.1 hrow
    obtain ⟨hlt, rfl⟩ := hindex
    obtain ⟨-, -, stack, hstack, hkeys⟩ :=
      (List.forall₂_iff_get.1 hrows).2 index (hrows.length_eq ▸ hlt) hlt
    refine ⟨stack, hstack, ?_⟩
    rw [hnodes, Interner.length_toList]
    exact Tables.lt_size_of_keys? hkeys
  · -- frame_lt
    intro node hnode
    rw [hnodes] at hnode
    obtain ⟨index, hindex⟩ := List.mem_iff_getElem?.1 hnode
    rw [← Interner.get?_eq_getElem?] at hindex
    have hlt := hvalid.frame_lt index node hindex
    rw [hframes, Array.length_toList, hvalid.size_rows]
    exact hlt
  · -- location_lt
    intro row hrow
    exact (FrameRow.exists_shown?_iff.1 (hreadable row hrow)).1
  · -- implementation_lt
    intro row hrow
    exact (FrameRow.exists_shown?_iff.1 (hreadable row hrow)).2
  · -- name_lt
    intro row hrow
    obtain ⟨index, hlt, rfl⟩ := List.mem_iff_getElem.1 hrow
    obtain ⟨hname, -⟩ := (List.forall₂_iff_get.1 hmarkers).2 index (hmarkers.length_eq ▸ hlt) hlt
    rw [hstrings', Interner.length_toList]
    exact Interner.lt_size_of_get? hname
  · -- nodup_strings
    rw [hstrings']
    exact Interner.nodup_toList strings
  · -- nodup_nodes
    rw [hnodes]
    exact Interner.nodup_toList tables.nodes

end ThreadProfile

end TraceProfile
