import Mathlib.Data.List.Infix
import TraceProfile.Proofs.Profile.Sharing
import TraceProfile.Proofs.Table.Distinct

/-!
# What the tables list

The tables grow by whatever is asked of them, and list it in the order in which it was asked for
first. `Tables.Lists` says this of all three of them together: the frame table has the frames that
were asked for, the stack table the stacks that were, and the string table the texts of those frames
that did not have a row ready. Frames and stacks are asked for in turn, a stack only when a frame is
put inside it or a sample refers to it; each list keeps its own account, so how they alternate does
not matter.

The account of a sample is then as plain as can be: its frames are asked for from the root on, and
the beginnings of its stack from the shortest on.
-/

namespace TraceProfile

/-! ## Beginnings -/

/-- The non-empty beginnings of a list, the shortest first. -/
def beginnings {α : Type} (l : List α) : List (List α) := l.inits.tail

theorem beginnings_cons {α : Type} (a : α) (l : List α) :
    beginnings (a :: l) = l.inits.map ([a] ++ ·) := by
  rw [beginnings, List.inits_cons, List.tail_cons]
  rfl

theorem beginnings_map {α β : Type} (f : α → β) (l : List α) :
    beginnings (l.map f) = (beginnings l).map (List.map f) := by
  rw [beginnings, beginnings, List.map_inits, List.map_tail]

theorem mem_beginnings_iff {α : Type} {l l' : List α} :
    l' ∈ beginnings l ↔ l' ≠ [] ∧ l' <+: l := by
  cases l with
  | nil => simp [beginnings]
  | cons a l =>
    rw [beginnings_cons, List.mem_map]
    constructor
    · rintro ⟨more, hmore, rfl⟩
      exact ⟨by simp, List.cons_prefix_cons.2 ⟨rfl, (List.mem_inits _ _).1 hmore⟩⟩
    · rintro ⟨hne, hprefix⟩
      obtain ⟨b, more, rfl⟩ := List.exists_cons_of_ne_nil hne
      obtain ⟨rfl, hmore⟩ := List.cons_prefix_cons.1 hprefix
      exact ⟨more, (List.mem_inits _ _).2 hmore, rfl⟩

/-! ## Texts -/

/-- The text that is interned when a frame gets its row. A frame for which a row is ready needs
none. -/
def FrameKey.text? (timeline : Jit.Timeline) : FrameKey → Option String
  | .normal frame => some frame.location
  | .jit frame range =>
    if (timeline.row? frame range).isSome then none
    else some (Number.hexAddress frame.canonical.toNat)

theorem FrameKey.snd_makeRow (timeline : Jit.Timeline) (key : FrameKey) (strings : StringTable) :
    (key.makeRow timeline strings).2 = match key.text? timeline with
      | some text => strings.insert text
      | none => strings := by
  cases key with
  | normal frame => simp only [makeRow, FrameRow.ofLabelFrame, Interner.intern_eq, text?]
  | jit frame range =>
    rw [makeRow, text?]
    split
    · next row hrow => simp only [hrow, Option.isSome_some, if_true]
    · next hrow =>
      simp only [hrow, Option.isSome_none, FrameRow.ofAddress, Interner.intern_eq,
        Bool.false_eq_true, if_false]

namespace Tables

/-- The tables list what was asked for: texts, beginning with those that they started from, frames,
and stacks, each as the path of its frames from the root on. -/
structure Lists (t : Tables) (texts : List String) (frames : List FrameKey)
    (paths : List (List FrameKey)) : Prop where
  strings_eq : t.strings.toList =
    (texts ++ frames.filterMap (FrameKey.text? t.timeline)).eraseDups
  keys_eq : t.frames.keys.toList = frames.eraseDups
  size_nodes : t.nodes.size = paths.eraseDups.length
  keys?_eq : ∀ index keys, paths.eraseDups[index]? = some keys → t.keys? index = some keys

variable {t : Tables} {texts : List String} {frames : List FrameKey} {paths : List (List FrameKey)}

theorem lists_ofCoverage (c : Jit.Coverage) : (ofCoverage c).Lists c.strings.toList [] [] where
  strings_eq := by
    rw [List.filterMap_nil, List.append_nil]
    exact (eraseDups_eq_self (Interner.nodup_toList _)).symm
  keys_eq := rfl
  size_nodes := rfl
  keys?_eq := fun index keys h => absurd h (by simp)

/-- Asking for a frame puts it on the list of frames, and its text on the list of texts. -/
theorem Lists.frameIndex (hvalid : t.Valid) (h : t.Lists texts frames paths) (key : FrameKey) :
    (t.frameIndex key).2.Lists texts (frames ++ [key]) paths := by
  have hgrows := (frameIndex_spec hvalid key).2.1
  by_cases hmem : key ∈ t.frames.keys.toList
  · -- The text of a frame that has an index has been interned before.
    have hknown : key ∈ frames := by rwa [h.keys_eq, List.mem_eraseDups] at hmem
    rw [frameIndex_of_mem hmem]
    refine { h with strings_eq := ?_, keys_eq := ?_ }
    · rw [h.strings_eq, List.filterMap_append, ← List.append_assoc]
      cases htext : key.text? t.timeline with
      | none => simp [htext]
      | some text =>
        have hlisted : text ∈ texts ++ frames.filterMap (FrameKey.text? t.timeline) :=
          List.mem_append_right _ (List.mem_filterMap.2 ⟨key, hknown, htext⟩)
        rw [List.filterMap_cons_some htext, List.filterMap_nil, eraseDups_concat,
          if_pos hlisted]
    · rw [h.keys_eq, eraseDups_concat, if_pos hknown]
  · rw [frameIndex_of_not_mem hmem] at hgrows ⊢
    refine ⟨?_, Interner.toList_insert_of_eq_eraseDups h.keys_eq key, h.size_nodes,
      fun index keys hkeys => hgrows.keys? (h.keys?_eq index keys hkeys)⟩
    dsimp only
    rw [FrameKey.snd_makeRow, List.filterMap_append, ← List.append_assoc]
    cases htext : key.text? t.timeline with
    | none => simpa [htext] using h.strings_eq
    | some text =>
      rw [List.filterMap_cons_some htext, List.filterMap_nil]
      exact Interner.toList_insert_of_eq_eraseDups h.strings_eq text

/-- Asking for a stack puts it on the list of stacks. -/
theorem Lists.stackIndex (hvalid : t.Valid) (h : t.Lists texts frames paths) {node : StackNode}
    {keys : List FrameKey} (hnode : t.Describes node keys) :
    (t.stackIndex node).2.Lists texts frames (paths ++ [keys]) := by
  obtain ⟨-, hgrows, hindex⟩ := stackIndex_spec hvalid hnode
  by_cases hmem : keys ∈ paths
  · obtain ⟨index, hlisted⟩ := List.mem_iff_getElem?.1 (List.mem_eraseDups.2 hmem)
    rw [stackIndex_of_keys? hnode (h.keys?_eq index keys hlisted)]
    have hsame : (paths ++ [keys]).eraseDups = paths.eraseDups := by
      rw [eraseDups_concat, if_pos hmem]
    exact { h with
      size_nodes := by rw [hsame, h.size_nodes]
      keys?_eq := by
        rw [hsame]
        exact h.keys?_eq }
  · -- A row of the stack would be a row of a stack on the list.
    have hnew : node ∉ t.nodes.toList := by
      intro hold
      obtain ⟨index, hget⟩ := List.mem_iff_getElem?.1 hold
      rw [← Interner.get?_eq_getElem?] at hget
      have hlt := Interner.lt_size_of_get? hget
      rw [h.size_nodes] at hlt
      have hlisted := List.getElem?_eq_getElem hlt
      have hkeys := (h.keys?_eq index _ hlisted).symm.trans (keys?_of_describes hvalid hget hnode)
      rw [hkeys] at hlisted
      exact hmem (List.mem_eraseDups.1 (List.mem_of_getElem? hlisted))
    have heq : t.stackIndex node = (t.nodes.size, { t with nodes := t.nodes.insert node }) := by
      simp [Tables.stackIndex, Interner.intern_eq, Interner.idxOf_of_not_mem hnew]
    rw [heq] at hgrows hindex ⊢
    have happend : (paths ++ [keys]).eraseDups = paths.eraseDups ++ [keys] := by
      rw [eraseDups_concat, if_neg hmem]
    refine ⟨h.strings_eq, h.keys_eq, ?_, ?_⟩
    · show (t.nodes.insert node).size = _
      rw [happend, ← Interner.length_toList, Interner.toList_insert_of_not_mem hnew,
        List.length_append, List.length_append, Interner.length_toList, h.size_nodes]
      rfl
    · intro index keys' hlisted
      rw [happend, List.getElem?_append] at hlisted
      split at hlisted
      · exact hgrows.keys? (h.keys?_eq index keys' hlisted)
      · next hge =>
        rw [List.getElem?_singleton] at hlisted
        split at hlisted
        · obtain rfl := Option.some.inj hlisted
          have hend : index = t.nodes.size := by
            rw [h.size_nodes]
            omega
          rw [hend]
          exact hindex
        · exact absurd hlisted (by simp)

/-- A stack that is built up from another one, and then asked for, has all the stacks on the way
asked for. -/
theorem Lists.appendAll (hvalid : t.Valid) (h : t.Lists texts frames paths) {outer : StackNode}
    {keys : List FrameKey} (houter : t.Describes outer keys) (more : List FrameKey) :
    ((t.appendAll outer more).2.stackIndex (t.appendAll outer more).1).2.Lists texts
      (frames ++ more) (paths ++ more.inits.map (keys ++ ·)) := by
  -- The induction is on the frames that are still to come; `keys` is what has been built up so far.
  induction more generalizing t outer keys frames paths with
  | nil => simpa [Tables.appendAll] using h.stackIndex hvalid houter
  | cons key more ih =>
    obtain ⟨hvalid', -, hnode⟩ := append_spec hvalid houter key
    obtain ⟨hstack, -, -⟩ := stackIndex_spec hvalid houter
    have hlists : (t.append outer key).2.Lists texts (frames ++ [key]) (paths ++ [keys]) :=
      (h.stackIndex hvalid houter).frameIndex hstack key
    have hrest := ih hvalid' hlists hnode
    simpa [Tables.appendAll, List.inits_cons, Function.comp_def] using hrest

/-- Asking for the stack of some frames asks for these frames, and for the beginnings of the
stack. -/
theorem Lists.internStack (hvalid : t.Valid) (h : t.Lists texts frames paths)
    (outermost : FrameKey) (more : List FrameKey) :
    (t.internStack outermost more).2.Lists texts (frames ++ outermost :: more)
      (paths ++ beginnings (outermost :: more)) := by
  obtain ⟨hroot, -, hnode⟩ := root_spec hvalid outermost
  have hlists : (t.root outermost).2.Lists texts (frames ++ [outermost]) paths :=
    h.frameIndex hvalid outermost
  have hall := hlists.appendAll hroot hnode more
  rw [List.append_assoc, List.singleton_append] at hall
  rw [beginnings_cons]
  exact hall

/-- The frames of a sample by their keys, from the root on. -/
def sequence (timeline : Jit.Timeline) (outermost : FrameKey) (sample : RecordedSample) :
    List FrameKey :=
  outermost :: sample.frames.flatMap (·.keys timeline)

/-- The tables after samples were added list the frames of the samples and the beginnings of their
stacks. -/
theorem Lists.addSamples (hvalid : t.Valid) (h : t.Lists texts frames paths)
    (outermost : FrameKey) (samples : List RecordedSample) :
    (t.addSamples outermost samples).2.Lists texts
      (frames ++ samples.flatMap (sequence t.timeline outermost))
      (paths ++ samples.flatMap fun sample =>
        beginnings (sequence t.timeline outermost sample)) := by
  induction samples generalizing t frames paths with
  | nil => simpa [Tables.addSamples] using h
  | cons sample samples ih =>
    obtain ⟨hvalid', hgrows, -⟩ := addSample_spec hvalid outermost sample
    have hstack := h.internStack hvalid outermost (sample.frames.flatMap (·.keys t.timeline))
    have hrest := ih hvalid' hstack
    rw [hgrows.timeline, List.append_assoc, List.append_assoc] at hrest
    exact hrest

end Tables

end TraceProfile
