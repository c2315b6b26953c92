import TraceProfile.Proofs.Profile.CodeSearch

/-!
# What is left after discarding

Discarding drops the ranges that have ended at a position, the horizon. A range that covers the
horizon or a later position has not ended, so from the horizon on the first range that answers stays
the first one (`FirstAnswer.filter`). It only moves ahead in the list, by as many places as ranges
before it were dropped, and brings its rows along. This holds although the ranges that are left may
be searched in another way than before: dropping a range that overlaps others can take the mark
away, and then bisection finds what used to be found by trying the ranges in turn.
-/

namespace TraceProfile

/-! ## Places in a filtered list -/

section

variable {α : Type} {keep : α → Bool} {l : List α} {index : Nat}

/-- Of the elements before a place some are kept, and the others are not. -/
theorem countP_take_add (keep : α → Bool) (h : index ≤ l.length) :
    (l.take index).countP keep + (l.take index).countP (!keep ·) = index := by
  have hlength := List.length_eq_countP_add_countP keep (l := l.take index)
  rw [List.length_take_of_le h] at hlength
  simp only [Bool.not_eq_true, Bool.decide_eq_false] at hlength
  exact hlength.symm

/-- An element that is kept moves ahead by as many places as elements before it are not kept. -/
theorem getElem?_filter_of_keep {a : α} (h : l[index]? = some a) (hkeep : keep a = true) :
    (l.filter keep)[index - (l.take index).countP (!keep ·)]? = some a := by
  obtain ⟨hlt, rfl⟩ := List.getElem?_eq_some_iff.1 h
  have hplace : index - (l.take index).countP (!keep ·) = ((l.take index).filter keep).length := by
    have hcount := countP_take_add keep (Nat.le_of_lt hlt)
    rw [← List.countP_eq_length_filter]
    omega
  have hsplit : l.filter keep =
      (l.take index).filter keep ++ l[index] :: (l.drop (index + 1)).filter keep := by
    rw [← List.filter_cons_of_pos hkeep, ← List.drop_eq_getElem_cons hlt, ← List.filter_append,
      List.take_append_drop]
  rw [hplace, hsplit, List.getElem?_append_right (Nat.le_refl _), Nat.sub_self]
  rfl

/-- What stands ahead of an element after filtering stood ahead of it before. -/
theorem exists_lt_of_getElem?_filter {earlier : Nat} {a : α} (hle : index ≤ l.length)
    (hlt : earlier < index - (l.take index).countP (!keep ·))
    (h : (l.filter keep)[earlier]? = some a) : ∃ i < index, l[i]? = some a := by
  have hearlier : earlier < ((l.take index).filter keep).length := by
    have hcount := countP_take_add keep hle
    rw [← List.countP_eq_length_filter]
    omega
  have hsplit : l.filter keep = (l.take index).filter keep ++ (l.drop index).filter keep := by
    rw [← List.filter_append, List.take_append_drop]
  rw [hsplit, List.getElem?_append_left hearlier] at h
  obtain ⟨i, hi⟩ := List.mem_iff_getElem?.1 (List.mem_filter.1 (List.mem_of_getElem? h)).1
  rw [List.getElem?_take] at hi
  split at hi
  · next hindex => exact ⟨i, hindex, hi⟩
  · exact absurd hi (by simp)

end

namespace Jit

/-- If all ranges that cover the position are kept, the first one that answers stays the first one,
at the place that it moves to. -/
theorem FirstAnswer.filter {ranges : List Range} {address : UInt64} {position : Nat}
    {keep : Range → Bool}
    (hkeep : ∀ range ∈ ranges, range.contains position = true → keep range = true)
    {answer : Option (Nat × List CodeFrame)} (h : FirstAnswer ranges address position answer) :
    FirstAnswer (ranges.filter keep) address position
      (answer.map fun found => (found.1 - (ranges.take found.1).countP (!keep ·), found.2)) := by
  rcases answer with _ | ⟨index, frames⟩
  · intro range hrange hcontains
    exact h range (List.mem_filter.1 hrange).1 hcontains
  · obtain ⟨⟨range, hrange, hcontains, hframes⟩, hearlier⟩ := h
    have hlive := hkeep range (List.mem_of_getElem? hrange) hcontains
    refine ⟨⟨range, getElem?_filter_of_keep hrange hlive, hcontains, hframes⟩, ?_⟩
    intro earlier hlt range' hrange' hcontains'
    obtain ⟨hindex, -⟩ := List.getElem?_eq_some_iff.1 hrange
    obtain ⟨i, hi, hget⟩ := exists_lt_of_getElem?_filter (Nat.le_of_lt hindex) hlt hrange'
    exact hearlier i hi range' hget hcontains'

namespace Timeline

/-- How many of the ranges before the one with the given index have ended at a position. -/
def endedBefore (t : Timeline) (position index : Nat) : Nat :=
  (t.ranges.toList.take index).countP fun range => range.stop ≤ position

theorem endedBefore_le (t : Timeline) (position index : Nat) :
    t.endedBefore position index ≤ index :=
  Nat.le_trans List.countP_le_length (List.length_take_le _ _)

variable {t : Timeline} {horizon position : Nat}

/-- A range has ended if it is not kept. -/
theorem endedBefore_eq (t : Timeline) (position index : Nat) :
    t.endedBefore position index =
      (t.ranges.toList.take index).countP fun range => !decide (position < range.stop) := by
  refine List.countP_congr fun range _ => ?_
  simp

theorem lt_stop_of_contains {range : Range} (hle : horizon ≤ position)
    (h : range.contains position = true) : horizon < range.stop := by
  simp only [Range.contains, Bool.and_eq_true, decide_eq_true_eq] at h
  omega

/-- What is the first answer from the horizon on stays it when ranges are discarded. -/
theorem firstAnswer_discard (hle : horizon ≤ position) {address : UInt64}
    {answer : Option (Nat × List CodeFrame)}
    (h : FirstAnswer t.ranges.toList address position answer) :
    FirstAnswer (t.discard horizon).ranges.toList address position
      (answer.map fun found => (found.1 - t.endedBefore horizon found.1, found.2)) := by
  simp only [endedBefore_eq]
  rw [ranges_discard]
  apply h.filter
  intro range _ hcontains
  exact decide_eq_true (lt_stop_of_contains hle hcontains)

/-- A range that has not ended keeps its rows. -/
theorem row?_discard {index : Nat} {range : Range} (hrange : t.ranges[index]? = some range)
    (hlive : horizon < range.stop) (frame : CodeFrame) :
    (t.discard horizon).row? frame (index - t.endedBefore horizon index) = t.row? frame index := by
  rw [← Array.getElem?_toList] at hrange
  have hmoved : (t.discard horizon).ranges.toList[index - t.endedBefore horizon index]? =
      some range := by
    rw [ranges_discard, endedBefore_eq]
    exact getElem?_filter_of_keep hrange (decide_eq_true hlive)
  rw [row?, row?, ← Array.getElem?_toList, ← Array.getElem?_toList, hmoved, hrange]

end Timeline

namespace Coverage

/-- Discarding is a step that coverages are built by. -/
theorem discard_build (changes : List Change) (horizon : Nat) :
    (build changes).discard horizon = build (changes ++ [.discard horizon]) :=
  (build_concat changes (.discard horizon)).symm

/-- However a coverage is built, and whatever is discarded at a horizon: from there on an address is
found at a position exactly if it was found before, with the same frames and the same row for each
of them, in a range whose index is lowered by the number of ranges before it that were dropped. The
texts stay. Discarding at the later position then leaves what discarding there at once leaves. -/
theorem lookup?_discard_build (changes : List Change) {horizon position : Nat}
    (hle : horizon ≤ position) (address : UInt64) :
    ((build changes).discard horizon).lookup? address position =
        ((build changes).lookup? address position).map (fun found =>
          (found.1 - (build changes).timeline.endedBefore horizon found.1, found.2)) ∧
      (∀ index frames, (build changes).lookup? address position = some (index, frames) →
        (build changes).timeline.endedBefore horizon index ≤ index ∧
          ∀ frame ∈ frames, ∃ row, (build changes).timeline.row? frame index = some row ∧
            ((build changes).discard horizon).timeline.row? frame
              (index - (build changes).timeline.endedBefore horizon index) = some row) ∧
      ((build changes).discard horizon).strings = (build changes).strings ∧
      ((build changes).discard horizon).discard position = (build changes).discard position := by
  have hsound := sound_build changes
  have hleft : ((build changes).discard horizon).Sound := by
    rw [discard_build]
    exact sound_build _
  refine ⟨?_, ?_, rfl, ?_⟩
  · have hfirst := hsound.lookup?_eq_iff.1 (rfl : (build changes).lookup? address position = _)
    exact hleft.lookup?_eq_iff.2 (Timeline.firstAnswer_discard hle hfirst)
  · intro index frames hlookup
    refine ⟨Timeline.endedBefore_le _ horizon index, fun frame hframe => ?_⟩
    obtain ⟨row, hrow⟩ := hsound.reached.valid.exists_row? hlookup hframe
    obtain ⟨-, range, hrange, hcontains, -⟩ :=
      Timeline.framesIn?_eq_some_iff.1 (Timeline.framesIn?_of_lookup? hlookup)
    have hlive := Timeline.lt_stop_of_contains hle hcontains
    have hmoved := Timeline.row?_discard hrange hlive frame
    exact ⟨row, hrow, hmoved.trans hrow⟩
  · have htimeline := (build changes).timeline.discard_discard hle
    rw [discard, discard, htimeline]
    rfl

/-- Dropping the first of two overlapping ranges takes the mark away and moves the other ahead. -/
theorem lookup?_discard_build_overlap :
    let resolver : Resolver := fun address => [{ canonical := address, label := "loop" }]
    let c := build [.add 0 10 (by decide) resolver [16], .add 5 40 (by decide) resolver [16, 32]]
    c.timeline.overlapping = true ∧ (c.discard 10).timeline.overlapping = false ∧
      c.lookup? 16 12 = some (1, [⟨16, 0⟩]) ∧ c.timeline.endedBefore 10 1 = 1 ∧
      (c.discard 10).lookup? 16 12 = some (0, [⟨16, 0⟩]) ∧
      (c.discard 10).discard 12 = c.discard 12 := by
  intro resolver c
  obtain ⟨hlookup, -, -, hdiscard⟩ := lookup?_discard_build
    [.add 0 10 (by decide) resolver [16], .add 5 40 (by decide) resolver [16, 32]]
    (by decide : 10 ≤ 12) 16
  have hbefore : c.lookup? 16 12 = some (1, [⟨16, 0⟩]) := by decide +kernel
  have hended : c.timeline.endedBefore 10 1 = 1 := by decide +kernel
  refine ⟨by decide +kernel, by decide +kernel, hbefore, hended, ?_, hdiscard⟩
  rw [hlookup, hbefore, Option.map_some, hended]
  rfl

end Coverage

end Jit

end TraceProfile
