import TraceProfile.Jit.Coverage

/-!
# Looking up by bisection and by trying all ranges

A timeline is marked as overlapping if some range starts before the end of an earlier one; adding
and discarding keep the mark exact (`Timeline.Marked`). If it is not set, the ends of the ranges
ascend and at most one range covers a position, so bisection finds what trying all ranges in turn
finds. `Timeline.lookup?_eq_findSome?` says what that is, without either search.
-/

namespace TraceProfile.Jit.Timeline

/-! ## The mark -/

/-- The mark says whether some range starts before the end of an earlier one. -/
def Marked (t : Timeline) : Prop := t.overlapping = !decide (Consecutive t.ranges.toList)

theorem marked_empty : ({} : Timeline).Marked := by
  have h : Consecutive [] := List.Pairwise.nil
  simp [Marked, h]

theorem marked_discard (t : Timeline) (position : Nat) : (t.discard position).Marked := rfl

theorem Marked.consecutive_iff {t : Timeline} (h : t.Marked) :
    t.overlapping = false ↔ Consecutive t.ranges.toList := by
  rw [h]
  simp

theorem conflict?_eq_none_iff {t : Timeline} {start : Nat} :
    t.conflict? start = none ↔ ∀ range ∈ t.ranges.toList, range.stop ≤ start := by
  simp [conflict?]

/-- Adding a range keeps the mark exact. -/
theorem Marked.push {t : Timeline} (h : t.Marked) (range : Range) : (t.push range).Marked := by
  have hnew : Consecutive (t.push range).ranges.toList ↔
      Consecutive t.ranges.toList ∧ t.conflict? range.start = none := by
    simp [Timeline.push, Consecutive, List.pairwise_append, conflict?_eq_none_iff]
  have hflag : (t.push range).overlapping =
      (t.overlapping || (t.conflict? range.start).isSome) := rfl
  rw [Marked, hflag, h]
  rcases hconflict : t.conflict? range.start with _ | earlier
  · rw [hconflict] at hnew
    simp [hnew]
  · rw [hconflict] at hnew
    simp [hnew]

/-- Discarding drops the ranges that have ended and nothing else. -/
theorem ranges_discard (t : Timeline) (position : Nat) :
    (t.discard position).ranges.toList =
      t.ranges.toList.filter fun range => position < range.stop := by
  simp [discard]

theorem mem_discard {t : Timeline} {position : Nat} {range : Range} :
    range ∈ (t.discard position).ranges.toList ↔
      range ∈ t.ranges.toList ∧ position < range.stop := by
  rw [ranges_discard, List.mem_filter, decide_eq_true_eq]

/-! ## Bisection -/

/-- Where the ends of the ranges ascend, bisection finds the place that divides the ranges which
have ended at the position from those which have not. -/
theorem bisect_spec {ranges : Array Range} (position : Nat) {low high : Nat}
    {h : high ≤ ranges.size}
    (hsorted : ∀ i j (hi : i < ranges.size) (hj : j < ranges.size), i ≤ j →
      ranges[i].stop ≤ ranges[j].stop)
    (hle : low ≤ high)
    (hlow : ∀ i (hi : i < ranges.size), i < low → ranges[i].stop ≤ position)
    (hhigh : ∀ i (hi : i < ranges.size), high ≤ i → position < ranges[i].stop) :
    (∀ i (hi : i < ranges.size), i < bisect ranges position low high h →
        ranges[i].stop ≤ position) ∧
      ∀ i (hi : i < ranges.size), bisect ranges position low high h ≤ i →
        position < ranges[i].stop := by
  fun_induction bisect ranges position low high h with
  | case1 low high h hlt middle hmiddle hstop ih =>
    refine ih (by omega) ?_ hhigh
    intro i hi hlt'
    have hle' := hsorted i middle hi hmiddle (by omega)
    omega
  | case2 low high h hlt middle hmiddle hstop ih =>
    refine ih (by omega) hlow ?_
    intro i hi hge
    have hle' := hsorted middle i hmiddle hi hge
    omega
  | case3 low high h hlt =>
    obtain rfl : low = high := by omega
    exact ⟨hlow, hhigh⟩

/-! ## Lookup -/

theorem framesIn?_eq_some_iff {t : Timeline} {address : UInt64} {position index : Nat}
    {found : Nat × List CodeFrame} :
    t.framesIn? address position index = some found ↔
      found.1 = index ∧ ∃ range, t.ranges[index]? = some range ∧ range.contains position = true ∧
        range.frames? address = some found.2 := by
  obtain ⟨found, frames⟩ := found
  rw [framesIn?]
  constructor
  · intro h
    split at h
    · next range hrange =>
      split at h
      · next hcontains =>
        obtain ⟨frames', hframes, heq⟩ := Option.map_eq_some_iff.1 h
        obtain ⟨rfl, rfl⟩ := Prod.mk.inj heq
        exact ⟨rfl, range, hrange, hcontains, hframes⟩
      · exact absurd h (by simp)
    · exact absurd h (by simp)
  · rintro ⟨rfl, range, hrange, hcontains, hframes⟩
    simp only at hframes
    simp [hrange, hcontains, hframes]

theorem scanFrom?_eq_findSome? (t : Timeline) (address : UInt64) (position index count : Nat) :
    t.scanFrom? address position index count =
      (List.range' index count).findSome? (t.framesIn? address position) := by
  induction count generalizing index with
  | zero => rfl
  | succ count ih =>
    rw [scanFrom?, List.range'_succ, List.findSome?_cons]
    split
    · next found hfound => rw [hfound]
    · next hnone =>
      rw [hnone]
      exact ih (index + 1)

/-- Trying all ranges in turn gives the first one that covers the position and knows the address. -/
theorem scan?_eq_findSome? (t : Timeline) (address : UInt64) (position : Nat) :
    t.scan? address position =
      (List.range t.ranges.size).findSome? (t.framesIn? address position) := by
  rw [scan?, scanFrom?_eq_findSome?, List.range_eq_range']

/-- In consecutive ranges the ends ascend. -/
theorem stop_le_stop {ranges : Array Range} (h : Consecutive ranges.toList)
    (hbounds : ∀ range ∈ ranges.toList, range.start ≤ range.stop) {i j : Nat}
    (hi : i < ranges.size) (hj : j < ranges.size) (hij : i ≤ j) :
    ranges[i].stop ≤ ranges[j].stop := by
  rcases Nat.lt_or_eq_of_le hij with hlt | rfl
  · have hnext := List.pairwise_iff_getElem.1 h i j hi hj hlt
    simp only [Array.getElem_toList] at hnext
    have hrange := hbounds ranges[j] (Array.getElem_mem_toList hj)
    omega
  · exact Nat.le_refl _

/-- Whichever way it is done, looking up gives the first range that covers the position and knows
the address. -/
theorem lookup?_eq_findSome? {t : Timeline} (hmarked : t.Marked)
    (hbounds : ∀ range ∈ t.ranges.toList, range.start ≤ range.stop) (address : UInt64)
    (position : Nat) :
    t.lookup? address position =
      (List.range t.ranges.size).findSome? (t.framesIn? address position) := by
  rw [lookup?]
  split
  · exact scan?_eq_findSome? t address position
  · next hoverlapping =>
    have hconsecutive := hmarked.consecutive_iff.1 (by simpa using hoverlapping)
    obtain ⟨hbefore, hafter⟩ := bisect_spec position (h := Nat.le_refl _)
      (fun i j hi hj hij => stop_le_stop hconsecutive hbounds hi hj hij) (Nat.zero_le _)
      (fun i _ hi => absurd hi (Nat.not_lt_zero i)) (fun i hi hge => absurd hi (by omega))
    generalize bisect t.ranges position 0 t.ranges.size (Nat.le_refl _) = place at hbefore hafter
    -- No range but the one at the dividing place can cover the position.
    have hother : ∀ index, index ≠ place → t.framesIn? address position index = none := by
      intro index hne
      rw [Option.eq_none_iff_forall_ne_some]
      intro found hfound
      obtain ⟨-, range, hrange, hcontains, -⟩ := framesIn?_eq_some_iff.1 hfound
      obtain ⟨hindex, rfl⟩ := Array.getElem?_eq_some_iff.1 hrange
      simp only [Range.contains, Bool.and_eq_true, decide_eq_true_eq] at hcontains
      rcases Nat.lt_or_gt_of_ne hne with hlt | hgt
      · have hstop := hbefore index hindex hlt
        omega
      · have hplace : place < t.ranges.size := by omega
        have hstop := hafter place hplace (Nat.le_refl _)
        have hnext := List.pairwise_iff_getElem.1 hconsecutive place index hplace hindex hgt
        simp only [Array.getElem_toList] at hnext
        omega
    by_cases hplace : place < t.ranges.size
    · cases hfound : t.framesIn? address position place with
      | none =>
        symm
        rw [List.findSome?_eq_none_iff]
        intro index _
        by_cases heq : index = place
        · rw [heq, hfound]
        · exact hother index heq
      | some found =>
        symm
        refine List.findSome?_eq_some_iff.2 ⟨List.range place, place,
          List.range' (place + 1) (t.ranges.size - place - 1), ?_, hfound, ?_⟩
        · have happend := List.range'_append_1 (s := 0) (m := place) (n := t.ranges.size - place)
          rw [Nat.zero_add, Nat.add_sub_cancel' (Nat.le_of_lt hplace)] at happend
          have hsucc : t.ranges.size - place = t.ranges.size - place - 1 + 1 := by omega
          rw [List.range_eq_range', List.range_eq_range', ← List.range'_succ, ← hsucc, happend]
        · intro index hindex
          exact hother index (Nat.ne_of_lt (List.mem_range.1 hindex))
    · have hnone : t.framesIn? address position place = none := by
        rw [framesIn?, Array.getElem?_eq_none (Nat.le_of_not_lt hplace)]
      rw [hnone]
      symm
      rw [List.findSome?_eq_none_iff]
      intro index hindex
      exact hother index (by have hlt := List.mem_range.1 hindex; omega)

/-- What is found is found in a range that covers the position and knows the address. -/
theorem framesIn?_of_lookup? {t : Timeline} {address : UInt64} {position : Nat}
    {found : Nat × List CodeFrame} (h : t.lookup? address position = some found) :
    t.framesIn? address position found.1 = some found := by
  have hself {index : Nat} (hindex : t.framesIn? address position index = some found) :
      t.framesIn? address position found.1 = some found := by
    rw [(framesIn?_eq_some_iff.1 hindex).1]
    exact hindex
  rw [lookup?] at h
  split at h
  · rw [scan?_eq_findSome?] at h
    obtain ⟨_, index, _, -, hindex, -⟩ := List.findSome?_eq_some_iff.1 h
    exact hself hindex
  · exact hself h

end TraceProfile.Jit.Timeline
