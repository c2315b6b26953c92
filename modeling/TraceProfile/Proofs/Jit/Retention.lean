import TraceProfile.Proofs.Jit.Answers
import TraceProfile.Proofs.Jit.Lookup
import TraceProfile.Proofs.Profile.TableInvariant

/-!
# Coverages that are kept

A coverage comes about by adding the answers of resolvers and by discarding ranges that have ended.
However this is done, each range goes on holding the answers that it was made from
(`Coverage.Valid`), so every frame that is looked up has a row and every row can be read.

A timeline is current at a position if its mark is exact and none of its ranges has ended there.
Discarding at that position then changes nothing.
-/

namespace TraceProfile.Jit

namespace Coverage

/-- Coverages that come about by adding and discarding. -/
inductive Reached : Coverage → Prop where
  /-- Nothing is known. -/
  | empty : Reached {}
  /-- The answers of a resolver are added. -/
  | add {c : Coverage} (h : Reached c) (start stop : Nat) (resolver : Resolver)
      (addresses : List UInt64) : Reached (c.add start stop resolver addresses)
  /-- Ranges that have ended at a position are dropped. -/
  | discard {c : Coverage} (h : Reached c) (position : Nat) : Reached (c.discard position)

/-- Each range holds answers of a resolver. -/
def Valid (c : Coverage) : Prop :=
  ∀ range ∈ c.timeline.ranges.toList, ∃ resolver addresses,
    range.Holds c.strings.toList resolver addresses

theorem valid_empty : ({} : Coverage).Valid := by
  intro range hrange
  exact absurd hrange (by simp)

theorem ranges_add (c : Coverage) (start stop : Nat) (resolver : Resolver)
    (addresses : List UInt64) :
    (c.add start stop resolver addresses).timeline.ranges.toList =
      c.timeline.ranges.toList ++ [(Range.resolve start stop resolver addresses c.strings).1] := by
  simp [add, Timeline.push]

theorem Valid.add {c : Coverage} (h : c.Valid) (start stop : Nat) (resolver : Resolver)
    (addresses : List UInt64) : (c.add start stop resolver addresses).Valid := by
  obtain ⟨hgrows, hnew⟩ := Range.holds_resolve start stop resolver addresses c.strings
  intro range hrange
  rw [ranges_add, List.mem_append, List.mem_singleton] at hrange
  rcases hrange with hold | rfl
  · obtain ⟨resolver', addresses', hholds⟩ := h range hold
    exact ⟨resolver', addresses', hholds.mono hgrows⟩
  · exact ⟨resolver, addresses, hnew⟩

theorem Valid.discard {c : Coverage} (h : c.Valid) (position : Nat) :
    (c.discard position).Valid := by
  intro range hrange
  exact h range (Timeline.mem_discard.1 hrange).1

theorem Reached.valid {c : Coverage} (h : c.Reached) : c.Valid := by
  induction h with
  | empty => exact valid_empty
  | add _ start stop resolver addresses ih => exact ih.add start stop resolver addresses
  | discard _ position ih => exact ih.discard position

/-- The range that a row belongs to. -/
theorem exists_range_of_row? {t : Timeline} {frame : CodeFrame} {index : Nat} {row : FrameRow}
    (h : t.row? frame index = some row) :
    ∃ range ∈ t.ranges.toList, t.ranges[index]? = some range ∧ range.row? frame = some row := by
  obtain ⟨range, hrange, hrow⟩ := Option.bind_eq_some_iff.1 h
  refine ⟨range, ?_, hrange, hrow⟩
  rw [Array.mem_toList_iff]
  exact Array.mem_of_getElem? hrange

theorem Valid.readable {c : Coverage} (h : c.Valid) : c.timeline.Readable c.strings.toList := by
  intro frame index row hrow
  obtain ⟨range, hmem, -, hrow'⟩ := exists_range_of_row? hrow
  obtain ⟨resolver, addresses, hholds⟩ := h range hmem
  exact hholds.exists_shown? hrow'

/-- Every frame that is looked up has a row. -/
theorem Valid.exists_row? {c : Coverage} (h : c.Valid) {address : UInt64} {position index : Nat}
    {frames : List CodeFrame} (hlookup : c.lookup? address position = some (index, frames))
    {frame : CodeFrame} (hmem : frame ∈ frames) :
    ∃ row, c.timeline.row? frame index = some row := by
  obtain ⟨-, range, hrange, -, hframes⟩ :=
    Timeline.framesIn?_eq_some_iff.1 (Timeline.framesIn?_of_lookup? hlookup)
  have hrange_mem : range ∈ c.timeline.ranges.toList := by
    rw [Array.mem_toList_iff]
    exact Array.mem_of_getElem? hrange
  obtain ⟨resolver, addresses, hholds⟩ := h range hrange_mem
  obtain ⟨row, hrow⟩ := hholds.exists_row? hframes hmem
  exact ⟨row, Option.bind_eq_some_iff.2 ⟨range, hrange, hrow⟩⟩

end Coverage

/-! ## Timelines that are current -/

namespace Timeline

/-- The mark is exact, and no range has ended at the position. -/
structure CurrentAt (t : Timeline) (position : Nat) : Prop where
  marked : t.Marked
  lt_stop : ∀ range ∈ t.ranges.toList, position < range.stop

theorem currentAt_empty (position : Nat) : ({} : Timeline).CurrentAt position :=
  ⟨marked_empty, fun range hrange => absurd hrange (by simp)⟩

theorem currentAt_discard (t : Timeline) (position : Nat) :
    (t.discard position).CurrentAt position := by
  refine ⟨marked_discard t position, ?_⟩
  intro range hrange
  exact (mem_discard.1 hrange).2

theorem CurrentAt.push {t : Timeline} {position : Nat} (h : t.CurrentAt position) {range : Range}
    (hrange : position < range.stop) : (t.push range).CurrentAt position := by
  refine ⟨h.marked.push range, fun r hr => ?_⟩
  simp only [Timeline.push, Array.toList_push, List.mem_append, List.mem_singleton] at hr
  rcases hr with hold | rfl
  · exact h.lt_stop r hold
  · exact hrange

/-- Nothing is dropped from a current timeline, and the mark stays as it is. -/
theorem CurrentAt.discard_eq {t : Timeline} {position : Nat} (h : t.CurrentAt position) :
    t.discard position = t := by
  have hranges : (t.discard position).ranges = t.ranges := by
    apply Array.toList_inj.1
    rw [ranges_discard]
    exact List.filter_eq_self.2 fun range hrange => decide_eq_true (h.lt_stop range hrange)
  have hmark : (t.discard position).overlapping = t.overlapping := by
    rw [marked_discard, hranges, h.marked]
  obtain ⟨ranges, overlapping⟩ := t
  rw [Timeline.mk.injEq]
  exact ⟨hranges, hmark⟩

/-! ## Discarding -/

/-- What the ranges were made from goes with those that are left, if it knows where they end. -/
theorem forall₂_discard {α : Type} {R : α → Range → Prop} {stop : α → Nat} {l : List α}
    {t : Timeline} (hstop : ∀ a range, R a range → range.stop = stop a)
    (h : List.Forall₂ R l t.ranges.toList) (position : Nat) :
    List.Forall₂ R (l.filter fun a => position < stop a)
      (t.discard position).ranges.toList := by
  rw [ranges_discard]
  refine List.rel_filter ?_ h
  intro a range hrange
  simp only [hstop a range hrange]

/-- What has ended at a position has ended at every later one, so discarding there first makes no
difference to what is left at the later one. -/
theorem discard_discard (t : Timeline) {position later : Nat} (hle : position ≤ later) :
    (t.discard position).discard later = t.discard later := by
  have hranges : ((t.discard position).discard later).ranges = (t.discard later).ranges := by
    apply Array.toList_inj.1
    rw [ranges_discard, ranges_discard, ranges_discard, List.filter_filter]
    apply List.filter_congr
    intro range _
    by_cases hlive : later < range.stop
    · have hearlier : position < range.stop := Nat.lt_of_le_of_lt hle hlive
      simp [hlive, hearlier]
    · simp [hlive]
  have hmark :
      ((t.discard position).discard later).overlapping = (t.discard later).overlapping := by
    rw [marked_discard, hranges, marked_discard]
  rw [Timeline.mk.injEq]
  exact ⟨hranges, hmark⟩

/-- As long as the range added last has not ended, it is still the last one after discarding. -/
theorem hasExpired_discard {t : Timeline} {position : Nat} (hlive : t.hasExpired position = false)
    (later : Nat) : (t.discard position).hasExpired later = t.hasExpired later := by
  rw [hasExpired] at hlive
  split at hlive
  · next last hlast =>
    obtain ⟨before, hranges⟩ := Array.back?_eq_some_iff.1 hlast
    have hstop : position < last.stop := Nat.lt_of_not_le (of_decide_eq_false hlive)
    have hkept : (t.discard position).ranges.back? = some last := by
      have hfilter : (t.discard position).ranges =
          (before.filter fun range => position < range.stop).push last := by
        rw [discard, hranges]
        exact Array.filter_push_of_pos (decide_eq_true hstop) (Array.size_push _)
      rw [hfilter, Array.back?_push]
    rw [hasExpired, hasExpired, hkept, hlast]
  · exact absurd hlive (by simp)

end Timeline

end TraceProfile.Jit
