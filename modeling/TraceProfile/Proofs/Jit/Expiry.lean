import TraceProfile.Proofs.Profile.CodeSearch

/-!
# When a coverage has expired

Whether a coverage is still of use is decided from the range that was added last. That is right as
long as the ranges follow one another: the last one then ends last. It is never wrong in keeping a
coverage (`Timeline.EndsBy.hasExpired`). But ranges may overlap, and a range that was added last can
lie inside an earlier one; when it has ended the coverage counts as expired, although the earlier
range still answers. `Sound.nested_of_hasExpired` says that this is the only way to give up what is
still known, and `hasExpired_nested` that it happens.
-/

namespace TraceProfile.Jit

namespace Timeline

/-- No range ends after the position. -/
def EndsBy (t : Timeline) (position : Nat) : Prop :=
  ∀ range ∈ t.ranges.toList, range.stop ≤ position

variable {t : Timeline} {position : Nat}

/-- A timeline counts as expired unless its last range ends after the position. -/
theorem hasExpired_iff :
    t.hasExpired position = true ↔
      ∀ last, t.ranges.back? = some last → last.stop ≤ position := by
  rw [hasExpired]
  cases hlast : t.ranges.back? with
  | none => simp
  | some last => simp

theorem mem_of_back? {last : Range} (h : t.ranges.back? = some last) :
    last ∈ t.ranges.toList := by
  obtain ⟨before, hranges⟩ := Array.back?_eq_some_iff.1 h
  rw [hranges, Array.toList_push]
  exact List.mem_append_right _ (List.mem_singleton.2 rfl)

/-- What has ended counts as expired. -/
theorem EndsBy.hasExpired (h : t.EndsBy position) : t.hasExpired position = true := by
  rw [hasExpired_iff]
  intro last hlast
  exact h last (mem_of_back? hlast)

end Timeline

namespace Coverage

variable {c : Coverage} {horizon : Nat}

/-- Where no range reaches, nothing is looked up. -/
theorem Sound.lookup?_eq_none (h : c.Sound) (hends : c.timeline.EndsBy horizon) {position : Nat}
    (hle : horizon ≤ position) (address : UInt64) : c.lookup? address position = none := by
  rw [h.lookup?_eq_iff]
  intro range hrange hcontains
  have hstop := hends range hrange
  simp only [Range.contains, Bool.and_eq_true, decide_eq_true_eq] at hcontains
  omega

/-- A range that is given up although it has not ended reaches past the start of the range that was
added last, and so the mark is set. -/
theorem Sound.nested_of_hasExpired (h : c.Sound) (hexpired : c.hasExpired horizon = true)
    {range : Range} (hrange : range ∈ c.timeline.ranges.toList) (hlive : horizon < range.stop) :
    ∃ last, c.timeline.ranges.back? = some last ∧ last.stop ≤ horizon ∧
      last.start < range.stop ∧ c.timeline.overlapping = true := by
  rcases hback : c.timeline.ranges.back? with _ | last
  · -- There is no last range only if there is no range at all.
    obtain hempty : c.timeline.ranges = #[] := Array.back?_eq_none_iff.1 hback
    rw [hempty] at hrange
    exact absurd hrange List.not_mem_nil
  · have hstop : last.stop ≤ horizon := Timeline.hasExpired_iff.1 hexpired last hback
    have hbounds := h.start_le_stop last (Timeline.mem_of_back? hback)
    have hlt : last.start < range.stop := by omega
    refine ⟨last, rfl, hstop, hlt, ?_⟩
    obtain ⟨before, hranges⟩ := Array.back?_eq_some_iff.1 hback
    rw [hranges, Array.toList_push, List.mem_append, List.mem_singleton] at hrange
    rcases hrange with hearlier | rfl
    · obtain ⟨i, hi⟩ := List.mem_iff_getElem?.1 hearlier
      rw [Array.getElem?_toList] at hi
      obtain ⟨hsize, -⟩ := Array.getElem?_eq_some_iff.1 hi
      rw [h.marked.overlapping_iff]
      refine ⟨i, before.size, range, last, hsize, ?_, ?_, hlt⟩
      · rw [hranges, Array.getElem?_push_lt hsize, ← hi, Array.getElem?_eq_getElem hsize]
      · rw [hranges, Array.getElem?_push_size]
    · omega

/-- However a coverage is built: if it has not expired at a position, some range ends after it. If
the mark is not set, it has expired exactly if no range ends after the position, and then nothing is
looked up from there on. If it has expired and a range ends after the position all the same, then
the range that was added last has ended, and it starts before the end of the other. -/
theorem hasExpired_build (changes : List Change) (horizon : Nat) :
    ((build changes).hasExpired horizon = false →
        ∃ range ∈ (build changes).timeline.ranges.toList, horizon < range.stop) ∧
      ((build changes).timeline.overlapping = false →
        ((build changes).hasExpired horizon = true ↔ (build changes).timeline.EndsBy horizon)) ∧
      ((build changes).timeline.EndsBy horizon →
        ∀ address position, horizon ≤ position →
          (build changes).lookup? address position = none) ∧
      ((build changes).hasExpired horizon = true →
        ∀ range ∈ (build changes).timeline.ranges.toList, horizon < range.stop →
          ∃ last, (build changes).timeline.ranges.back? = some last ∧ last.stop ≤ horizon ∧
            last.start < range.stop ∧ (build changes).timeline.overlapping = true) := by
  have hsound := sound_build changes
  refine ⟨?_, ?_, ?_, ?_⟩
  · intro hlive
    by_contra hnone
    have hends : (build changes).timeline.EndsBy horizon := by
      intro range hrange
      by_contra hnot
      exact hnone ⟨range, hrange, Nat.lt_of_not_le hnot⟩
    rw [hasExpired, hends.hasExpired] at hlive
    exact absurd hlive (by simp)
  · intro hmark
    constructor
    · intro hexpired range hrange
      by_contra hnot
      obtain ⟨last, -, -, -, hset⟩ :=
        hsound.nested_of_hasExpired hexpired hrange (Nat.lt_of_not_le hnot)
      rw [hmark] at hset
      exact absurd hset (by simp)
    · exact fun hends => hends.hasExpired
  · intro hends address position hle
    exact hsound.lookup?_eq_none hends hle address
  · intro hexpired range hrange hlive
    exact hsound.nested_of_hasExpired hexpired hrange hlive

/-- A coverage can expire while an address is still known: its last range lies inside the first. -/
theorem hasExpired_nested :
    let resolver : Resolver := fun address => [{ canonical := address, label := "loop" }]
    let c := build [.add 0 100 (by decide) resolver [16], .add 10 20 (by decide) resolver []]
    c.hasExpired 50 = true ∧ c.lookup? 16 60 = some (0, [⟨16, 0⟩]) := by
  decide +kernel

end Coverage

end TraceProfile.Jit
