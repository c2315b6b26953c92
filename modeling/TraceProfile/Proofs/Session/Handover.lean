import TraceProfile.Profile.Session
import TraceProfile.Proofs.Jit.Retention

/-!
# Losing a context leaves the profile as it is

The code of a context is resolved either for one profile, while the context is there, or for good
when the context goes. Both start from what is still of use of earlier contexts, but the second way
prunes its result once more when the next profile is taken. That changes nothing: the coverage has
just been brought up to date, and the range that was added ends with the window, which holds an
entry.
-/

namespace TraceProfile.Session

/-- What is still of use is current at the position. -/
theorem currentAt_kept (retained : Option Jit.Coverage) (position : Nat) :
    ((kept retained position).getD {}).timeline.CurrentAt position := by
  rcases hkept : kept retained position with _ | c
  · exact Jit.Timeline.currentAt_empty position
  · obtain ⟨c', -, hc⟩ := Option.bind_eq_some_iff.1 hkept
    split at hc
    · exact absurd hc (by simp)
    · obtain rfl := Option.some.inj hc
      exact Jit.Timeline.currentAt_discard c'.timeline position

/-- Current knowledge of which the last range has not ended is kept as it is. -/
theorem kept_of_currentAt {c : Jit.Coverage} {position : Nat} (h : c.timeline.CurrentAt position)
    (hne : c.timeline.ranges ≠ #[]) : kept (some c) position = some c := by
  have hexpired : c.hasExpired position = false := by
    have hpos : 0 < c.timeline.ranges.size := Array.size_pos_iff.2 hne
    have hback : c.timeline.ranges.back? = some (c.timeline.ranges.back hpos) := by
      rw [Array.back?_eq_getElem?, Array.back_eq_getElem hpos]
      exact Array.getElem?_eq_getElem (Nat.sub_one_lt_of_lt hpos)
    have hlt := h.lt_stop _ (Array.mem_toList_iff.2 (Array.back_mem hpos))
    rw [Jit.Coverage.hasExpired, Jit.Timeline.hasExpired, hback]
    exact decide_eq_false (Nat.not_le_of_lt hlt)
  have hdiscard : c.discard position = c := by
    rw [Jit.Coverage.discard, h.discard_eq]
  rw [kept, Option.bind_some, hexpired, hdiscard]
  rfl

/-- The code of a context that was resolved when the context went is still of use, all of it, as
long as the window stays where it is. -/
theorem kept_addContext (retained : Option Jit.Coverage) (start : Nat) {w : Window} (tid : Int32)
    (resolver : Jit.Resolver) (hw : 0 < w.entries.size) :
    kept (some (((kept retained w.start).getD {}).addContext start w tid resolver)) w.start =
      some (((kept retained w.start).getD {}).addContext start w tid resolver) := by
  have hcurrent := currentAt_kept retained w.start
  generalize (kept retained w.start).getD {} = previous at hcurrent
  have hstop : w.start < w.stop := Nat.lt_add_of_pos_right hw
  refine kept_of_currentAt (hcurrent.push hstop) ?_
  exact Array.push_ne_empty

/-- In a window that holds an entry, the profile is the same whether the context is lost first, with
its code resolved then, or is still there and its code is resolved for the profile. -/
theorem profile_loseContext (s : Session) (w : Window) (resolver : Jit.Resolver)
    (store : MarkerStore) (settings : Settings) (hw : 0 < w.entries.size) :
    ((s.loseContext w resolver).profile w none store settings).1 =
      (s.profile w (some resolver) store settings).1 := by
  have hcoverage :
      (s.loseContext w resolver).coverage w none = s.coverage w (some resolver) := by
    rcases hstart : s.contextStart with _ | start
    · simp [loseContext, coverage, hstart]
    · simp only [loseContext, coverage, Jit.Coverage.map_deepCopy, hstart]
      rw [kept_addContext s.retained start s.tid resolver hw]
      rfl
  have htid : (s.loseContext w resolver).tid = s.tid := by
    rw [loseContext]
    split <;> rfl
  simp only [profile, hcoverage, htid]

/-- The code of the context is known by its name in both profiles. -/
theorem profile_loseContext_loop :
    let w := Window.ofEntries 5 #[.threadId 7, .time (.ofInt 1), .jitReturnAddr 32]
    let resolver : Jit.Resolver := fun _ => [{ canonical := 32, label := "loop" }]
    let s : Session := { tid := 7, contextStart := some 5 }
    0 < w.entries.size ∧
      ((s.loseContext w resolver).profile w none (fun _ => none) {}).1.strings =
        ["loop", "(root)"] ∧
      ((s.loseContext w resolver).profile w none (fun _ => none) {}).1 =
        (s.profile w (some resolver) (fun _ => none) {}).1 :=
  ⟨by decide, by decide +kernel, profile_loseContext _ _ _ _ _ (by decide)⟩

end TraceProfile.Session
