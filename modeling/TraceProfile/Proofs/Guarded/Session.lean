import TraceProfile.Profile.Process
import TraceProfile.Profile.Session
import TraceProfile.Proofs.Guarded.Counters
import TraceProfile.Proofs.Guarded.Readings

/-!
# Sessions without faults

What a session and a process do, put together from the readers that can fault: none of them does,
for any entries, any session and any settings, as long as the positions of the window fit into a
machine word (`never_faults`). When ranges of code are dropped, each of those that are left is
compared with the slice before it, which ends at an index of the array.
-/

namespace TraceProfile.Guarded

theorem ok_bind {α β : Type} (a : α) (f : α → Guarded β) : (Except.ok a >>= f) = f a := rfl

/-! ## Coverage -/

/-- Whether one of the ranges from an index on starts before the end of an earlier one. -/
def overlapsFrom (ranges : Array Jit.Range) (index : Nat) : List Jit.Range → Guarded Bool
  | [] => return false
  | range :: rest => do
    let earlier ← slice ranges index
    if earlier.any fun r => range.start < r.stop then return true
    else overlapsFrom ranges (index + 1) rest

/-- Drops the ranges that end at a position or before it. -/
def discard (c : Jit.Coverage) (position : Nat) : Guarded Jit.Coverage := do
  let ranges := c.timeline.ranges.filter fun range => position < range.stop
  let overlapping ← overlapsFrom ranges 0 ranges.toList
  return { c with timeline := { ranges, overlapping } }

/-- What is still of use when the buffer starts at a position. -/
def kept (retained : Option Jit.Coverage) (position : Nat) : Guarded (Option Jit.Coverage) :=
  match retained with
  | some c =>
    if c.hasExpired position then return none
    else do
      let c ← discard c position
      return some c
  | none => return none

/-- Adds what a resolver knows about the code of a thread that is found in a window. -/
def addContext (c : Jit.Coverage) (start : Nat) (w : Window) (tid : Int32)
    (resolver : Jit.Resolver) : Guarded Jit.Coverage := do
  let stop ← add w.start w.entries.size
  let addresses ← jitAddresses w start tid
  return c.add start stop resolver addresses

/-- What is known about the code in a window, given what is known about that of contexts that are
gone. -/
def coverage (s : Session) (previous : Jit.Coverage) (w : Window) (resolver : Option Jit.Resolver) :
    Guarded Jit.Coverage :=
  match s.contextStart, resolver with
  | some start, some resolver => addContext previous start w s.tid resolver
  | _, _ => return previous

theorem overlapsFrom_eq_ok (ranges : Array Jit.Range) (before rest : List Jit.Range)
    (hranges : ranges.toList = before ++ rest) (hbefore : Jit.Consecutive before) :
    overlapsFrom ranges before.length rest = .ok (!decide (Jit.Consecutive ranges.toList)) := by
  induction rest generalizing before with
  | nil =>
    rw [List.append_nil] at hranges
    rw [hranges, decide_eq_true hbefore]
    rfl
  | cons range rest ih =>
    have hsize : before.length ≤ ranges.size := by
      rw [← Array.length_toList, hranges, List.length_append]
      exact Nat.le_add_right _ _
    have hslice := (ensures_slice hsize).eq_ok
    have hearlier : (ranges.extract 0 before.length).toList = before := by
      rw [Array.toList_extract, hranges]
      simp
    rw [overlapsFrom, hslice, ok_bind, ← Array.any_toList, hearlier]
    by_cases hconflict : ∃ r ∈ before, range.start < r.stop
    · have hany : (before.any fun r => range.start < r.stop) = true := by
        simpa using hconflict
      have hnot : ¬Jit.Consecutive ranges.toList := by
        rw [hranges]
        intro hconsecutive
        obtain ⟨r, hr, hlt⟩ := hconflict
        have hle := (List.pairwise_append.1 hconsecutive).2.2 r hr range (List.mem_cons_self ..)
        omega
      rw [if_pos hany, decide_eq_false hnot]
      rfl
    · have hany : ¬(before.any fun r => range.start < r.stop) = true := by
        simpa using hconflict
      have hnext : ranges.toList = (before ++ [range]) ++ rest := by
        rw [hranges, List.append_assoc, List.singleton_append]
      have hconsecutive : Jit.Consecutive (before ++ [range]) := by
        refine List.pairwise_append.2 ⟨hbefore, List.pairwise_singleton .., ?_⟩
        intro r hr next hnext
        rw [List.mem_singleton.1 hnext]
        exact Nat.le_of_not_lt fun hlt => hconflict ⟨r, hr, hlt⟩
      have hrest := ih (before ++ [range]) hnext hconsecutive
      rw [List.length_append] at hrest
      rw [if_neg hany]
      exact hrest

theorem discard_eq_ok (c : Jit.Coverage) (position : Nat) :
    discard c position = .ok (c.discard position) := by
  have hoverlaps := overlapsFrom_eq_ok
    (c.timeline.ranges.filter fun range => position < range.stop) [] _ rfl .nil
  rw [List.length_nil] at hoverlaps
  rw [discard, hoverlaps]
  rfl

theorem kept_eq_ok (retained : Option Jit.Coverage) (position : Nat) :
    kept retained position = .ok (Session.kept retained position) := by
  cases retained with
  | none => rfl
  | some c =>
    simp only [kept, Session.kept, Option.bind_some]
    split
    · rfl
    · rw [discard_eq_ok]
      rfl

theorem addContext_eq_ok {w : Window} (hw : w.stop < UInt64.size) (c : Jit.Coverage) (start : Nat)
    (tid : Int32) (resolver : Jit.Resolver) :
    addContext c start w tid resolver = .ok (c.addContext start w tid resolver) := by
  rw [addContext, (ensures_add hw).eq_ok, ok_bind, jitAddresses_eq_ok hw]
  rfl

theorem coverage_eq_ok {w : Window} (hw : w.stop < UInt64.size) (s : Session)
    (resolver : Option Jit.Resolver) :
    coverage s ((Session.kept s.retained w.start).getD {}) w resolver =
      .ok (s.coverage w resolver) := by
  simp only [coverage, Session.coverage, Jit.Coverage.map_deepCopy]
  cases s.contextStart with
  | none => rfl
  | some start =>
    cases resolver with
    | none => rfl
    | some resolver => exact addContext_eq_ok hw _ start s.tid resolver

/-! ## Profiles -/

/-- The context is about to go: its code is resolved and kept. Nothing happens without a context. -/
def loseContext (s : Session) (w : Window) (resolver : Jit.Resolver) : Guarded Session :=
  match s.contextStart with
  | none => return s
  | some start => do
    let previous ← kept s.retained w.start
    let coverage ← addContext (previous.getD {}) start w s.tid resolver
    return { s with contextStart := none, retained := some coverage }

/-- The profile of a thread in a window, given what is known about compiled code. -/
def threadProfile (tid : Int32) (w : Window) (coverage : Jit.Coverage) (store : MarkerStore)
    (settings : Settings) : Guarded ThreadProfile := do
  let (samples, tables) ← samples tid w (.ofCoverage coverage) settings
  let (markers, strings) ← markers tid w store tables.strings settings
  let pausedRanges ← pausedRanges w
  return {
    tid, samples, markers, pausedRanges
    name := settings.threadName
    processType := settings.processType
    nodes := tables.nodes.toList
    frames := tables.frames.rows.toList
    strings := strings.toList }

/-- The profile of the thread in a window, and the session after it was taken. -/
def profile (s : Session) (w : Window) (resolver : Option Jit.Resolver) (store : MarkerStore)
    (settings : Settings) : Guarded (ThreadProfile × Session) := do
  let retained ← kept s.retained w.start
  let coverage ← coverage s (retained.getD {}) w resolver
  let profile ← threadProfile s.tid w coverage store settings
  return (profile, { s with retained })

/-- The readings about the process in a window. -/
def processTables (w : Window) (descriptions : CounterDescriptions) (settings : Settings) :
    Guarded ProcessTables := do
  let counters ← counters w descriptions settings
  let memory ← memory w settings
  let overhead ← overhead w settings
  return { counters, memory, overhead }

section

variable {w : Window} (hw : w.stop < UInt64.size)

include hw

theorem loseContext_eq_ok (s : Session) (resolver : Jit.Resolver) :
    loseContext s w resolver = .ok (s.loseContext w resolver) := by
  rw [loseContext, Session.loseContext]
  cases s.contextStart with
  | none => rfl
  | some start =>
    simp only
    rw [kept_eq_ok, ok_bind, addContext_eq_ok hw]
    rfl

theorem threadProfile_eq_ok (tid : Int32) (coverage : Jit.Coverage) (store : MarkerStore)
    (settings : Settings) : threadProfile tid w coverage store settings =
      .ok (.ofWindow tid w coverage store settings) := by
  rw [threadProfile, samples_eq_ok hw, ok_bind]
  simp only
  rw [markers_eq_ok hw, ok_bind, pausedRanges_eq_ok hw]
  rfl

theorem profile_eq_ok (s : Session) (resolver : Option Jit.Resolver) (store : MarkerStore)
    (settings : Settings) : profile s w resolver store settings =
      .ok (s.profile w resolver store settings) := by
  rw [profile, kept_eq_ok, ok_bind, coverage_eq_ok hw, ok_bind, threadProfile_eq_ok hw]
  rfl

theorem processTables_eq_ok (descriptions : CounterDescriptions) (settings : Settings) :
    processTables w descriptions settings = .ok (.ofWindow w descriptions settings) := by
  rw [processTables, counters_eq_ok hw, ok_bind, memory_eq_ok hw, ok_bind, overhead_eq_ok hw]
  rfl

end

/-- Nothing that is done with a window can fault. Whatever entries were decoded and wherever they
stand, as long as their positions fit into a machine word; whatever is remembered about the thread;
and whatever resolver, store, descriptions and settings are given: no accessor is used on an entry
that it does not fit, no index or slice is out of bounds, and nothing goes below zero or out of
range, so that profile, session and readings come out. -/
theorem never_faults (entries : Array Entry) (start : Nat)
    (hfits : start + entries.size < UInt64.size) (s : Session) (resolver : Option Jit.Resolver)
    (current : Jit.Resolver) (store : MarkerStore) (descriptions : CounterDescriptions)
    (settings : Settings) :
    let w : Window := .ofEntries start entries
    profile s w resolver store settings = .ok (s.profile w resolver store settings) ∧
      loseContext s w current = .ok (s.loseContext w current) ∧
      processTables w descriptions settings = .ok (.ofWindow w descriptions settings) := by
  intro w
  have hw : w.stop < UInt64.size := hfits
  exact ⟨profile_eq_ok hw s resolver store settings, loseContext_eq_ok hw s current,
    processTables_eq_ok hw descriptions settings⟩

/-- A label that declares more bytes than there can be and a key without a count, in the last
positions that there are. -/
theorem never_faults_truncated :
    let entries : Array Entry := #[.threadId 1, .time default, .label (-1),
      .stringFragment (Chunk.ofBytes [102, 111, 111]), .jitReturnAddr 16, .counterId 1,
      .time default, .counterKey 5]
    let w : Window := .ofEntries (UInt64.size - 9) entries
    let s : Session := { tid := 1, contextStart := some 7 }
    UInt64.size - 9 + entries.size < UInt64.size ∧
      profile s w (some fun _ => []) (fun _ => none) {} =
        .ok (s.profile w (some fun _ => []) (fun _ => none) {}) ∧
      loseContext s w (fun _ => []) = .ok (s.loseContext w fun _ => []) ∧
      processTables w (fun _ => none) {} = .ok (.ofWindow w (fun _ => none) {}) := by
  intro entries w s
  have hfits : UInt64.size - 9 + entries.size < UInt64.size := by decide
  exact ⟨hfits, never_faults entries (UInt64.size - 9) hfits s (some fun _ => []) (fun _ => [])
    (fun _ => none) (fun _ => none) {}⟩

end TraceProfile.Guarded
