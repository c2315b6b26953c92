import Mathlib.Logic.Function.Basic
import TraceProfile.Proofs.Table.Distinct
import TraceProfile.Reading.Pause

/-!
# Which starts and ends make a paused range

Pauses and collections are recorded in one buffer, in any order: they may lie inside each other or
cross, ends may have lost their starts, and starts may be repeated. A reason for a pause has entries
that start a range and entries that end one (`PauseMark`), and its ranges depend on these entries
alone.

Where they come from is said by positions in the recording. A range is closed by an end; it starts
at the latest start for the same reason that stands after the end before (`LatestStart`). What has
been started last and not ended is still open when the recording is over.
-/

namespace TraceProfile

/-- What an entry does to the ranges of a reason. -/
inductive PauseMark where
  /-- Starts a range. -/
  | start (reason : PauseReason) (time : Binary64)
  /-- Ends a range. -/
  | stop (reason : PauseReason) (time : Binary64)

/-- What an entry stands for, if it starts or ends a range. -/
def Entry.pauseMark? : Entry → Option PauseMark
  | .pause t => some (.start .profilerPaused t)
  | .resume t => some (.stop .profilerPaused t)
  | .collectionStart t => some (.start .collecting t)
  | .collectionEnd t => some (.stop .collecting t)
  | _ => none

namespace PauseMark

/-- The reason for the range. -/
def reason : PauseMark → PauseReason
  | start reason _ | stop reason _ => reason

/-- Whether an entry starts or ends a range for the reason. -/
def concerns (reason : PauseReason) (entry : Entry) : Bool :=
  entry.pauseMark?.any (·.reason = reason)

/-- The mark stands at the index. -/
def StandsAt (mark : PauseMark) (entries : List Entry) (index : Nat) : Prop :=
  entries[index]?.bind Entry.pauseMark? = some mark

end PauseMark

/-- The time of the latest start for the reason before the index, if no end for it has come since;
without a time, every start has been followed by an end. -/
def LatestStart (entries : List Entry) (reason : PauseReason) (index : Nat) :
    Option Binary64 → Prop
  | some time => ∃ first < index, (PauseMark.start reason time).StandsAt entries first ∧
      ∀ p, first < p → p < index → ∀ mark : PauseMark, mark.StandsAt entries p →
        mark.reason ≠ reason
  | none => ∀ first < index, ∀ time, (PauseMark.start reason time).StandsAt entries first →
      ∃ p, first < p ∧ p < index ∧ ∃ time, (PauseMark.stop reason time).StandsAt entries p

/-- The end at the index closes the range, which starts at the latest start for its reason. -/
structure PausedRange.ClosesAt (range : PausedRange) (entries : List Entry) (index : Nat) :
    Prop where
  stops : ∃ time, range.endTime = some time ∧
    (PauseMark.stop range.reason time).StandsAt entries index
  starts : LatestStart entries range.reason index range.startTime

variable {entries : List Entry} {entry : Entry} {reason : PauseReason} {index : Nat}

theorem PauseMark.standsAt_iff (h : entries[index]? = some entry) {mark : PauseMark} :
    mark.StandsAt entries index ↔ entry.pauseMark? = some mark := by
  rw [StandsAt, h, Option.bind_some]

/-! ## The latest start -/

namespace LatestStart

variable {time : Option Binary64}

theorem zero (entries : List Entry) (reason : PauseReason) : LatestStart entries reason 0 none :=
  fun _ hlt => absurd hlt (Nat.not_lt_zero _)

/-- What is the latest start stays it over an entry that has nothing to do with the reason. -/
theorem succ (h : LatestStart entries reason index time)
    (hnot : ∀ mark : PauseMark, mark.StandsAt entries index → mark.reason ≠ reason) :
    LatestStart entries reason (index + 1) time := by
  cases time with
  | some time =>
    obtain ⟨first, hlt, hfirst, hlatest⟩ := h
    refine ⟨first, by omega, hfirst, fun p hp hlt' => ?_⟩
    rcases Nat.eq_or_lt_of_le (Nat.le_of_lt_succ hlt') with rfl | hbefore
    · exact hnot
    · exact hlatest p hp hbefore
  | none =>
    intro first hlt time hfirst
    rcases Nat.eq_or_lt_of_le (Nat.le_of_lt_succ hlt) with rfl | hbefore
    · exact absurd rfl (hnot _ hfirst)
    · obtain ⟨p, hp, hlt', hstop⟩ := h first hbefore time hfirst
      exact ⟨p, hp, by omega, hstop⟩

/-- A start at the index is the latest one. -/
theorem of_start {time : Binary64} (h : (PauseMark.start reason time).StandsAt entries index) :
    LatestStart entries reason (index + 1) (some time) :=
  ⟨index, Nat.lt_succ_self _, h, fun p hp hlt => absurd hp (Nat.not_lt_of_le (by omega))⟩

/-- An end at the index leaves no start open. -/
theorem of_stop {time : Binary64} (h : (PauseMark.stop reason time).StandsAt entries index) :
    LatestStart entries reason (index + 1) none := by
  intro first hlt time' hfirst
  rcases Nat.eq_or_lt_of_le (Nat.le_of_lt_succ hlt) with rfl | hbefore
  · exact absurd (Option.some.inj (hfirst.symm.trans h)) PauseMark.noConfusion
  · exact ⟨index, hbefore, Nat.lt_succ_self _, time, h⟩

/-- There is one latest start. -/
theorem unique {time' : Option Binary64} (h : LatestStart entries reason index time)
    (h' : LatestStart entries reason index time') : time = time' := by
  cases time with
  | none =>
    cases time' with
    | none => rfl
    | some time' =>
      obtain ⟨first, hlt, hfirst, hlatest⟩ := h'
      obtain ⟨p, hp, hlt', _, hstop⟩ := h first hlt time' hfirst
      exact absurd rfl (hlatest p hp hlt' _ hstop)
  | some time =>
    obtain ⟨first, hlt, hfirst, hlatest⟩ := h
    cases time' with
    | none =>
      obtain ⟨p, hp, hlt', _, hstop⟩ := h' first hlt time hfirst
      exact absurd rfl (hlatest p hp hlt' _ hstop)
    | some time' =>
      obtain ⟨first', hlt', hfirst', hlatest'⟩ := h'
      rcases Nat.lt_trichotomy first first' with hbefore | rfl | hbehind
      · exact absurd rfl (hlatest first' hbefore hlt' _ hfirst')
      · have hmark := Option.some.inj (hfirst.symm.trans hfirst')
        exact congrArg some (PauseMark.start.inj hmark).2
      · exact absurd rfl (hlatest' first hbehind hlt _ hfirst)

end LatestStart

namespace PausedRange

/-! ## One entry after the other -/

/-- The open starts after an entry, given those before it. -/
def startsAfter (entry : Entry) (starts : PauseReason → Option Binary64) :
    PauseReason → Option Binary64 :=
  match entry.pauseMark? with
  | some (.start reason time) => Function.update starts reason (some time)
  | some (.stop reason _) => Function.update starts reason none
  | none => starts

/-- The range that an entry closes, given the open starts before it. -/
def closedBy? (entry : Entry) (starts : PauseReason → Option Binary64) : Option PausedRange :=
  match entry.pauseMark? with
  | some (.stop reason time) => some ⟨starts reason, some time, reason⟩
  | _ => none

/-- The ranges of entries, given the open starts before them. -/
def readOpen (starts : PauseReason → Option Binary64) (entries : List Entry) : List PausedRange :=
  readFrom (starts .profilerPaused) (starts .collecting) entries

variable {starts : PauseReason → Option Binary64}

theorem readOpen_cons (starts : PauseReason → Option Binary64) (entry : Entry)
    (rest : List Entry) :
    readOpen starts (entry :: rest) =
      (closedBy? entry starts).toList ++ readOpen (startsAfter entry starts) rest := by
  cases entry <;> rfl

theorem closedBy?_eq_some_iff {range : PausedRange} :
    closedBy? entry starts = some range ↔
      ∃ reason time, entry.pauseMark? = some (.stop reason time) ∧
        ⟨starts reason, some time, reason⟩ = range := by
  rw [closedBy?]
  split
  · next reason time hmark => simp [hmark]
  · next hmark =>
    refine ⟨nofun, ?_⟩
    rintro ⟨reason, time, hstop, -⟩
    exact absurd hstop (hmark reason time)

theorem latestStart_startsAfter (hentry : entries[index]? = some entry)
    (h : ∀ reason, LatestStart entries reason index (starts reason)) (reason : PauseReason) :
    LatestStart entries reason (index + 1) (startsAfter entry starts reason) := by
  have hother {mark : PauseMark} (hmark : entry.pauseMark? = some mark)
      (hne : reason ≠ mark.reason) : LatestStart entries reason (index + 1) (starts reason) := by
    refine (h reason).succ fun mark' hmark' => ?_
    have hsame := hmark.symm.trans ((PauseMark.standsAt_iff hentry).1 hmark')
    rw [← Option.some.inj hsame]
    exact hne.symm
  cases hmark : entry.pauseMark? with
  | none =>
    simp only [startsAfter, hmark]
    refine (h reason).succ fun mark' hmark' => ?_
    exact absurd (hmark.symm.trans ((PauseMark.standsAt_iff hentry).1 hmark')) nofun
  | some mark =>
    cases mark with
    | start reason' time =>
      simp only [startsAfter, hmark]
      by_cases hreason : reason = reason'
      · subst hreason
        rw [Function.update_self]
        exact .of_start ((PauseMark.standsAt_iff hentry).2 hmark)
      · rw [Function.update_of_ne hreason]
        exact hother hmark hreason
    | stop reason' time =>
      simp only [startsAfter, hmark]
      by_cases hreason : reason = reason'
      · subst hreason
        rw [Function.update_self]
        exact .of_stop ((PauseMark.standsAt_iff hentry).2 hmark)
      · rw [Function.update_of_ne hreason]
        exact hother hmark hreason

/-- From a place in the recording on, the ranges that are closed there come first, one for each end,
and then those that are open when the recording is over. -/
theorem exists_closed {count : Nat} (hcount : index + count = entries.length)
    (h : ∀ reason, LatestStart entries reason index (starts reason)) :
    ∃ closed last, readOpen starts (entries.drop index) = closed ++ readOpen last [] ∧
      OnePerPlace
        (fun p => index ≤ p ∧ ∃ reason time, (PauseMark.stop reason time).StandsAt entries p)
        (fun p range => range.ClosesAt entries p) closed ∧
      ∀ reason, LatestStart entries reason entries.length (last reason) := by
  -- By induction on the number of entries that are left. The open starts that are carried along are
  -- the latest starts before the place, for both reasons at once.
  induction count generalizing index starts with
  | zero =>
    obtain rfl : index = entries.length := hcount
    refine ⟨[], starts, by rw [List.drop_length, List.nil_append], .nil ?_, h⟩
    rintro p ⟨hle, reason, time, hstands⟩
    rw [PauseMark.StandsAt, List.getElem?_eq_none hle] at hstands
    exact absurd hstands (by simp)
  | succ count ih =>
    have hlt : index < entries.length := by omega
    have hentry := List.getElem?_eq_getElem hlt
    have hnext := latestStart_startsAfter hentry h
    obtain ⟨closed, last, hread, hclosed, hlast⟩ := ih (by omega) hnext
    rw [List.drop_eq_getElem_cons hlt, readOpen_cons, hread]
    cases hrange : closedBy? entries[index] starts with
    | none =>
      refine ⟨closed, last, rfl, hclosed.skip ?_, hlast⟩
      rintro ⟨reason, time, hstands⟩
      rw [PauseMark.standsAt_iff hentry] at hstands
      rw [closedBy?_eq_some_iff.2 ⟨reason, time, hstands, rfl⟩] at hrange
      exact absurd hrange nofun
    | some range =>
      obtain ⟨reason, time, hmark, rfl⟩ := closedBy?_eq_some_iff.1 hrange
      have hstop := (PauseMark.standsAt_iff hentry).2 hmark
      exact ⟨_ :: closed, last, rfl,
        hclosed.cons ⟨reason, time, hstop⟩ ⟨⟨time, rfl, hstop⟩, h reason⟩, hlast⟩

/-! ## One reason at a time -/

/-- The open starts for a reason alone. -/
def only (reason : PauseReason) (starts : PauseReason → Option Binary64) :
    PauseReason → Option Binary64 :=
  Function.update (fun _ => none) reason (starts reason)

theorem filter_opened (reason reason' : PauseReason) (start : Option Binary64) :
    (opened reason' start).filter (·.reason = reason) =
      if reason' = reason then opened reason' start else [] := by
  cases start with
  | none => simp [opened]
  | some time => simp [opened, List.filter_singleton]

theorem filter_readOpen_nil (reason : PauseReason) (starts : PauseReason → Option Binary64) :
    (readOpen starts []).filter (·.reason = reason) = readOpen (only reason starts) [] := by
  simp only [readOpen, readFrom, List.filter_append, filter_opened]
  cases reason <;> simp [only, opened]

theorem filter_closedBy? (reason : PauseReason) (entry : Entry)
    (starts : PauseReason → Option Binary64) :
    (closedBy? entry starts).toList.filter (·.reason = reason) =
      if PauseMark.concerns reason entry then (closedBy? entry (only reason starts)).toList
      else [] := by
  cases hmark : entry.pauseMark? with
  | none => simp [closedBy?, PauseMark.concerns, hmark]
  | some mark =>
    cases mark with
    | start reason' time => simp [closedBy?, hmark]
    | stop reason' time =>
      by_cases hreason : reason' = reason
      · subst hreason
        simp [closedBy?, PauseMark.concerns, PauseMark.reason, hmark, only]
      · simp [closedBy?, PauseMark.concerns, PauseMark.reason, hmark, hreason]

/-- An entry changes the open start of its own reason, and no other. -/
theorem only_startsAfter (reason : PauseReason) (entry : Entry)
    (starts : PauseReason → Option Binary64) :
    only reason (startsAfter entry starts) =
      if PauseMark.concerns reason entry then startsAfter entry (only reason starts)
      else only reason starts := by
  cases hmark : entry.pauseMark? with
  | none => simp [startsAfter, PauseMark.concerns, hmark]
  | some mark =>
    cases mark with
    | start reason' time | stop reason' time =>
      by_cases hreason : reason' = reason
      · subst hreason
        simp [startsAfter, PauseMark.concerns, PauseMark.reason, hmark, only]
      · simp [startsAfter, PauseMark.concerns, PauseMark.reason, hmark, hreason, only,
          Function.update_of_ne (Ne.symm hreason)]

/-- The ranges for a reason are read from the entries for it. -/
theorem filter_readOpen (reason : PauseReason) (starts : PauseReason → Option Binary64)
    (entries : List Entry) :
    (readOpen starts entries).filter (·.reason = reason) =
      readOpen (only reason starts) (entries.filter (PauseMark.concerns reason)) := by
  induction entries generalizing starts with
  | nil => exact filter_readOpen_nil reason starts
  | cons entry rest ih =>
    rw [readOpen_cons, List.filter_append, ih, filter_closedBy?, only_startsAfter, List.filter_cons]
    -- An entry for the other reason closes no range for this one and leaves its open start alone.
    split
    · rw [readOpen_cons]
    · rfl

/-- The two reasons for a pause do not disturb each other: the ranges for either are the ranges of
the entries for it alone. First there is a range for each end, in the order of the ends, which
starts at the latest start for its reason since the end before, or has no start if there is none.
Then come the ranges that are still open, the pause before the collection: a reason has one if the
last entry for it is a start, and it starts there. -/
theorem readAll_pairs (entries : List Entry) :
    (∀ reason, (readAll entries).filter (·.reason = reason) =
      readAll (entries.filter (PauseMark.concerns reason))) ∧
    ∃ closed paused collecting,
      readAll entries =
        closed ++ opened .profilerPaused paused ++ opened .collecting collecting ∧
      OnePerPlace (fun index => ∃ reason time, (PauseMark.stop reason time).StandsAt entries index)
        (fun index range => range.ClosesAt entries index) closed ∧
      (∀ start, paused = start ↔ LatestStart entries .profilerPaused entries.length start) ∧
      ∀ start, collecting = start ↔ LatestStart entries .collecting entries.length start := by
  refine ⟨fun reason => ?_, ?_⟩
  · have honly : only reason (fun _ => none) = fun _ => none := Function.update_eq_self _ _
    have h := filter_readOpen reason (fun _ => none) entries
    rwa [honly] at h
  · obtain ⟨closed, last, hread, hclosed, hlast⟩ :=
      exists_closed (Nat.zero_add entries.length) (LatestStart.zero entries)
    have hstart (reason : PauseReason) (start : Option Binary64) :
        last reason = start ↔ LatestStart entries reason entries.length start :=
      ⟨fun h => h ▸ hlast reason, (hlast reason).unique⟩
    refine ⟨closed, last .profilerPaused, last .collecting, ?_, ?_, hstart _, hstart _⟩
    · rw [List.append_assoc]
      exact hread
    · simpa only [Nat.zero_le, true_and] using hclosed

/-- A collection that crosses a pause, and a start that is repeated. -/
example (t₁ t₂ t₃ t₄ t₅ : Binary64) :
    readAll [.pause t₁, .collectionStart t₂, .resume t₃, .pause t₄, .pause t₅] =
      [⟨some t₁, some t₃, .profilerPaused⟩, ⟨some t₅, none, .profilerPaused⟩,
        ⟨some t₂, none, .collecting⟩] := rfl

end PausedRange

end TraceProfile
