import TraceProfile.Proofs.Reading.Attribution

/-!
# A sample is read from one run

A run is what stands between two thread entries. Reading a sample looks ahead over an unknown number
of slots, but it stops at the next thread entry at the latest, whatever stands in between: what
follows the run makes no difference to the sample (`RecordedSample.first?_append`), and no slot of
the run starts another one. The samples of a recording are therefore found by trying each of its
slots in turn (`RecordedSample.readAll_cons`), and what has been read does not depend on what came
before (`RecordedSample.readAll_split`).
-/

namespace TraceProfile

/-! ## Reading up to a thread entry -/

/-- The slots end here, or go on with a thread entry. -/
def Slot.AtThread (slots : List Slot) : Prop :=
  ∀ slot, slots.head? = some slot → ∃ t, slot.entry = .threadId t

theorem Slot.atThread_nil : AtThread [] := fun _ h => nomatch h

theorem Slot.AtThread.takeIf_eq {rest : List Slot} (h : AtThread rest) {α : Type}
    {read : Entry → Option α} (hread : ∀ t, read (.threadId t) = none) :
    takeIf read rest = (none, rest) := by
  cases rest with
  | nil => rfl
  | cons slot rest =>
    obtain ⟨t, ht⟩ := h slot rfl
    rw [takeIf, ht, hread]

variable {rest : List Slot}

theorem takeIf_append {α : Type} (read : Entry → Option α)
    (hread : ∀ t, read (.threadId t) = none) (run : List Slot) (hrest : Slot.AtThread rest) :
    takeIf read (run ++ rest) = ((takeIf read run).1, (takeIf read run).2 ++ rest) := by
  cases run with
  | nil => exact hrest.takeIf_eq hread
  | cons slot run =>
    rw [List.cons_append, takeIf, takeIf]
    split <;> rfl

theorem TextBuilder.collect_append (b : TextBuilder) (run : List Slot)
    (hrest : Slot.AtThread rest) :
    b.collect (run ++ rest) = ((b.collect run).1, (b.collect run).2 ++ rest) := by
  fun_induction TextBuilder.collect b run with
  | case1 b position chars run hcomplete =>
    rw [List.cons_append, collect, if_pos hcomplete]
  | case2 b position chars run hcomplete ih =>
    rw [List.cons_append, collect, if_neg hcomplete, ih]
  | case3 b run hrun =>
    rw [collect]
    intro position chars more heq
    cases run with
    | nil =>
      rw [List.nil_append] at heq
      obtain ⟨t, ht⟩ := hrest ⟨position, .stringFragment chars⟩ (by rw [heq]; rfl)
      exact absurd ht (by simp)
    | cons slot run =>
      obtain ⟨rfl, -⟩ := List.cons.inj heq
      exact hrun _ _ _ rfl

namespace RecordedFrame

theorem readLabel_append (length : UInt64) (run : List Slot) (hrest : Slot.AtThread rest) :
    readLabel length (run ++ rest) =
      ((readLabel length run).1, (readLabel length run).2 ++ rest) := by
  simp only [readLabel, takeIf_append Entry.frameFlags? (fun _ => rfl) _ hrest,
    TextBuilder.collect_append _ _ hrest,
    takeIf_append Entry.lineNumber? (fun _ => rfl) _ hrest,
    takeIf_append Entry.columnNumber? (fun _ => rfl) _ hrest,
    takeIf_append Entry.categoryPair? (fun _ => rfl) _ hrest]

theorem readAll_atThread (hrest : Slot.AtThread rest) : readAll rest = ([], rest) := by
  cases rest with
  | nil => rw [readAll]
  | cons slot rest =>
    obtain ⟨t, ht⟩ := hrest slot rfl
    rw [readAll, ht]

/-- Frames are read from the run that they stand in. -/
theorem readAll_append (run : List Slot) (hrest : Slot.AtThread rest) :
    readAll (run ++ rest) = ((readAll run).1, (readAll run).2 ++ rest) := by
  fun_induction readAll run with
  | case1 => exact readAll_atThread hrest
  | case2 slot run length hlength frame more ih =>
    rw [List.cons_append, readAll, hlength]
    simp only [readLabel_append length run hrest, ih, frame, more]
  | case3 slot run address haddress more ih =>
    rw [List.cons_append, readAll, haddress]
    simp only [ih, more]
  | case4 slot run address haddress more ih =>
    rw [List.cons_append, readAll, haddress]
    simp only [ih, more]
  | case5 slot run hlabel hcompiled hnative =>
    rw [List.cons_append, readAll]
    split
    · next length h => exact absurd h (hlabel length)
    · next address h => exact absurd h (hcompiled address)
    · next address h => exact absurd h (hnative address)
    · rfl

end RecordedFrame

/-! ## Trying each slot in turn -/

namespace RecordedSample

/-- The sample of a thread that starts with the first slot. -/
def first? (tid : Int32) : List Slot → Option RecordedSample
  | ⟨position, .threadId t⟩ :: ⟨_, .time time⟩ :: rest =>
    if t = tid then
      some { position, tid, time
             frames := (RecordedFrame.readAll rest).1
             responsiveness := (takeIf Entry.responsiveness? (RecordedFrame.readAll rest).2).1 }
    else none
  | _ => none

/-- The samples that start later are found whether or not one starts with the first slot. -/
theorem readAll_cons (tid : Int32) (slot : Slot) (rest : List Slot) :
    readAll tid (slot :: rest) = (first? tid (slot :: rest)).toList ++ readAll tid rest := by
  unfold first?
  split
  · next position t timePosition time more heq =>
    obtain ⟨rfl, rfl⟩ := List.cons.inj heq
    rw [readAll]
    split <;> rfl
  · next hslots =>
    rw [readAll]
    · rfl
    · intro position t timePosition time more hslot hrest
      exact hslots position t timePosition time more (by rw [hslot, hrest])

/-- A sample starts with a thread entry of its thread and the time right after it. -/
theorem first?_eq_some {tid : Int32} {slots : List Slot} {sample : RecordedSample}
    (h : first? tid slots = some sample) :
    ∃ timePosition rest, slots = ⟨sample.position, .threadId tid⟩ ::
      ⟨timePosition, .time sample.time⟩ :: rest := by
  unfold first? at h
  split at h
  · next position t timePosition time rest =>
    split at h
    · next ht =>
      obtain rfl := Option.some.inj h
      exact ⟨timePosition, rest, by rw [ht]⟩
    · exact absurd h (by simp)
  · exact absurd h (by simp)

/-- No sample starts with a slot that is no thread entry of the thread. -/
theorem first?_of_ne {tid : Int32} {slot : Slot} (h : slot.entry ≠ .threadId tid)
    (rest : List Slot) : first? tid (slot :: rest) = none := by
  rw [Option.eq_none_iff_forall_ne_some]
  intro sample hsample
  obtain ⟨timePosition, more, heq⟩ := first?_eq_some hsample
  obtain ⟨rfl, -⟩ := List.cons.inj heq
  exact h rfl

/-- A sample is read from the run that its thread entry starts. -/
theorem first?_append (tid : Int32) (slot : Slot) (run : List Slot) (hrest : Slot.AtThread rest) :
    first? tid (slot :: (run ++ rest)) = first? tid (slot :: run) := by
  obtain ⟨position, entry⟩ := slot
  by_cases hentry : entry = .threadId tid
  · subst hentry
    rcases run with _ | ⟨⟨timePosition, second⟩, run⟩
    · rcases rest with _ | ⟨slot, rest⟩
      · rfl
      · obtain ⟨t, ht⟩ := hrest slot rfl
        obtain ⟨p, entry⟩ := slot
        obtain rfl : entry = .threadId t := ht
        rfl
    · cases second with
      | time time =>
        have hframes := RecordedFrame.readAll_append run hrest
        have hresponsiveness := takeIf_append Entry.responsiveness? (fun _ => rfl)
          (RecordedFrame.readAll run).2 hrest
        simp only [List.cons_append, first?, hframes, hresponsiveness]
      | _ => rfl
  · rw [first?_of_ne hentry, first?_of_ne hentry]

/-- What is read from some slots does not depend on what came before them. -/
theorem readAll_split (tid : Int32) (before after : List Slot) :
    ∃ early, readAll tid (before ++ after) = early ++ readAll tid after ∧
      ∀ sample ∈ early, ∃ slot ∈ before, slot.position = sample.position := by
  induction before with
  | nil => exact ⟨[], rfl, fun sample hsample => absurd hsample List.not_mem_nil⟩
  | cons slot before ih =>
    obtain ⟨early, heq, hearly⟩ := ih
    refine ⟨(first? tid (slot :: (before ++ after))).toList ++ early, ?_, ?_⟩
    · rw [List.cons_append, readAll_cons, heq, List.append_assoc]
    · intro sample hsample
      rcases List.mem_append.1 hsample with hfirst | hlater
      · obtain ⟨timePosition, more, hslots⟩ := first?_eq_some (Option.mem_toList.1 hfirst)
        obtain ⟨rfl, -⟩ := List.cons.inj hslots
        exact ⟨_, List.mem_cons_self, rfl⟩
      · obtain ⟨slot', hslot', hposition⟩ := hearly sample hlater
        exact ⟨slot', List.mem_cons_of_mem slot hslot', hposition⟩

/-- Samples stand in the order of the slots that they start with. -/
theorem sublist_positions (tid : Int32) (slots : List Slot) :
    ((readAll tid slots).map position).Sublist (slots.map Slot.position) := by
  induction slots with
  | nil => exact .slnil
  | cons slot slots ih =>
    rw [readAll_cons, List.map_append, List.map_cons]
    rcases hfirst : first? tid (slot :: slots) with _ | sample
    · exact ih.cons slot.position
    · obtain ⟨timePosition, more, hslots⟩ := first?_eq_some hfirst
      obtain ⟨rfl, -⟩ := List.cons.inj hslots
      exact ih.cons_cons sample.position

end RecordedSample

end TraceProfile
