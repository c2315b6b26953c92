import Mathlib.Data.List.Basic
import TraceProfile.Proofs.Buffer.Tail
import TraceProfile.Proofs.Table.Distinct
import TraceProfile.Reading.Memory

/-!
# Where memory readings come from

A reading is said here by the positions of a window: the resident memory stands at the position of
the reading, its time is that of the closest time entry before, and the unshared memory is what
stands right behind (`MemoryReading.StandsIn`). All readings that stand in a window are found, in
the order of their positions.

The table has one row for each reading that has a time, if that time is shown. A reading without a
time is left out and changes no other.

The table of what is shown starts with the first reading that is shown. Its resident memory counts
as the one to start from, so that depends on the time from which on readings are shown
(`Window.initialHeap_memory`): when the first reading that has a time is left out, another one takes
its place, and when all are left out there is no table at all.
-/

namespace TraceProfile

/-- The closest time entry before the position says the time; without a time, there is no such
entry. -/
def Window.ClosestTime (w : Window) (position : Nat) : Option Binary64 → Prop
  | some time => ∃ stamp < position, w.get? stamp = some (.time time) ∧
      ∀ p, stamp < p → p < position → ∀ t, w.get? p ≠ some (.time t)
  | none => ∀ p < position, ∀ t, w.get? p ≠ some (.time t)

/-- The reading is recorded in the window. -/
structure MemoryReading.StandsIn (reading : MemoryReading) (w : Window) : Prop where
  resident : w.get? reading.position = some (.residentMemory reading.resident)
  time : w.ClosestTime reading.position reading.time
  unshared : (w.get? (reading.position + 1)).bind Entry.unsharedMemory? = reading.unshared

/-- No reading that stands before this one has a time that is accepted, and this one has. -/
structure MemoryReading.FirstIn (reading : MemoryReading) (w : Window)
    (accepts : Binary64 → Bool) : Prop where
  stands : reading.StandsIn w
  accepted : reading.time.any accepts = true
  first : ∀ other : MemoryReading, other.StandsIn w → other.time.any accepts = true →
    reading.position ≤ other.position

/-! ## The closest time -/

/-- The closest time before the next slot, given that before this one. -/
def Slot.timeAfter (slot : Slot) (time : Option Binary64) : Option Binary64 :=
  match slot.entry with
  | .time t => some t
  | _ => time

namespace Window

variable {w : Window} {position : Nat} {time : Option Binary64}

theorem closestTime_start (w : Window) : w.ClosestTime w.start none := by
  intro p hp t ht
  obtain ⟨hstart, -⟩ := exists_get?_iff.1 ⟨_, ht⟩
  omega

/-- What is the closest time stays it over an entry that is no time entry. -/
theorem ClosestTime.succ (h : w.ClosestTime position time)
    (hnot : ∀ t, w.get? position ≠ some (.time t)) : w.ClosestTime (position + 1) time := by
  cases time with
  | some time =>
    obtain ⟨stamp, hlt, hstamp, hclosest⟩ := h
    refine ⟨stamp, by omega, hstamp, fun p hp hlt' => ?_⟩
    rcases Nat.eq_or_lt_of_le (Nat.le_of_lt_succ hlt') with rfl | hbefore
    · exact hnot
    · exact hclosest p hp hbefore
  | none =>
    intro p hp
    rcases Nat.eq_or_lt_of_le (Nat.le_of_lt_succ hp) with rfl | hbefore
    · exact hnot
    · exact h p hbefore

theorem ClosestTime.after (slot : Slot) (h : w.ClosestTime slot.position time)
    (hslot : w.get? slot.position = some slot.entry) :
    w.ClosestTime (slot.position + 1) (slot.timeAfter time) := by
  unfold Slot.timeAfter
  split
  · next t ht =>
    refine ⟨slot.position, Nat.lt_succ_self _, hslot.trans (congrArg some ht), fun p hp hlt => ?_⟩
    omega
  · next hnot =>
    refine h.succ fun t ht => ?_
    exact hnot t (Option.some.inj (hslot.symm.trans ht))

/-- There is one closest time. -/
theorem ClosestTime.unique {time' : Option Binary64} (h : w.ClosestTime position time)
    (h' : w.ClosestTime position time') : time = time' := by
  cases time with
  | none =>
    cases time' with
    | none => rfl
    | some time' =>
      obtain ⟨stamp, hlt, hstamp, -⟩ := h'
      exact absurd hstamp (h stamp hlt time')
  | some time =>
    obtain ⟨stamp, hlt, hstamp, hclosest⟩ := h
    cases time' with
    | none => exact absurd hstamp (h' stamp hlt time)
    | some time' =>
      obtain ⟨stamp', hlt', hstamp', hclosest'⟩ := h'
      rcases Nat.lt_trichotomy stamp stamp' with hbefore | rfl | hbehind
      · exact absurd hstamp' (hclosest stamp' hbefore hlt' time')
      · exact congrArg some (Entry.time.inj (Option.some.inj (hstamp.symm.trans hstamp')))
      · exact absurd hstamp (hclosest' stamp hbehind hlt time)

end Window

/-! ## Trying each slot in turn -/

namespace MemoryReading

/-- The reading at the first slot. -/
def first? (time : Option Binary64) : List Slot → Option MemoryReading
  | ⟨position, .residentMemory resident⟩ :: rest =>
    some ⟨position, time, resident, (takeIf Entry.unsharedMemory? rest).1⟩
  | _ => none

theorem first?_eq_some_iff {time : Option Binary64} {slot : Slot} {rest : List Slot}
    {reading : MemoryReading} :
    first? time (slot :: rest) = some reading ↔
      slot = ⟨reading.position, .residentMemory reading.resident⟩ ∧ time = reading.time ∧
        (takeIf Entry.unsharedMemory? rest).1 = reading.unshared := by
  obtain ⟨position, entry⟩ := slot
  obtain ⟨position', time', resident', unshared'⟩ := reading
  cases entry with
  | residentMemory resident => simp [first?, and_assoc, and_left_comm]
  | _ => simp [first?]

/-- Every slot is tried, with the closest time before it. -/
theorem readFrom_cons (time : Option Binary64) (slot : Slot) (rest : List Slot) :
    readFrom time (slot :: rest) =
      (first? time (slot :: rest)).toList ++ readFrom (slot.timeAfter time) rest := by
  obtain ⟨position, entry⟩ := slot
  cases entry <;> rfl

/-- What can be taken from the rest of a window is decided by the entry that stands there. -/
theorem takeIf_drop_slots {α : Type} (read : Entry → Option α) (w : Window) (i : Nat) :
    (takeIf read (w.slots.drop i)).1 = (w.get? (w.start + i)).bind read := by
  by_cases hi : i < w.entries.size
  · have hget := w.get?_start_add_of_lt hi
    rw [Window.drop_slots_eq_cons hget, hget, takeIf, Option.bind_some]
    cases read w.entries[i] <;> rfl
  · have hle := Nat.le_of_not_lt hi
    rw [Window.drop_slots_eq_nil hle, w.get?_start_add, Array.getElem?_eq_none hle]
    rfl

end MemoryReading

namespace Window

open MemoryReading

variable {w : Window}

/-- The reading at a slot is the one that stands there. -/
theorem first?_eq_some_iff_standsIn {i : Nat} {entry : Entry}
    (hget : w.get? (w.start + i) = some entry) {time : Option Binary64}
    (htime : w.ClosestTime (w.start + i) time) {reading : MemoryReading} :
    first? time (⟨w.start + i, entry⟩ :: w.slots.drop (i + 1)) = some reading ↔
      reading.position = w.start + i ∧ reading.StandsIn w := by
  rw [first?_eq_some_iff, takeIf_drop_slots, ← Nat.add_assoc, Slot.mk.injEq]
  constructor
  · rintro ⟨⟨hposition, hentry⟩, rfl, hunshared⟩
    rw [hposition] at hget htime hunshared
    exact ⟨hposition.symm, hget.trans (congrArg some hentry), htime, hunshared⟩
  · rintro ⟨hposition, hresident, htime', hunshared⟩
    rw [hposition] at hresident htime' hunshared
    have hentry := Option.some.inj (hget.symm.trans hresident)
    exact ⟨⟨hposition.symm, hentry⟩, htime.unique htime', hunshared⟩

/-- From a place in the window on, the readings that stand there are read. -/
theorem mem_readFrom_drop {i count : Nat} (hcount : i + count = w.entries.size)
    {time : Option Binary64} (htime : w.ClosestTime (w.start + i) time) {reading : MemoryReading} :
    reading ∈ readFrom time (w.slots.drop i) ↔
      w.start + i ≤ reading.position ∧ reading.StandsIn w := by
  induction count generalizing i time with
  | zero =>
    rw [drop_slots_eq_nil (by omega)]
    constructor
    · exact fun h => absurd h List.not_mem_nil
    · rintro ⟨hle, hstands⟩
      have hlt := (exists_get?_iff.1 ⟨_, hstands.resident⟩).2
      rw [stop] at hlt
      omega
  | succ count ih =>
    have hi : i < w.entries.size := by omega
    have hget := w.get?_start_add_of_lt hi
    have hnext : w.ClosestTime (w.start + (i + 1))
        (Slot.timeAfter ⟨w.start + i, w.entries[i]⟩ time) :=
      ClosestTime.after ⟨w.start + i, w.entries[i]⟩ htime hget
    rw [drop_slots_eq_cons hget, readFrom_cons, List.mem_append, Option.mem_toList,
      first?_eq_some_iff_standsIn hget htime, ih (by omega) hnext]
    constructor
    · rintro (⟨hposition, hstands⟩ | ⟨hle, hstands⟩)
      · exact ⟨Nat.le_of_eq hposition.symm, hstands⟩
      · exact ⟨by omega, hstands⟩
    · rintro ⟨hle, hstands⟩
      rcases Nat.eq_or_lt_of_le hle with heq | hlt'
      · exact .inl ⟨heq.symm, hstands⟩
      · exact .inr ⟨by omega, hstands⟩

/-- The readings that are found are those that stand in the window. -/
theorem mem_memoryReadings_iff {reading : MemoryReading} :
    reading ∈ w.memoryReadings ↔ reading.StandsIn w := by
  have hall : reading ∈ w.memoryReadings ↔ w.start ≤ reading.position ∧ reading.StandsIn w :=
    mem_readFrom_drop (Nat.zero_add w.entries.size) w.closestTime_start
  rw [hall]
  constructor
  · exact fun h => h.2
  · intro hstands
    exact ⟨(exists_get?_iff.1 ⟨_, hstands.resident⟩).1, hstands⟩

theorem sublist_positions_readFrom (time : Option Binary64) (slots : List Slot) :
    ((readFrom time slots).map MemoryReading.position).Sublist (slots.map Slot.position) := by
  induction slots generalizing time with
  | nil => exact List.Sublist.refl _
  | cons slot rest ih =>
    rw [readFrom_cons, List.map_append, List.map_cons]
    cases hfirst : first? time (slot :: rest) with
    | none => exact (ih (slot.timeAfter time)).cons _
    | some reading =>
      obtain ⟨rfl, -, -⟩ := first?_eq_some_iff.1 hfirst
      exact (ih _).cons_cons _

/-- Readings are found in the order of their positions. -/
theorem pairwise_memoryReadings (w : Window) :
    w.memoryReadings.Pairwise fun earlier later => earlier.position < later.position := by
  have hslots : (w.slots.map Slot.position).Pairwise (· < ·) := List.pairwise_map.2 w.pairwise_slots
  exact List.pairwise_map.1 (hslots.sublist (sublist_positions_readFrom none w.slots))

end Window

/-! ## The readings that are shown -/

/-- The row shows the reading that stands at the position, which has a time. -/
structure MemorySample.StandsAt (sample : MemorySample) (w : Window) (position : Nat) : Prop where
  resident : w.get? position = some (.residentMemory sample.resident)
  time : w.ClosestTime position (some sample.time)
  unshared : (w.get? (position + 1)).bind Entry.unsharedMemory? = sample.unshared

namespace Window

variable {w : Window}

/-- A table that is not there has no rows. -/
theorem samples_memory (w : Window) (settings : Settings) :
    (w.memory settings).elim [] MemoryTable.samples = w.memorySamples settings := by
  rw [memory]
  split
  · next h => exact h.symm
  · next h => exact h.symm

/-- There is one row for each resident memory in the window that has a time entry before it, if the
closest one is shown. The row has that time, and the unshared memory that stands right behind. -/
theorem onePerPlace_samples_memory (w : Window) (settings : Settings) :
    OnePerPlace
      (fun position => ∃ resident time, w.get? position = some (.residentMemory resident) ∧
        w.ClosestTime position (some time) ∧ settings.includes time = true)
      (fun position sample => sample.StandsAt w position)
      ((w.memory settings).elim [] MemoryTable.samples) := by
  rw [samples_memory]
  refine onePerPlace_filterMap w.pairwise_memoryReadings ?_ ?_
  · intro position
    constructor
    · rintro ⟨resident, time, hresident, htime, hshown⟩
      have hstands : MemoryReading.StandsIn ⟨position, some time, resident,
          (w.get? (position + 1)).bind Entry.unsharedMemory?⟩ w := ⟨hresident, htime, rfl⟩
      exact ⟨_, mem_memoryReadings_iff.2 hstands, rfl, _, if_pos hshown⟩
    · rintro ⟨reading, hmem, rfl, sample, hread⟩
      have hstands := mem_memoryReadings_iff.1 hmem
      split at hread
      · next time htime =>
        refine ⟨reading.resident, time, hstands.resident, htime ▸ hstands.time, ?_⟩
        exact (Option.ite_none_right_eq_some.1 hread).1
      · exact absurd hread (by simp)
  · intro reading hmem sample hread
    have hstands := mem_memoryReadings_iff.1 hmem
    split at hread
    · next time htime =>
      obtain ⟨-, hsample⟩ := Option.ite_none_right_eq_some.1 hread
      obtain rfl := Option.some.inj hsample
      exact ⟨hstands.resident, htime ▸ hstands.time, hstands.unshared⟩
    · exact absurd hread (by simp)

end Window

/-! ## The first reading that is shown -/

/-- In a list whose keys ascend, the element that is found is the one with the least key. -/
theorem find?_eq_some_iff_of_pairwise {α : Type} {l : List α} {key : α → Nat} {p : α → Bool}
    (h : l.Pairwise fun earlier later => key earlier < key later) {a : α} :
    l.find? p = some a ↔ a ∈ l ∧ p a = true ∧ ∀ b ∈ l, p b = true → key a ≤ key b := by
  rw [List.find?_eq_some_iff_append]
  constructor
  · rintro ⟨ha, before, after, rfl, hbefore⟩
    refine ⟨by simp, ha, fun b hb hp => ?_⟩
    obtain ⟨-, hafter, -⟩ := List.pairwise_append.1 h
    rcases List.mem_append.1 hb with hb | hb
    · have hnot := hbefore b hb
      rw [hp] at hnot
      exact absurd hnot (by simp)
    · rcases List.mem_cons.1 hb with rfl | hb
      · exact Nat.le_refl _
      · exact Nat.le_of_lt ((List.pairwise_cons.1 hafter).1 b hb)
  · rintro ⟨hmem, ha, hleast⟩
    obtain ⟨before, after, rfl⟩ := List.append_of_mem hmem
    refine ⟨ha, before, after, rfl, fun b hb => ?_⟩
    have hlt := (List.pairwise_append.1 h).2.2 b hb a List.mem_cons_self
    rw [Bool.not_eq_true', ← Bool.not_eq_true]
    intro hp
    have hle := hleast b (List.mem_append_left _ hb) hp
    omega

namespace Window

variable {w : Window}

theorem find?_memoryReadings_eq_some_iff {accepts : Binary64 → Bool} {reading : MemoryReading} :
    (w.memoryReadings.find? fun reading => reading.time.any accepts) = some reading ↔
      reading.FirstIn w accepts := by
  rw [find?_eq_some_iff_of_pairwise w.pairwise_memoryReadings]
  simp only [mem_memoryReadings_iff]
  constructor
  · rintro ⟨hstands, haccepted, hfirst⟩
    exact ⟨hstands, haccepted, hfirst⟩
  · rintro ⟨hstands, haccepted, hfirst⟩
    exact ⟨hstands, haccepted, hfirst⟩

/-- The rows show the readings that have a time and are shown. -/
theorem map_resident_memorySamples (w : Window) (settings : Settings) :
    (w.memorySamples settings).map MemorySample.resident =
      (w.memoryReadings.filter fun reading => reading.time.any settings.includes).map
        MemoryReading.resident := by
  rw [memorySamples, List.map_filterMap, ← List.filterMap_eq_map, List.filterMap_filter]
  refine List.filterMap_congr fun reading _ => ?_
  rcases reading.time with _ | time
  · rfl
  · cases h : settings.includes time <;> simp [h]

theorem map_initialHeap_memory (w : Window) (settings : Settings) :
    (w.memory settings).map MemoryTable.initialHeap =
      (w.memoryReadings.find? fun reading => reading.time.any settings.includes).map
        MemoryReading.resident := by
  have hhead : (w.memory settings).map MemoryTable.initialHeap =
      ((w.memorySamples settings).map MemorySample.resident).head? := by
    rw [memory]
    cases w.memorySamples settings <;> rfl
  rw [hhead, map_resident_memorySamples, List.head?_map, List.head?_filter]

/-- There is no table exactly if no reading has a time that is shown. Otherwise the resident memory
to start from is that of the first reading that is shown. If the first reading that has a time is
shown, that is this one. -/
theorem initialHeap_memory (w : Window) (settings : Settings) :
    (w.memory settings = none ↔ ∀ reading : MemoryReading, reading.StandsIn w →
        reading.time.any settings.includes = false) ∧
      (∀ heap, (w.memory settings).map MemoryTable.initialHeap = some heap ↔
        ∃ reading : MemoryReading, reading.FirstIn w settings.includes ∧
          reading.resident = heap) ∧
      ∀ reading : MemoryReading, reading.FirstIn w (fun _ => true) →
        reading.time.any settings.includes = true →
        (w.memory settings).map MemoryTable.initialHeap = some reading.resident := by
  have hheap : ∀ heap, (w.memory settings).map MemoryTable.initialHeap = some heap ↔
      ∃ reading : MemoryReading, reading.FirstIn w settings.includes ∧
        reading.resident = heap := by
    intro heap
    rw [map_initialHeap_memory, Option.map_eq_some_iff]
    simp only [find?_memoryReadings_eq_some_iff]
  refine ⟨?_, hheap, ?_⟩
  · rw [← Option.map_eq_none_iff (f := MemoryTable.initialHeap), map_initialHeap_memory,
      Option.map_eq_none_iff, List.find?_eq_none]
    simp only [mem_memoryReadings_iff, Bool.not_eq_true]
  · intro reading hfirst hshown
    refine (hheap reading.resident).2 ⟨reading, ⟨hfirst.stands, hshown, ?_⟩, rfl⟩
    -- Whatever is shown has a time, so it does not stand before the first reading that has one.
    intro other hother hshown'
    obtain ⟨time, htime, -⟩ := (Option.any_eq_true _ _).1 hshown'
    refine hfirst.first other hother ?_
    rw [htime]
    rfl

/-- What is shown decides: the first reading gives the resident memory to start from, the second
does when the first is left out, and there is no table when both are. -/
theorem initialHeap_memory_late :
    let w : Window := .ofEntries 0 #[.time (.ofInt 1), .residentMemory (.ofInt 100),
      .time (.ofInt 5), .residentMemory (.ofInt 200)]
    MemoryReading.FirstIn ⟨1, some (.ofInt 1), .ofInt 100, none⟩ w (fun _ => true) ∧
      (w.memory {}).map MemoryTable.initialHeap = some (.ofInt 100) ∧
      (w.memory { sinceTime := some (.ofInt 5) }).map MemoryTable.initialHeap =
        some (.ofInt 200) ∧
      w.memory { sinceTime := some (.ofInt 9) } = none := by
  intro w
  refine ⟨find?_memoryReadings_eq_some_iff.1 ?_, ?_, ?_, ?_⟩
  all_goals decide +kernel

end Window

end TraceProfile
