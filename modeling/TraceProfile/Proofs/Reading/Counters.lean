import Mathlib.Data.List.Forall2
import TraceProfile.Proofs.Reading.CounterRuns

/-!
# What becomes of the recorded counter values

A value is recorded in the longest run behind a counter entry and a time, wherever in the window
these two stand (`Window.CounterRecords`). The counters that are shown have those values and no
others, each once: sorted by id and by key, in the order of their first values, and within a group
as they were recorded.
-/

namespace TraceProfile

/-- The values that are recorded by a counter entry at the front of the entries. -/
def CounterRecord.AtFront (records : List CounterRecord) : List Entry → Prop
  | .counterId id :: .time time :: behind =>
    ∃ values : List CounterValue, CounterValue.LongestRun values behind ∧
      records = values.map fun v => ⟨id, v.key, ⟨time, v.number, v.count⟩⟩
  | _ => records = []

/-- The values that are recorded in a window, in its order. -/
def Window.CounterRecords (w : Window) (records : List CounterRecord) : Prop :=
  ∃ parts : List (List CounterRecord),
    List.Forall₂ (fun i part => CounterRecord.AtFront part (w.entries.toList.drop i))
      (List.range w.entries.size) parts ∧
    records = parts.flatten

/-! ## Sorting -/

theorem CounterGroup.ofRecords_eq (records : List CounterRecord) :
    ofRecords records = (records.map CounterRecord.key).eraseDups.map fun key =>
      { key, samples := (records.filter (·.key == key)).map CounterRecord.sample } := by
  rw [ofRecords, groupBy_eq, List.map_map]
  rfl

theorem Counter.ofRecords_eq (descriptions : CounterDescriptions) (records : List CounterRecord) :
    ofRecords descriptions records = (records.map CounterRecord.id).eraseDups.map fun id =>
      { id
        description := (descriptions id).getD (.ofId id)
        groups := ((records.filter (·.id == id)).map CounterRecord.key).eraseDups.map fun key =>
          { key
            samples := ((records.filter (·.id == id)).filter (·.key == key)).map
              CounterRecord.sample } } := by
  rw [ofRecords, groupBy_eq, List.map_map]
  refine List.map_congr_left fun id _ => ?_
  simp only [Function.comp_apply, CounterGroup.ofRecords_eq]

namespace CounterRun

/-! ## One counter entry -/

theorem atFront_iff {records : List CounterRecord} {slots : List Slot} :
    CounterRecord.AtFront records (slots.map Slot.entry) ↔
      records = (first? slots).toList.flatMap CounterRun.records := by
  unfold first?
  split
  · next position id _ time behind =>
    have hrun := longestRun_readValues behind
    constructor
    · rintro ⟨values, hvalues, rfl⟩
      rw [hvalues.unique hrun]
      exact (List.append_nil _).symm
    · intro hrecords
      exact ⟨(readValues behind).1, hrun, hrecords.trans (List.append_nil _)⟩
  · next position id behind htime =>
    rw [List.map_cons, CounterRecord.AtFront]
    · rfl
    · intro id' time behind' heq
      obtain ⟨slot, behind, rfl, hslot, -⟩ := List.map_eq_cons_iff.1 (List.cons.inj heq).2
      exact htime slot.position time behind (by rw [← hslot])
  · next hcounter _ =>
    rw [CounterRecord.AtFront]
    · rfl
    · intro id time behind hslots
      obtain ⟨slot, slots, rfl, hslot, hrest⟩ := List.map_eq_cons_iff.1 hslots
      obtain ⟨next, slots, rfl, hnext, -⟩ := List.map_eq_cons_iff.1 hrest
      exact hcounter slot.position id next.position time slots (by rw [← hslot, ← hnext])

/-- A run starts exactly at a counter entry. -/
theorem exists_first?_iff {slots : List Slot} {position : Nat} {id : UInt64} :
    (∃ run, first? slots = some run ∧ run.position = position ∧ run.id = id) ↔
      slots.head? = some ⟨position, .counterId id⟩ := by
  unfold first?
  split
  · simp
  · simp
  · next _ hnot =>
    constructor
    · rintro ⟨run, hrun, -⟩
      exact absurd hrun (by simp)
    · intro hhead
      obtain ⟨rest, rfl⟩ := List.head?_eq_some_iff.1 hhead
      exact absurd rfl (hnot position id rest)

/-! ## All counter entries -/

/-- Every place is one where a run may start. -/
theorem readAll_eq_flatMap (slots : List Slot) :
    readAll slots = (List.range slots.length).flatMap fun i => (first? (slots.drop i)).toList := by
  induction slots with
  | nil => rfl
  | cons slot slots ih =>
    rw [readAll_cons, ih, List.length_cons, List.range_succ_eq_map, List.flatMap_cons,
      List.flatMap_map]
    rfl

theorem mem_readAll_iff {slots : List Slot} {run : CounterRun} :
    run ∈ readAll slots ↔ ∃ i, first? (slots.drop i) = some run := by
  simp only [readAll_eq_flatMap, List.mem_flatMap, List.mem_range, Option.mem_toList]
  constructor
  · rintro ⟨i, -, hrun⟩
    exact ⟨i, hrun⟩
  · rintro ⟨i, hrun⟩
    refine ⟨i, Nat.lt_of_not_le fun hle => ?_, hrun⟩
    rw [List.drop_eq_nil_of_le hle] at hrun
    exact absurd hrun (by simp [first?])

/-- No counter entry is skipped. -/
theorem exists_mem_readAll_iff {slots : List Slot} {position : Nat} {id : UInt64} :
    (∃ run ∈ readAll slots, run.position = position ∧ run.id = id) ↔
      ⟨position, .counterId id⟩ ∈ slots := by
  simp only [List.mem_iff_getElem? (l := slots), ← List.head?_drop, ← exists_first?_iff,
    mem_readAll_iff]
  constructor
  · rintro ⟨run, ⟨i, hrun⟩, h⟩
    exact ⟨i, run, hrun, h⟩
  · rintro ⟨i, run, hrun, h⟩
    exact ⟨run, ⟨i, hrun⟩, h⟩

end CounterRun

namespace Window

theorem map_entry_slots (w : Window) : w.slots.map Slot.entry = w.entries.toList := by
  refine List.ext_getElem? fun i => ?_
  rw [List.getElem?_map, getElem?_slots, Array.getElem?_toList, Option.map_map]
  exact Option.map_id'

theorem position_of_drop_slots {w : Window} {i : Nat} {slot : Slot} {rest : List Slot}
    (h : w.slots.drop i = slot :: rest) : slot.position = w.start + i := by
  have hslot : w.slots[i]? = some slot := by
    rw [← List.head?_drop, h]
    rfl
  rw [getElem?_slots, Option.map_eq_some_iff] at hslot
  obtain ⟨entry, -, rfl⟩ := hslot
  rfl

/-- The recorded values are those of the runs that are read. -/
theorem counterRecords_iff {w : Window} {records : List CounterRecord} :
    w.CounterRecords records ↔ records = w.counterRuns.flatMap CounterRun.records := by
  have hpart : ∀ i part, CounterRecord.AtFront part (w.entries.toList.drop i) ↔
      (CounterRun.first? (w.slots.drop i)).toList.flatMap CounterRun.records = part := by
    intro i part
    rw [← map_entry_slots, ← List.map_drop, CounterRun.atFront_iff]
    exact eq_comm
  rw [CounterRecords, counterRuns, CounterRun.readAll_eq_flatMap, List.flatMap_assoc, length_slots]
  simp only [hpart, ← List.forall₂_map_left_iff, List.forall₂_eq_eq_eq, List.flatMap]
  constructor
  · rintro ⟨parts, rfl, rfl⟩
    rfl
  · rintro rfl
    exact ⟨_, rfl, rfl⟩

/-- The counters that are shown of the recorded values. There are recorded values for every window;
the pass over the window meets every counter entry; a key without a count ends a run and leaves the
values before it; and the shown values are sorted by id and by key, none of them lost, doubled or
put under another key. -/
theorem counters_eq (w : Window) (descriptions : CounterDescriptions) (settings : Settings) :
    (∃ records, w.CounterRecords records) ∧
    (∀ position id, w.get? position = some (.counterId id) ↔
      ∃ run ∈ CounterRun.readOn w.slots, run.position = position ∧ run.id = id) ∧
    (∀ (i : Nat) (id : UInt64) (time : Binary64) (values : List CounterValue) (key : UInt64)
      (behind : List Entry), (∀ count rest, behind ≠ .count count :: rest) →
      w.entries.toList.drop i = .counterId id :: .time time ::
        (values.flatMap CounterValue.entries ++ .counterKey key :: behind) →
      ⟨w.start + i, id, some time, values, some key⟩ ∈ CounterRun.readOn w.slots) ∧
    ∀ records kept, w.CounterRecords records →
      kept = records.filter (fun r => settings.includes r.sample.time) →
      w.counters descriptions settings =
        (kept.map CounterRecord.id).eraseDups.map fun id =>
          { id
            description := (descriptions id).getD
              { name := "0x" ++ Number.hex id.toNat, category := "", description := "" }
            groups := ((kept.filter (·.id == id)).map CounterRecord.key).eraseDups.map fun key =>
              { key
                samples := ((kept.filter (·.id == id)).filter (·.key == key)).map
                  CounterRecord.sample } } := by
  refine ⟨⟨_, counterRecords_iff.2 rfl⟩, ?_, ?_, ?_⟩
  · intro position id
    rw [CounterRun.readOn_eq, CounterRun.exists_mem_readAll_iff, mem_slots_iff]
  · intro i id time values key behind hbehind hentries
    rw [← map_entry_slots, ← List.map_drop] at hentries
    obtain ⟨⟨position, _⟩, rest, hslots, rfl, hrest⟩ := List.map_eq_cons_iff.1 hentries
    obtain ⟨⟨_, _⟩, rest, rfl, rfl, hvalues⟩ := List.map_eq_cons_iff.1 hrest
    have hread := CounterRun.readValues_of_danglingKey hbehind hvalues
    obtain rfl : position = w.start + i := position_of_drop_slots hslots
    rw [CounterRun.readOn_eq, CounterRun.mem_readAll_iff]
    refine ⟨i, ?_⟩
    rw [hslots, CounterRun.first?, hread]
  · rintro records kept hrecords rfl
    obtain rfl := counterRecords_iff.1 hrecords
    exact Counter.ofRecords_eq descriptions (w.counterRecords settings)

/-- A run that is cut short by a key without a count. -/
theorem counters_eq_dangling :
    let w : Window := .ofEntries 7 #[.counterId 1, .time default, .counterKey 5, .count 10,
      .counterKey 2, .number 3]
    ⟨7, 1, some default, [⟨5, 10, none⟩], some 2⟩ ∈ CounterRun.readOn w.slots ∧
      w.counters (fun _ => none) {} =
        [{ id := 1, description := ⟨"0x1", "", ""⟩
           groups := [{ key := 5, samples := [⟨default, none, 10⟩] }] }] := by
  intro w
  obtain ⟨-, -, hdangling, hcounters⟩ := counters_eq w (fun _ => none) {}
  have hrecords : w.CounterRecords [⟨1, 5, ⟨default, none, 10⟩⟩] :=
    counterRecords_iff.2 (by decide +kernel)
  constructor
  · exact hdangling 0 1 default [⟨5, 10, none⟩] 2 [.number 3] (by simp) rfl
  · rw [hcounters _ _ hrecords rfl]
    decide +kernel

end Window

end TraceProfile
