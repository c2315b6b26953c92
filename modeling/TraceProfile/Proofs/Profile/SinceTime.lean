import TraceProfile.Proofs.Profile.Eviction
import TraceProfile.Proofs.Profile.Sharing
import TraceProfile.Proofs.Reading.Counters
import TraceProfile.Proofs.Reading.MemoryReadings
import TraceProfile.Proofs.Reading.Reassignment
import TraceProfile.Proofs.Table.Distinct
import TraceProfile.Reading.Overhead

/-!
# What happened before a time

A time from which on everything is shown takes away rows and does nothing else: the rows that are
left are those of the full profile whose times are kept (`FiltersRows`). The tables are smaller, so
rows of samples and markers are compared as a reader sees them. What is left out of the samples
leaves no trace at all: rows and tables are those of the window in which the samples that are left
out belong to other threads.
-/

namespace TraceProfile

/-- Whether something is kept that happened at a time, where everything is kept unless a time is
given from which on it is. -/
def Binary64.keptSince (since : Option Binary64) (time : Binary64) : Bool :=
  match since with
  | some since => since.le time
  | none => true

theorem Settings.includes_eq_keptSince (settings : Settings) (since : Option Binary64) :
    { settings with sinceTime := since }.includes = Binary64.keptSince since := by
  funext time
  cases since <;> rfl

/-- Of all things, those are shown that are kept. -/
theorem Settings.filter_since {α : Type} (settings : Settings) (since : Option Binary64)
    (time : α → Binary64) (l : List α) :
    (l.filter fun a => { settings with sinceTime := since }.includes (time a)) =
      (l.filter fun a => { settings with sinceTime := none }.includes (time a)).filter fun a =>
        Binary64.keptSince since (time a) := by
  rw [includes_eq_keptSince, includes_eq_keptSince, List.filter_filter]
  exact List.filter_congr fun _ _ => (Bool.and_true _).symm

/-- The marker that a row shows, given the string table. -/
def MarkerRow.marker? (strings : List String) (row : MarkerRow) : Option Marker :=
  strings[row.name]?.map fun name => { name, time := row.time, data := row.data }

/-- A reader sees the same marker in both rows. -/
def MarkerRow.ShowsSame (strings strings' : List String) (row row' : MarkerRow) : Prop :=
  ∃ marker : Marker, row.marker? strings = some marker ∧ row'.marker? strings' = some marker

/-- The samples that counters show under an id and a key. -/
def Counter.samplesOf (counters : List Counter) (id key : UInt64) : List CounterSample :=
  (counters.filter (·.id == id)).flatMap fun counter =>
    (counter.groups.filter (·.key == key)).flatMap CounterGroup.samples

/-! ## Counters -/

/-- Of things that are made for distinct keys, one has the key if it is there. -/
theorem filter_map_eraseDups {κ β : Type} [BEq κ] [LawfulBEq κ] {f : κ → β} (key : β → κ)
    (hf : ∀ k, key (f k) = k) (keys : List κ) (k : κ) :
    ((keys.eraseDups.map f).filter (key · == k)) = if k ∈ keys then [f k] else [] := by
  have hkey : (fun b => key b == k) ∘ f = (· == k) := by
    funext k'
    rw [Function.comp_apply, hf]
  rw [List.filter_map, hkey, List.filter_beq]
  split
  · next h =>
    rw [List.count_eq_one_of_mem (nodup_eraseDups keys) (List.mem_eraseDups.2 h)]
    rfl
  · next h =>
    rw [List.count_eq_zero_of_not_mem (mt List.mem_eraseDups.1 h)]
    rfl

/-- Under an id and a key, counters show the values that were recorded for these. -/
theorem Counter.samplesOf_ofRecords (descriptions : CounterDescriptions)
    (records : List CounterRecord) (id key : UInt64) :
    samplesOf (ofRecords descriptions records) id key =
      ((records.filter (·.id == id)).filter (·.key == key)).map CounterRecord.sample := by
  rw [samplesOf, Counter.ofRecords_eq, filter_map_eraseDups Counter.id (fun _ => rfl)]
  split
  · rw [List.flatMap_singleton, filter_map_eraseDups CounterGroup.key (fun _ => rfl)]
    split
    · rw [List.flatMap_singleton]
    · next hkey =>
      rw [filter_eq_nil_of_not_mem_map hkey]
      rfl
  · next hid =>
    rw [filter_eq_nil_of_not_mem_map hid]
    rfl

/-! ## Rows -/

/-- The rows of the shown settings are those rows of the other settings whose times are kept. -/
structure FiltersRows (w : Window) (tid : Int32) (tables : Tables) (strings strings' : StringTable)
    (store : MarkerStore) (descriptions : CounterDescriptions) (all shown : Settings)
    (kept : Binary64 → Bool) : Prop where
  samples :
    List.Forall₂ (SampleRow.ShowsSame (ThreadProfile.sampleRows tid w tables all).2.stack?
        (ThreadProfile.sampleRows tid w tables shown).2.stack?)
      ((ThreadProfile.sampleRows tid w tables all).1.filter fun row => kept row.time)
      (ThreadProfile.sampleRows tid w tables shown).1
  markers :
    List.Forall₂ (MarkerRow.ShowsSame
        (ThreadProfile.markerRows tid w store strings all).2.toList
        (ThreadProfile.markerRows tid w store strings' shown).2.toList)
      ((ThreadProfile.markerRows tid w store strings all).1.filter fun row => kept row.time)
      (ThreadProfile.markerRows tid w store strings' shown).1
  overhead : w.overhead shown = (w.overhead all).filter fun sample => kept sample.time
  memory : ((w.memory shown).elim [] MemoryTable.samples) =
    ((w.memory all).elim [] MemoryTable.samples).filter fun sample => kept sample.time
  counters : ∀ id key, Counter.samplesOf (w.counters descriptions shown) id key =
    (Counter.samplesOf (w.counters descriptions all) id key).filter fun sample => kept sample.time

theorem MarkerRow.forall₂_marker? (strings : StringTable) (markers : List Marker) :
    List.Forall₂ (fun marker row =>
        row.marker? (ofMarkers strings markers).2.toList = some marker ∧ row.time = marker.time)
      markers (ofMarkers strings markers).1 := by
  obtain ⟨-, hrows⟩ := ofMarkers_spec strings markers
  refine hrows.imp ?_
  rintro marker row ⟨hname, htime, hdata⟩
  rw [Interner.get?_eq_getElem?] at hname
  refine ⟨?_, htime⟩
  rw [marker?, hname, htime, hdata]
  rfl

namespace ThreadProfile

theorem shownSamples_none (tid : Int32) (w : Window) (settings : Settings) :
    shownSamples tid w { settings with sinceTime := none } = w.samples tid :=
  List.filter_eq_self.2 fun _ _ => rfl

theorem shownSamples_since (tid : Int32) (w : Window) (settings : Settings)
    (since : Option Binary64) :
    shownSamples tid w { settings with sinceTime := since } =
      (shownSamples tid w { settings with sinceTime := none }).filter fun sample =>
        Binary64.keptSince since sample.time :=
  settings.filter_since since RecordedSample.time (w.samples tid)

theorem shownMarkers_since (tid : Int32) (w : Window) (store : MarkerStore) (settings : Settings)
    (since : Option Binary64) :
    shownMarkers tid w store { settings with sinceTime := since } =
      (shownMarkers tid w store { settings with sinceTime := none }).filter fun marker =>
        Binary64.keptSince since marker.time :=
  settings.filter_since since Marker.time (w.markers tid store)

/-- A reader sees the same in the rows of samples that are left as in those of the full profile. -/
theorem sampleRows_since {coverage : Jit.Coverage} (h : coverage.Valid) {tables : Tables}
    (htables : tables.Valid) (hgrows : (Tables.ofCoverage coverage).GrowsTo tables) (tid : Int32)
    (w : Window) (settings : Settings) (since : Option Binary64) :
    List.Forall₂ (SampleRow.ShowsSame
        (sampleRows tid w tables { settings with sinceTime := none }).2.stack?
        (sampleRows tid w tables { settings with sinceTime := since }).2.stack?)
      ((sampleRows tid w tables { settings with sinceTime := none }).1.filter fun row =>
        Binary64.keptSince since row.time)
      (sampleRows tid w tables { settings with sinceTime := since }).1 := by
  have hall := showsRecorded_sampleRows_of_growsTo h htables hgrows tid w
    { settings with sinceTime := none }
  have hleft := showsRecorded_sampleRows_of_growsTo h htables hgrows tid w
    { settings with sinceTime := since }
  have hfiltered := List.rel_filter
    (p := fun sample : RecordedSample => Binary64.keptSince since sample.time)
    (q := fun row : SampleRow => Binary64.keptSince since row.time) (by
      rintro sample row ⟨parts, -, hrow⟩
      simp only [hrow.time_eq]) hall
  rw [shownSamples_since] at hleft
  exact forall₂_of_common (fun _ _ _ hrow hrow' => hrow.showsSame hrow') hfiltered hleft

/-- A reader sees the same markers in the rows that are left as in those of the full profile. -/
theorem markerRows_since (tid : Int32) (w : Window) (store : MarkerStore)
    (strings strings' : StringTable) (settings : Settings) (since : Option Binary64) :
    List.Forall₂ (MarkerRow.ShowsSame
        (markerRows tid w store strings { settings with sinceTime := none }).2.toList
        (markerRows tid w store strings' { settings with sinceTime := since }).2.toList)
      ((markerRows tid w store strings { settings with sinceTime := none }).1.filter fun row =>
        Binary64.keptSince since row.time)
      (markerRows tid w store strings' { settings with sinceTime := since }).1 := by
  have hall := MarkerRow.forall₂_marker? strings
    (shownMarkers tid w store { settings with sinceTime := none })
  have hleft := MarkerRow.forall₂_marker? strings'
    (shownMarkers tid w store { settings with sinceTime := since })
  have hfiltered := List.rel_filter
    (p := fun marker : Marker => Binary64.keptSince since marker.time)
    (q := fun row : MarkerRow => Binary64.keptSince since row.time) (by
      rintro marker row ⟨-, htime⟩
      simp only [htime]) hall
  rw [← shownMarkers_since] at hfiltered
  exact forall₂_of_common (fun marker _ _ hrow hrow' => ⟨marker, hrow.1, hrow'.1⟩) hfiltered hleft

end ThreadProfile

namespace Window

theorem overhead_since (w : Window) (settings : Settings) (since : Option Binary64) :
    w.overhead { settings with sinceTime := since } =
      (w.overhead { settings with sinceTime := none }).filter fun sample =>
        Binary64.keptSince since sample.time :=
  settings.filter_since since OverheadSample.time (OverheadSample.readAll w.slots)

theorem memorySamples_since (w : Window) (settings : Settings) (since : Option Binary64) :
    w.memorySamples { settings with sinceTime := since } =
      (w.memorySamples { settings with sinceTime := none }).filter fun sample =>
        Binary64.keptSince since sample.time := by
  rw [memorySamples, memorySamples, List.filter_filterMap, settings.includes_eq_keptSince,
    settings.includes_eq_keptSince]
  refine List.filterMap_congr fun reading _ => ?_
  cases reading.time with
  | none => rfl
  | some time => rfl

theorem samplesOf_counters_since (w : Window) (descriptions : CounterDescriptions)
    (settings : Settings) (since : Option Binary64) (id key : UInt64) :
    Counter.samplesOf (w.counters descriptions { settings with sinceTime := since }) id key =
      (Counter.samplesOf (w.counters descriptions { settings with sinceTime := none })
        id key).filter fun sample => Binary64.keptSince since sample.time := by
  have hrecords : w.counterRecords { settings with sinceTime := since } =
      (w.counterRecords { settings with sinceTime := none }).filter fun r =>
        Binary64.keptSince since r.sample.time :=
    settings.filter_since since (fun r : CounterRecord => r.sample.time)
      (w.counterRuns.flatMap CounterRun.records)
  rw [counters, counters, Counter.samplesOf_ofRecords, Counter.samplesOf_ofRecords, hrecords,
    List.filter_map]
  congr 1
  rw [List.filter_comm fun r : CounterRecord => r.id == id,
    List.filter_comm fun r : CounterRecord => r.key == key]
  rfl

end Window

/-- A time from which on everything is shown filters the rows, and leaves no trace of the samples
that are left out: rows and tables are as if these belonged to other threads. -/
theorem ThreadProfile.since_filtersRows {coverage : Jit.Coverage} (h : coverage.Reached)
    (requests : List Request) (strings strings' : StringTable) (tid : Int32) (w : Window)
    (store : MarkerStore) (descriptions : CounterDescriptions) (settings : Settings)
    (since : Option Binary64) {other : Nat → Int32} (hother : ∀ position, other position ≠ tid) :
    FiltersRows w tid (Ledger.run { tables := .ofCoverage coverage } requests).tables strings
        strings' store descriptions { settings with sinceTime := none }
        { settings with sinceTime := since } (Binary64.keptSince since) ∧
      ∀ tables, sampleRows tid w tables { settings with sinceTime := since } =
        sampleRows tid (w.reassign tid (Binary64.keptSince since) other) tables
          { settings with sinceTime := none } := by
  obtain ⟨hrun, hgrows⟩ := (Ledger.consistent_ofCoverage h).run requests
  constructor
  · exact
      { samples := sampleRows_since h.valid hrun.valid hgrows tid w settings since
        markers := markerRows_since tid w store strings strings' settings since
        overhead := w.overhead_since settings since
        memory := by
          rw [w.samples_memory, w.samples_memory]
          exact w.memorySamples_since settings since
        counters := w.samplesOf_counters_since descriptions settings since }
  · intro tables
    have hsame : shownSamples tid w { settings with sinceTime := since } =
        shownSamples tid (w.reassign tid (Binary64.keptSince since) other)
          { settings with sinceTime := none } := by
      rw [shownSamples_since, shownSamples_none, shownSamples_none,
        w.samples_reassign tid (Binary64.keptSince since) hother]
    rw [sampleRows, sampleRows, hsame]

/-- The first of two samples is too early. Reassigned, it belongs to another thread, and the rest of
the window is as it was. -/
theorem ThreadProfile.since_filtersRows_second :
    let w : Window := .ofEntries 5 #[.threadId 3, .time ⟨1⟩, .nativeLeafAddr 16, .threadId 3,
      .time ⟨2⟩, .nativeLeafAddr 17, .label 9]
    let settings : Settings := { sinceTime := some ⟨2⟩ }
    let tables := (Ledger.run { tables := .ofCoverage {} } [.text "main"]).tables
    let result := sampleRows 3 w tables settings
    result.1.map (fun row => (row.stack.bind result.2.stack?).map (·.map ShownFrame.location)) =
        [some ["(root)", "0x11", ""]] ∧
      (w.reassign 3 (Binary64.keptSince (some ⟨2⟩)) fun _ => 4).entries =
        #[.threadId 4, .time ⟨1⟩, .nativeLeafAddr 16, .threadId 3, .time ⟨2⟩, .nativeLeafAddr 17,
          .label 9] ∧
      FiltersRows w 3 tables {} {} (fun _ => none) (fun _ => none) {} settings
        (Binary64.keptSince (some ⟨2⟩)) ∧
      ∀ tables, sampleRows 3 w tables settings =
        sampleRows 3 (w.reassign 3 (Binary64.keptSince (some ⟨2⟩)) fun _ => 4) tables {} := by
  intro w settings tables result
  exact ⟨by decide +kernel, by decide +kernel, since_filtersRows .empty [.text "main"] {} {} 3 w
    (fun _ => none) (fun _ => none) settings (some ⟨2⟩) (fun _ => by decide)⟩

end TraceProfile
