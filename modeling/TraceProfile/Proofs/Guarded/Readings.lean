import TraceProfile.Profile.Thread
import TraceProfile.Proofs.Guarded.Cursor
import TraceProfile.Proofs.Reading.Attribution
import TraceProfile.Proofs.Reading.Counters
import TraceProfile.Reading.Memory
import TraceProfile.Reading.Overhead

/-!
# Readings without faults

Markers, compiled code and pauses are read by passing by all slots, which asks for no accessor. The
readings of the sampler and of the memory look at what follows them. No entry that they use up in
doing so starts another reading, so nothing is missed.
-/

namespace TraceProfile

/-! ## What belongs to a thread -/

namespace Slot

variable {α β : Type}

/-- Keeps track of the thread, and adds what is read from a slot of the given one. -/
def ownedStep (read : Slot → Option α) (add : β → α → β) (tid : Int32) (s : Option Int32 × β)
    (slot : Slot) : Option Int32 × β :=
  match slot.entry with
  | .threadId t => (some t, s.2)
  | _ =>
    if s.1 = some tid then
      match read slot with
      | some a => (s.1, add s.2 a)
      | none => s
    else s

theorem ownedStep_of_ne {slot : Slot} (h : ∀ t, slot.entry ≠ .threadId t)
    (read : Slot → Option α) (add : β → α → β) (tid : Int32) (current : Option Int32) (b : β) :
    ownedStep read add tid (current, b) slot =
      (current, (if current = some tid then read slot else none).elim b (add b)) := by
  unfold ownedStep
  split
  · next t ht => exact absurd ht (h t)
  · split
    · cases read slot <;> rfl
    · rfl

/-- What is added is what is read from the slots of the thread. -/
theorem foldl_ownedStep {read : Slot → Option α}
    (hread : ∀ position t, read ⟨position, .threadId t⟩ = none) (add : β → α → β) (tid : Int32)
    (slots : List Slot) (current : Option Int32) (b : β) :
    (slots.foldl (ownedStep read add tid) (current, b)).2 =
      (readOwned read tid (decide (current = some tid)) slots).foldl add b := by
  induction slots generalizing current b with
  | nil => rfl
  | cons slot slots ih =>
    by_cases hthread : ∃ t, slot.entry = .threadId t
    · obtain ⟨position, entry⟩ := slot
      obtain ⟨t, rfl⟩ := hthread
      rw [List.foldl_cons, ownedStep, ih, readOwned, hread]
      simp [isOwned]
    · have hne : ∀ t, slot.entry ≠ .threadId t := fun t ht => hthread ⟨t, ht⟩
      rw [List.foldl_cons, ownedStep_of_ne hne, ih, readOwned, isOwned_of_ne hne]
      simp only [decide_eq_true_eq]
      cases if current = some tid then read slot else none <;> rfl

end Slot

/-! ## What follows a reading -/

namespace OverheadSample

theorem takeDurations_succ (limit : Nat) (slots : List Slot) :
    takeDurations (limit + 1) slots =
      match takeIf Entry.overheadDuration? slots with
      | (some duration, rest) => duration :: takeDurations limit rest
      | (none, _) => [] := by
  cases slots with
  | nil => rfl
  | cons slot rest =>
    rw [takeDurations, takeIf]
    cases slot.entry.overheadDuration? <;> rfl

/-- No turn of the sampler starts at a duration. -/
theorem readAll_of_overheadDuration {slot : Slot} {duration : Binary64}
    (h : slot.entry.overheadDuration? = some duration) (rest : List Slot) :
    readAll (slot :: rest) = readAll rest := by
  obtain ⟨position, entry⟩ := slot
  cases entry <;> first | rfl | exact absurd h (by simp [Entry.overheadDuration?])

end OverheadSample

namespace MemoryReading

/-- The reading with its time, if it has one and is shown. -/
def shown? (settings : Settings) (reading : MemoryReading) : Option MemorySample :=
  match reading.time with
  | some time =>
    if settings.includes time then some ⟨time, reading.resident, reading.unshared⟩ else none
  | none => none

/-- The unshared memory is no reading of its own. -/
theorem readFrom_takeIf (time : Option Binary64) (slots : List Slot) :
    readFrom time (takeIf Entry.unsharedMemory? slots).2 = readFrom time slots := by
  rcases htake : takeIf Entry.unsharedMemory? slots with ⟨_ | unshared, rest⟩
  · rw [takeIf_eq_none htake]
  · obtain ⟨⟨position, entry⟩, rfl, hunshared⟩ := takeIf_eq_some htake
    cases entry <;> first | rfl | exact absurd hunshared (by simp [Entry.unsharedMemory?])

end MemoryReading

namespace Guarded

/-! ## Markers and compiled code -/

/-- The addresses of compiled code that belong to a thread, from a position on. -/
def jitAddresses (w : Window) (position : Nat) (tid : Int32) : Guarded (List UInt64) := do
  let step := Slot.ownedStep (·.entry.jitReturnAddr?) (fun addresses a => addresses ++ [a]) tid
  let (_, addresses) ← visit step (none, []) (.ofWindow w position)
  return addresses

/-- Adds the row of a marker, if the store knows it and it is shown. -/
def addMarker (store : MarkerStore) (settings : Settings) (s : List MarkerRow × StringTable)
    (use : MarkerUse) : List MarkerRow × StringTable :=
  match store use.ref with
  | some marker =>
    if settings.includes marker.time then
      let (name, strings) := s.2.intern marker.name
      (s.1 ++ [{ name, time := marker.time, data := marker.data }], strings)
    else s
  | none => s

/-- The rows of the markers of a thread, and the string table with their names added. -/
def markers (tid : Int32) (w : Window) (store : MarkerStore) (strings : StringTable)
    (settings : Settings) : Guarded (List MarkerRow × StringTable) := do
  let read (slot : Slot) := slot.entry.marker?.map (MarkerUse.mk slot.position)
  let step := Slot.ownedStep read (addMarker store settings) tid
  let (_, rows) ← visit step (none, [], strings) ⟨w, 0⟩
  return rows

theorem jitAddresses_eq_ok {w : Window} (hw : w.stop < UInt64.size) (position : Nat) (tid : Int32) :
    jitAddresses w position tid = .ok (w.jitAddresses position tid) := by
  refine Ensures.eq_ok ((ensures_visit hw (Cursor.at_ofWindow w position) _ _).bind ?_)
  rintro ⟨current, addresses⟩ hvisit
  refine .pure ?_
  have haddresses := congrArg Prod.snd hvisit
  rw [Slot.foldl_ownedStep (fun _ _ => rfl), List.foldl_append_eq_append, ← List.flatMap_def,
    List.flatMap_singleton'] at haddresses
  exact haddresses

/-- Adding markers one by one adds the rows of those that are known and shown. -/
theorem foldl_addMarker (store : MarkerStore) (settings : Settings) (uses : List MarkerUse)
    (rows : List MarkerRow) (strings : StringTable) :
    let added := MarkerRow.ofMarkers strings
      ((uses.filterMap fun use => store use.ref).filter fun marker => settings.includes marker.time)
    uses.foldl (addMarker store settings) (rows, strings) = (rows ++ added.1, added.2) := by
  induction uses generalizing rows strings with
  | nil => simp [MarkerRow.ofMarkers]
  | cons use uses ih =>
    rw [List.foldl_cons, addMarker]
    cases hstore : store use.ref with
    | none => simp only [List.filterMap_cons, hstore, ih]
    | some marker =>
      by_cases hshown : settings.includes marker.time
      · simp only [List.filterMap_cons, hstore, List.filter_cons, hshown, if_true, ih,
          MarkerRow.ofMarkers, List.append_assoc, List.singleton_append]
      · simp only [List.filterMap_cons, hstore, List.filter_cons, hshown, if_false, ih,
          Bool.false_eq_true]

theorem markers_eq_ok {w : Window} (hw : w.stop < UInt64.size) (tid : Int32) (store : MarkerStore)
    (strings : StringTable) (settings : Settings) :
    markers tid w store strings settings =
      .ok (ThreadProfile.markerRows tid w store strings settings) := by
  refine Ensures.eq_ok ((ensures_visit hw (Cursor.at_start w) _ _).bind ?_)
  rintro ⟨current, rows⟩ hvisit
  refine .pure ?_
  have hrows := congrArg Prod.snd hvisit
  rw [Slot.foldl_ownedStep (fun _ _ => rfl), foldl_addMarker] at hrows
  exact hrows

/-! ## Pauses -/

/-- The ranges that have been closed, and the open start of either kind. -/
structure Pauses where
  /-- The ranges. -/
  closed : List PausedRange := []
  /-- The start of an open pause. -/
  paused : Option Binary64 := none
  /-- The start of an open collection. -/
  collecting : Option Binary64 := none

/-- What an entry does to pauses. -/
def Pauses.step (s : Pauses) (slot : Slot) : Pauses :=
  match slot.entry with
  | .pause time => { s with paused := some time }
  | .resume time =>
    { s with closed := s.closed ++ [⟨s.paused, some time, .profilerPaused⟩], paused := none }
  | .collectionStart time => { s with collecting := some time }
  | .collectionEnd time =>
    { s with closed := s.closed ++ [⟨s.collecting, some time, .collecting⟩], collecting := none }
  | _ => s

/-- The ranges of time without samples. -/
def pausedRanges (w : Window) : Guarded (List PausedRange) := do
  let s ← visit Pauses.step {} ⟨w, 0⟩
  return s.closed ++ PausedRange.opened .profilerPaused s.paused
    ++ PausedRange.opened .collecting s.collecting

theorem Pauses.foldl_step (slots : List Slot) (s : Pauses) :
    let last := slots.foldl step s
    last.closed ++ PausedRange.opened .profilerPaused last.paused
        ++ PausedRange.opened .collecting last.collecting =
      s.closed ++ PausedRange.readFrom s.paused s.collecting (slots.map Slot.entry) := by
  induction slots generalizing s with
  | nil => simp [PausedRange.readFrom]
  | cons slot slots ih =>
    obtain ⟨position, entry⟩ := slot
    rw [List.foldl_cons]
    refine (ih _).trans ?_
    cases entry <;> simp [step, PausedRange.readFrom]

theorem pausedRanges_eq_ok {w : Window} (hw : w.stop < UInt64.size) :
    pausedRanges w = .ok (PausedRange.readAll w.entries.toList) := by
  refine Ensures.eq_ok ((ensures_visit hw (Cursor.at_start w) _ _).bind ?_)
  rintro s rfl
  refine .pure ?_
  rw [Pauses.foldl_step, List.nil_append, Window.map_entry_slots]
  rfl

/-! ## Overhead -/

/-- Reads up to `limit` durations. -/
def durations : Nat → Cursor → Guarded (List Binary64 × Cursor)
  | 0, c => return ([], c)
  | limit + 1, c => do
    match ← readIf .overheadDuration Entry.readDouble c with
    | (some duration, c) =>
      let (more, c) ← durations limit c
      return (duration :: more, c)
    | (none, c) => return ([], c)

/-- Reads the turn of the sampler that starts at the next entry, if one does. -/
def overheadRound (settings : Settings) (samples : List OverheadSample) (c : Cursor) :
    Guarded (ForInStep (List OverheadSample × Cursor)) := do
  match ← next c with
  | (some slot, c) =>
    match slot.entry with
    | .overheadTime time =>
      let (durations, c) ← durations 4 c
      if settings.includes time then return .yield (samples ++ [{ time, durations }], c)
      else return .yield (samples, c)
    | _ => return .yield (samples, c)
  | (none, c) => return .done (samples, c)

/-- The turns of the sampler that are shown. -/
def overhead (w : Window) (settings : Settings) : Guarded (List OverheadSample) := do
  let (samples, _) ← loop (overheadRound settings) [] ⟨w, 0⟩
  return samples

theorem reads_overheadDuration :
    Reads .overheadDuration Entry.readDouble Entry.overheadDuration? := by
  intro entry
  cases entry <;> simp [Entry.kind, Entry.readDouble, Entry.overheadDuration?]

theorem ensures_durations {w : Window} (hw : w.stop < UInt64.size) (limit : Nat) {c : Cursor}
    {slots : List Slot} (h : c.At w slots) :
    (durations limit c).Ensures fun p => p.1 = OverheadSample.takeDurations limit slots ∧
      ∃ rest, p.2.At w rest ∧ rest.length ≤ slots.length ∧
        OverheadSample.readAll rest = OverheadSample.readAll slots := by
  induction limit generalizing c slots with
  | zero => exact .pure ⟨rfl, slots, h, Nat.le_refl _, rfl⟩
  | succ limit ih =>
    rw [OverheadSample.takeDurations_succ]
    rcases htake : takeIf Entry.overheadDuration? slots with ⟨_ | duration, behind⟩
    · refine (ensures_readIf_of_eq hw reads_overheadDuration h htake).bind ?_
      rintro ⟨_, c'⟩ ⟨rfl, h'⟩
      obtain rfl := takeIf_eq_none htake
      exact .pure ⟨rfl, behind, h', Nat.le_refl _, rfl⟩
    · refine (ensures_readIf_of_eq hw reads_overheadDuration h htake).bind ?_
      rintro ⟨_, c'⟩ ⟨rfl, h'⟩
      obtain ⟨slot, rfl, hduration⟩ := takeIf_eq_some htake
      refine (ih h').bind ?_
      rintro ⟨_, c''⟩ ⟨rfl, rest, h'', hle, hreadAll⟩
      refine .pure ⟨rfl, rest, h'', Nat.le_succ_of_le hle, ?_⟩
      rw [hreadAll, OverheadSample.readAll_of_overheadDuration hduration]

/-- What is left to do when the turns that are shown are added as they are read. -/
def overheadFrom (settings : Settings) (samples : List OverheadSample) (slots : List Slot) :
    List OverheadSample :=
  samples ++ (OverheadSample.readAll slots).filter fun sample => settings.includes sample.time

theorem ensures_overheadRound {w : Window} (hw : w.stop < UInt64.size) (settings : Settings)
    (samples : List OverheadSample) (c : Cursor) (slots : List Slot) (h : c.At w slots) :
    (overheadRound settings samples c).Ensures (Advances w slots.length
      (overheadFrom settings · · = overheadFrom settings samples slots)
      fun samples' _ => samples' = overheadFrom settings samples slots) := by
  refine (ensures_next hw h).bind ?_
  rintro ⟨_, c₁⟩ ⟨rfl, h₁⟩
  cases slots with
  | nil => exact .pure ⟨[], h₁, (List.append_nil samples).symm⟩
  | cons slot rest =>
    obtain ⟨position, entry⟩ := slot
    cases entry with
    | overheadTime time =>
      refine (ensures_durations hw 4 h₁).bind ?_
      rintro ⟨_, c₂⟩ ⟨rfl, behind, h₂, hle, hreadAll⟩
      have hlt : behind.length < rest.length + 1 := Nat.lt_succ_of_le hle
      simp only
      split
      · next hshown =>
        refine .pure ⟨behind, h₂, hlt, ?_⟩
        simp only [overheadFrom, OverheadSample.readAll, List.filter_cons, hshown, if_true,
          hreadAll, List.append_assoc, List.singleton_append]
        rfl
      · next hshown =>
        refine .pure ⟨behind, h₂, hlt, ?_⟩
        simp only [overheadFrom, OverheadSample.readAll, List.filter_cons, hshown, if_false,
          hreadAll, Bool.false_eq_true]
        rfl
    | _ => exact .pure ⟨rest, h₁, Nat.lt_succ_self _, rfl⟩

theorem overhead_eq_ok {w : Window} (hw : w.stop < UInt64.size) (settings : Settings) :
    overhead w settings = .ok (w.overhead settings) := by
  have hloop := ensures_loop_eq _ (fun s _ => s) (ensures_overheadRound hw settings)
    (Cursor.at_start w) []
  refine Ensures.eq_ok (hloop.bind ?_)
  rintro ⟨samples, c⟩ ⟨rest, -, rfl⟩
  exact .pure (List.nil_append _)

/-! ## Memory -/

/-- Reads the next entry: a time is kept in mind, and a reading is added if it is shown. -/
def memoryRound (settings : Settings) (s : Option Binary64 × List MemorySample) (c : Cursor) :
    Guarded (ForInStep ((Option Binary64 × List MemorySample) × Cursor)) := do
  match ← next c with
  | (some slot, c) =>
    match slot.entry with
    | .time time => return .yield ((some time, s.2), c)
    | .residentMemory resident =>
      let (unshared, c) ← readIf .unsharedMemory Entry.readUInt64 c
      let shown := MemoryReading.shown? settings ⟨slot.position, s.1, resident, unshared⟩
      return .yield ((s.1, s.2 ++ shown.toList), c)
    | _ => return .yield (s, c)
  | (none, c) => return .done (s, c)

/-- The table of the readings that are shown, if there are any. -/
def memory (w : Window) (settings : Settings) : Guarded (Option MemoryTable) := do
  let ((_, samples), _) ← loop (memoryRound settings) (none, []) ⟨w, 0⟩
  return samples.head?.map fun first => ⟨first.resident, samples⟩

theorem reads_unsharedMemory :
    Reads .unsharedMemory Entry.readUInt64 Entry.unsharedMemory? := by
  intro entry
  cases entry <;> simp [Entry.kind, Entry.readUInt64, Entry.unsharedMemory?]

/-- What is left to do when the readings that are shown are added as they are read. -/
def memoryFrom (settings : Settings) (s : Option Binary64 × List MemorySample)
    (slots : List Slot) : List MemorySample :=
  s.2 ++ (MemoryReading.readFrom s.1 slots).filterMap (MemoryReading.shown? settings)

theorem ensures_memoryRound {w : Window} (hw : w.stop < UInt64.size) (settings : Settings)
    (s : Option Binary64 × List MemorySample) (c : Cursor) (slots : List Slot) (h : c.At w slots) :
    (memoryRound settings s c).Ensures (Advances w slots.length
      (memoryFrom settings · · = memoryFrom settings s slots)
      fun s' _ => s'.2 = memoryFrom settings s slots) := by
  obtain ⟨last, samples⟩ := s
  refine (ensures_next hw h).bind ?_
  rintro ⟨_, c₁⟩ ⟨rfl, h₁⟩
  cases slots with
  | nil => exact .pure ⟨[], h₁, (List.append_nil samples).symm⟩
  | cons slot rest =>
    obtain ⟨position, entry⟩ := slot
    cases entry with
    | residentMemory resident =>
      refine (ensures_readIf hw reads_unsharedMemory h₁).bind ?_
      rintro ⟨_, c₂⟩ ⟨rfl, h₂⟩
      have hle := length_takeIf_le Entry.unsharedMemory? rest
      refine .pure ⟨_, h₂, Nat.lt_succ_of_le hle, ?_⟩
      simp only [memoryFrom, MemoryReading.readFrom, MemoryReading.readFrom_takeIf, List.tail_cons]
      generalize MemoryReading.mk position last resident _ = reading
      cases hshown : MemoryReading.shown? settings reading <;> simp [hshown]
    | _ => exact .pure ⟨rest, h₁, Nat.lt_succ_self _, rfl⟩

theorem memory_eq_ok {w : Window} (hw : w.stop < UInt64.size) (settings : Settings) :
    memory w settings = .ok (w.memory settings) := by
  have hloop := ensures_loop_eq _ (fun s _ => s.2) (ensures_memoryRound hw settings)
    (Cursor.at_start w) (none, [])
  refine Ensures.eq_ok (hloop.bind ?_)
  rintro ⟨⟨last, samples⟩, c⟩ ⟨rest, -, hsamples⟩
  have hshown : samples = w.memorySamples settings := hsamples
  refine .pure ?_
  rw [Window.memory, ← hshown]
  cases samples <;> rfl

end Guarded

end TraceProfile
