import TraceProfile.Proofs.Guarded.Samples
import TraceProfile.Proofs.Reading.Counters
import TraceProfile.Proofs.Table.Distinct

/-!
# Counters without faults

The counters stand in an array, and a search tree has the index of each by its id; within a counter
so do the groups, by key. Array and tree are changed one after the other, so that an index which the
tree gives is one of the array has to be kept up (`Shelf.Holds`). The values are read by a loop
within a loop, and the inner one also ends at a key without a count.
-/

namespace TraceProfile

/-! ## Arrays with an index -/

/-- Things in an array, and the index of each by its key. -/
structure Shelf (β : Type) where
  /-- The things. -/
  items : Array β := #[]
  /-- The indices. -/
  indices : Std.TreeMap UInt64 Nat := ∅

/-- There is one thing for each of the keys, it is found by its key, and it is as said. -/
structure Shelf.Holds {β : Type} (t : Shelf β) (keys : Interner UInt64)
    (good : UInt64 → β → Prop) : Prop where
  indices_eq : t.indices = keys.indices
  size_eq : t.items.size = keys.size
  good : ∀ index key item, keys.get? index = some key → t.items[index]? = some item →
    good key item

namespace Shelf

variable {β γ : Type} {t : Shelf β} {keys : Interner UInt64} {good : UInt64 → β → Prop}

theorem holds_empty (good : UInt64 → β → Prop) : ({} : Shelf β).Holds {} good where
  indices_eq := rfl
  size_eq := rfl
  good := fun index key item _ hitem => absurd hitem (by simp)

/-- One more key has been asked for. -/
theorem Holds.concat {α : Type} {key : α → UInt64} {l : List α} {a : α}
    (h : t.Holds ((Interner.ofList (l.map key)).insert (key a)) good) :
    t.Holds (.ofList ((l ++ [a]).map key)) good := by
  rw [List.map_append, List.map_singleton, Interner.ofList_concat]
  exact h

/-- What comes out is determined by the keys, if each thing is by its key. -/
theorem Holds.map_eq (h : t.Holds keys good) (finish : β → γ) {f : UInt64 → γ}
    (hf : ∀ key item, good key item → finish item = f key) :
    t.items.toList.map finish = keys.toList.map f := by
  refine List.ext_getElem? fun index => ?_
  rw [List.getElem?_map, List.getElem?_map, ← Interner.get?_eq_getElem?, Array.getElem?_toList]
  cases hkey : keys.get? index with
  | none =>
    have hsize := Array.getElem?_eq_none_iff.1 hkey
    rw [Array.getElem?_eq_none (h.size_eq ▸ hsize)]
    rfl
  | some key =>
    obtain ⟨hlt, -⟩ := Array.getElem?_eq_some_iff.1 hkey
    have hitem : t.items[index]? = some _ := Array.getElem?_eq_getElem (h.size_eq ▸ hlt)
    rw [hitem]
    exact congrArg some (hf key _ (h.good index key _ hkey hitem))

end Shelf

namespace Guarded

variable {β : Type}

/-- The index of the thing that a key belongs to. If there is none, a fresh one is put at the
end. -/
def indexOf (t : Shelf β) (key : UInt64) (fresh : β) : Guarded (Nat × Shelf β) :=
  match t.indices[key]? with
  | some index => return (index, t)
  | none => do
    let items := t.items.push fresh
    let index ← sub items.size 1
    return (index, { items, indices := t.indices.insert key index })

/-- Changes the thing that a key belongs to. -/
def modify (t : Shelf β) (key : UInt64) (fresh : β) (change : β → Guarded β) :
    Guarded (Shelf β) := do
  let (index, t) ← indexOf t key fresh
  let item ← get t.items index
  let item ← change item
  return { t with items := t.items.setIfInBounds index item }

section

variable {t : Shelf β} {keys : Interner UInt64} {good : UInt64 → β → Prop}

theorem ensures_indexOf (h : t.Holds keys good) {key : UInt64} {fresh : β}
    (hfresh : key ∉ keys.toList → good key fresh) :
    (indexOf t key fresh).Ensures fun p =>
      (keys.insert key).get? p.1 = some key ∧ p.2.Holds (keys.insert key) good := by
  rw [indexOf, h.indices_eq]
  cases hindex : keys.indices[key]? with
  | some index =>
    have hkey := (keys.getElem?_indices key index).1 hindex
    have hmem : key ∈ keys.toList := by
      rw [List.mem_iff_getElem?]
      exact ⟨index, by rw [← Interner.get?_eq_getElem?]; exact hkey⟩
    rw [Interner.insert_of_mem hmem]
    exact .pure ⟨hkey, h⟩
  | none =>
    have hnew : ¬keys.contains key := by simp [Interner.contains, hindex]
    have hmem : key ∉ keys.toList := mt Interner.contains_iff.2 hnew
    rw [Interner.insert, dif_neg hnew]
    obtain ⟨items, indices⟩ := t
    obtain ⟨hindices, hsize, hgood⟩ := h
    obtain ⟨keyItems, keyIndices, hkeys⟩ := keys
    simp only [Interner.size] at hindices hsize
    have hpos : 1 ≤ (items.push fresh).size := by
      rw [Array.size_push]
      exact Nat.succ_pos _
    refine (ensures_sub hpos).bind ?_
    rintro _ rfl
    rw [Array.size_push, Nat.add_sub_cancel, hsize]
    refine .pure ⟨Array.getElem?_push_size, ?_, ?_, ?_⟩
    · simp only [Interner.push]
    · simp only [Interner.push, Interner.size, Array.size_push, hsize]
    · intro index key' item hkey' hitem
      simp only [Interner.push, Interner.get?, Array.getElem?_push, hsize] at hkey' hitem
      split at hkey'
      · next hlast =>
        rw [if_pos hlast] at hitem
        obtain rfl := Option.some.inj hkey'
        obtain rfl := Option.some.inj hitem
        exact hfresh hmem
      · next hlast =>
        rw [if_neg hlast] at hitem
        exact hgood index key' item hkey' hitem

theorem ensures_modify (good' : UInt64 → β → Prop) (h : t.Holds keys good) {key : UInt64}
    {fresh : β} {change : β → Guarded β} (hfresh : key ∉ keys.toList → good key fresh)
    (hchange : ∀ item, good key item → (change item).Ensures (good' key))
    (hothers : ∀ key' item, key' ≠ key → good key' item → good' key' item) :
    (modify t key fresh change).Ensures (·.Holds (keys.insert key) good') := by
  refine (ensures_indexOf h hfresh).bind ?_
  rintro ⟨index, t'⟩ ⟨hkey, hindices, hsize, hgood⟩
  simp only at hkey hindices hsize hgood
  obtain ⟨hlt, -⟩ := Array.getElem?_eq_some_iff.1 hkey
  have hitem : t'.items[index]? = some _ := Array.getElem?_eq_getElem (hsize ▸ hlt)
  refine (ensures_get hitem).bind ?_
  rintro _ rfl
  refine (hchange _ (hgood index key _ hkey hitem)).bind ?_
  intro changed hchanged
  refine .pure ⟨hindices, (Array.size_setIfInBounds ..).trans hsize, ?_⟩
  intro index' key' item hkey' hitem'
  by_cases hsame : index = index'
  · subst hsame
    obtain rfl := Option.some.inj (hkey.symm.trans hkey')
    rw [Array.getElem?_setIfInBounds_self_of_lt (hsize ▸ hlt)] at hitem'
    obtain rfl := Option.some.inj hitem'
    exact hchanged
  · rw [Array.getElem?_setIfInBounds_ne hsame] at hitem'
    refine hothers key' item ?_ (hgood index' key' item hkey' hitem')
    rintro rfl
    have hindex := ((keys.insert key').getElem?_indices key' index).2 hkey
    have hindex' := ((keys.insert key').getElem?_indices key' index').2 hkey'
    exact hsame (Option.some.inj (hindex.symm.trans hindex'))

end

end Guarded

/-! ## Counters that are being collected -/

/-- A counter to which values are being added. -/
structure CounterDraft where
  /-- The id. -/
  id : UInt64
  /-- What the counter is. -/
  description : CounterDescription
  /-- The groups, by key. -/
  groups : Shelf CounterGroup := {}

/-- The counter with the values added so far. -/
def CounterDraft.finish (draft : CounterDraft) : Counter where
  id := draft.id
  description := draft.description
  groups := draft.groups.items.toList

/-- The group holds the values that were recorded under the key. -/
def CounterGroup.Collects (records : List CounterRecord) (key : UInt64) (group : CounterGroup) :
    Prop :=
  group = { key, samples := (records.filter (·.key == key)).map CounterRecord.sample }

/-- The groups are those of the recorded values. -/
def CounterGroup.Sorts (records : List CounterRecord) (groups : Shelf CounterGroup) : Prop :=
  groups.Holds (.ofList (records.map CounterRecord.key)) (Collects records)

/-- The counter is made from the values that were recorded for the id. -/
structure CounterDraft.Collects (descriptions : CounterDescriptions) (records : List CounterRecord)
    (id : UInt64) (draft : CounterDraft) : Prop where
  id_eq : draft.id = id
  description_eq : draft.description = (descriptions id).getD (.ofId id)
  groups : CounterGroup.Sorts (records.filter (·.id == id)) draft.groups

/-- The counters are those of the recorded values. -/
def CounterDraft.Sorts (descriptions : CounterDescriptions) (records : List CounterRecord)
    (counters : Shelf CounterDraft) : Prop :=
  counters.Holds (.ofList (records.map CounterRecord.id)) (Collects descriptions records)

theorem CounterDraft.sorts_nil (descriptions : CounterDescriptions) :
    CounterDraft.Sorts descriptions [] {} := Shelf.holds_empty _

theorem CounterGroup.Sorts.toList_eq {records : List CounterRecord} {groups : Shelf CounterGroup}
    (h : Sorts records groups) : groups.items.toList = ofRecords records := by
  have hmap := Shelf.Holds.map_eq h id (fun key group hgroup => hgroup)
  rw [List.map_id, Interner.toList_ofList] at hmap
  rw [hmap, ofRecords_eq]

theorem CounterDraft.Sorts.map_finish_eq {descriptions : CounterDescriptions}
    {records : List CounterRecord} {counters : Shelf CounterDraft}
    (h : Sorts descriptions records counters) :
    counters.items.toList.map finish = Counter.ofRecords descriptions records := by
  have hfinish : ∀ id draft, Collects descriptions records id draft → finish draft =
      { id
        description := (descriptions id).getD (.ofId id)
        groups := CounterGroup.ofRecords (records.filter (·.id == id)) } := by
    intro id draft hdraft
    rw [finish, hdraft.id_eq, hdraft.description_eq, hdraft.groups.toList_eq]
  have hmap := Shelf.Holds.map_eq h finish hfinish
  rw [Interner.toList_ofList] at hmap
  simp only [hmap, Counter.ofRecords_eq, CounterGroup.ofRecords_eq]

/-! ## Runs, entry by entry -/

namespace Entry

/-- The key of a value, if the entry holds one. -/
def counterKey? : Entry → Option UInt64
  | counterKey key => some key
  | _ => none

/-- The count of a value, if the entry holds one. -/
def count? : Entry → Option Int64
  | count n => some n
  | _ => none

/-- The number of changes, if the entry holds one. -/
def number? : Entry → Option UInt64
  | number n => some n
  | _ => none

theorem counterKey?_eq_some_iff {entry : Entry} {key : UInt64} :
    entry.counterKey? = some key ↔ entry = .counterKey key := by
  cases entry <;> simp [counterKey?]

theorem count?_eq_some_iff {entry : Entry} {n : Int64} :
    entry.count? = some n ↔ entry = .count n := by
  cases entry <;> simp [count?]

end Entry

namespace CounterRun

theorem readValues_of_no_key {slots : List Slot}
    (h : (takeIf Entry.counterKey? slots).1 = none) :
    (readValues slots).1 = [] ∧ behindValues slots = slots := by
  cases slots with
  | nil => exact ⟨rfl, rfl⟩
  | cons slot rest =>
    obtain ⟨position, entry⟩ := slot
    cases entry with
    | counterKey key => exact absurd h (by simp [takeIf, Entry.counterKey?])
    | _ => exact ⟨rfl, rfl⟩

theorem readValues_of_no_count {rest : List Slot} (h : (takeIf Entry.count? rest).1 = none)
    (position : Nat) (key : UInt64) :
    (readValues (⟨position, .counterKey key⟩ :: rest)).1 = [] ∧
      behindValues (⟨position, .counterKey key⟩ :: rest) = rest := by
  cases rest with
  | nil => exact ⟨rfl, rfl⟩
  | cons slot rest =>
    obtain ⟨position', entry⟩ := slot
    cases entry with
    | count n => exact absurd h (by simp [takeIf, Entry.count?])
    | _ => exact ⟨rfl, rfl⟩

theorem readValues_of_count (position position' : Nat) (key : UInt64) (count : Int64)
    (rest : List Slot) :
    (readValues (⟨position, .counterKey key⟩ :: ⟨position', .count count⟩ :: rest)).1 =
        ⟨key, count, (takeIf Entry.number? rest).1⟩ ::
          (readValues (takeIf Entry.number? rest).2).1 ∧
      behindValues (⟨position, .counterKey key⟩ :: ⟨position', .count count⟩ :: rest) =
        behindValues (takeIf Entry.number? rest).2 := by
  cases rest with
  | nil => exact ⟨rfl, rfl⟩
  | cons slot rest =>
    obtain ⟨position'', entry⟩ := slot
    cases entry <;> exact ⟨rfl, rfl⟩

theorem readOn_of_ne {slot : Slot} (h : ∀ id, slot.entry ≠ .counterId id) (rest : List Slot) :
    readOn (slot :: rest) = readOn rest := by
  rw [readOn_eq, readOn_eq, readAll_cons_of_ne h]

theorem readOn_of_untimed {rest : List Slot} (h : (takeIf Entry.time? rest).1 = none)
    (position : Nat) (id : UInt64) :
    readOn (⟨position, .counterId id⟩ :: rest) = ⟨position, id, none, [], none⟩ :: readOn rest := by
  rw [readOn]
  rintro timePosition time more rfl
  exact absurd h (by simp [takeIf, Entry.time?])

end CounterRun

namespace Guarded

/-- Adds a value to a counter. -/
def addSample (draft : CounterDraft) (key : UInt64) (sample : CounterSample) :
    Guarded CounterDraft := do
  let groups ← modify draft.groups key { key, samples := [] } fun group =>
    return { group with samples := group.samples ++ [sample] }
  return { draft with groups }

/-- Adds a value to the counter that it was recorded for. -/
def record (descriptions : CounterDescriptions) (counters : Shelf CounterDraft)
    (r : CounterRecord) : Guarded (Shelf CounterDraft) :=
  let fresh : CounterDraft := { id := r.id, description := (descriptions r.id).getD (.ofId r.id) }
  modify counters r.id fresh fun draft => addSample draft r.key r.sample

theorem ensures_addSample {records : List CounterRecord} {draft : CounterDraft}
    (h : CounterGroup.Sorts records draft.groups) (r : CounterRecord) :
    (addSample draft r.key r.sample).Ensures fun draft' =>
      draft'.id = draft.id ∧ draft'.description = draft.description ∧
        CounterGroup.Sorts (records ++ [r]) draft'.groups := by
  refine (ensures_modify (CounterGroup.Collects (records ++ [r])) h ?_ ?_ ?_).bind ?_
  · intro hnew
    rw [Interner.toList_ofList, List.mem_eraseDups] at hnew
    rw [CounterGroup.Collects, filter_eq_nil_of_not_mem_map hnew]
    rfl
  · rintro _ rfl
    refine .pure ?_
    rw [CounterGroup.Collects, filter_beq_concat_self, List.map_append]
    rfl
  · rintro key _ hkey rfl
    rw [CounterGroup.Collects, filter_beq_concat_of_ne hkey]
  · intro groups hgroups
    exact .pure ⟨rfl, rfl, hgroups.concat⟩

theorem ensures_record {descriptions : CounterDescriptions} {records : List CounterRecord}
    {counters : Shelf CounterDraft} (h : CounterDraft.Sorts descriptions records counters)
    (r : CounterRecord) :
    (record descriptions counters r).Ensures
      (CounterDraft.Sorts descriptions (records ++ [r])) := by
  refine (ensures_modify (CounterDraft.Collects descriptions (records ++ [r]))
    h ?_ ?_ ?_).mono fun _ => Shelf.Holds.concat
  · intro hnew
    rw [Interner.toList_ofList, List.mem_eraseDups] at hnew
    refine ⟨rfl, rfl, ?_⟩
    rw [filter_eq_nil_of_not_mem_map hnew]
    exact Shelf.holds_empty _
  · intro draft hdraft
    refine (ensures_addSample hdraft.groups r).mono ?_
    rintro draft' ⟨hid, hdescription, hgroups⟩
    refine ⟨hid.trans hdraft.id_eq, hdescription.trans hdraft.description_eq, ?_⟩
    rw [filter_beq_concat_self]
    exact hgroups
  · intro id draft hid hdraft
    refine ⟨hdraft.id_eq, hdraft.description_eq, ?_⟩
    rw [filter_beq_concat_of_ne hid]
    exact hdraft.groups

/-! ## Values -/

/-- Reads one value of a counter, and adds it if it is shown. -/
def valueRound (descriptions : CounterDescriptions) (settings : Settings) (id : UInt64)
    (time : Binary64) (counters : Shelf CounterDraft) (c : Cursor) :
    Guarded (ForInStep (Shelf CounterDraft × Cursor)) := do
  match ← readIf .counterKey Entry.readUInt64 c with
  | (some key, c) =>
    match ← readIf .count Entry.readInt64 c with
    | (some count, c) =>
      let (number, c) ← readIf .number Entry.readUInt64 c
      if settings.includes time then
        let counters ← record descriptions counters { id, key, sample := { time, number, count } }
        return .yield (counters, c)
      else return .yield (counters, c)
    | (none, c) => return .done (counters, c)
  | (none, c) => return .done (counters, c)

/-- Reads the run that starts at the next entry, if one does. -/
def counterRound (descriptions : CounterDescriptions) (settings : Settings)
    (counters : Shelf CounterDraft) (c : Cursor) :
    Guarded (ForInStep (Shelf CounterDraft × Cursor)) := do
  match ← next c with
  | (some slot, c) =>
    match slot.entry with
    | .counterId id =>
      match ← readIf .time Entry.readDouble c with
      | (some time, c) =>
        let (counters, c) ← loop (valueRound descriptions settings id time) counters c
        return .yield (counters, c)
      | (none, c) => return .yield (counters, c)
    | _ => return .yield (counters, c)
  | (none, c) => return .done (counters, c)

/-- The counters that have a value that is shown. -/
def counters (w : Window) (descriptions : CounterDescriptions) (settings : Settings) :
    Guarded (List Counter) := do
  let (counters, _) ← loop (counterRound descriptions settings) {} ⟨w, 0⟩
  return counters.items.toList.map CounterDraft.finish

theorem reads_counterKey : Reads .counterKey Entry.readUInt64 Entry.counterKey? := by
  intro entry
  cases entry <;> simp [Entry.kind, Entry.readUInt64, Entry.counterKey?]

theorem reads_count : Reads .count Entry.readInt64 Entry.count? := by
  intro entry
  cases entry <;> simp [Entry.kind, Entry.readInt64, Entry.count?]

theorem reads_number : Reads .number Entry.readUInt64 Entry.number? := by
  intro entry
  cases entry <;> simp [Entry.kind, Entry.readUInt64, Entry.number?]

/-- The values of a run that are shown. -/
def shownValues (settings : Settings) (id : UInt64) (time : Binary64)
    (values : List CounterValue) : List CounterRecord :=
  (values.map fun v => ⟨id, v.key, ⟨time, v.number, v.count⟩⟩).filter fun r =>
    settings.includes r.sample.time

section

variable {w : Window} (hw : w.stop < UInt64.size) (descriptions : CounterDescriptions)
  (settings : Settings)

include hw

theorem ensures_valueRound (id : UInt64) (time : Binary64) {counters : Shelf CounterDraft}
    {records : List CounterRecord} (hsorts : CounterDraft.Sorts descriptions records counters)
    {c : Cursor} {slots : List Slot} (h : c.At w slots) :
    (valueRound descriptions settings id time counters c).Ensures (Advances w slots.length
      (fun counters' rest => ∃ records', CounterDraft.Sorts descriptions records' counters' ∧
        records' ++ shownValues settings id time (CounterRun.readValues rest).1 =
          records ++ shownValues settings id time (CounterRun.readValues slots).1 ∧
        CounterRun.behindValues rest = CounterRun.behindValues slots)
      fun counters' rest => CounterDraft.Sorts descriptions
          (records ++ shownValues settings id time (CounterRun.readValues slots).1) counters' ∧
        rest = CounterRun.behindValues slots) := by
  rcases hkey : takeIf Entry.counterKey? slots with ⟨_ | key, rest⟩
  · refine (ensures_readIf_of_eq hw reads_counterKey h hkey).bind ?_
    rintro ⟨_, c₁⟩ ⟨rfl, h₁⟩
    obtain rfl := takeIf_eq_none hkey
    obtain ⟨hvalues, hbehind⟩ := CounterRun.readValues_of_no_key (congrArg Prod.fst hkey)
    refine .pure ⟨rest, h₁, ?_, hbehind.symm⟩
    rw [hvalues]
    exact (List.append_nil records).symm ▸ hsorts
  refine (ensures_readIf_of_eq hw reads_counterKey h hkey).bind ?_
  rintro ⟨_, c₁⟩ ⟨rfl, h₁⟩
  obtain ⟨⟨position, _⟩, rfl, hslot⟩ := takeIf_eq_some hkey
  obtain rfl := Entry.counterKey?_eq_some_iff.1 hslot
  rcases hcount : takeIf Entry.count? rest with ⟨_ | count, rest'⟩
  · refine (ensures_readIf_of_eq hw reads_count h₁ hcount).bind ?_
    rintro ⟨_, c₂⟩ ⟨rfl, h₂⟩
    obtain rfl := takeIf_eq_none hcount
    obtain ⟨hvalues, hbehind⟩ :=
      CounterRun.readValues_of_no_count (congrArg Prod.fst hcount) position key
    refine .pure ⟨rest', h₂, ?_, hbehind.symm⟩
    rw [hvalues]
    exact (List.append_nil records).symm ▸ hsorts
  refine (ensures_readIf_of_eq hw reads_count h₁ hcount).bind ?_
  rintro ⟨_, c₂⟩ ⟨rfl, h₂⟩
  obtain ⟨⟨position', _⟩, rfl, hslot⟩ := takeIf_eq_some hcount
  obtain rfl := Entry.count?_eq_some_iff.1 hslot
  obtain ⟨hvalues, hbehind⟩ := CounterRun.readValues_of_count position position' key count rest'
  refine (ensures_readIf hw reads_number h₂).bind ?_
  rintro ⟨_, c₃⟩ ⟨rfl, h₃⟩
  have hlt : (takeIf Entry.number? rest').2.length < rest'.length + 1 + 1 := by
    have hle := length_takeIf_le Entry.number? rest'
    omega
  rw [hvalues, hbehind]
  simp only
  split
  · next hshown =>
    refine (ensures_record hsorts _).bind ?_
    intro counters' hsorts'
    refine .pure ⟨_, h₃, hlt, _, hsorts', ?_, rfl⟩
    simp [shownValues, hshown]
  · next hshown =>
    refine .pure ⟨_, h₃, hlt, _, hsorts, ?_, rfl⟩
    simp [shownValues, hshown]

theorem ensures_values (id : UInt64) (time : Binary64) {counters : Shelf CounterDraft}
    {records : List CounterRecord} (hsorts : CounterDraft.Sorts descriptions records counters)
    {c : Cursor} {slots : List Slot} (h : c.At w slots) :
    (loop (valueRound descriptions settings id time) counters c).Ensures fun p =>
      p.2.At w (CounterRun.behindValues slots) ∧ CounterDraft.Sorts descriptions
        (records ++ shownValues settings id time (CounterRun.readValues slots).1) p.1 := by
  have hloop := ensures_loop (valueRound descriptions settings id time)
    (fun counters' rest => ∃ records',
      CounterDraft.Sorts descriptions records' counters' ∧
      records' ++ shownValues settings id time (CounterRun.readValues rest).1 =
        records ++ shownValues settings id time (CounterRun.readValues slots).1 ∧
      CounterRun.behindValues rest = CounterRun.behindValues slots)
    (fun counters' rest => CounterDraft.Sorts descriptions
        (records ++ shownValues settings id time (CounterRun.readValues slots).1) counters' ∧
      rest = CounterRun.behindValues slots) ?_ h ⟨records, hsorts, rfl, rfl⟩
  · refine hloop.mono ?_
    rintro ⟨counters', c'⟩ ⟨rest, h', hsorts', rfl⟩
    exact ⟨h', hsorts'⟩
  · rintro counters' c' slots' h' ⟨records', hsorts', hrecords, hbehind⟩
    rw [← hrecords, ← hbehind]
    exact ensures_valueRound hw descriptions settings id time hsorts' h'

/-- The values that are shown of the runs that are left. -/
def shownRecords (settings : Settings) (slots : List Slot) : List CounterRecord :=
  ((CounterRun.readOn slots).flatMap CounterRun.records).filter fun r =>
    settings.includes r.sample.time

theorem ensures_counterRound {counters : Shelf CounterDraft}
    {records : List CounterRecord} (hsorts : CounterDraft.Sorts descriptions records counters)
    {c : Cursor} {slots : List Slot} (h : c.At w slots) :
    (counterRound descriptions settings counters c).Ensures (Advances w slots.length
      (fun counters' rest => ∃ records', CounterDraft.Sorts descriptions records' counters' ∧
        records' ++ shownRecords settings rest = records ++ shownRecords settings slots)
      fun counters' _ =>
        CounterDraft.Sorts descriptions (records ++ shownRecords settings slots) counters') := by
  refine (ensures_next hw h).bind ?_
  rintro ⟨_, c₁⟩ ⟨rfl, h₁⟩
  cases slots with
  | nil =>
    refine .pure ⟨[], h₁, ?_⟩
    simpa [shownRecords, CounterRun.readOn] using hsorts
  | cons slot rest =>
    obtain ⟨position, entry⟩ := slot
    have h₁ : c₁.At w rest := h₁
    simp only [List.head?_cons]
    split
    · next id =>
      rcases htime : takeIf Entry.time? rest with ⟨_ | time, behind⟩
      · refine (ensures_readIf_of_eq hw reads_time h₁ htime).bind ?_
        rintro ⟨_, c₂⟩ ⟨rfl, h₂⟩
        obtain rfl := takeIf_eq_none htime
        refine .pure ⟨behind, h₂, Nat.lt_succ_self _, records, hsorts, ?_⟩
        rw [shownRecords, shownRecords,
          CounterRun.readOn_of_untimed (congrArg Prod.fst htime)]
        rfl
      · refine (ensures_readIf_of_eq hw reads_time h₁ htime).bind ?_
        rintro ⟨_, c₂⟩ ⟨rfl, h₂⟩
        obtain ⟨⟨timePosition, _⟩, rfl, hslot⟩ := takeIf_eq_some htime
        obtain rfl := Entry.time?_eq_some_iff.1 hslot
        refine (ensures_values hw descriptions settings id time hsorts h₂).bind ?_
        rintro ⟨counters', c₃⟩ ⟨h₃, hsorts'⟩
        have hlt : (CounterRun.behindValues behind).length < behind.length + 1 + 1 := by
          have hle := CounterRun.length_behindValues_le behind
          omega
        refine .pure ⟨_, h₃, hlt, _, hsorts', ?_⟩
        rw [shownRecords, shownRecords, CounterRun.readOn]
        simp [shownValues, CounterRun.records]
    · next hcounter =>
      refine .pure ⟨rest, h₁, Nat.lt_succ_self _, records, hsorts, ?_⟩
      rw [shownRecords, shownRecords, CounterRun.readOn_of_ne hcounter]

end

/-- The counters are read without a fault. -/
theorem counters_eq_ok {w : Window} (hw : w.stop < UInt64.size) (descriptions : CounterDescriptions)
    (settings : Settings) :
    counters w descriptions settings = .ok (w.counters descriptions settings) := by
  have hloop := ensures_loop (counterRound descriptions settings)
    (fun counters' rest => ∃ records',
      CounterDraft.Sorts descriptions records' counters' ∧
      records' ++ shownRecords settings rest = shownRecords settings w.slots)
    (fun counters' _ =>
      CounterDraft.Sorts descriptions (shownRecords settings w.slots) counters')
    ?_ (Cursor.at_start w) ⟨[], CounterDraft.sorts_nil descriptions, rfl⟩
  · refine Ensures.eq_ok (hloop.bind ?_)
    rintro ⟨counters', c⟩ ⟨rest, -, hsorts⟩
    refine .pure ?_
    rw [hsorts.map_finish_eq, shownRecords, CounterRun.readOn_eq]
    rfl
  · rintro counters' c slots h ⟨records, hsorts, hrecords⟩
    rw [← hrecords]
    exact ensures_counterRound hw descriptions settings hsorts h

end Guarded

end TraceProfile
