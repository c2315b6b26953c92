import TraceProfile.Proofs.Buffer.Tail
import TraceProfile.Reading.Counter

/-!
# Runs of counter values

Which values belong to a run is said without a reader: they are those whose entries make up the
longest beginning of what stands behind the counter and its time (`CounterValue.LongestRun`). There
is one such run, and it is the one that is read. A key without a count is no value, so it ends the
run and the values before it stay.

Runs are found by trying every slot. A reader that goes on behind each run instead
(`CounterRun.readOn`) misses none, since no entry that it passes over is a counter entry.
-/

namespace TraceProfile

/-! ## The longest run -/

namespace CounterValue

/-- The entries that a value is recorded by. -/
def entries (v : CounterValue) : List Entry :=
  .counterKey v.key :: .count v.count :: v.number.toList.map .number

/-- The values are those of the longest run at the front of the entries. -/
structure LongestRun (values : List CounterValue) (recorded : List Entry) : Prop where
  stands : values.flatMap entries <+: recorded
  longest : ∀ more : List CounterValue, more.flatMap entries <+: recorded →
    more.flatMap entries <+: values.flatMap entries

variable {v v' : CounterValue} {values values' : List CounterValue} {recorded : List Entry}

/-- A run starts with a key. -/
theorem counterKey_of_stands {first : Entry}
    (h : (v :: values).flatMap entries <+: first :: recorded) : first = .counterKey v.key := by
  rw [List.flatMap_cons, entries, List.cons_append, List.cons_prefix_cons] at h
  exact h.1.symm

/-- In a run, the key is followed by the count. -/
theorem count_of_stands {first second : Entry}
    (h : (v :: values).flatMap entries <+: first :: second :: recorded) :
    second = .count v.count := by
  rw [List.flatMap_cons, entries, List.cons_append, List.cons_append, List.cons_prefix_cons,
    List.cons_prefix_cons] at h
  exact h.2.1.symm

/-- What follows key and count in a run. -/
theorem rest_of_stands {first second : Entry}
    (h : (v :: values).flatMap entries <+: first :: second :: recorded) :
    v.number.toList.map .number ++ values.flatMap entries <+: recorded := by
  rw [List.flatMap_cons, entries, List.cons_append, List.cons_append, List.cons_prefix_cons,
    List.cons_prefix_cons] at h
  exact h.2.2

/-- Two runs of the same entries are the same values: a value that has no number is followed by a
key, if by anything. -/
theorem flatMap_entries_inj (h : values.flatMap entries = values'.flatMap entries) :
    values = values' := by
  induction values generalizing values' with
  | nil =>
    cases values' with
    | nil => rfl
    | cons v' values' => exact absurd h (by simp [entries])
  | cons v values ih =>
    cases values' with
    | nil => exact absurd h (by simp [entries])
    | cons v' values' =>
      obtain ⟨key, count, number⟩ := v
      obtain ⟨key', count', number'⟩ := v'
      simp only [List.flatMap_cons, entries, List.cons_append, List.cons.injEq,
        Entry.counterKey.injEq, Entry.count.injEq] at h
      obtain ⟨rfl, rfl, hrest⟩ := h
      cases number with
      | some n =>
        cases number' with
        | some n' =>
          simp only [Option.toList_some, List.map_cons, List.map_nil, List.cons_append,
            List.nil_append, List.cons.injEq, Entry.number.injEq] at hrest
          obtain ⟨rfl, hvalues⟩ := hrest
          rw [ih hvalues]
        | none => cases values' <;> exact absurd hrest (by simp [entries])
      | none =>
        cases number' with
        | some n' => cases values <;> exact absurd hrest (by simp [entries])
        | none => rw [ih hrest]

/-- There is one longest run. -/
theorem LongestRun.unique (h : LongestRun values recorded) (h' : LongestRun values' recorded) :
    values = values' := by
  have hle := h'.longest values h.stands
  have hge := h.longest values' h'.stands
  exact flatMap_entries_inj (hle.eq_of_length_le hge.length_le)

/-- Where no run starts, the longest one is empty. -/
theorem longestRun_nil
    (h : ∀ (v : CounterValue) (values : List CounterValue),
      ¬(v :: values).flatMap entries <+: recorded) :
    LongestRun [] recorded where
  stands := List.nil_prefix
  longest := by
    intro more hmore
    cases more with
    | nil => exact List.nil_prefix
    | cons v values => exact absurd hmore (h v values)

/-- A value that has its number is followed by the longest run of what is left. -/
theorem LongestRun.cons_number (h : LongestRun values recorded) (key : UInt64) (count : Int64)
    (number : UInt64) :
    LongestRun (⟨key, count, some number⟩ :: values)
      (.counterKey key :: .count count :: .number number :: recorded) where
  stands := by
    rw [List.flatMap_cons]
    exact (List.prefix_append_right_inj [.counterKey key, .count count, .number number]).2 h.stands
  longest := by
    intro more hmore
    cases more with
    | nil => exact List.nil_prefix
    | cons v more =>
      obtain rfl := Entry.counterKey.inj (counterKey_of_stands hmore)
      obtain rfl := Entry.count.inj (count_of_stands hmore)
      have hrest := rest_of_stands hmore
      obtain ⟨key, count, number'⟩ := v
      cases number' with
      | some n =>
        obtain ⟨heq, hmore'⟩ := List.cons_prefix_cons.1 hrest
        obtain rfl := Entry.number.inj heq
        have hlongest := h.longest more hmore'
        exact (List.prefix_append_right_inj [.counterKey key, .count count, .number n]).2 hlongest
      | none =>
        -- A number starts no value, so a run that leaves it out ends before it.
        cases more with
        | nil => exact ⟨.number number :: values.flatMap entries, rfl⟩
        | cons v' more => exact absurd (counterKey_of_stands hrest) (by simp)

/-- A value that has no number behind it is followed by the longest run of what is left. -/
theorem LongestRun.cons (h : LongestRun values recorded) (key : UInt64) (count : Int64)
    (hnumber : ∀ number rest, recorded ≠ .number number :: rest) :
    LongestRun (⟨key, count, none⟩ :: values) (.counterKey key :: .count count :: recorded) where
  stands := by
    rw [List.flatMap_cons]
    exact (List.prefix_append_right_inj [.counterKey key, .count count]).2 h.stands
  longest := by
    intro more hmore
    cases more with
    | nil => exact List.nil_prefix
    | cons v more =>
      obtain rfl := Entry.counterKey.inj (counterKey_of_stands hmore)
      obtain rfl := Entry.count.inj (count_of_stands hmore)
      have hrest := rest_of_stands hmore
      obtain ⟨key, count, number'⟩ := v
      cases number' with
      | some n =>
        obtain ⟨rest, heq⟩ := hrest
        exact absurd heq.symm (hnumber n _)
      | none =>
        have hlongest := h.longest more hrest
        exact (List.prefix_append_right_inj [.counterKey key, .count count]).2 hlongest

end CounterValue

namespace CounterRun

/-- The values that are read are those of the longest run. -/
theorem longestRun_readValues (slots : List Slot) :
    CounterValue.LongestRun (readValues slots).1 (slots.map Slot.entry) := by
  fun_induction readValues slots with
  | case1 _ key _ count _ number rest more ih => exact ih.cons_number key count number
  | case2 _ key _ count rest hnumber more ih =>
    refine ih.cons key count ?_
    intro number entries heq
    obtain ⟨slot, slots, rfl, hslot, -⟩ := List.map_eq_cons_iff.1 heq
    exact hnumber slot.position number slots (by rw [← hslot])
  | case3 _ key rest _ hcount =>
    refine CounterValue.longestRun_nil ?_
    intro v values hstands
    cases rest with
    | nil =>
      have hle := hstands.length_le
      simp [CounterValue.entries] at hle
    | cons slot rest =>
      obtain ⟨position, entry⟩ := slot
      obtain rfl : entry = .count v.count := CounterValue.count_of_stands hstands
      exact hcount position v.count rest rfl
  | case4 slots _ _ hkey =>
    refine CounterValue.longestRun_nil ?_
    intro v values hstands
    cases slots with
    | nil =>
      have hle := hstands.length_le
      simp [CounterValue.entries] at hle
    | cons slot rest =>
      obtain ⟨position, entry⟩ := slot
      obtain rfl : entry = .counterKey v.key := CounterValue.counterKey_of_stands hstands
      exact hkey position v.key rest rfl

/-- A key without a count ends the run and leaves the values before it. -/
theorem readValues_of_danglingKey {values : List CounterValue} {key : UInt64} {behind : List Entry}
    (hbehind : ∀ count rest, behind ≠ .count count :: rest) {slots : List Slot}
    (h : slots.map Slot.entry = values.flatMap CounterValue.entries ++ .counterKey key :: behind) :
    readValues slots = (values, some key) := by
  induction values generalizing slots with
  | nil =>
    obtain ⟨⟨_, _⟩, rest, rfl, rfl, rfl⟩ := List.map_eq_cons_iff.1 h
    rw [readValues]
    · rintro _ count _ number rest rfl
      exact hbehind count _ rfl
    · rintro _ count rest rfl
      exact hbehind count _ rfl
  | cons v values ih =>
    obtain ⟨key, count, number⟩ := v
    rw [List.flatMap_cons, CounterValue.entries, List.append_assoc, List.cons_append,
      List.cons_append] at h
    obtain ⟨⟨_, _⟩, rest, rfl, rfl, hrest⟩ := List.map_eq_cons_iff.1 h
    obtain ⟨⟨_, _⟩, rest, rfl, rfl, hmore⟩ := List.map_eq_cons_iff.1 hrest
    cases number with
    | some number =>
      obtain ⟨⟨_, _⟩, rest, rfl, rfl, hvalues⟩ := List.map_eq_cons_iff.1 hmore
      rw [readValues, ih hvalues]
    | none =>
      rw [readValues, ih hmore]
      rintro _ number rest rfl
      cases values <;> exact absurd hmore (by simp [CounterValue.entries])

/-! ## Trying each slot in turn -/

/-- The run that starts with the first slot. -/
def first? : List Slot → Option CounterRun
  | ⟨position, .counterId id⟩ :: ⟨_, .time time⟩ :: rest =>
    some ⟨position, id, some time, (readValues rest).1, (readValues rest).2⟩
  | ⟨position, .counterId id⟩ :: _ => some ⟨position, id, none, [], none⟩
  | _ => none

/-- The runs that start later are found whether or not one starts with the first slot. -/
theorem readAll_cons (slot : Slot) (rest : List Slot) :
    readAll (slot :: rest) = (first? (slot :: rest)).toList ++ readAll rest := by
  unfold first?
  split
  · next heq =>
    obtain ⟨rfl, rfl⟩ := List.cons.inj heq
    rw [readAll]
    rfl
  · next position id more htime heq =>
    obtain ⟨rfl, rfl⟩ := List.cons.inj heq
    rw [readAll]
    · rfl
    · exact htime
  · next hid htime =>
    rw [readAll]
    · rfl
    · intro position id timePosition time more hslot hrest
      exact hid position id timePosition time more (by rw [hslot, hrest])
    · intro position id hslot
      exact htime position id rest (by rw [hslot])

/-- No run starts with a slot that is no counter entry. -/
theorem readAll_cons_of_ne {slot : Slot} (h : ∀ id, slot.entry ≠ .counterId id)
    (rest : List Slot) : readAll (slot :: rest) = readAll rest := by
  have hnone : first? (slot :: rest) = none := by
    unfold first?
    split
    · next position id _ _ _ heq =>
      obtain ⟨rfl, -⟩ := List.cons.inj heq
      exact absurd rfl (h id)
    · next position id _ _ heq =>
      obtain ⟨rfl, -⟩ := List.cons.inj heq
      exact absurd rfl (h id)
    · rfl
  rw [readAll_cons, hnone]
  rfl

/-! ## Reading in a single pass -/

/-- What is left of the slots behind the values at their front, and behind the key without a count
that ends these. -/
def behindValues : List Slot → List Slot
  | ⟨_, .counterKey _⟩ :: ⟨_, .count _⟩ :: ⟨_, .number _⟩ :: rest => behindValues rest
  | ⟨_, .counterKey _⟩ :: ⟨_, .count _⟩ :: rest => behindValues rest
  | ⟨_, .counterKey _⟩ :: rest => rest
  | slots => slots

theorem length_behindValues_le (slots : List Slot) :
    (behindValues slots).length ≤ slots.length := by
  fun_induction behindValues slots with
  | case1 _ _ _ _ _ _ rest ih =>
    simp only [List.length_cons]
    omega
  | case2 _ _ _ _ rest _ ih =>
    simp only [List.length_cons]
    omega
  | case3 => exact Nat.le_succ _
  | case4 => exact Nat.le_refl _

/-- No run starts among the values of another one. -/
theorem readAll_behindValues (slots : List Slot) :
    readAll (behindValues slots) = readAll slots := by
  fun_induction behindValues slots with
  | case1 _ _ _ _ _ _ rest ih =>
    rw [ih, readAll_cons_of_ne (by simp), readAll_cons_of_ne (by simp),
      readAll_cons_of_ne (by simp)]
  | case2 _ _ _ _ rest _ ih =>
    rw [ih, readAll_cons_of_ne (by simp), readAll_cons_of_ne (by simp)]
  | case3 => rw [readAll_cons_of_ne (by simp)]
  | case4 => rfl

/-- The runs of all counters, read in a single pass. -/
def readOn : List Slot → List CounterRun
  | ⟨position, .counterId id⟩ :: ⟨_, .time time⟩ :: rest =>
    let values := readValues rest
    ⟨position, id, some time, values.1, values.2⟩ :: readOn (behindValues rest)
  | ⟨position, .counterId id⟩ :: rest => ⟨position, id, none, [], none⟩ :: readOn rest
  | _ :: rest => readOn rest
  | [] => []
termination_by slots => slots.length
decreasing_by
  · have hle := length_behindValues_le rest
    simp only [List.length_cons]
    omega
  · simp
  · simp

/-- Reading in a single pass finds the runs that are found by trying every slot. -/
theorem readOn_eq (slots : List Slot) : readOn slots = readAll slots := by
  fun_induction readOn slots with
  | case1 position id _ time rest values ih =>
    rw [readAll, readAll_cons_of_ne (by simp), ih, readAll_behindValues]
  | case2 position id rest htime ih =>
    rw [readAll, ih]
    exact htime
  | case3 slot rest hid htime ih =>
    rw [readAll, ih]
    · exact hid
    · exact htime
  | case4 => rfl

end CounterRun

end TraceProfile
