import TraceProfile.Proofs.Buffer.Tail
import TraceProfile.Proofs.Reading.Runs
import TraceProfile.Reading.Marker

/-!
# What is read of a thread is read from its own entries

An entry belongs to the thread that the closest thread entry at or before it names
(`Window.Belongs`). Three readers look for entries of a thread, each in its own way: samples are
read with look-ahead from their thread entries on, markers are found while the thread is kept track
of, and addresses of compiled code in the same way, but from the middle of the window. None of them
looks at an entry of another thread. Two windows in which the same positions belong to a thread, and
hold the same entries there (`Window.SameOwn`), are therefore the same to all of them.
-/

namespace TraceProfile

/-- The window holds an entry at the position, and the closest thread entry at the position or
before it names the thread. -/
structure Window.Belongs (w : Window) (tid : Int32) (position : Nat) : Prop where
  holds : ∃ entry, w.get? position = some entry
  closest : ∃ first ≤ position, w.get? first = some (.threadId tid) ∧
    ∀ p, first < p → p ≤ position → ∀ t, w.get? p ≠ some (.threadId t)

/-- The slots of a window that belong to a thread. -/
def Window.own (w : Window) (tid : Int32) : List Slot := Slot.ownedBy tid false w.slots

namespace Window

variable {w w' : Window} {tid : Int32}

/-! ## From one entry to the next -/

theorem belongs_of_threadId {position : Nat} {t : Int32}
    (h : w.get? position = some (.threadId t)) : w.Belongs tid position ↔ t = tid := by
  constructor
  · rintro ⟨-, first, hle, hfirst, hclosest⟩
    rcases Nat.eq_or_lt_of_le hle with rfl | hlt
    · simpa using h.symm.trans hfirst
    · exact absurd h (hclosest position hlt (Nat.le_refl _) t)
  · rintro rfl
    refine ⟨⟨_, h⟩, position, Nat.le_refl _, h, ?_⟩
    intro p hlt hle
    omega

/-- An entry that is no thread entry belongs to the thread of the entry before it. -/
theorem belongs_of_ne {position : Nat} {entry : Entry} (h : w.get? position = some entry)
    (hne : ∀ t, entry ≠ .threadId t) :
    w.Belongs tid position ↔ ∃ before, before + 1 = position ∧ w.Belongs tid before := by
  have hnot : ∀ t, w.get? position ≠ some (.threadId t) := by
    intro t ht
    exact hne t (Option.some.inj (h.symm.trans ht))
  constructor
  · rintro ⟨-, first, hle, hfirst, hclosest⟩
    have hstart := (exists_get?_iff.1 ⟨_, hfirst⟩).1
    have hstop := (exists_get?_iff.1 ⟨_, h⟩).2
    have hlt : first < position := by
      refine Nat.lt_of_le_of_ne hle ?_
      rintro rfl
      exact hnot tid hfirst
    have hbefore := exists_get?_iff.2 ⟨Nat.le_trans hstart (Nat.le_sub_one_of_lt hlt), by omega⟩
    refine ⟨position - 1, by omega, hbefore, first, by omega, hfirst, ?_⟩
    intro p hp hle'
    exact hclosest p hp (by omega)
  · rintro ⟨before, rfl, -, first, hle, hfirst, hclosest⟩
    refine ⟨⟨entry, h⟩, first, by omega, hfirst, ?_⟩
    intro p hp hle'
    rcases Nat.eq_or_lt_of_le hle' with rfl | hlt
    · exact hnot
    · exact hclosest p hp (by omega)

/-- Whether a slot belongs to the thread is decided from whether the slot before it does. -/
theorem isOwned_iff {slot : Slot} {owned : Bool} (h : w.get? slot.position = some slot.entry)
    (howned : owned = true ↔ ∃ before, before + 1 = slot.position ∧ w.Belongs tid before) :
    slot.isOwned tid owned = true ↔ w.Belongs tid slot.position := by
  unfold Slot.isOwned
  split
  · next t ht =>
    rw [ht] at h
    rw [decide_eq_true_iff, belongs_of_threadId h]
  · next hne => rw [howned, belongs_of_ne h hne]

open Classical in
/-- The slots that belong to the thread, from a place in the window on. -/
theorem ownedBy_drop (w : Window) (tid : Int32) {i count : Nat}
    (hcount : i + count = w.entries.size) {owned : Bool}
    (howned : owned = true ↔ ∃ before, before + 1 = w.start + i ∧ w.Belongs tid before) :
    Slot.ownedBy tid owned (w.slots.drop i) =
      (w.slots.drop i).filter fun slot => w.Belongs tid slot.position := by
  induction count generalizing i owned with
  | zero =>
    rw [drop_slots_eq_nil (by omega)]
    rfl
  | succ count ih =>
    have hi : i < w.entries.size := by omega
    have hget := w.get?_start_add_of_lt hi
    have hflag : Slot.isOwned ⟨w.start + i, w.entries[i]⟩ tid owned = true ↔
        w.Belongs tid (w.start + i) := isOwned_iff hget howned
    have hnext : Slot.isOwned ⟨w.start + i, w.entries[i]⟩ tid owned = true ↔
        ∃ before, before + 1 = w.start + (i + 1) ∧ w.Belongs tid before := by
      rw [hflag]
      constructor
      · exact fun h => ⟨w.start + i, rfl, h⟩
      · rintro ⟨before, heq, h⟩
        obtain rfl : before = w.start + i := by omega
        exact h
    have hrest := ih (by omega) hnext
    rw [drop_slots_eq_cons hget, Slot.ownedBy, List.filter_cons]
    simp only [hflag, hrest, decide_eq_true_eq]

open Classical in
/-- The slots of a thread are those whose positions belong to it. -/
theorem own_eq_filter (w : Window) (tid : Int32) :
    w.own tid = w.slots.filter fun slot => w.Belongs tid slot.position := by
  have hfirst : false = true ↔ ∃ before, before + 1 = w.start + 0 ∧ w.Belongs tid before := by
    constructor
    · exact fun h => absurd h (by simp)
    · rintro ⟨before, heq, -, first, hle, hget, -⟩
      obtain ⟨hstart, -⟩ := exists_get?_iff.1 ⟨_, hget⟩
      omega
  exact ownedBy_drop w tid (Nat.zero_add w.entries.size) hfirst

theorem mem_own_iff {slot : Slot} :
    slot ∈ w.own tid ↔ w.get? slot.position = some slot.entry ∧ w.Belongs tid slot.position := by
  classical
  rw [own_eq_filter, List.mem_filter, mem_slots_iff, decide_eq_true_iff]

theorem belongs_iff_exists_own {position : Nat} :
    w.Belongs tid position ↔ ∃ slot ∈ w.own tid, slot.position = position := by
  constructor
  · intro h
    obtain ⟨entry, hentry⟩ := h.holds
    exact ⟨⟨position, entry⟩, mem_own_iff.2 ⟨hentry, h⟩, rfl⟩
  · rintro ⟨slot, hslot, rfl⟩
    exact (mem_own_iff.1 hslot).2

/-! ## Windows that are the same to a thread -/

/-- The windows lie at the same place, the same positions in them belong to the thread, and the
entries there are the same. -/
structure SameOwn (w w' : Window) (tid : Int32) : Prop where
  start_eq : w.start = w'.start
  size_eq : w.entries.size = w'.entries.size
  belongs_iff : ∀ position, w.Belongs tid position ↔ w'.Belongs tid position
  get?_eq : ∀ position, w.Belongs tid position → w.get? position = w'.get? position

theorem SameOwn.symm (h : w.SameOwn w' tid) : w'.SameOwn w tid where
  start_eq := h.start_eq.symm
  size_eq := h.size_eq.symm
  belongs_iff := fun position => (h.belongs_iff position).symm
  get?_eq := fun position hposition =>
    (h.get?_eq position ((h.belongs_iff position).2 hposition)).symm

theorem SameOwn.own_subset (h : w.SameOwn w' tid) : w.own tid ⊆ w'.own tid := by
  intro slot hslot
  obtain ⟨hget, hbelongs⟩ := mem_own_iff.1 hslot
  exact mem_own_iff.2 ⟨(h.get?_eq _ hbelongs).symm.trans hget, (h.belongs_iff _).1 hbelongs⟩

/-- The slots of a thread stand in the order of their positions. -/
theorem pairwise_own (w : Window) (tid : Int32) :
    (w.own tid).Pairwise fun earlier later => earlier.position < later.position := by
  rw [own_eq_filter]
  exact w.pairwise_slots.filter _

theorem SameOwn.own_eq (h : w.SameOwn w' tid) : w.own tid = w'.own tid := by
  have hnodup : ∀ w : Window, (w.own tid).Nodup := by
    intro w
    exact (w.pairwise_own tid).imp fun hlt heq => Nat.ne_of_lt hlt (congrArg Slot.position heq)
  have hperm : (w.own tid).Perm (w'.own tid) := by
    rw [List.perm_ext_iff_of_nodup (hnodup w) (hnodup w')]
    exact fun slot => ⟨fun hslot => h.own_subset hslot, fun hslot => h.symm.own_subset hslot⟩
  refine hperm.eq_of_pairwise ?_ (w.pairwise_own tid) (w'.pairwise_own tid)
  intro a b _ _ hab hba
  exact absurd hba (Nat.lt_asymm hab)

/-- Windows are the same to a thread exactly if it has the same slots in both. -/
theorem sameOwn_iff :
    w.SameOwn w' tid ↔
      w.start = w'.start ∧ w.entries.size = w'.entries.size ∧ w.own tid = w'.own tid := by
  constructor
  · exact fun h => ⟨h.start_eq, h.size_eq, h.own_eq⟩
  · rintro ⟨hstart, hsize, hown⟩
    refine ⟨hstart, hsize, fun position => ?_, fun position hposition => ?_⟩
    · rw [belongs_iff_exists_own, belongs_iff_exists_own, hown]
    · obtain ⟨slot, hslot, rfl⟩ := belongs_iff_exists_own.1 hposition
      have hget := (mem_own_iff.1 hslot).1
      rw [hown] at hslot
      rw [hget, (mem_own_iff.1 hslot).1]

/-- What belongs to the thread in the tail of one window belongs to it in that of the other. -/
theorem SameOwn.belongs_drop (h : w.SameOwn w' tid) {count position : Nat}
    (hposition : (w.drop count).Belongs tid position) :
    (w'.drop count).Belongs tid position ∧
      (w.drop count).get? position = (w'.drop count).get? position := by
  obtain ⟨⟨entry, hentry⟩, first, hle, hfirst, hclosest⟩ := hposition
  simp only [get?_drop] at hentry hfirst hclosest ⊢
  split at hfirst
  · next hstart =>
    have hleft : ∀ p, first ≤ p → w.start + count ≤ p := fun p hp => Nat.le_trans hstart hp
    rw [if_pos (hleft position hle)] at hentry
    -- All that stands from the thread entry up to the position belongs to the thread.
    have hbelongs : ∀ p, first ≤ p → p ≤ position → w.Belongs tid p := by
      intro p hp hp'
      obtain ⟨hlow, -⟩ := exists_get?_iff.1 ⟨_, hfirst⟩
      obtain ⟨-, hhigh⟩ := exists_get?_iff.1 ⟨_, hentry⟩
      refine ⟨exists_get?_iff.2 ⟨by omega, by omega⟩, first, hp, hfirst, ?_⟩
      intro q hq hq'
      have hnot := hclosest q hq (Nat.le_trans hq' hp')
      rwa [if_pos (hleft q (Nat.le_of_lt hq))] at hnot
    have hsame : ∀ p, first ≤ p → p ≤ position → w.get? p = w'.get? p :=
      fun p hp hp' => h.get?_eq p (hbelongs p hp hp')
    rw [← h.start_eq, if_pos (hleft position hle), if_pos (hleft position hle)]
    refine ⟨⟨⟨entry, ?_⟩, first, hle, ?_, ?_⟩, hsame position hle (Nat.le_refl _)⟩
    · rw [get?_drop, ← h.start_eq, if_pos (hleft position hle),
        ← hsame position hle (Nat.le_refl _)]
      exact hentry
    · rw [get?_drop, ← h.start_eq, if_pos hstart, ← hsame first (Nat.le_refl _) hle]
      exact hfirst
    · intro p hp hp'
      have hnot := hclosest p hp hp'
      rw [hsame p (Nat.le_of_lt hp) hp'] at hnot
      rwa [get?_drop, ← h.start_eq]
  · exact absurd hfirst (by simp)

/-- The windows are still the same to the thread when equally many entries have gone. -/
theorem SameOwn.drop (h : w.SameOwn w' tid) (count : Nat) :
    (w.drop count).SameOwn (w'.drop count) tid where
  start_eq := congrArg (· + count) h.start_eq
  size_eq := by
    show (w.entries.extract count).size = (w'.entries.extract count).size
    rw [Array.size_extract, Array.size_extract, h.size_eq]
  belongs_iff := fun position =>
    ⟨fun hposition => (h.belongs_drop hposition).1,
      fun hposition => (h.symm.belongs_drop hposition).1⟩
  get?_eq := fun position hposition => (h.belongs_drop hposition).2

end Window

/-! ## Reading from the slots of a thread alone -/

namespace Slot

/-- Slots are a run up to the next thread entry, and what follows it. -/
theorem exists_run (slots : List Slot) :
    ∃ run rest, slots = run ++ rest ∧ (∀ slot ∈ run, ∀ t, slot.entry ≠ .threadId t) ∧
      AtThread rest := by
  induction slots with
  | nil => exact ⟨[], [], rfl, fun slot hslot => absurd hslot List.not_mem_nil, atThread_nil⟩
  | cons slot slots ih =>
    by_cases hthread : ∃ t, slot.entry = .threadId t
    · refine ⟨[], slot :: slots, rfl, fun slot hslot => absurd hslot List.not_mem_nil, ?_⟩
      intro first hfirst
      obtain rfl := Option.some.inj hfirst
      exact hthread
    · obtain ⟨run, rest, rfl, hrun, hrest⟩ := ih
      refine ⟨slot :: run, rest, rfl, ?_, hrest⟩
      exact List.forall_mem_cons.2 ⟨fun t ht => hthread ⟨t, ht⟩, hrun⟩

/-- A run belongs to the thread as a whole. -/
theorem ownedBy_run (tid : Int32) {run : List Slot}
    (hrun : ∀ slot ∈ run, ∀ t, slot.entry ≠ .threadId t) (rest : List Slot) :
    ownedBy tid true (run ++ rest) = run ++ ownedBy tid true rest := by
  induction run with
  | nil => rfl
  | cons slot run ih =>
    obtain ⟨hslot, hrun⟩ := List.forall_mem_cons.1 hrun
    rw [List.cons_append, ownedBy, isOwned_of_ne hslot, ih hrun]
    rfl

theorem atThread_ownedBy_false (tid : Int32) (slots : List Slot) :
    AtThread (ownedBy tid false slots) := by
  induction slots with
  | nil => exact atThread_nil
  | cons slot slots ih =>
    rw [ownedBy]
    split
    · next howned =>
      intro first hfirst
      obtain rfl := Option.some.inj hfirst
      unfold isOwned at howned
      split at howned
      · next t ht => exact ⟨t, ht⟩
      · exact absurd howned (by simp)
    · next howned =>
      rw [Bool.not_eq_true] at howned
      rw [howned]
      exact ih

/-- After a thread entry the slots of the thread go on with a thread entry again. -/
theorem AtThread.ownedBy {slots : List Slot} (h : AtThread slots) (tid : Int32) (owned : Bool) :
    AtThread (ownedBy tid owned slots) := by
  cases slots with
  | nil => exact atThread_nil
  | cons slot slots =>
    obtain ⟨t, ht⟩ := h slot rfl
    -- A thread entry decides on its own which thread it belongs to.
    have hsame : Slot.ownedBy tid owned (slot :: slots) =
        Slot.ownedBy tid false (slot :: slots) := by
      simp only [Slot.ownedBy, isOwned, ht]
    rw [hsame]
    exact atThread_ownedBy_false tid (slot :: slots)

end Slot

/-- The samples of a thread are read from the slots of the thread as they are from all slots. -/
theorem RecordedSample.readAll_ownedBy (tid : Int32) (owned : Bool) (slots : List Slot) :
    readAll tid (Slot.ownedBy tid owned slots) = readAll tid slots := by
  induction slots generalizing owned with
  | nil => rfl
  | cons slot slots ih =>
    rw [Slot.ownedBy, readAll_cons]
    split
    · next howned =>
      obtain ⟨run, rest, rfl, hrun, hrest⟩ := Slot.exists_run slots
      have hown := Slot.ownedBy_run tid hrun rest
      have hfirst : first? tid (slot :: (run ++ Slot.ownedBy tid true rest)) =
          first? tid (slot :: (run ++ rest)) := by
        rw [first?_append tid slot run (hrest.ownedBy tid true), first?_append tid slot run hrest]
      rw [howned, readAll_cons, ih, hown, hfirst]
    · next howned =>
      have hne : slot.entry ≠ .threadId tid := by
        intro hentry
        exact howned (by simp [Slot.isOwned, hentry])
      rw [ih, first?_of_ne hne]
      rfl

namespace Window

theorem samples_eq_own (w : Window) (tid : Int32) :
    w.samples tid = RecordedSample.readAll tid (w.own tid) :=
  (RecordedSample.readAll_ownedBy tid false w.slots).symm

theorem markerUses_eq_own (w : Window) (tid : Int32) :
    w.markerUses tid =
      (w.own tid).filterMap fun slot => slot.entry.marker?.map (MarkerUse.mk slot.position) :=
  Slot.readOwned_eq _ tid false w.slots

theorem jitAddresses_eq_own (w : Window) (position : Nat) (tid : Int32) :
    w.jitAddresses position tid =
      ((w.drop (position - w.start)).own tid).filterMap (·.entry.jitReturnAddr?) := by
  rw [jitAddresses, slotsFrom_eq_slots_drop]
  exact Slot.readOwned_eq _ tid false _

namespace SameOwn

variable {w w' : Window} {tid : Int32}

theorem samples_eq (h : w.SameOwn w' tid) : w.samples tid = w'.samples tid := by
  rw [samples_eq_own, samples_eq_own, h.own_eq]

theorem markers_eq (h : w.SameOwn w' tid) (store : MarkerStore) :
    w.markers tid store = w'.markers tid store := by
  rw [markers, markers, markerUses_eq_own, markerUses_eq_own, h.own_eq]

theorem jitAddresses_eq (h : w.SameOwn w' tid) (position : Nat) :
    w.jitAddresses position tid = w'.jitAddresses position tid := by
  rw [jitAddresses_eq_own, jitAddresses_eq_own, ← h.start_eq, (h.drop _).own_eq]

end SameOwn

end Window

end TraceProfile
