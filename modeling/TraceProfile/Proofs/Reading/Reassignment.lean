import TraceProfile.Proofs.Reading.Ownership

/-!
# Samples that are given to another thread

A sample is left out when its thread entry names another thread. Nothing else changes by that: the
entries behind it are still read up to the next thread entry and start no sample, and no other
sample reaches over a thread entry. So the samples that are left are all the others.
-/

namespace TraceProfile

namespace Slot

/-- The slots with other threads in the thread entries of those samples of a thread whose times are
not kept. -/
def reassign (tid : Int32) (kept : Binary64 → Bool) (other : Nat → Int32) : List Slot → List Slot
  | ⟨position, .threadId t⟩ :: ⟨timePosition, .time time⟩ :: rest =>
    ⟨position, .threadId (if t = tid ∧ kept time = false then other position else t)⟩ ::
      reassign tid kept other (⟨timePosition, .time time⟩ :: rest)
  | slot :: rest => slot :: reassign tid kept other rest
  | [] => []

variable (tid : Int32) (kept : Binary64 → Bool) (other : Nat → Int32)

theorem reassign_cons_of_ne {slot : Slot} (h : ∀ t, slot.entry ≠ .threadId t) (rest : List Slot) :
    reassign tid kept other (slot :: rest) = slot :: reassign tid kept other rest := by
  rw [reassign]
  rintro position t _ _ _ rfl -
  exact h t rfl

/-- What stands between thread entries stays. -/
theorem reassign_run {run : List Slot} (hrun : ∀ slot ∈ run, ∀ t, slot.entry ≠ .threadId t)
    (rest : List Slot) :
    reassign tid kept other (run ++ rest) = run ++ reassign tid kept other rest := by
  induction run with
  | nil => rfl
  | cons slot run ih =>
    obtain ⟨hslot, hrun⟩ := List.forall_mem_cons.1 hrun
    rw [List.cons_append, reassign_cons_of_ne tid kept other hslot, ih hrun, List.cons_append]

/-- Thread entries stay thread entries. -/
theorem AtThread.reassign {slots : List Slot} (h : AtThread slots) :
    AtThread (reassign tid kept other slots) := by
  intro first hfirst
  unfold Slot.reassign at hfirst
  split at hfirst
  · obtain rfl := Option.some.inj hfirst
    exact ⟨_, rfl⟩
  · next slot rest _ =>
    obtain rfl := Option.some.inj hfirst
    exact h slot rfl
  · exact absurd hfirst (by simp)

theorem map_position_reassign (slots : List Slot) :
    (reassign tid kept other slots).map position = slots.map position := by
  fun_induction reassign tid kept other slots with
  | case1 position t timePosition time rest ih => rw [List.map_cons, List.map_cons, ih]
  | case2 slot rest _ ih => rw [List.map_cons, List.map_cons, ih]
  | case3 => rfl

/-- Entries that are numbered from the position where they stand get their positions back. -/
theorem number_map_entry {start : Nat} {slots : List Slot}
    (h : ∀ i slot, slots[i]? = some slot → slot.position = start + i) :
    number start (slots.map entry).toArray = slots := by
  refine List.ext_getElem? fun i => ?_
  rw [number_eq_mapIdx, List.getElem?_mapIdx, List.getElem?_map, Option.map_map]
  cases hslot : slots[i]? with
  | none => rfl
  | some slot =>
    have hposition := h i slot hslot
    rw [Option.map_some, Function.comp_apply, ← hposition]

end Slot

/-! ## The samples that are left -/

namespace RecordedSample

variable (tid : Int32) (kept : Binary64 → Bool) {other : Nat → Int32}

/-- A sample does not reach up to the next thread entry. -/
theorem first?_reassign (slot : Slot) (rest : List Slot) :
    first? tid (slot :: Slot.reassign tid kept other rest) = first? tid (slot :: rest) := by
  obtain ⟨run, behind, rfl, hrun, hbehind⟩ := Slot.exists_run rest
  rw [Slot.reassign_run tid kept other hrun, first?_append tid slot run hbehind,
    first?_append tid slot run (hbehind.reassign tid kept other)]

/-- A sample that is given to another thread is left out, and no other one is. -/
theorem readAll_reassign (hother : ∀ position, other position ≠ tid) (slots : List Slot) :
    readAll tid (Slot.reassign tid kept other slots) =
      (readAll tid slots).filter fun sample => kept sample.time := by
  fun_induction Slot.reassign tid kept other slots with
  | case1 position t timePosition time rest ih =>
    rw [readAll_cons, readAll_cons, ih, List.filter_append]
    congr 1
    by_cases ht : t = tid
    · subst ht
      cases hkept : kept time with
      | true =>
        rw [if_neg (by simp), first?_reassign]
        simp [first?, hkept]
      | false =>
        have hne : Entry.threadId (other position) ≠ .threadId t := by
          simpa using hother position
        rw [if_pos ⟨rfl, rfl⟩, first?_of_ne hne]
        simp [first?, hkept]
    · have hne : Entry.threadId t ≠ .threadId tid := by simpa using ht
      rw [if_neg fun h => ht h.1, first?_of_ne hne, first?_of_ne hne]
      rfl
  | case2 slot rest hnot ih =>
    rw [readAll_cons, readAll_cons, ih, List.filter_append, first?_reassign]
    congr 1
    cases hfirst : first? tid (slot :: rest) with
    | none => rfl
    | some sample =>
      obtain ⟨timePosition, more, hslots⟩ := first?_eq_some hfirst
      obtain ⟨rfl, rfl⟩ := List.cons.inj hslots
      exact (hnot _ _ _ _ _ rfl rfl).elim
  | case3 => rfl

end RecordedSample

namespace Window

/-- The window with other threads in the thread entries of those samples of a thread whose times
are not kept. -/
def reassign (w : Window) (tid : Int32) (kept : Binary64 → Bool) (other : Nat → Int32) : Window :=
  .ofEntries w.start ((Slot.reassign tid kept other w.slots).map Slot.entry).toArray

variable (w : Window) (tid : Int32) (kept : Binary64 → Bool) {other : Nat → Int32}

theorem slots_reassign :
    (w.reassign tid kept other).slots = Slot.reassign tid kept other w.slots := by
  rw [(w.reassign tid kept other).slots_eq]
  refine Slot.number_map_entry fun i slot hslot => ?_
  have hposition : (w.slots.map Slot.position)[i]? = some slot.position := by
    rw [← Slot.map_position_reassign tid kept other, List.getElem?_map, hslot]
    rfl
  rw [List.getElem?_map, getElem?_slots, Option.map_map] at hposition
  obtain ⟨entry, -, hentry⟩ := Option.map_eq_some_iff.1 hposition
  exact hentry.symm

/-- The samples that are kept are those of the window in which all others belong to other
threads. -/
theorem samples_reassign (hother : ∀ position, other position ≠ tid) :
    (w.reassign tid kept other).samples tid =
      (w.samples tid).filter fun sample => kept sample.time := by
  rw [samples, slots_reassign]
  exact RecordedSample.readAll_reassign tid kept hother w.slots

end Window

end TraceProfile
