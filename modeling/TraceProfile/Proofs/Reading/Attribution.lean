import TraceProfile.Buffer.Ownership
import TraceProfile.Reading.Sample

/-!
# Which thread an address belongs to

Two readers look for addresses of compiled code. One collects the addresses of a thread when a
context is resolved, the other reads them as frames of the samples of that thread, maybe in another
window and much later. What a sample holds at a position is collected in every window that shows the
same recording and reaches from the thread entry of the sample to that position
(`Window.Shows.mem_jitAddresses`).
-/

namespace TraceProfile

/-- The slots of a recording from a position on. -/
def Slot.ofRecording (recording : Nat → Entry) (start count : Nat) : List Slot :=
  (List.range' start count).map fun position => ⟨position, recording position⟩

/-- The entries of the window are those of the recording. -/
def Window.Shows (w : Window) (recording : Nat → Entry) : Prop :=
  ∀ (i : Nat) (hi : i < w.entries.size), w.entries[i] = recording (w.start + i)

/-- The thread entry at `start` is the closest one before the position, and names the thread. -/
structure Governs (recording : Nat → Entry) (tid : Int32) (start position : Nat) : Prop where
  lt : start < position
  names : recording start = .threadId tid
  closest : ∀ p, start < p → p ≤ position → ∀ t, recording p ≠ .threadId t

theorem Slot.getElem?_ofRecording {recording : Nat → Entry} {start count i : Nat} {slot : Slot}
    (h : (ofRecording recording start count)[i]? = some slot) :
    i < count ∧ slot = ⟨start + i, recording (start + i)⟩ := by
  obtain ⟨hi, hslot⟩ := List.getElem?_eq_some_iff.1 h
  have hcount : i < count := by simpa [ofRecording] using hi
  refine ⟨hcount, ?_⟩
  rw [← hslot]
  simp [ofRecording]

theorem Window.Shows.slots_eq {w : Window} {recording : Nat → Entry} (h : w.Shows recording) :
    w.slots = Slot.ofRecording recording w.start w.entries.size := by
  rw [w.slots_eq, Slot.number_eq_mapIdx]
  apply List.ext_getElem
  · simp [Slot.ofRecording]
  · intro i hi _
    have hsize : i < w.entries.size := by simpa using hi
    have hentry := h i hsize
    simp [Slot.ofRecording, hentry]

theorem Window.Shows.slotsFrom_eq {w : Window} {recording : Nat → Entry} (h : w.Shows recording)
    {position : Nat} :
    w.slotsFrom position = Slot.ofRecording recording (w.start + (position - w.start))
      (w.entries.size - (position - w.start)) := by
  rw [w.slotsFrom_eq_drop, h.slots_eq, Slot.ofRecording, ← List.map_drop, List.drop_range',
    Nat.mul_one]
  rfl

/-! ## Collecting -/

theorem Slot.isOwned_of_ne {slot : Slot} (h : ∀ t, slot.entry ≠ .threadId t) (tid : Int32)
    (owned : Bool) : slot.isOwned tid owned = owned := by
  unfold isOwned
  split
  · next t ht => exact absurd ht (h t)
  · rfl

/-- Once slots belong to a thread they do so up to the next thread entry. -/
theorem Slot.mem_ownedBy_true {recording : Nat → Entry} {tid : Int32} {start position count : Nat}
    (hclosest : ∀ p, start ≤ p → p ≤ position → ∀ t, recording p ≠ .threadId t)
    (hstart : start ≤ position) (hstop : position < start + count) :
    ⟨position, recording position⟩ ∈ ownedBy tid true (ofRecording recording start count) := by
  induction count generalizing start with
  | zero => omega
  | succ count ih =>
    rw [ofRecording, List.range'_succ, List.map_cons, ownedBy,
      isOwned_of_ne (hclosest start (Nat.le_refl start) hstart)]
    show _ ∈ _ :: ownedBy tid true (ofRecording recording (start + 1) count)
    rcases Nat.eq_or_lt_of_le hstart with heq | hlt
    · rw [heq]
      exact List.mem_cons_self
    · apply List.mem_cons_of_mem
      apply ih
      · intro p hp
        exact hclosest p (Nat.le_of_succ_le hp)
      · exact hlt
      · omega

theorem Slot.mem_ownedBy {recording : Nat → Entry} {tid : Int32} {first position : Nat}
    (h : Governs recording tid first position) (owned : Bool) {start count : Nat}
    (hstart : start ≤ first) (hstop : position < start + count) :
    ⟨position, recording position⟩ ∈ ownedBy tid owned (ofRecording recording start count) := by
  have hlt := h.lt
  induction count generalizing start owned with
  | zero => omega
  | succ count ih =>
    rw [ofRecording, List.range'_succ, List.map_cons, ownedBy]
    rcases Nat.eq_or_lt_of_le hstart with heq | hlt'
    · have howned : Slot.isOwned ⟨start, recording start⟩ tid owned = true := by
        simp [isOwned, heq, h.names]
      rw [howned]
      apply List.mem_cons_of_mem
      apply mem_ownedBy_true
      · intro p hp
        exact h.closest p (by omega)
      · omega
      · omega
    · -- Before the thread entry it does not matter which slots belong to the thread.
      have hrest := ih (Slot.isOwned ⟨start, recording start⟩ tid owned) hlt' (by omega)
      split
      · exact List.mem_cons_of_mem _ hrest
      · exact hrest

/-- An address is collected if the window reaches from its thread entry to its position. -/
theorem Window.Shows.mem_jitAddresses {w : Window} {recording : Nat → Entry}
    (h : w.Shows recording) {tid : Int32} {first position start : Nat} {address : UInt64}
    (hgoverns : Governs recording tid first position)
    (haddress : recording position = .jitReturnAddr address) (hfirst : w.start ≤ first)
    (hstart : start ≤ first) (hstop : position < w.stop) : address ∈ w.jitAddresses start tid := by
  rw [jitAddresses, Slot.readOwned_eq, h.slotsFrom_eq, List.mem_filterMap]
  refine ⟨⟨position, recording position⟩, ?_, ?_⟩
  · have hlt := hgoverns.lt
    apply Slot.mem_ownedBy hgoverns
    · omega
    · rw [stop] at hstop
      omega
  · show (recording position).jitReturnAddr? = some address
    rw [haddress]
    rfl

/-! ## Reading samples -/

/-- The slots after some of which none is a thread entry. -/
def Slot.LeadsTo (slots rest : List Slot) : Prop :=
  ∃ used, slots = used ++ rest ∧ ∀ slot ∈ used, ∀ t, slot.entry ≠ .threadId t

theorem Slot.LeadsTo.refl (slots : List Slot) : LeadsTo slots slots :=
  ⟨[], rfl, fun _ hslot => absurd hslot List.not_mem_nil⟩

theorem Slot.LeadsTo.trans {slots more rest : List Slot} (h : LeadsTo slots more)
    (h' : LeadsTo more rest) : LeadsTo slots rest := by
  obtain ⟨used, rfl, hused⟩ := h
  obtain ⟨used', rfl, hused'⟩ := h'
  refine ⟨used ++ used', (List.append_assoc _ _ _).symm, ?_⟩
  intro slot hslot
  rcases List.mem_append.1 hslot with hslot | hslot
  · exact hused slot hslot
  · exact hused' slot hslot

theorem Slot.LeadsTo.cons {slot : Slot} {slots rest : List Slot}
    (hslot : ∀ t, slot.entry ≠ .threadId t) (h : LeadsTo slots rest) :
    LeadsTo (slot :: slots) rest := by
  refine LeadsTo.trans ⟨[slot], rfl, ?_⟩ h
  intro slot' hslot'
  rw [List.mem_singleton.1 hslot']
  exact hslot

theorem leadsTo_takeIf {α : Type} (read : Entry → Option α)
    (hread : ∀ t, read (.threadId t) = none) (slots : List Slot) :
    Slot.LeadsTo slots (takeIf read slots).2 := by
  fun_cases takeIf read slots with
  | case1 => exact .refl _
  | case2 slot rest a ha =>
    refine .cons ?_ (.refl rest)
    intro t ht
    rw [ht, hread] at ha
    exact absurd ha (by simp)
  | case3 => exact .refl _

theorem TextBuilder.leadsTo_collect (b : TextBuilder) (slots : List Slot) :
    Slot.LeadsTo slots (b.collect slots).2 := by
  fun_induction TextBuilder.collect b slots with
  | case1 => exact .refl _
  | case2 _ _ _ _ _ ih => exact .cons (by simp) ih
  | case3 => exact .refl _

theorem RecordedFrame.leadsTo_readLabel (length : UInt64) (slots : List Slot) :
    Slot.LeadsTo slots (readLabel length slots).2 := by
  have hflags := leadsTo_takeIf Entry.frameFlags? (fun _ => rfl) slots
  have htext := hflags.trans (TextBuilder.leadsTo_collect { limit := some length.toNat } _)
  have hline := htext.trans (leadsTo_takeIf Entry.lineNumber? (fun _ => rfl) _)
  have hcolumn := hline.trans (leadsTo_takeIf Entry.columnNumber? (fun _ => rfl) _)
  exact hcolumn.trans (leadsTo_takeIf Entry.categoryPair? (fun _ => rfl) _)

/-- An address among the frames was read from a slot that no thread entry comes before. -/
theorem RecordedFrame.leadsTo_of_mem_readAll {slots : List Slot} {position : Nat} {address : UInt64}
    (h : .compiled position address ∈ (readAll slots).1) :
    ∃ rest, Slot.LeadsTo slots (⟨position, .jitReturnAddr address⟩ :: rest) := by
  fun_induction readAll slots with
  | case1 => exact absurd h List.not_mem_nil
  | case2 slot rest length hlength frame more ih =>
    obtain ⟨rest', hrest⟩ := ih (by simpa using h)
    exact ⟨rest', .cons (by simp [hlength]) ((leadsTo_readLabel length rest).trans hrest)⟩
  | case3 slot rest address' haddress more ih =>
    rcases List.mem_cons.1 h with hhead | htail
    · obtain ⟨rfl, rfl⟩ := RecordedFrame.compiled.inj hhead
      obtain ⟨position, entry⟩ := slot
      obtain rfl : entry = .jitReturnAddr address := haddress
      exact ⟨rest, .refl _⟩
    · obtain ⟨rest', hrest⟩ := ih htail
      exact ⟨rest', .cons (by simp [haddress]) hrest⟩
  | case4 slot rest address' haddress more ih =>
    obtain ⟨rest', hrest⟩ := ih (by simpa using h)
    exact ⟨rest', .cons (by simp [haddress]) hrest⟩
  | case5 => exact absurd h List.not_mem_nil

/-- A sample was read from its thread entry and the time right after it. -/
theorem RecordedSample.exists_of_mem_readAll {tid : Int32} {slots : List Slot}
    {sample : RecordedSample} (h : sample ∈ readAll tid slots) :
    ∃ before timePosition rest, slots = before ++ ⟨sample.position, .threadId tid⟩ ::
        ⟨timePosition, .time sample.time⟩ :: rest ∧
      sample.frames = (RecordedFrame.readAll rest).1 := by
  fun_induction readAll tid slots with
  | case1 position timePosition time rest frames ih =>
    rcases List.mem_cons.1 h with rfl | htail
    · exact ⟨[], timePosition, rest, rfl, rfl⟩
    · obtain ⟨before, timePosition', rest', heq, hframes⟩ := ih htail
      exact ⟨_ :: before, timePosition', rest', congrArg _ heq, hframes⟩
  | case2 position t timePosition time rest hne ih =>
    obtain ⟨before, timePosition', rest', heq, hframes⟩ := ih h
    exact ⟨_ :: before, timePosition', rest', congrArg _ heq, hframes⟩
  | case3 slot rest hslot ih =>
    obtain ⟨before, timePosition', rest', heq, hframes⟩ := ih h
    exact ⟨_ :: before, timePosition', rest', congrArg _ heq, hframes⟩
  | case4 => exact absurd h List.not_mem_nil

/-- In a recording, a thread entry governs what it leads to. -/
theorem Slot.LeadsTo.governs {recording : Nat → Entry} {start count : Nat}
    {before slots : List Slot} {tid : Int32} {first : Nat}
    (heq : ofRecording recording start count = before ++ ⟨first, .threadId tid⟩ :: slots)
    {slot : Slot} {rest : List Slot} (h : LeadsTo slots (slot :: rest))
    (hslot : ∀ t, slot.entry ≠ .threadId t) :
    start ≤ first ∧ slot.position < start + count ∧ Governs recording tid first slot.position ∧
      recording slot.position = slot.entry := by
  obtain ⟨used, rfl, hused⟩ := h
  have hread (i : Nat) (s : Slot)
      (hs : (before ++ ⟨first, .threadId tid⟩ :: (used ++ slot :: rest))[i]? = some s) :
      i < count ∧ s = ⟨start + i, recording (start + i)⟩ := by
    rw [← heq] at hs
    exact getElem?_ofRecording hs
  have hafter (j : Nat) :
      (before ++ ⟨first, .threadId tid⟩ :: (used ++ slot :: rest))[before.length + 1 + j]? =
        (used ++ slot :: rest)[j]? := by
    rw [List.getElem?_append_right (by omega)]
    have hindex : before.length + 1 + j - before.length = j + 1 := by omega
    rw [hindex, List.getElem?_cons_succ]
  obtain ⟨-, hfirst⟩ := hread before.length ⟨first, .threadId tid⟩ (by simp)
  obtain ⟨hsize, hlast⟩ := hread (before.length + 1 + used.length) slot (by rw [hafter]; simp)
  rw [Slot.mk.injEq] at hfirst
  have hposition : slot.position = start + (before.length + 1 + used.length) := by rw [hlast]
  have hentry : recording slot.position = slot.entry := by rw [hlast]
  refine ⟨by omega, by omega, ⟨by omega, ?_, ?_⟩, hentry⟩
  · rw [hfirst.1]
    exact hfirst.2.symm
  · intro p hlt hle t ht
    rcases Nat.eq_or_lt_of_le hle with rfl | hlt'
    · exact hslot t (hentry.symm.trans ht)
    · have hj : p - first - 1 < used.length := by omega
      obtain ⟨-, hs⟩ := hread (before.length + 1 + (p - first - 1)) used[p - first - 1] (by
        rw [hafter, List.getElem?_append_left hj, List.getElem?_eq_getElem hj])
      have hp : start + (before.length + 1 + (p - first - 1)) = p := by omega
      rw [hp] at hs
      apply hused used[p - first - 1] (List.getElem_mem hj) t
      rw [hs]
      exact ht

/-- The thread entry of a sample governs the addresses among its frames. -/
theorem Window.Shows.governs {w : Window} {recording : Nat → Entry} (h : w.Shows recording)
    {tid : Int32} {sample : RecordedSample} (hsample : sample ∈ w.samples tid) {position : Nat}
    {address : UInt64} (hframe : .compiled position address ∈ sample.frames) :
    w.start ≤ sample.position ∧ position < w.stop ∧
      Governs recording tid sample.position position ∧
      recording position = .jitReturnAddr address := by
  obtain ⟨before, timePosition, rest, heq, hframes⟩ := RecordedSample.exists_of_mem_readAll hsample
  rw [hframes] at hframe
  obtain ⟨rest', hrest⟩ := RecordedFrame.leadsTo_of_mem_readAll hframe
  have hleads : Slot.LeadsTo (⟨timePosition, .time sample.time⟩ :: rest)
      (⟨position, .jitReturnAddr address⟩ :: rest') := .cons (by simp) hrest
  rw [h.slots_eq] at heq
  exact hleads.governs heq (by simp)

end TraceProfile
