import TraceProfile.Profile.Thread
import TraceProfile.Proofs.Reading.Runs

/-!
# Reading in a single pass

A reader that goes through the slots once does not try every slot: it reads on behind each sample,
and behind the time of a sample that is not shown. `RecordedSample.readOn` reads in this way. It
misses nothing, since no slot that it passes over is a thread entry
(`RecordedFrame.leadsTo_readAll`).
-/

namespace TraceProfile

theorem Slot.LeadsTo.length_le {slots rest : List Slot} (h : LeadsTo slots rest) :
    rest.length ≤ slots.length := by
  obtain ⟨used, rfl, -⟩ := h
  rw [List.length_append]
  exact Nat.le_add_left rest.length used.length

theorem RecordedFrame.leadsTo_readAll (slots : List Slot) :
    Slot.LeadsTo slots (readAll slots).2 := by
  fun_induction readAll slots with
  | case1 => exact .refl []
  | case2 slot rest length hlength frame more ih =>
    exact .cons (by simp [hlength]) ((leadsTo_readLabel length rest).trans ih)
  | case3 slot rest address haddress more ih => exact .cons (by simp [haddress]) ih
  | case4 slot rest address haddress more ih => exact .cons (by simp [haddress]) ih
  | case5 slot rest => exact .refl (slot :: rest)

namespace RecordedSample

/-- What a sample uses up behind its time holds no thread entry. -/
theorem leadsTo_behind (slots : List Slot) :
    Slot.LeadsTo slots (takeIf Entry.responsiveness? (RecordedFrame.readAll slots).2).2 :=
  (RecordedFrame.leadsTo_readAll slots).trans (leadsTo_takeIf _ (fun _ => rfl) _)

/-- The samples of a thread that are shown, read in a single pass. -/
def readOn (tid : Int32) (shown : Binary64 → Bool) : List Slot → List RecordedSample
  | ⟨position, .threadId t⟩ :: ⟨timePosition, .time time⟩ :: rest =>
    if t = tid then
      if shown time then
        let frames := RecordedFrame.readAll rest
        let responsiveness := takeIf Entry.responsiveness? frames.2
        { position, tid, time
          frames := frames.1
          responsiveness := responsiveness.1 } :: readOn tid shown responsiveness.2
      else readOn tid shown rest
    else readOn tid shown (⟨timePosition, .time time⟩ :: rest)
  | _ :: rest => readOn tid shown rest
  | [] => []
termination_by slots => slots.length
decreasing_by
  · have hle := (leadsTo_behind rest).length_le
    simp only [List.length_cons]
    omega
  · simp only [List.length_cons]
    omega
  · simp
  · simp

/-- Nothing starts in what a sample uses up. -/
theorem readAll_of_leadsTo (tid : Int32) {slots rest : List Slot} (h : Slot.LeadsTo slots rest) :
    readAll tid slots = readAll tid rest := by
  obtain ⟨used, rfl, hused⟩ := h
  induction used with
  | nil => rfl
  | cons slot used ih =>
    obtain ⟨hslot, hrest⟩ := List.forall_mem_cons.1 hused
    rw [List.cons_append, readAll_cons, first?_of_ne (hslot tid), ih hrest]
    rfl

/-- No sample starts with a time. -/
theorem readAll_time (tid : Int32) (position : Nat) (time : Binary64) (rest : List Slot) :
    readAll tid (⟨position, .time time⟩ :: rest) = readAll tid rest :=
  readAll_of_leadsTo tid (.cons (by simp) (.refl rest))

/-- Reading in a single pass finds the samples that are found by trying every slot. -/
theorem readOn_eq (tid : Int32) (shown : Binary64 → Bool) (slots : List Slot) :
    readOn tid shown slots = (readAll tid slots).filter fun sample => shown sample.time := by
  fun_induction readOn tid shown slots with
  | case1 position timePosition time rest hshown frames responsiveness ih =>
    rw [readAll, if_pos rfl, readAll_time, readAll_of_leadsTo tid (leadsTo_behind rest), ih]
    simp only [List.filter_cons, hshown, if_true, frames, responsiveness]
  | case2 position timePosition time rest hshown ih =>
    rw [readAll, if_pos rfl, readAll_time, ih]
    simp only [List.filter_cons, hshown, if_false, Bool.false_eq_true]
  | case3 position t timePosition time rest ht ih =>
    rw [readAll, if_neg ht, ih]
  | case4 slot rest hslot ih =>
    rw [ih, readAll]
    exact hslot
  | case5 => rfl

end RecordedSample

/-- The samples of a thread that are shown are those that a single pass over the window reads. -/
theorem ThreadProfile.shownSamples_eq_readOn (tid : Int32) (w : Window) (settings : Settings) :
    shownSamples tid w settings = RecordedSample.readOn tid settings.includes w.slots :=
  (RecordedSample.readOn_eq tid settings.includes w.slots).symm

end TraceProfile
