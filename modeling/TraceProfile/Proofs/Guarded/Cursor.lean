import TraceProfile.Proofs.Buffer.Tail
import TraceProfile.Proofs.Guarded.Fault

/-!
# Moving over a window

A cursor gives out entries with their positions, which have to fit into a machine word, and an entry
is read with an accessor once its kind has been tested. The accessors know nothing of these tests,
so each pair of a kind and an accessor is checked (`Reads`). A cursor is known by the slots that it
has before it (`Cursor.At`), and what a reader does by what it makes of them.

Readers go round in loops. What a loop keeps is an invariant of the state and the slots that are
left, and each round leaves fewer of them (`ensures_loop`).
-/

namespace TraceProfile

/-- The cursor stands in the window, and the slots are those that follow. -/
structure Cursor.At (c : Cursor) (w : Window) (slots : List Slot) : Prop where
  window_eq : c.window = w
  slots_eq : w.slots.drop c.index = slots

/-- The number of slots that follow. -/
def Cursor.left (c : Cursor) : Nat := c.window.entries.size - c.index

theorem Cursor.At.left_eq {c : Cursor} {w : Window} {slots : List Slot} (h : c.At w slots) :
    c.left = slots.length := by
  obtain ⟨rfl, rfl⟩ := h
  rw [left, List.length_drop, Window.length_slots]

theorem Cursor.at_start (w : Window) : Cursor.At ⟨w, 0⟩ w w.slots := ⟨rfl, rfl⟩

theorem Cursor.at_ofWindow (w : Window) (position : Nat) :
    (Cursor.ofWindow w position).At w (w.slotsFrom position) := by
  refine ⟨rfl, ?_⟩
  simp only [Cursor.ofWindow]
  rw [Window.slotsFrom_eq_drop, ← Window.length_slots]
  exact List.drop_eq_drop_min.symm

theorem takeIf_eq_some {α : Type} {read : Entry → Option α} {slots rest : List Slot} {a : α}
    (h : takeIf read slots = (some a, rest)) :
    ∃ slot, slots = slot :: rest ∧ read slot.entry = some a := by
  cases slots with
  | nil => exact absurd h (by simp [takeIf])
  | cons slot slots =>
    rw [takeIf] at h
    split at h
    · next b hread =>
      obtain ⟨hsome, rfl⟩ := Prod.mk.inj h
      exact ⟨slot, rfl, hread.trans hsome⟩
    · exact absurd h (by simp)

theorem takeIf_eq_none {α : Type} {read : Entry → Option α} {slots rest : List Slot}
    (h : takeIf read slots = (none, rest)) : rest = slots := by
  cases slots with
  | nil => exact (Prod.mk.inj h).2.symm
  | cons slot slots =>
    rw [takeIf] at h
    split at h
    · exact absurd h (by simp)
    · exact (Prod.mk.inj h).2.symm

namespace Guarded

variable {α σ : Type}

/-- The slot that follows. -/
def peek (c : Cursor) : Guarded (Option Slot) :=
  match c.peek? with
  | some slot => do
    let position ← add c.window.start c.index
    return some ⟨position, slot.entry⟩
  | none => return none

/-- The cursor after the slot that follows. -/
def skip (c : Cursor) : Guarded Cursor := do
  let index ← add c.index 1
  return { c with index }

/-- The slot that follows and the cursor after it. -/
def next (c : Cursor) : Guarded (Option Slot × Cursor) := do
  match ← peek c with
  | some slot =>
    let c ← skip c
    return (some slot, c)
  | none => return (none, c)

/-- Reads the entry that follows and moves over it if it is of the given kind. -/
def readIf (kind : Kind) (read : Entry → Except AccessFault α) (c : Cursor) :
    Guarded (Option α × Cursor) := do
  match ← peek c with
  | some slot =>
    if slot.entry.kind = kind then
      let c ← skip c
      let a ← access read slot.entry
      return (some a, c)
    else return (none, c)
  | none => return (none, c)

/-- Repeats a round until it is done. A round that is not the last one has to move on. -/
def loop (round : σ → Cursor → Guarded (ForInStep (σ × Cursor))) (s : σ) (c : Cursor) :
    Guarded (σ × Cursor) :=
  round s c >>= fun
  | .done result => pure result
  | .yield (s', c') =>
    if c'.left < c.left then loop round s' c' else throw .stuck
termination_by c.left

/-- Passes by the next slot, if there is one. -/
def visitRound (f : σ → Slot → σ) (s : σ) (c : Cursor) : Guarded (ForInStep (σ × Cursor)) := do
  match ← next c with
  | (some slot, c) => return .yield (f s slot, c)
  | (none, c) => return .done (s, c)

/-- Passes by all slots that follow. -/
def visit (f : σ → Slot → σ) (s : σ) (c : Cursor) : Guarded σ := do
  let (s, _) ← loop (visitRound f) s c
  return s

/-- The accessor fits the entries of the kind, and gives what `read?` gives for them and for no
others. -/
def Reads (kind : Kind) (read : Entry → Except AccessFault α) (read? : Entry → Option α) : Prop :=
  ∀ entry : Entry, (entry.kind = kind ∧ ∃ a, read entry = .ok a ∧ read? entry = some a) ∨
    (entry.kind ≠ kind ∧ read? entry = none)

/-! ## What they do -/

section

variable {w : Window} (hw : w.stop < UInt64.size) {c : Cursor} {slots : List Slot}

include hw

theorem ensures_peek (h : c.At w slots) : (peek c).Ensures (· = slots.head?) := by
  obtain ⟨rfl, rfl⟩ := h
  rw [List.head?_drop, Window.getElem?_slots, peek, Cursor.peek?]
  cases hentry : c.window.entries[c.index]? with
  | none => exact .pure rfl
  | some entry =>
    obtain ⟨hindex, -⟩ := Array.getElem?_eq_some_iff.1 hentry
    have hfits : c.window.start + c.index < UInt64.size := by
      have hstop : c.window.start + c.window.entries.size < UInt64.size := hw
      omega
    refine (ensures_add hfits).bind ?_
    rintro _ rfl
    exact .pure rfl

theorem ensures_skip {slot : Slot} {rest : List Slot} (h : c.At w (slot :: rest)) :
    (skip c).Ensures (·.At w rest) := by
  have hleft : c.left = rest.length + 1 := h.left_eq
  obtain ⟨rfl, hslots⟩ := h
  have hfits : c.index + 1 < UInt64.size := by
    have hstop : c.window.start + c.window.entries.size < UInt64.size := hw
    rw [Cursor.left] at hleft
    omega
  refine (ensures_add hfits).bind ?_
  rintro _ rfl
  refine .pure ⟨rfl, ?_⟩
  rw [← List.drop_drop, hslots]
  rfl

theorem ensures_next (h : c.At w slots) :
    (next c).Ensures fun p => p.1 = slots.head? ∧ p.2.At w slots.tail := by
  refine (ensures_peek hw h).bind ?_
  rintro _ rfl
  cases slots with
  | nil => exact .pure ⟨rfl, h⟩
  | cons slot rest =>
    refine (ensures_skip hw h).bind ?_
    intro c' hc'
    exact .pure ⟨rfl, hc'⟩

/-- Reading with an accessor is taking the first slot if its entry is one that fits. -/
theorem ensures_readIf {kind : Kind} {read : Entry → Except AccessFault α}
    {read? : Entry → Option α} (hread : Reads kind read read?) (h : c.At w slots) :
    (readIf kind read c).Ensures fun p =>
      p.1 = (takeIf read? slots).1 ∧ p.2.At w (takeIf read? slots).2 := by
  refine (ensures_peek hw h).bind ?_
  rintro _ rfl
  cases slots with
  | nil => exact .pure ⟨rfl, h⟩
  | cons slot rest =>
    simp only [List.head?_cons, takeIf]
    rcases hread slot.entry with ⟨hkind, a, hok, hsome⟩ | ⟨hkind, hnone⟩
    · rw [if_pos hkind, hsome]
      refine (ensures_skip hw h).bind ?_
      intro c' hc'
      rw [access, hok]
      exact .pure ⟨rfl, hc'⟩
    · rw [if_neg hkind, hnone]
      exact .pure ⟨rfl, h⟩

theorem ensures_readIf_of_eq {kind : Kind} {read : Entry → Except AccessFault α}
    {read? : Entry → Option α} (hread : Reads kind read read?) (h : c.At w slots) {o : Option α}
    {rest : List Slot} (htake : takeIf read? slots = (o, rest)) :
    (readIf kind read c).Ensures fun p => p.1 = o ∧ p.2.At w rest := by
  have hensures := ensures_readIf hw hread h
  rw [htake] at hensures
  exact hensures

end

/-- An accessor that does not fit the kind that is tested for is found out. -/
example : readIf .counterKey Entry.readInt64 ⟨.ofEntries 0 #[.counterKey 5], 0⟩ =
    .error (.access ⟨.int64, .counterKey⟩) := rfl

/-- What a round has done to the state and the slots that are left: it was the last one, or fewer
slots are left. -/
def Advances (w : Window) (count : Nat) (continues ends : σ → List Slot → Prop) :
    ForInStep (σ × Cursor) → Prop
  | .done (s, c) => ∃ rest, c.At w rest ∧ ends s rest
  | .yield (s, c) => ∃ rest, c.At w rest ∧ rest.length < count ∧ continues s rest

/-- A loop keeps its invariant until it is done, and it ends. -/
theorem ensures_loop {w : Window} (round : σ → Cursor → Guarded (ForInStep (σ × Cursor)))
    (invariant post : σ → List Slot → Prop)
    (hround : ∀ s c slots, c.At w slots → invariant s slots →
      (round s c).Ensures (Advances w slots.length invariant post))
    {s : σ} {c : Cursor} {slots : List Slot} (h : c.At w slots) (hs : invariant s slots) :
    (loop round s c).Ensures fun p => ∃ rest, p.2.At w rest ∧ post p.1 rest := by
  induction hlength : slots.length using Nat.strongRecOn generalizing s c slots with
  | _ length ih =>
    rw [loop]
    refine (hround s c slots h hs).bind ?_
    rintro (⟨s', c'⟩ | ⟨s', c'⟩) hresult
    · exact .pure hresult
    · obtain ⟨rest, hc', hlt, hs'⟩ := hresult
      have hshorter : c'.left < c.left := by
        rw [hc'.left_eq, h.left_eq]
        exact hlt
      simp only [if_pos hshorter]
      exact ih rest.length (hlength ▸ hlt) hc' hs' rfl

/-- A loop whose rounds leave what is to come out in the end unchanged brings it out. -/
theorem ensures_loop_eq {τ : Type} {w : Window}
    {round : σ → Cursor → Guarded (ForInStep (σ × Cursor))} (outcome final : σ → List Slot → τ)
    (hround : ∀ s c slots, c.At w slots → (round s c).Ensures (Advances w slots.length
      (outcome · · = outcome s slots) (final · · = outcome s slots)))
    {c : Cursor} {slots : List Slot} (h : c.At w slots) (s : σ) :
    (loop round s c).Ensures fun p => ∃ rest, p.2.At w rest ∧ final p.1 rest = outcome s slots := by
  refine ensures_loop round (outcome · · = outcome s slots) (final · · = outcome s slots) ?_ h rfl
  intro s' c' slots' hc' hinvariant
  rw [← hinvariant]
  exact hround s' c' slots' hc'

theorem ensures_visit {w : Window} (hw : w.stop < UInt64.size) {c : Cursor} {slots : List Slot}
    (h : c.At w slots) (f : σ → Slot → σ) (s : σ) :
    (visit f s c).Ensures (· = slots.foldl f s) := by
  have hloop : (loop (visitRound f) s c).Ensures fun p =>
      ∃ rest, p.2.At w rest ∧ p.1 = slots.foldl f s := by
    refine ensures_loop_eq (fun s slots => slots.foldl f s) (fun s _ => s) ?_ h s
    intro s c slots h
    refine (ensures_next hw h).bind ?_
    rintro ⟨_, c'⟩ ⟨rfl, h'⟩
    cases slots with
    | nil => exact .pure ⟨[], h', rfl⟩
    | cons slot rest => exact .pure ⟨rest, h', Nat.lt_succ_self _, rfl⟩
  refine hloop.bind ?_
  rintro ⟨s', c'⟩ ⟨rest, -, rfl⟩
  exact .pure rfl

end Guarded

end TraceProfile
