import Mathlib.Data.List.Induction
import TraceProfile.Proofs.Jit.Retention
import TraceProfile.Proofs.Profile.TableInvariant

/-!
# Stacks share their rows

A stack is named by the row around its innermost frame and the index of that frame, and the row
around it is only made when the stack is used. Many stacks may be half made at a time, and any of
them may be used again. Nevertheless a stack is known by its frames alone: where two stacks come
from the same frames they have the same name (`Tables.Describes.eq_iff`), by induction on the number
of frames, since the rows around them are then the same.

A `Ledger` writes down what is asked of the tables and what they answer. Each request keeps every
answer right (`Ledger.Consistent.step`), so no answer of a run is ever taken back.
-/

namespace TraceProfile

/-- What stands in a list that goes with another one goes with what stands there in the other. -/
theorem exists_getElem?_of_forall₂ {α β : Type} {R : α → β → Prop} {l : List α} {l' : List β}
    (h : List.Forall₂ R l l') {index : Nat} {b : β} (hb : l'[index]? = some b) :
    ∃ a, l[index]? = some a ∧ R a b := by
  obtain ⟨hlt, rfl⟩ := List.getElem?_eq_some_iff.1 hb
  have hlt' : index < l.length := h.length_eq ▸ hlt
  exact ⟨l[index], List.getElem?_eq_getElem hlt', (List.forall₂_iff_get.1 h).2 index hlt' hlt⟩

namespace Tables

/-! ## One name for each stack -/

/-- A stack has a frame. -/
theorem Describes.ne_nil {t : Tables} {node : StackNode} {keys : List FrameKey}
    (h : t.Describes node keys) : keys ≠ [] := by
  obtain ⟨outer, last, rfl, -, -⟩ := h
  simp

theorem Describes.node_eq {t : Tables} {node node' : StackNode} {keys : List FrameKey}
    (h : t.Describes node keys) (h' : t.Describes node' keys) : node = node' := by
  induction keys using List.reverseRecOn generalizing node node' with
  | nil => exact absurd rfl h.ne_nil
  | append_singleton outer last ih =>
    obtain ⟨outer₁, last₁, heq, hlast, hparent⟩ := h
    obtain ⟨rfl, rfl⟩ := List.append_singleton_inj.1 heq
    obtain ⟨outer₂, last₂, heq', hlast', hparent'⟩ := h'
    obtain ⟨rfl, rfl⟩ := List.append_singleton_inj.1 heq'
    obtain ⟨parent, frame⟩ := node
    obtain ⟨parent', frame'⟩ := node'
    obtain rfl : frame = frame' := (Interner.index_eq_iff hlast hlast').2 rfl
    -- A row leads to at least one frame, so both stacks have a row around them or neither has.
    rcases parent with _ | parent <;> rcases parent' with _ | parent'
    · rfl
    · obtain rfl : outer = [] := hparent
      obtain ⟨node, -, hnode⟩ := exists_describes_of_keys? hparent'
      exact absurd rfl hnode.ne_nil
    · obtain rfl : outer = [] := hparent'
      obtain ⟨node, -, hnode⟩ := exists_describes_of_keys? hparent
      exact absurd rfl hnode.ne_nil
    · obtain ⟨around, hget, haround⟩ := exists_describes_of_keys? hparent
      obtain ⟨around', hget', haround'⟩ := exists_describes_of_keys? hparent'
      have hsame : around = around' := ih haround haround'
      have hindex : parent = parent' := (Interner.index_eq_iff hget hget').2 hsame
      rw [hindex]

theorem Describes.keys_eq {t : Tables} {node : StackNode} {keys keys' : List FrameKey}
    (h : t.Describes node keys) (h' : t.Describes node keys') : keys = keys' := by
  obtain ⟨outer, last, rfl, hlast, hparent⟩ := h
  obtain ⟨outer', last', rfl, hlast', hparent'⟩ := h'
  obtain rfl : last = last' := (Interner.index_eq_iff hlast hlast').1 rfl
  rcases hp : node.parent with _ | parent
  · rw [hp] at hparent hparent'
    rw [hparent, hparent']
  · rw [hp] at hparent hparent'
    have houter : outer = outer' := Option.some.inj (hparent.symm.trans hparent')
    rw [houter]

/-- Two stacks have the same name exactly if they have the same frames. -/
theorem Describes.eq_iff {t : Tables} {node node' : StackNode} {keys keys' : List FrameKey}
    (h : t.Describes node keys) (h' : t.Describes node' keys') : node = node' ↔ keys = keys' := by
  constructor
  · rintro rfl
    exact h.keys_eq h'
  · rintro rfl
    exact h.node_eq h'

/-- Two stacks have the same row exactly if they have the same frames. -/
theorem index_eq_iff_of_keys? {t : Tables} {i j : Nat} {keys keys' : List FrameKey}
    (hi : t.keys? i = some keys) (hj : t.keys? j = some keys') : i = j ↔ keys = keys' := by
  obtain ⟨node, hget, hnode⟩ := exists_describes_of_keys? hi
  obtain ⟨node', hget', hnode'⟩ := exists_describes_of_keys? hj
  rw [Interner.index_eq_iff hget hget', hnode.eq_iff hnode']

/-! ## Asking again -/

/-- Asking for a frame that has a row changes nothing. -/
theorem frameIndex_of_get? {t : Tables} {index : Nat} {key : FrameKey}
    (h : t.frames.keys.get? index = some key) : t.frameIndex key = (index, t) := by
  rw [frameIndex_of_mem (Interner.mem_of_get? h), Interner.idxOf_of_get? h]

/-- Asking for a stack whose frames have a row changes nothing. -/
theorem stackIndex_of_keys? {t : Tables} {index : Nat} {node : StackNode} {keys : List FrameKey}
    (hnode : t.Describes node keys) (hkeys : t.keys? index = some keys) :
    t.stackIndex node = (index, t) := by
  obtain ⟨node', hget, hnode'⟩ := exists_describes_of_keys? hkeys
  obtain rfl : node = node' := hnode.node_eq hnode'
  have hknown := Interner.intern_of_get? hget
  simp only [stackIndex, hknown]

end Tables

/-! ## What is asked, and what is answered -/

/-- Something that is asked of the tables. A stack that was made before is given by its number. -/
inductive Request where
  /-- The stack of a single frame. -/
  | root (key : FrameKey)
  /-- The stack of a frame inside a stack that was made before. -/
  | append (outer : Nat) (key : FrameKey)
  /-- The index of a frame. -/
  | frame (key : FrameKey)
  /-- The index of a stack that was made before. -/
  | stack (number : Nat)
  /-- The index of a text. -/
  | text (s : String)

/-- Tables and what they have answered. -/
structure Ledger where
  /-- The tables. -/
  tables : Tables
  /-- The stacks that were made, each with the frames that it was made from, the outermost first. -/
  made : List (StackNode × List FrameKey) := []
  /-- The indices of frames that were handed out. -/
  frameIndices : List (Nat × FrameKey) := []
  /-- The indices of stacks that were handed out, each with the frames of the stack. -/
  stackIndices : List (Nat × List FrameKey) := []
  /-- The indices of texts that were handed out. -/
  textIndices : List (Nat × String) := []

namespace Ledger

/-- The ledger after a request. A request for a stack that was not made is not answered. -/
def step (l : Ledger) : Request → Ledger
  | .root key =>
    let (node, tables) := l.tables.root key
    { l with tables, made := l.made ++ [(node, [key])] }
  | .append outer key =>
    match l.made[outer]? with
    | some (node, keys) =>
      let (node, tables) := l.tables.append node key
      { l with tables, made := l.made ++ [(node, keys ++ [key])] }
    | none => l
  | .frame key =>
    let (index, tables) := l.tables.frameIndex key
    { l with tables, frameIndices := l.frameIndices ++ [(index, key)] }
  | .stack number =>
    match l.made[number]? with
    | some (node, keys) =>
      let (index, tables) := l.tables.stackIndex node
      { l with tables, stackIndices := l.stackIndices ++ [(index, keys)] }
    | none => l
  | .text s =>
    let (index, strings) := l.tables.strings.intern s
    { l with tables := { l.tables with strings }, textIndices := l.textIndices ++ [(index, s)] }

/-- The ledger after requests, in order. -/
def run (l : Ledger) (requests : List Request) : Ledger := requests.foldl step l

/-- Every answer is right: each stack has the frames that it was made from, and each index that was
handed out leads to what it was handed out for. -/
structure Consistent (l : Ledger) : Prop where
  valid : l.tables.Valid
  made : ∀ p ∈ l.made, l.tables.Describes p.1 p.2
  frameIndices : ∀ p ∈ l.frameIndices, l.tables.frames.keys.get? p.1 = some p.2
  stackIndices : ∀ p ∈ l.stackIndices, l.tables.keys? p.1 = some p.2
  textIndices : ∀ p ∈ l.textIndices, l.tables.strings.get? p.1 = some p.2

/-- Nothing has been asked of the tables. -/
theorem consistent_ofCoverage {c : Jit.Coverage} (h : c.Reached) :
    Consistent { tables := .ofCoverage c } where
  valid := Tables.valid_ofCoverage h.valid.readable
  made := fun _ hp => absurd hp List.not_mem_nil
  frameIndices := fun _ hp => absurd hp List.not_mem_nil
  stackIndices := fun _ hp => absurd hp List.not_mem_nil
  textIndices := fun _ hp => absurd hp List.not_mem_nil

/-- Answers stay right when the tables grow. -/
theorem Consistent.grow {l : Ledger} (h : l.Consistent) {tables : Tables} (hvalid : tables.Valid)
    (hgrows : l.tables.GrowsTo tables) : Consistent { l with tables } where
  valid := hvalid
  made := fun p hp => hgrows.describes (h.made p hp)
  frameIndices := fun p hp => hgrows.keys.get? (h.frameIndices p hp)
  stackIndices := fun p hp => hgrows.keys? (h.stackIndices p hp)
  textIndices := fun p hp => hgrows.strings.get? (h.textIndices p hp)

theorem Consistent.addMade {l : Ledger} (h : l.Consistent) {node : StackNode} {keys : List FrameKey}
    (hnode : l.tables.Describes node keys) :
    Consistent { l with made := l.made ++ [(node, keys)] } := by
  refine { h with made := ?_ }
  exact List.forall_mem_append.2 ⟨h.made, List.forall_mem_singleton.2 hnode⟩

/-- A request is answered rightly, and moves nothing. -/
theorem Consistent.step {l : Ledger} (h : l.Consistent) (request : Request) :
    (l.step request).Consistent ∧ l.tables.GrowsTo (l.step request).tables := by
  cases request with
  | root key =>
    obtain ⟨hvalid, hgrows, hnode⟩ := Tables.root_spec h.valid key
    exact ⟨(h.grow hvalid hgrows).addMade hnode, hgrows⟩
  | append outer key =>
    rw [Ledger.step]
    split
    · next node keys hmade =>
      have houter := h.made (node, keys) (List.mem_of_getElem? hmade)
      obtain ⟨hvalid, hgrows, hnode⟩ := Tables.append_spec h.valid houter key
      exact ⟨(h.grow hvalid hgrows).addMade hnode, hgrows⟩
    · exact ⟨h, .refl l.tables⟩
  | frame key =>
    obtain ⟨hvalid, hgrows, hindex⟩ := Tables.frameIndex_spec h.valid key
    have hold := h.grow hvalid hgrows
    refine ⟨{ hold with frameIndices := ?_ }, hgrows⟩
    exact List.forall_mem_append.2 ⟨hold.frameIndices, List.forall_mem_singleton.2 hindex⟩
  | stack number =>
    rw [Ledger.step]
    split
    · next node keys hmade =>
      have hnode := h.made (node, keys) (List.mem_of_getElem? hmade)
      obtain ⟨hvalid, hgrows, hindex⟩ := Tables.stackIndex_spec h.valid hnode
      have hold := h.grow hvalid hgrows
      refine ⟨{ hold with stackIndices := ?_ }, hgrows⟩
      exact List.forall_mem_append.2 ⟨hold.stackIndices, List.forall_mem_singleton.2 hindex⟩
    · exact ⟨h, .refl l.tables⟩
  | text s =>
    have hstrings := Interner.growsTo_insert l.tables.strings s
    have hindex := Interner.get?_idxOf_insert l.tables.strings s
    have hgrows : l.tables.GrowsTo { l.tables with strings := l.tables.strings.insert s } :=
      ⟨hstrings, .refl _, List.prefix_rfl, .refl _, rfl⟩
    have hold := h.grow (h.valid.growStrings hstrings) hgrows
    rw [Ledger.step, Interner.intern_eq]
    refine ⟨{ hold with textIndices := ?_ }, hgrows⟩
    exact List.forall_mem_append.2 ⟨hold.textIndices, List.forall_mem_singleton.2 hindex⟩

/-- All requests of a run are answered rightly, and none of them moves anything. -/
theorem Consistent.run {l : Ledger} (h : l.Consistent) (requests : List Request) :
    (l.run requests).Consistent ∧ l.tables.GrowsTo (l.run requests).tables := by
  induction requests generalizing l with
  | nil => exact ⟨h, .refl l.tables⟩
  | cons request requests ih =>
    obtain ⟨hstep, hgrows⟩ := h.step request
    obtain ⟨hrest, hgrows'⟩ := ih hstep
    exact ⟨hrest, hgrows.trans hgrows'⟩

/-! ## What a run hands out -/

/-- What was handed out is shared as far as can be, and no further: a name or an index stands for
one stack or frame, and the row of a stack leads to the indices of its frames. -/
structure Shares (l : Ledger) : Prop where
  stack_eq_iff : ∀ p ∈ l.stackIndices, ∀ q ∈ l.stackIndices, p.1 = q.1 ↔ p.2 = q.2
  made_eq_iff : ∀ p ∈ l.made, ∀ q ∈ l.made, p.1 = q.1 ↔ p.2 = q.2
  frame_eq_iff : ∀ p ∈ l.frameIndices, ∀ q ∈ l.frameIndices, p.1 = q.1 ↔ p.2 = q.2
  frames_of_stack : ∀ p ∈ l.stackIndices, ∃ frames,
    StackNode.frames? l.tables.nodes.toList p.1 = some frames ∧
      List.Forall₂ (fun key frame => l.tables.frameIndex key = (frame, l.tables)) p.2 frames

/-- What was handed out holds in the later tables: every row is where it was, and asking again for a
frame, a stack or a text gives the index that was handed out and changes nothing. -/
structure HoldsIn (l : Ledger) (later : Tables) : Prop where
  growsTo : l.tables.GrowsTo later
  frame_again : ∀ p ∈ l.frameIndices,
    p.1 < l.tables.frames.rows.size ∧ later.frameIndex p.2 = (p.1, later)
  stack_again : ∀ p ∈ l.stackIndices, ∀ q ∈ l.made, p.2 = q.2 →
    p.1 < l.tables.nodes.size ∧ later.stackIndex q.1 = (p.1, later)
  text_again : ∀ p ∈ l.textIndices,
    p.1 < l.tables.strings.size ∧ later.strings.intern p.2 = (p.1, later.strings)

theorem Consistent.shares {l : Ledger} (h : l.Consistent) : l.Shares where
  stack_eq_iff := fun p hp q hq =>
    Tables.index_eq_iff_of_keys? (h.stackIndices p hp) (h.stackIndices q hq)
  made_eq_iff := fun p hp q hq => (h.made p hp).eq_iff (h.made q hq)
  frame_eq_iff := fun p hp q hq => Interner.index_eq_iff (h.frameIndices p hp) (h.frameIndices q hq)
  frames_of_stack := by
    intro p hp
    obtain ⟨frames, hframes, hmap⟩ := Tables.keys?_eq_some_iff.1 (h.stackIndices p hp)
    refine ⟨frames, hframes, ?_⟩
    have hindices : List.Forall₂ (· = ·) (p.2.map some) (frames.map l.tables.frames.keys.get?) := by
      rw [List.forall₂_eq_eq_eq]
      exact hmap.symm
    rw [List.forall₂_map_left_iff, List.forall₂_map_right_iff] at hindices
    exact hindices.imp fun _ _ hget => Tables.frameIndex_of_get? hget.symm

theorem Consistent.holdsIn {l : Ledger} (h : l.Consistent) {later : Tables}
    (hgrows : l.tables.GrowsTo later) : l.HoldsIn later where
  growsTo := hgrows
  frame_again := by
    intro p hp
    have hget := h.frameIndices p hp
    refine ⟨?_, Tables.frameIndex_of_get? (hgrows.keys.get? hget)⟩
    rw [h.valid.size_rows]
    exact Interner.lt_size_of_get? hget
  stack_again := by
    intro p hp q hq hsame
    have hkeys := h.stackIndices p hp
    refine ⟨Tables.lt_size_of_keys? hkeys, ?_⟩
    have hnode := h.made q hq
    rw [← hsame] at hnode
    exact Tables.stackIndex_of_keys? (hgrows.describes hnode) (hgrows.keys? hkeys)
  text_again := by
    intro p hp
    have hget := h.textIndices p hp
    exact ⟨Interner.lt_size_of_get? hget, Interner.intern_of_get? (hgrows.strings.get? hget)⟩

/-- Whatever is asked of tables that take over a coverage, in whichever order: what they hand out is
shared exactly, and whatever is asked later, it holds. -/
theorem run_shares {c : Jit.Coverage} (h : c.Reached) (requests more : List Request) :
    (run { tables := .ofCoverage c } requests).Shares ∧
      (run { tables := .ofCoverage c } requests).HoldsIn
        ((run { tables := .ofCoverage c } requests).run more).tables := by
  obtain ⟨hrun, -⟩ := (consistent_ofCoverage h).run requests
  obtain ⟨-, hgrows⟩ := hrun.run more
  exact ⟨hrun.shares, hrun.holdsIn hgrows⟩

/-- Stacks are made side by side and used again. The stack of the two frames is asked for twice and
has one index, and the text of the compiled frame has the index that the coverage gave it. -/
theorem run_shares_interleaved :
    let c := ({} : Jit.Coverage).add 0 9 (fun _ => [{ canonical := 16, label := "f" }]) [20]
    let code : FrameKey := .jit ⟨16, 0⟩ 0
    let main : FrameKey := .ofLabel "main"
    let requests : List Request :=
      [.root main, .append 0 code, .root main, .text "f", .append 2 main, .stack 3, .stack 1,
        .append 2 code, .stack 4, .frame code]
    let l := run { tables := .ofCoverage c } requests
    l.stackIndices = [(1, [main, main]), (2, [main, code]), (2, [main, code])] ∧
      l.frameIndices = [(1, code)] ∧ l.textIndices = [(0, "f")] ∧
      l.Shares ∧ l.HoldsIn (l.run [.stack 0, .frame main]).tables := by
  intro c code main requests l
  have hc : c.Reached := .add .empty 0 9 _ [20]
  obtain ⟨hshares, hholds⟩ := run_shares hc requests [.stack 0, .frame main]
  exact ⟨by decide +kernel, by decide +kernel, by decide +kernel, hshares, hholds⟩

end Ledger

end TraceProfile
