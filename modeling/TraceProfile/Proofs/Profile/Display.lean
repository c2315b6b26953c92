import TraceProfile.Profile.Thread
import TraceProfile.Proofs.Table.Growth

/-!
# Reading a profile back

A profile refers to everything by index: a sample to the row of its innermost frame in the stack
table, that row to the row of the stack around it and to a row of the frame table, and a frame row
to its texts. `readStack?` follows these references and gives the frames of a stack, outermost
first, as a reader of the profile sees them. It fails if any reference leads nowhere.

What has been read stays the same while the tables grow.
-/

namespace TraceProfile

/-- A frame as a reader of a profile sees it, with texts in the place of indices. -/
structure ShownFrame where
  /-- The text. -/
  location : String
  /-- The tier that compiled the code. -/
  implementation : Option String := none
  /-- What the compiler reports about its optimizations. -/
  optimizations : Option Json := none
  /-- The line. -/
  line : Option Nat := none
  /-- The column. -/
  column : Option Nat := none
  /-- The category. -/
  category : Option Nat := none
  /-- Whether the frame belongs into a view of scripts only. -/
  relevantForJs : Bool := false

/-- What is shown of a frame of which nothing but the address is known. -/
def ShownFrame.ofAddress (address : UInt64) : ShownFrame where
  location := Number.hexAddress address.toNat

/-- What is shown of a label frame. -/
def LabelFrame.shown (frame : LabelFrame) : ShownFrame where
  location := frame.location
  line := frame.line
  column := frame.column
  category := frame.category
  relevantForJs := frame.relevantForJs

/-- What is shown of a frame of compiled code that has been resolved. -/
def Jit.Descriptor.shown (d : Descriptor) : ShownFrame where
  location := d.label
  implementation := d.implementation
  optimizations := d.optimizations
  line := d.line
  column := d.column
  category := d.category
  relevantForJs := d.relevantForJs

/-! ## Frame rows -/

/-- The text at an index, where the index may be absent but must not lead nowhere. -/
def textAt? (strings : List String) : Option Nat → Option (Option String)
  | none => some none
  | some index => strings[index]?.map some

/-- What is shown of a row of the frame table. -/
def FrameRow.shown? (strings : List String) (row : FrameRow) : Option ShownFrame :=
  match strings[row.location]?, textAt? strings row.implementation with
  | some location, some implementation =>
    some { location, implementation
           optimizations := row.optimizations
           line := row.line
           column := row.column
           category := row.category
           relevantForJs := row.relevantForJs }
  | _, _ => none

theorem textAt?_mono {strings strings' : List String} (h : strings <+: strings')
    {index : Option Nat} {text : Option String} (ht : textAt? strings index = some text) :
    textAt? strings' index = some text := by
  cases index with
  | none => exact ht
  | some index =>
    obtain ⟨s, hs, rfl⟩ := Option.map_eq_some_iff.1 ht
    exact Option.map_eq_some_iff.2 ⟨s, getElem?_mono h hs, rfl⟩

/-- A row can be read exactly if its references lead to texts. -/
theorem FrameRow.exists_shown?_iff {strings : List String} {row : FrameRow} :
    (∃ frame, row.shown? strings = some frame) ↔
      row.location < strings.length ∧
        ∀ index, row.implementation = some index → index < strings.length := by
  rw [shown?]
  constructor
  · rintro ⟨frame, h⟩
    split at h
    · next location implementation hlocation himplementation =>
      refine ⟨(List.getElem?_eq_some_iff.1 hlocation).1, fun index hindex => ?_⟩
      rw [hindex] at himplementation
      obtain ⟨s, hs, -⟩ := Option.map_eq_some_iff.1 himplementation
      exact (List.getElem?_eq_some_iff.1 hs).1
    · exact absurd h (by simp)
  · rintro ⟨hlocation, himplementation⟩
    rw [List.getElem?_eq_getElem hlocation]
    cases hrow : row.implementation with
    | none => exact ⟨_, rfl⟩
    | some index =>
      have hindex := himplementation index hrow
      simp [textAt?, hindex]

theorem FrameRow.shown?_mono {strings strings' : List String} (h : strings <+: strings')
    {row : FrameRow} {frame : ShownFrame} (hrow : row.shown? strings = some frame) :
    row.shown? strings' = some frame := by
  rw [shown?] at hrow ⊢
  split at hrow
  · next location implementation hlocation himplementation =>
    rw [getElem?_mono h hlocation, textAt?_mono h himplementation]
    exact hrow
  · exact absurd hrow (by simp)

/-! ## Stacks -/

/-- The frames of a stack by their indices, the outermost first. The row of the stack around a frame
has to stand before the row of the frame. -/
def StackNode.frames? (nodes : List StackNode) (index : Nat) : Option (List Nat) :=
  match nodes[index]? with
  | none => none
  | some ⟨none, frame⟩ => some [frame]
  | some ⟨some parent, frame⟩ =>
    if parent < index then (frames? nodes parent).map (· ++ [frame]) else none
termination_by index

/-- The frames of a stack are those of the stack around its innermost frame, and that frame. -/
theorem StackNode.frames?_eq_some_iff {nodes : List StackNode} {index : Nat} {frames : List Nat} :
    frames? nodes index = some frames ↔
      ∃ node outer, nodes[index]? = some node ∧ frames = outer ++ [node.frame] ∧
        match node.parent with
        | none => outer = []
        | some parent => parent < index ∧ frames? nodes parent = some outer := by
  rw [frames?]
  constructor
  · intro h
    split at h
    · exact absurd h (by simp)
    · next frame hnode =>
      obtain rfl := Option.some.inj h
      exact ⟨⟨none, frame⟩, [], hnode, rfl, rfl⟩
    · next parent frame hnode =>
      split at h
      · next hlt =>
        obtain ⟨outer, houter, rfl⟩ := Option.map_eq_some_iff.1 h
        exact ⟨⟨some parent, frame⟩, outer, hnode, rfl, hlt, houter⟩
      · exact absurd h (by simp)
  · rintro ⟨⟨parent, frame⟩, outer, hnode, rfl, hparent⟩
    rw [hnode]
    cases parent with
    | none =>
      obtain rfl : outer = [] := hparent
      rfl
    | some parent =>
      obtain ⟨hlt, houter⟩ := hparent
      simp [hlt, houter]

theorem StackNode.frames?_mono {nodes nodes' : List StackNode} (h : nodes <+: nodes')
    {index : Nat} {frames : List Nat} (hframes : frames? nodes index = some frames) :
    frames? nodes' index = some frames := by
  induction index using Nat.strongRecOn generalizing frames with
  | _ index ih =>
    obtain ⟨⟨parent, frame⟩, outer, hnode, rfl, hparent⟩ := frames?_eq_some_iff.1 hframes
    refine frames?_eq_some_iff.2 ⟨⟨parent, frame⟩, outer, getElem?_mono h hnode, rfl, ?_⟩
    cases parent with
    | none => exact hparent
    | some parent =>
      obtain ⟨hlt, houter⟩ := hparent
      exact ⟨hlt, ih parent hlt houter⟩

/-- The frames of the stack with the given index as a reader sees them, the outermost first. -/
def readStack? (nodes : List StackNode) (rows : List FrameRow) (strings : List String)
    (index : Nat) : Option (List ShownFrame) :=
  (StackNode.frames? nodes index).bind fun frames =>
    frames.mapM fun frame => rows[frame]?.bind (·.shown? strings)

/-- The frames of a stack of the profile. -/
def ThreadProfile.stack? (p : ThreadProfile) (index : Nat) : Option (List ShownFrame) :=
  readStack? p.nodes p.frames p.strings index

/-- The frames of a stack of the tables. -/
def Tables.stack? (t : Tables) (index : Nat) : Option (List ShownFrame) :=
  readStack? t.nodes.toList t.frames.rows.toList t.strings.toList index

/-- Reading all elements of a list succeeds exactly if each of them can be read. -/
theorem mapM_eq_some_iff {α β : Type} {f : α → Option β} {l : List α} {l' : List β} :
    l.mapM f = some l' ↔ l.map f = l'.map some := by
  induction l generalizing l' with
  | nil => cases l' <;> simp
  | cons a l ih =>
    cases l' with
    | nil => simp [Option.bind_eq_some_iff]
    | cons b l' => simp [ih, Option.bind_eq_some_iff]

end TraceProfile
