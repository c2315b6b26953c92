import TraceProfile.Json.Value
import TraceProfile.Table.Interner
import TraceProfile.Table.Layout

/-!
# The stack table

A stack is its innermost frame and the stack around that frame. Stacks that share their outer frames
share the rows of these, so the table is a tree in which a row refers to the row around it.

A stack is looked for by its node. A hash that it carries along would not tell more than the node
does (`HashedLedger.run_hashed`), so it has none.
-/

namespace TraceProfile

/-- A stack by its innermost frame. -/
structure StackNode where
  /-- The index of the stack around the frame, absent for an outermost frame. -/
  parent : Option Nat
  /-- The index of the frame. -/
  frame : Nat
deriving DecidableEq

/-- Nodes are ordered by the stack around the frame, and then by the frame. -/
instance : Ord StackNode := ⟨compareLex (compareOn StackNode.parent) (compareOn StackNode.frame)⟩

instance : Std.TransOrd StackNode :=
  inferInstanceAs <| Std.TransCmp <|
    compareLex (compareOn StackNode.parent) (compareOn StackNode.frame)

instance : Std.LawfulEqOrd StackNode where
  eq_of_compare {a b} h := by
    obtain ⟨hparent, hframe⟩ := compareLex_eq_eq.1 h
    cases a
    cases b
    simp_all [compareOn]

/-- The distinct stacks of a profile. -/
abbrev StackTable := Interner StackNode

namespace StackNode

/-- The columns of the stack table. -/
def columns : List String := ["prefix", "frame"]

/-- The cells of a row. -/
def toJson (node : StackNode) : Json := .arr [.ofOption .nat node.parent, .nat node.frame]

end StackNode

/-- The emitted table. -/
def StackTable.toJson (t : StackTable) : Json :=
  tableJson StackNode.columns (t.toList.map StackNode.toJson)

end TraceProfile
