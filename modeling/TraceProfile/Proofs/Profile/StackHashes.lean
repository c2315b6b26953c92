import TraceProfile.Proofs.Profile.Sharing

/-!
# Hashes of stacks

The stack table finds a stack by comparing nodes. A table that finds it by a hash carries the hash
along with the node: it is made from the hash of the stack around the innermost frame, so that a
deep stack is not walked through each time. Two such stacks count as equal if their nodes are equal,
whatever their hashes, and that is sound only if equal nodes have equal hashes.

They do. Whatever is asked of the tables, the hash of each stack that was made is a fold over the
indices of its frames (`Tables.Carries`), and these can be read off its node. Nothing is assumed of
the function that mixes a frame into a hash.
-/

namespace TraceProfile

/-- The frames of a stack that need not have a row yet, the outermost first. -/
def StackNode.path? (nodes : List StackNode) (node : StackNode) : Option (List Nat) :=
  match node.parent with
  | none => some [node.frame]
  | some parent => (frames? nodes parent).map (· ++ [node.frame])

/-- Stacks that were made before keep their frames. -/
theorem StackNode.path?_mono {nodes nodes' : List StackNode} (h : nodes <+: nodes')
    {node : StackNode} {frames : List Nat} (hpath : path? nodes node = some frames) :
    path? nodes' node = some frames := by
  rw [path?] at hpath ⊢
  split at hpath
  · exact hpath
  · obtain ⟨outer, houter, rfl⟩ := Option.map_eq_some_iff.1 hpath
    rw [frames?_mono h houter, Option.map_some]

/-- A stack that has a row has the frames that its row leads to. -/
theorem StackNode.frames?_of_path? {nodes : List StackNode} {index : Nat} {node : StackNode}
    {frames : List Nat} (hnode : nodes[index]? = some node)
    (hlt : ∀ parent, node.parent = some parent → parent < index)
    (hpath : path? nodes node = some frames) : frames? nodes index = some frames := by
  rw [frames?_eq_some_iff]
  rw [path?] at hpath
  rcases hp : node.parent with _ | parent
  · rw [hp] at hpath
    exact ⟨node, [], hnode, (Option.some.inj hpath).symm, by rw [hp]⟩
  · rw [hp] at hpath
    obtain ⟨outer, houter, rfl⟩ := Option.map_eq_some_iff.1 hpath
    refine ⟨node, outer, hnode, rfl, ?_⟩
    rw [hp]
    exact ⟨hlt parent hp, houter⟩

section

variable (mix : Option UInt64 → Nat → UInt64)

/-- The hash of a stack with the given frames, the outermost first, if there are any: `mix` makes
the hash of a stack from that of the stack around its innermost frame and the index of this frame. -/
def hashOf (frames : List Nat) : Option UInt64 :=
  frames.foldl (fun hash frame => some (mix hash frame)) none

theorem hashOf_concat (frames : List Nat) (frame : Nat) :
    hashOf mix (frames ++ [frame]) = some (mix (hashOf mix frames) frame) :=
  List.foldl_concat _ _ _ _

/-- A ledger with the hashes that the stacks carry which were made. -/
structure HashedLedger where
  /-- The ledger. -/
  ledger : Ledger
  /-- The hashes, in the order in which the stacks were made. -/
  hashes : List UInt64 := []

namespace HashedLedger

/-- The hash of the stack that a request makes, if it makes one. -/
def hash? (l : HashedLedger) : Request → Option UInt64
  | .root key => some (mix none (l.ledger.tables.root key).1.frame)
  | .append outer key =>
    match l.ledger.made[outer]?, l.hashes[outer]? with
    | some (node, _), some hash => some (mix (some hash) (l.ledger.tables.append node key).1.frame)
    | _, _ => none
  | _ => none

/-- The ledger after a request. -/
def step (l : HashedLedger) (request : Request) : HashedLedger where
  ledger := l.ledger.step request
  hashes := l.hashes ++ (l.hash? mix request).toList

/-- The ledger after requests, in order. -/
def run (l : HashedLedger) (requests : List Request) : HashedLedger :=
  requests.foldl (step mix) l

theorem ledger_run (l : HashedLedger) (requests : List Request) :
    (l.run mix requests).ledger = l.ledger.run requests := by
  induction requests generalizing l with
  | nil => rfl
  | cons request requests ih => exact ih (l.step mix request)

end HashedLedger

/-- The hash is the fold over the frames of the stack. -/
def Tables.Carries (t : Tables) (node : StackNode) (hash : UInt64) : Prop :=
  ∃ frames, node.path? t.nodes.toList = some frames ∧ hashOf mix frames = some hash

end

namespace Tables

variable {mix : Option UInt64 → Nat → UInt64} {t : Tables} {node : StackNode} {hash : UInt64}

/-- There is one hash for a stack. -/
theorem Carries.eq (h : t.Carries mix node hash) {hash' : UInt64}
    (h' : t.Carries mix node hash') : hash = hash' := by
  obtain ⟨frames, hframes, hhash⟩ := h
  obtain ⟨frames', hframes', hhash'⟩ := h'
  obtain rfl := Option.some.inj (hframes.symm.trans hframes')
  exact Option.some.inj (hhash.symm.trans hhash')

theorem Carries.grow (h : t.Carries mix node hash) {t' : Tables} (hgrows : t.GrowsTo t') :
    t'.Carries mix node hash := by
  obtain ⟨frames, hframes, hhash⟩ := h
  exact ⟨frames, StackNode.path?_mono hgrows.nodes hframes, hhash⟩

theorem carries_root (t : Tables) (key : FrameKey) :
    (t.root key).2.Carries mix (t.root key).1 (mix none (t.root key).1.frame) :=
  ⟨[(t.root key).1.frame], rfl, rfl⟩

/-- Once the stack around the new frame has a row, the row leads to the frames that its hash is
made from. -/
theorem Carries.append (h : t.Carries mix node hash) (hvalid : t.Valid) {keys : List FrameKey}
    (hnode : t.Describes node keys) (key : FrameKey) :
    (t.append node key).2.Carries mix (t.append node key).1
      (mix (some hash) (t.append node key).1.frame) := by
  obtain ⟨hvalid₁, hgrows₁, -⟩ := stackIndex_spec hvalid hnode
  obtain ⟨-, hgrows₂, -⟩ := frameIndex_spec hvalid₁ key
  obtain ⟨frames, hframes, hhash⟩ := h.grow hgrows₁
  have hget : (t.stackIndex node).2.nodes.get? (t.stackIndex node).1 = some node := by
    simp only [stackIndex, Interner.intern_eq]
    exact Interner.get?_idxOf_insert t.nodes node
  have hlt := hvalid₁.parent_lt _ node hget
  rw [Interner.get?_eq_getElem?] at hget
  have hrow := StackNode.frames?_mono hgrows₂.nodes (StackNode.frames?_of_path? hget hlt hframes)
  refine ⟨frames ++ [(t.append node key).1.frame], ?_, ?_⟩
  · exact congrArg (Option.map (· ++ [(t.append node key).1.frame])) hrow
  · rw [hashOf_concat, hhash]

end Tables

namespace HashedLedger

variable {mix : Option UInt64 → Nat → UInt64} {l : HashedLedger}

/-- Each stack that was made carries its hash. -/
def Hashed (mix : Option UInt64 → Nat → UInt64) (l : HashedLedger) : Prop :=
  List.Forall₂ (fun made hash => l.ledger.tables.Carries mix made.1 hash) l.ledger.made l.hashes

/-- A request keeps this, and the stack that it makes carries its hash. -/
theorem Hashed.step (h : l.Hashed mix) (hledger : l.ledger.Consistent) (request : Request) :
    (l.step mix request).Hashed mix := by
  obtain ⟨-, hgrows⟩ := hledger.step request
  have hold : List.Forall₂ (fun made hash => (l.ledger.step request).tables.Carries mix made.1 hash)
      l.ledger.made l.hashes := h.imp fun _ _ hcarries => hcarries.grow hgrows
  cases request with
  | root key => exact List.rel_append hold (.cons (Tables.carries_root _ key) .nil)
  | append outer key =>
    rcases hmade : l.ledger.made[outer]? with _ | ⟨node, keys⟩
    · have hnone : l.hash? mix (.append outer key) = none := by simp only [hash?, hmade]
      simp only [Hashed, HashedLedger.step, hnone, Ledger.step, hmade] at hold ⊢
      simpa using hold
    · -- The stack that is appended to was made before, so it carries its hash already.
      obtain ⟨hash, hhash, hcarries⟩ :
          ∃ hash, l.hashes[outer]? = some hash ∧ l.ledger.tables.Carries mix node hash :=
        exists_getElem?_of_forall₂ h.flip hmade
      have hnode := hledger.made (node, keys) (List.mem_of_getElem? hmade)
      have hnew := hcarries.append hledger.valid hnode key
      simp only [Hashed, HashedLedger.step, hash?, Ledger.step, hmade, hhash] at hold ⊢
      exact List.rel_append hold (.cons hnew .nil)
  | frame key => simpa [Hashed, HashedLedger.step, hash?, Ledger.step] using hold
  | stack number =>
    have hmade : (l.ledger.step (.stack number)).made = l.ledger.made := by
      rw [Ledger.step]
      split <;> rfl
    rw [Hashed, HashedLedger.step, hmade]
    simpa [hash?] using hold
  | text s => simpa [Hashed, HashedLedger.step, hash?, Ledger.step] using hold

theorem Hashed.run (h : l.Hashed mix) (hledger : l.ledger.Consistent) (requests : List Request) :
    (l.run mix requests).Hashed mix := by
  induction requests generalizing l with
  | nil => exact h
  | cons request requests ih => exact ih (h.step hledger request) (hledger.step request).1

/-- Whatever is asked of tables that take over a coverage, nothing that they answer depends on the
hashes; each stack that was made carries the fold over the indices of its frames, and stacks with
the same node carry the same hash. -/
theorem run_hashed (mix : Option UInt64 → Nat → UInt64) {c : Jit.Coverage} (h : c.Reached)
    (requests : List Request) :
    let start : HashedLedger := { ledger := { tables := .ofCoverage c } }
    let l := start.run mix requests
    l.ledger = start.ledger.run requests ∧ l.Hashed mix ∧
      ∀ (i j : Nat) node keys hash keys' hash', l.ledger.made[i]? = some (node, keys) →
        l.hashes[i]? = some hash → l.ledger.made[j]? = some (node, keys') →
        l.hashes[j]? = some hash' → hash = hash' := by
  intro start l
  have hstart : start.Hashed mix := .nil
  have hrun : l.Hashed mix := hstart.run (Ledger.consistent_ofCoverage h) requests
  refine ⟨start.ledger_run mix requests, hrun, ?_⟩
  intro i j node keys hash keys' hash' hmade hhash hmade' hhash'
  obtain ⟨made, hget, hcarries⟩ := exists_getElem?_of_forall₂ hrun hhash
  obtain rfl := Option.some.inj (hget.symm.trans hmade)
  obtain ⟨made', hget', hcarries'⟩ := exists_getElem?_of_forall₂ hrun hhash'
  obtain rfl := Option.some.inj (hget'.symm.trans hmade')
  exact Tables.Carries.eq hcarries hcarries'

/-- A stack that is made again, after others, carries the hash that it carried before. -/
example :
    let frame (name : String) : Request := .root (.ofLabel name)
    let requests : List Request := [frame "a", .append 0 (.ofLabel "b"), frame "b",
      .append 2 (.ofLabel "a"), frame "a", .append 4 (.ofLabel "b")]
    let mix (hash : Option UInt64) (frame : Nat) : UInt64 := hash.getD 7 * 31 + .ofNat frame
    (({ ledger := { tables := {} } } : HashedLedger).run mix requests).hashes =
      [217, 6728, 218, 6758, 217, 6728] := by
  decide +kernel

end HashedLedger

end TraceProfile
