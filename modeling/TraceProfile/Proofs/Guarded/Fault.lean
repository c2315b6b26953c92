import TraceProfile.Buffer.Access

/-!
# Operations that can fault

An accessor faults on an entry that it does not fit, an index or the end of a slice on being out of
bounds, a subtraction on going below zero, an addition on leaving the 64 bits of a machine word, and
an allocation on asking for more than there can be. Nothing is caught: a fault ends what is being
done. A `Guarded` computation gives its result or the first fault, and `Guarded.Ensures` says that
there is a result and what it is like.
-/

namespace TraceProfile

/-- What ends a computation. -/
inductive Fault where
  /-- An accessor was used on an entry that it does not fit. -/
  | access (fault : AccessFault)
  /-- An index is not below the size. -/
  | index (index size : Nat)
  /-- A slice ends behind the end. -/
  | slice (stop size : Nat)
  /-- More was taken away than there was. -/
  | underflow (value amount : Nat)
  /-- A value does not fit into a machine word. -/
  | overflow (value : Nat)
  /-- More bytes were asked for than can be allocated. -/
  | capacity (bytes : Nat)
  /-- A loop went round without moving on. -/
  | stuck
deriving DecidableEq

/-- A result, or the first fault on the way to it. -/
abbrev Guarded := Except Fault

namespace Guarded

variable {α β : Type}

/-! ## Operations -/

/-- Uses an accessor on an entry. -/
def access (read : Entry → Except AccessFault α) (entry : Entry) : Guarded α :=
  match read entry with
  | .ok a => pure a
  | .error fault => throw (.access fault)

/-- What stands at an index. -/
def get (items : Array α) (index : Nat) : Guarded α :=
  match items[index]? with
  | some a => pure a
  | none => throw (.index index items.size)

/-- The items before an index. -/
def slice (items : Array α) (stop : Nat) : Guarded (Array α) :=
  if stop ≤ items.size then pure (items.extract 0 stop) else throw (.slice stop items.size)

/-- A difference. -/
def sub (value amount : Nat) : Guarded Nat :=
  if amount ≤ value then pure (value - amount) else throw (.underflow value amount)

/-- A sum, as a machine word. -/
def add (a b : Nat) : Guarded Nat :=
  if a + b < UInt64.size then pure (a + b) else throw (.overflow (a + b))

/-- Sets aside room for bytes, of which there cannot be more than half of the addresses. -/
def allocate (bytes : Nat) : Guarded Unit :=
  if 2 * bytes < UInt64.size then pure () else throw (.capacity bytes)

/-! ## Results -/

/-- There is a result, and it is as said. -/
def Ensures (r : Guarded α) (post : α → Prop) : Prop := ∃ a, r = .ok a ∧ post a

theorem Ensures.pure {post : α → Prop} {a : α} (h : post a) :
    Ensures (Pure.pure a : Guarded α) post := ⟨a, rfl, h⟩

theorem Ensures.bind {r : Guarded α} {f : α → Guarded β} {post : α → Prop} {post' : β → Prop}
    (h : r.Ensures post) (hf : ∀ a, post a → (f a).Ensures post') : (r >>= f).Ensures post' := by
  obtain ⟨a, rfl, ha⟩ := h
  exact hf a ha

theorem Ensures.mono {r : Guarded α} {post post' : α → Prop} (h : r.Ensures post)
    (himp : ∀ a, post a → post' a) : r.Ensures post' := by
  obtain ⟨a, hr, ha⟩ := h
  exact ⟨a, hr, himp a ha⟩

/-- A computation that can only give one result gives it. -/
theorem Ensures.eq_ok {r : Guarded α} {a : α} (h : r.Ensures (· = a)) : r = .ok a := by
  obtain ⟨_, hr, rfl⟩ := h
  exact hr

theorem ensures_get {items : Array α} {index : Nat} {a : α} (h : items[index]? = some a) :
    (get items index).Ensures (· = a) := by
  rw [get, h]
  exact .pure rfl

theorem ensures_slice {items : Array α} {stop : Nat} (h : stop ≤ items.size) :
    (slice items stop).Ensures (· = items.extract 0 stop) := by
  rw [slice, if_pos h]
  exact .pure rfl

theorem ensures_sub {value amount : Nat} (h : amount ≤ value) :
    (sub value amount).Ensures (· = value - amount) := by
  rw [sub, if_pos h]
  exact .pure rfl

theorem ensures_add {a b : Nat} (h : a + b < UInt64.size) : (add a b).Ensures (· = a + b) := by
  rw [add, if_pos h]
  exact .pure rfl

theorem ensures_allocate {bytes : Nat} (h : 2 * bytes < UInt64.size) :
    (allocate bytes).Ensures fun _ => True := by
  rw [allocate, if_pos h]
  exact .pure trivial

end Guarded

end TraceProfile
