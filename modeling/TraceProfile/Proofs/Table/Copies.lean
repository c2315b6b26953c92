import TraceProfile.Proofs.Table.Distinct
import TraceProfile.Proofs.Table.Growth
import TraceProfile.Table.Writing

/-!
# Tables of texts and their copies

A table of texts is asked for indices, in which order ever, and may be copied at any time; the copy
has the indices that were handed out before and goes its own way from then on. A `Copy` is such a
table with the calls that made it, those before it was copied included, and what they gave back.

What is said of a table is said by its calls alone (`Copy.Keeps`): it lists the texts that it was
asked for, each once, in the order of the first calls, and the index that a call has got or written
is the position of its text in that list. A call on one copy keeps this for it (`Copy.Follows.ask`)
and changes no other, so it holds for all copies after any run (`run_keeps`).
-/

namespace TraceProfile.StringTable

variable {σ τ ε : Type}

/-! ## Calls -/

/-- Asks a table for the index of a text. -/
inductive Call (σ τ : Type) where
  /-- The index is given back. -/
  | get (text : String)
  /-- The index is written as a field of an object. -/
  | field (object : σ) (name text : String)
  /-- The index is written as an element of an array. -/
  | element (array : τ) (text : String)

/-- What a call gives back. -/
inductive Answer (σ τ ε : Type) where
  /-- The index. -/
  | index (index : Nat)
  /-- The object with the field, unless it was refused. -/
  | field (written : Except ε σ)
  /-- The array with the element, unless it was refused. -/
  | element (written : Except ε τ)

namespace Call

/-- The text whose index is asked for. -/
def text : Call σ τ → String
  | get text => text
  | field _ _ text => text
  | element _ text => text

/-- The answer, and the table after it. -/
def perform (sink : JsonSink σ τ ε) (t : StringTable) : Call σ τ → Answer σ τ ε × StringTable
  | get text =>
    let (index, t) := t.intern text
    (.index index, t)
  | field object name text =>
    let (written, t) := t.writeField sink object name text
    (.field written, t)
  | element array text =>
    let (written, t) := t.writeElement sink array text
    (.element written, t)

/-- The answer if the text has the given index. -/
def answer (sink : JsonSink σ τ ε) (index : Nat) : Call σ τ → Answer σ τ ε
  | get _ => .index index
  | field object name _ => .field (sink.field object name (.nat index))
  | element array _ => .element (sink.element array (.nat index))

theorem perform_eq (sink : JsonSink σ τ ε) (t : StringTable) (call : Call σ τ) :
    call.perform sink t = (call.answer sink (t.idxOf call.text), t.insert call.text) := by
  cases call <;>
    simp only [perform, writeField, writeElement, Interner.intern_eq, answer, text]

end Call

/-! ## Copies -/

/-- A table with the calls on it and on the one that it was copied from, and their answers. -/
structure Copy (σ τ ε : Type) where
  /-- The table. -/
  table : StringTable := {}
  /-- The calls and their answers, the earliest first. -/
  log : List (Call σ τ × Answer σ τ ε) := []

/-- The texts that a log asks for. -/
def texts (log : List (Call σ τ × Answer σ τ ε)) : List String := log.map fun entry => entry.1.text

namespace Copy

/-- The copy after a call on it. -/
def ask (sink : JsonSink σ τ ε) (copy : Copy σ τ ε) (call : Call σ τ) : Copy σ τ ε :=
  let (answer, table) := call.perform sink copy.table
  { table, log := copy.log ++ [(call, answer)] }

/-- The position of a text in the list of the distinct texts that were asked for. -/
def place (copy : Copy σ τ ε) (text : String) : Nat := (texts copy.log).eraseDups.idxOf text

/-- The table and the answers are those of the calls: the table lists the distinct texts in the
order of the first calls for them, and a call has got the position that its text had among them
then. -/
structure Follows (sink : JsonSink σ τ ε) (copy : Copy σ τ ε) : Prop where
  toList_table : copy.table.toList = (texts copy.log).eraseDups
  answer_then : ∀ (i : Nat) call answer, copy.log[i]? = some (call, answer) →
    answer = Call.answer sink ((texts (copy.log.take (i + 1))).eraseDups.idxOf call.text) call

/-- What the calls on a table rely on. The positions that were handed out are still those of their
texts, one for each text; a text is found under its position, and nothing behind the last one; and
what is written of the table is the list of the texts. -/
structure Keeps (sink : JsonSink σ τ ε) (copy : Copy σ τ ε) : Prop extends copy.Follows sink where
  answer_now : ∀ call answer, (call, answer) ∈ copy.log →
    answer = call.answer sink (copy.place call.text)
  place_eq_iff : ∀ text ∈ texts copy.log, ∀ other ∈ texts copy.log,
    copy.place text = copy.place other ↔ text = other
  get?_place : ∀ text ∈ texts copy.log, copy.table.get? (copy.place text) = some text
  get?_eq_none_iff : ∀ index, copy.table.get? index = none ↔ copy.table.size ≤ index
  writeTexts_eq : ∀ array, copy.table.writeTexts sink array =
    (texts copy.log).eraseDups.foldlM (fun array text => sink.element array (.str text)) array

variable {sink : JsonSink σ τ ε} {copy : Copy σ τ ε}

theorem ask_eq (sink : JsonSink σ τ ε) (copy : Copy σ τ ε) (call : Call σ τ) :
    copy.ask sink call =
      { table := copy.table.insert call.text
        log := copy.log ++ [(call, call.answer sink (copy.table.idxOf call.text))] } := by
  rw [ask, Call.perform_eq]

theorem follows_empty (sink : JsonSink σ τ ε) : Follows sink {} :=
  ⟨rfl, fun _ _ _ h => by simp at h⟩

theorem Follows.ask (h : copy.Follows sink) (call : Call σ τ) :
    (copy.ask sink call).Follows sink := by
  have htable : (copy.table.insert call.text).toList = (texts copy.log ++ [call.text]).eraseDups :=
    Interner.toList_insert_of_eq_eraseDups h.toList_table call.text
  have htexts (answer : Answer σ τ ε) :
      texts (copy.log ++ [(call, answer)]) = texts copy.log ++ [call.text] := List.map_append
  rw [ask_eq]
  constructor
  · rw [htable, htexts]
  · intro i other answer hi
    simp only at hi ⊢
    rcases Nat.lt_trichotomy i copy.log.length with hlt | rfl | hgt
    · rw [List.getElem?_append_left hlt] at hi
      rw [List.take_append_of_le_length hlt]
      exact h.answer_then i other answer hi
    · rw [List.getElem?_concat_length] at hi
      cases hi
      rw [List.take_of_length_le (by simp), htexts, ← htable, ← Interner.idxOf_eq,
        Interner.idxOf_of_get? (Interner.get?_idxOf_insert copy.table call.text)]
    · rw [List.getElem?_eq_none (by rwa [List.length_append])] at hi
      exact absurd hi (by simp)

theorem Follows.place_eq (h : copy.Follows sink) (text : String) :
    copy.place text = copy.table.idxOf text := by
  rw [place, ← h.toList_table, Interner.idxOf_eq]

theorem Follows.get?_place (h : copy.Follows sink) {text : String} (htext : text ∈ texts copy.log) :
    copy.table.get? (copy.place text) = some text := by
  have hmem : text ∈ copy.table.toList := by
    rw [h.toList_table]
    exact List.mem_eraseDups.2 htext
  rw [h.place_eq]
  have hget := Interner.get?_idxOf_insert copy.table text
  rwa [Interner.insert_of_mem hmem] at hget

theorem Follows.keeps (h : copy.Follows sink) : copy.Keeps sink where
  toFollows := h
  answer_now := by
    intro call answer hmem
    obtain ⟨i, hi⟩ := List.mem_iff_getElem?.1 hmem
    have hlog :
        texts (copy.log.take (i + 1)) ++ texts (copy.log.drop (i + 1)) = texts copy.log := by
      rw [texts, texts, ← List.map_append, List.take_append_drop, texts]
    have htext : call.text ∈ texts (copy.log.take (i + 1)) := by
      have htake : (copy.log.take (i + 1))[i]? = some (call, answer) := by
        rw [List.getElem?_take_of_lt (Nat.lt_succ_self i), hi]
      exact List.mem_map.2 ⟨_, List.mem_of_getElem? htake, rfl⟩
    rw [h.answer_then i call answer hi, place, ← hlog, idxOf_eraseDups_append htext]
  place_eq_iff := fun text htext other hother =>
    Interner.index_eq_iff (h.get?_place htext) (h.get?_place hother)
  get?_place := fun _ htext => h.get?_place htext
  get?_eq_none_iff := by
    intro index
    rw [Interner.get?_eq_getElem?, List.getElem?_eq_none_iff, Interner.length_toList]
  writeTexts_eq := fun array => by rw [writeTexts, h.toList_table]

end Copy

/-! ## Runs -/

/-- What is done to copies, which are given by their numbers. -/
inductive Step (σ τ : Type) where
  /-- A call on a copy. -/
  | call (number : Nat) (call : Call σ τ)
  /-- One more copy of a copy; it gets the next number. -/
  | clone (number : Nat)

/-- The copies after a step. A number that no copy has changes nothing. -/
def step (sink : JsonSink σ τ ε) (copies : List (Copy σ τ ε)) : Step σ τ → List (Copy σ τ ε)
  | .call number call => copies.modify number fun copy => copy.ask sink call
  | .clone number => copies ++ copies[number]?.toList

/-- The copies after steps, in order. At first there is one empty table. -/
def run (sink : JsonSink σ τ ε) (steps : List (Step σ τ)) : List (Copy σ τ ε) :=
  steps.foldl (step sink) [{}]

variable {sink : JsonSink σ τ ε} {copies : List (Copy σ τ ε)}

theorem follows_step (h : ∀ copy ∈ copies, copy.Follows sink) (s : Step σ τ) :
    ∀ copy ∈ step sink copies s, copy.Follows sink := by
  intro copy hcopy
  cases s with
  | call target call =>
    obtain ⟨number, hnumber⟩ := List.mem_iff_getElem?.1 hcopy
    rw [step, List.getElem?_modify] at hnumber
    obtain ⟨earlier, hearlier, rfl⟩ := Option.map_eq_some_iff.1 hnumber
    have hfollows := h earlier (List.mem_of_getElem? hearlier)
    split
    · exact hfollows.ask call
    · exact hfollows
  | clone target =>
    rcases List.mem_append.1 hcopy with hold | hnew
    · exact h copy hold
    · exact h copy (List.mem_of_getElem? (Option.mem_toList.1 hnew))

theorem follows_run (sink : JsonSink σ τ ε) (steps : List (Step σ τ)) :
    ∀ copy ∈ run sink steps, copy.Follows sink := by
  induction steps using List.reverseRecOn with
  | nil => simp [run, Copy.follows_empty]
  | append_singleton steps s ih =>
    rw [run, List.foldl_concat]
    exact follows_step ih s

/-- A step leaves every copy as it is, but for the one that it calls. -/
theorem getElem?_step_of_ne {number : Nat} {copy : Copy σ τ ε} (hcopy : copies[number]? = some copy)
    {s : Step σ τ} (hs : ∀ call, s ≠ .call number call) :
    (step sink copies s)[number]? = some copy := by
  cases s with
  | call target call =>
    have hne : target ≠ number := by
      rintro rfl
      exact hs call rfl
    rw [step, List.getElem?_modify_ne _ _ hne, hcopy]
  | clone target =>
    obtain ⟨hlt, -⟩ := List.getElem?_eq_some_iff.1 hcopy
    rw [step, List.getElem?_append_left hlt, hcopy]

/-- A later state of a copy: no text has got another index, and no answer was taken back. -/
structure Copy.GrowsTo (copy later : Copy σ τ ε) : Prop where
  table : Interner.GrowsTo copy.table later.table
  log : copy.log <+: later.log

theorem Copy.GrowsTo.refl (copy : Copy σ τ ε) : copy.GrowsTo copy := ⟨.refl _, List.prefix_rfl⟩

theorem Copy.GrowsTo.trans {first second third : Copy σ τ ε} (h : first.GrowsTo second)
    (h' : second.GrowsTo third) : first.GrowsTo third :=
  ⟨h.table.trans h'.table, h.log.trans h'.log⟩

theorem Copy.growsTo_ask (sink : JsonSink σ τ ε) (copy : Copy σ τ ε) (call : Call σ τ) :
    copy.GrowsTo (copy.ask sink call) := by
  rw [ask_eq]
  exact ⟨Interner.growsTo_insert copy.table call.text, List.prefix_append _ _⟩

theorem growsTo_step (sink : JsonSink σ τ ε) {number : Nat} {copy : Copy σ τ ε}
    (hcopy : copies[number]? = some copy) (s : Step σ τ) :
    ∃ later, (step sink copies s)[number]? = some later ∧ copy.GrowsTo later := by
  by_cases hs : ∃ call, s = .call number call
  · obtain ⟨call, rfl⟩ := hs
    refine ⟨copy.ask sink call, ?_, copy.growsTo_ask sink call⟩
    rw [step, List.getElem?_modify_eq, hcopy]
    rfl
  · exact ⟨copy, getElem?_step_of_ne hcopy fun call hcall => hs ⟨call, hcall⟩, .refl copy⟩

theorem growsTo_steps {number : Nat} {copy : Copy σ τ ε} (hcopy : copies[number]? = some copy)
    (more : List (Step σ τ)) :
    ∃ later, (more.foldl (step sink) copies)[number]? = some later ∧ copy.GrowsTo later := by
  induction more generalizing copies copy with
  | nil => exact ⟨copy, hcopy, .refl copy⟩
  | cons s more ih =>
    obtain ⟨next, hnext, hstep⟩ := growsTo_step sink hcopy s
    obtain ⟨later, hlater, hrest⟩ := ih hnext
    exact ⟨later, hlater, hstep.trans hrest⟩

theorem getElem?_steps_of_ne {number : Nat} {copy : Copy σ τ ε}
    (hcopy : copies[number]? = some copy) {more : List (Step σ τ)}
    (hmore : ∀ call, .call number call ∉ more) :
    (more.foldl (step sink) copies)[number]? = some copy := by
  induction more generalizing copies with
  | nil => exact hcopy
  | cons s more ih =>
    have hs : ∀ call, s ≠ .call number call :=
      fun call hcall => hmore call (hcall ▸ List.mem_cons_self)
    have hrest : ∀ call, .call number call ∉ more :=
      fun call hcall => hmore call (List.mem_cons_of_mem s hcall)
    exact ih (getElem?_step_of_ne hcopy hs) hrest

/-- After any calls and copies, all tables and answers are right. A new copy is what was copied, and
whatever comes later, no index is taken back, and what is done to the others changes nothing. -/
theorem run_keeps (sink : JsonSink σ τ ε) (steps : List (Step σ τ)) :
    (∀ copy ∈ run sink steps, copy.Keeps sink) ∧
    ∀ number copy, (run sink steps)[number]? = some copy →
      (run sink (steps ++ [.clone number]))[(run sink steps).length]? = some copy ∧
      ∀ more,
        (∃ later, (run sink (steps ++ more))[number]? = some later ∧ copy.GrowsTo later) ∧
        ((∀ call, .call number call ∉ more) → (run sink (steps ++ more))[number]? = some copy) := by
  refine ⟨fun copy hcopy => (follows_run sink steps copy hcopy).keeps, ?_⟩
  intro number copy hcopy
  have hrun (more : List (Step σ τ)) :
      run sink (steps ++ more) = more.foldl (step sink) (run sink steps) := List.foldl_append
  refine ⟨?_, fun more => ?_⟩
  · rw [hrun, List.foldl_cons, List.foldl_nil, step, hcopy]
    exact List.getElem?_concat_length
  · rw [hrun]
    exact ⟨growsTo_steps hcopy more, getElem?_steps_of_ne hcopy⟩

/-- A table of two texts is copied, and the copy is asked for an old text and a new one. -/
theorem run_keeps_copied :
    let sink := JsonSink.collect
    let steps := [.call 0 (.get "a"), .call 0 (.get "b"), .call 0 (.get "a")]
    let more := [.clone 0, .call 1 (.field #[] "name" "b"), .call 1 (.element #[] "c")]
    ∃ copy, (run sink steps)[0]? = some copy ∧ copy.Keeps sink ∧
      copy.table.toList = ["a", "b"] ∧ texts copy.log = ["a", "b", "a"] ∧
      (run sink (steps ++ [.clone 0]))[1]? = some copy ∧
      (run sink (steps ++ more))[0]? = some copy ∧
      (run sink (steps ++ more)).map (fun copy => copy.table.toList) =
        [["a", "b"], ["a", "b", "c"]] := by
  intro sink steps more
  obtain ⟨hkeeps, hlater⟩ := run_keeps sink steps
  obtain ⟨copy, hcopy⟩ : ∃ copy, (run sink steps)[0]? = some copy := ⟨_, rfl⟩
  obtain ⟨hclone, hmore⟩ := hlater 0 copy hcopy
  have htable : ((run sink steps)[0]?).map (fun copy => copy.table.toList) = some ["a", "b"] := by
    decide +kernel
  have htexts : ((run sink steps)[0]?).map (fun copy => texts copy.log) = some ["a", "b", "a"] := by
    decide +kernel
  rw [hcopy] at htable htexts
  exact ⟨copy, hcopy, hkeeps copy (List.mem_of_getElem? hcopy), Option.some.inj htable,
    Option.some.inj htexts, hclone, (hmore more).2 (by simp [more]), by decide +kernel⟩

end TraceProfile.StringTable
