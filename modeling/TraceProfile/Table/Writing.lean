import TraceProfile.Json.Value
import TraceProfile.Table.Interner

/-!
# Texts in what is written

A text is written once, in the table of texts; everywhere else its index is written in its place, as
a field of an object or as an element of an array. What is written to is a parameter. It may refuse
what it is given, but the text has got its index by then.
-/

namespace TraceProfile

/-- What takes the fields of an object and the elements of an array one after the other. -/
structure JsonSink (σ τ ε : Type) where
  /-- Adds a field to an object. -/
  field : σ → String → Json → Except ε σ
  /-- Adds an element to an array. -/
  element : τ → Json → Except ε τ

/-- Collects fields and elements, and refuses nothing. -/
def JsonSink.collect : JsonSink (Array (String × Json)) (Array Json) Empty where
  field fields name value := .ok (fields.push (name, value))
  element elements value := .ok (elements.push value)

namespace StringTable

variable {σ τ ε : Type}

/-- Writes a field with the index of a text, which is added if the table does not have it. -/
def writeField (sink : JsonSink σ τ ε) (object : σ) (name text : String) (t : StringTable) :
    Except ε σ × StringTable :=
  let (index, t) := t.intern text
  (sink.field object name (.nat index), t)

/-- Writes an element with the index of a text, which is added if the table does not have it. -/
def writeElement (sink : JsonSink σ τ ε) (array : τ) (text : String) (t : StringTable) :
    Except ε τ × StringTable :=
  let (index, t) := t.intern text
  (sink.element array (.nat index), t)

/-- Writes all texts as elements, in the order of their indices. -/
def writeTexts (sink : JsonSink σ τ ε) (array : τ) (t : StringTable) : Except ε τ :=
  t.toList.foldlM (fun array text => sink.element array (.str text)) array

end StringTable

end TraceProfile
