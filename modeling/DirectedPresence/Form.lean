/-!
Forms of data. A shape says how a value is built: texts, flags, words, optional values, sequences,
records of named fields, and choices between named cases. The values of a shape form a type of
their own (`Shape.Value`), on which a notation is defined once, by recursion on the shape. A type
of the domain takes part by a `Form`: its shape, with the passage to and from the values of it.
-/

namespace DirectedPresence

mutual

/-- How a value is built. -/
inductive Shape where
  | text
  | flag
  | word
  | optional (inner : Shape)
  | sequence (item : Shape)
  | record (fields : Fields)
  | choice (cases : Cases)

/-- The named fields of a record, in order. -/
inductive Fields where
  | done
  | field (name : String) (shape : Shape) (rest : Fields)

/-- The named cases of a choice, in order, with or without a payload. -/
inductive Cases where
  | done
  | bare (name : String) (rest : Cases)
  | carrying (name : String) (payload : Shape) (rest : Cases)

end

mutual

/-- The values of a shape. -/
@[reducible] def Shape.Value : Shape → Type
  | .text => String
  | .flag => Bool
  | .word => UInt64
  | .optional inner => Option inner.Value
  | .sequence item => List item.Value
  | .record fields => fields.Value
  | .choice cases => cases.Value

@[reducible] def Fields.Value : Fields → Type
  | .done => Unit
  | .field _ shape rest => shape.Value × rest.Value

@[reducible] def Cases.Value : Cases → Type
  | .done => Empty
  | .bare _ rest => Unit ⊕ rest.Value
  | .carrying _ payload rest => payload.Value ⊕ rest.Value

end

/-- A type whose values can be written down and read back. -/
class Form (α : Type) where
  shape : Shape
  toValue : α → shape.Value
  ofValue : shape.Value → α

/-- A form loses nothing: the value taken apart is put together again. -/
class LawfulForm (α : Type) [Form α] : Prop where
  ofValue_toValue (a : α) : Form.ofValue (Form.toValue a) = a

namespace Form

instance : Form String := ⟨.text, id, id⟩

instance : LawfulForm String := ⟨fun _ => rfl⟩

instance : Form Bool := ⟨.flag, id, id⟩

instance : LawfulForm Bool := ⟨fun _ => rfl⟩

instance : Form UInt64 := ⟨.word, id, id⟩

instance : LawfulForm UInt64 := ⟨fun _ => rfl⟩

instance {α : Type} [Form α] : Form (Option α) :=
  ⟨.optional (shape α), Option.map toValue, Option.map ofValue⟩

instance {α : Type} [Form α] [LawfulForm α] : LawfulForm (Option α) :=
  ⟨fun a => by cases a <;> simp [toValue, ofValue, LawfulForm.ofValue_toValue]⟩

instance {α : Type} [Form α] : Form (List α) :=
  ⟨.sequence (shape α), List.map toValue, List.map ofValue⟩

instance {α : Type} [Form α] [LawfulForm α] : LawfulForm (List α) :=
  ⟨fun as => by
    induction as with
    | nil => rfl
    | cons a as ih => simp_all [toValue, ofValue, LawfulForm.ofValue_toValue]⟩

end Form

end DirectedPresence
