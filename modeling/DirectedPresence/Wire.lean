import DirectedPresence.Form
import DirectedPresence.Varint

/-!
The binary notation of shaped values. Fields follow each other with nothing between them. A text
and a sequence start with their length, an optional value with a byte that tells whether it is
there, a choice with the position of its case. Lengths, positions and words are variable-length
numbers. Reading takes the bytes that it needs and hands on the rest.
-/

namespace DirectedPresence

namespace Wire

def wordBits : Nat := 64

/-- The number of bits of the position of a case. -/
def caseBits : Nat := 32

/-- The number of bits of a length at the front of `bytes`. A word counts the bytes of any buffer
that a machine holds; a longer list gets the bits that count it. -/
def lengthBits (bytes : List UInt8) : Nat :=
  max wordBits (bytes.length.log2 + 1)

/-- The bytes of a text, after their number. -/
def encodeText (text : String) : List UInt8 :=
  Varint.encode text.toByteArray.size ++ text.toByteArray.data.toList

def decodeText (bytes : List UInt8) : Except WireError (String × List UInt8) :=
  match Varint.decode (lengthBits bytes) bytes with
  | .error e => .error e
  | .ok (size, rest) =>
    if rest.length < size then .error .unexpectedEnd
    else
      match String.fromUTF8? ⟨(rest.take size).toArray⟩ with
      | some text => .ok (text, rest.drop size)
      | none => .error .badText

/-- Reads a byte that must be zero or one. -/
def decodeBit (otherwise : WireError) : List UInt8 → Except WireError (Bool × List UInt8)
  | [] => .error .unexpectedEnd
  | b :: bytes =>
    if b = 0 then .ok (false, bytes)
    else if b = 1 then .ok (true, bytes)
    else .error otherwise

/-- Reads `count` values one after another. -/
def decodeMany {α : Type} (item : List UInt8 → Except WireError (α × List UInt8)) :
    Nat → List UInt8 → Except WireError (List α × List UInt8)
  | 0, bytes => .ok ([], bytes)
  | count + 1, bytes =>
    match item bytes with
    | .error e => .error e
    | .ok (a, rest) =>
      match decodeMany item count rest with
      | .error e => .error e
      | .ok (as, rest) => .ok (a :: as, rest)

end Wire

open Wire

mutual

def Shape.encode : (shape : Shape) → shape.Value → List UInt8
  | .text, (text : String) => encodeText text
  | .flag, (flag : Bool) => [if flag then 1 else 0]
  | .word, (word : UInt64) => Varint.encode word.toNat
  | .optional _, none => [0]
  | .optional inner, some value => 1 :: inner.encode value
  | .sequence item, (values : List item.Value) =>
    Varint.encode values.length ++ values.flatMap item.encode
  | .record fields, values => fields.encode values
  | .choice cases, value => cases.encode 0 value

def Fields.encode : (fields : Fields) → fields.Value → List UInt8
  | .done, () => []
  | .field _ shape rest, (value, values) => shape.encode value ++ rest.encode values

/-- The bytes of a case; the first of `cases` stands at the given position. -/
def Cases.encode : (cases : Cases) → Nat → cases.Value → List UInt8
  | .done, _, value => nomatch value
  | .bare _ _, position, .inl () => Varint.encode position
  | .bare _ rest, position, .inr value => rest.encode (position + 1) value
  | .carrying _ payload _, position, .inl value =>
    Varint.encode position ++ payload.encode value
  | .carrying _ _ rest, position, .inr value => rest.encode (position + 1) value

end

mutual

def Shape.decode : (shape : Shape) → List UInt8 → Except WireError (shape.Value × List UInt8)
  | .text, bytes => decodeText bytes
  | .flag, bytes => decodeBit .badFlag bytes
  | .word, bytes =>
    match Varint.decode wordBits bytes with
    | .error e => .error e
    | .ok (n, rest) => .ok (n.toUInt64, rest)
  | .optional inner, bytes =>
    match decodeBit .badOption bytes with
    | .error e => .error e
    | .ok (false, rest) => .ok (none, rest)
    | .ok (true, rest) =>
      match inner.decode rest with
      | .error e => .error e
      | .ok (value, rest) => .ok (some value, rest)
  | .sequence item, bytes =>
    match Varint.decode (lengthBits bytes) bytes with
    | .error e => .error e
    | .ok (count, rest) => decodeMany item.decode count rest
  | .record fields, bytes => fields.decode bytes
  | .choice cases, bytes =>
    match Varint.decode caseBits bytes with
    | .error e => .error e
    | .ok (position, rest) => cases.decode position rest

def Fields.decode : (fields : Fields) → List UInt8 → Except WireError (fields.Value × List UInt8)
  | .done, bytes => .ok ((), bytes)
  | .field _ shape rest, bytes =>
    match shape.decode bytes with
    | .error e => .error e
    | .ok (value, bytes) =>
      match rest.decode bytes with
      | .error e => .error e
      | .ok (values, bytes) => .ok ((value, values), bytes)

/-- Reads the payload of the case at the given position. -/
def Cases.decode : (cases : Cases) → Nat → List UInt8 →
    Except WireError (cases.Value × List UInt8)
  | .done, _, _ => .error .unknownCase
  | .bare _ _, 0, bytes => .ok (.inl (), bytes)
  | .carrying _ payload _, 0, bytes =>
    match payload.decode bytes with
    | .error e => .error e
    | .ok (value, bytes) => .ok (.inl value, bytes)
  | .bare _ rest, position + 1, bytes | .carrying _ _ rest, position + 1, bytes =>
    match rest.decode position bytes with
    | .error e => .error e
    | .ok (value, bytes) => .ok (.inr value, bytes)

end

namespace Wire

def encode {α : Type} [Form α] (a : α) : List UInt8 :=
  (Form.shape α).encode (Form.toValue a)

/-- Reads a value from the front of `bytes`, and hands on the rest. -/
def decode (α : Type) [Form α] (bytes : List UInt8) : Except WireError (α × List UInt8) :=
  match (Form.shape α).decode bytes with
  | .error e => .error e
  | .ok (value, rest) => .ok (Form.ofValue value, rest)

def describe : WireError → String
  | .unexpectedEnd => "Hit the end of buffer, expected more data"
  | .badVarint => "Found a varint that didn't terminate"
  | .badFlag => "Found a bool that wasn't 0 or 1"
  | .badOption => "Found an Option discriminant that wasn't 0 or 1"
  | .badText => "Tried to parse invalid utf-8"
  | .unknownCase => "Found a position that stands for no case"

end Wire

end DirectedPresence
