import DirectedPresence.Form
import DirectedPresence.Json.Container
import DirectedPresence.Json.Skip

/-!
Reading shaped values from JSON, from left to right up to the first problem. The fields of an object
may come in any order; unknown fields are passed over, a field that comes twice is a mismatch, and a
missing optional field is absent. A record may also be given as the array of its fields in order. A
record that is read over defaults takes every missing field from them.
-/

namespace DirectedPresence

open Json

/-- What has been found of the fields of a record. -/
@[reducible] def Fields.Found : Fields → Type
  | .done => Unit
  | .field _ shape rest => Option shape.Value × rest.Found

def Fields.nothing : (fields : Fields) → fields.Found
  | .done => ()
  | .field _ _ rest => (none, rest.nothing)

/-- The value of a field that is missing: only an optional one has it. -/
def Shape.absent? : (shape : Shape) → Option shape.Value
  | .optional _ => some none
  | _ => none

/-- The values of all fields, where those that were not found come from the defaults, if there are
any, or are absent. -/
def Fields.complete : (fields : Fields) → fields.Found → Option fields.Value → Option fields.Value
  | .done, (), _ => some ()
  | .field _ shape rest, (found, more), defaults =>
    match found <|> defaults.map (·.1) <|> shape.absent?,
      rest.complete more (defaults.map (·.2)) with
    | some value, some values => some (value, values)
    | _, _ => none

/-- Reads a record, over defaults if there are any. `inOrder` reads its fields from an array and
`member` one of them from an object. -/
def Json.readRecord (fields : Fields) (defaults : Option fields.Value)
    (inOrder : Reader fields.Value) (member : String → fields.Found → Reader fields.Found)
    (cs : List Char) : Except Fault (fields.Value × List Char) :=
  match dropBlanks cs with
  | [] => .error .endOfInput
  | c :: cs =>
    if c = '[' then
      match inOrder cs with
      | .error e => .error e
      | .ok (values, cs) =>
        match readMark ']' cs with
        | .error e => .error e
        | .ok cs => .ok (values, cs)
    else if c = '{' then
      match readMembers member (cs.length + 1) true fields.nothing cs with
      | .error e => .error e
      | .ok (found, cs) =>
        match fields.complete found defaults with
        | some values => .ok (values, cs)
        | none => .error .mismatch
    else .error (otherKind c cs)

mutual

def Shape.read : (shape : Shape) → List Char → Except Fault (shape.Value × List Char)
  | .text, cs => readTextValue cs
  | .flag, cs => readFlag cs
  | .word, cs => readWord cs
  | .optional inner, cs =>
    match dropBlanks cs with
    | [] => .error .endOfInput
    | c :: rest =>
      if c = 'n' then (expect ['u', 'l', 'l'] rest).map (none, ·)
      else
        match inner.read (c :: rest) with
        | .error e => .error e
        | .ok (value, cs) => .ok (some value, cs)
  | .sequence item, cs => readArray item.read cs
  | .record fields, cs =>
    readRecord fields none (fields.readInOrder true none) fields.readMember cs
  | .choice cases, cs => readChoice cases.readBare cases.readCarrying cs
termination_by structural shape => shape

def Fields.readInOrder : (fields : Fields) → (first : Bool) → (defaults : Option fields.Value) →
    List Char → Except Fault (fields.Value × List Char)
  | .done, _, _, cs => .ok ((), cs)
  | .field _ shape rest, first, defaults, cs =>
    match readNext first cs with
    | .error e => .error e
    | .ok (false, cs) =>
      match defaults with
      | none => .error .mismatch
      | some (value, values) =>
        match rest.readInOrder first (some values) cs with
        | .error e => .error e
        | .ok (values, cs) => .ok ((value, values), cs)
    | .ok (true, cs) =>
      match shape.read cs with
      | .error e => .error e
      | .ok (value, cs) =>
        match rest.readInOrder false (defaults.map (·.2)) cs with
        | .error e => .error e
        | .ok (values, cs) => .ok ((value, values), cs)

def Fields.readMember : (fields : Fields) → (key : String) → fields.Found → List Char →
    Except Fault (fields.Found × List Char)
  | .done, _, (), cs =>
    match readMark ':' cs with
    | .error e => .error e
    | .ok cs => (skipValue cs).map ((), ·)
  | .field name shape rest, key, (found, more), cs =>
    if key = name then
      if found.isSome then .error .mismatch
      else
        match readMark ':' cs with
        | .error e => .error e
        | .ok cs =>
          match shape.read cs with
          | .error e => .error e
          | .ok (value, cs) => .ok ((some value, more), cs)
    else
      match rest.readMember key more cs with
      | .error e => .error e
      | .ok (more, cs) => .ok ((found, more), cs)

/-- The case of a lone name. -/
def Cases.readBare : (cases : Cases) → (name : String) → Except Fault cases.Value
  | .done, _ => .error .mismatch
  | .bare name rest, given => if given = name then .ok (.inl ()) else (rest.readBare given).map .inr
  | .carrying name _ rest, given =>
    if given = name then .error .mismatch else (rest.readBare given).map .inr

/-- Reads the payload of the named case, where `null` stands for none. -/
def Cases.readCarrying : (cases : Cases) → (name : String) → List Char →
    Except Fault (cases.Value × List Char)
  | .done, _, _ => .error .mismatch
  | .bare name rest, given, cs =>
    if given = name then
      match readMark ':' cs with
      | .error e => .error e
      | .ok cs => (readNull cs).map (.inl (), ·)
    else
      match rest.readCarrying given cs with
      | .error e => .error e
      | .ok (value, cs) => .ok (.inr value, cs)
  | .carrying name payload rest, given, cs =>
    if given = name then
      match readMark ':' cs with
      | .error e => .error e
      | .ok cs =>
        match payload.read cs with
        | .error e => .error e
        | .ok (value, cs) => .ok (.inl value, cs)
    else
      match rest.readCarrying given cs with
      | .error e => .error e
      | .ok (value, cs) => .ok (.inr value, cs)

end

def Fields.read (fields : Fields) (defaults : fields.Value) (cs : List Char) :
    Except Fault (fields.Value × List Char) :=
  readRecord fields (some defaults) (fields.readInOrder true (some defaults)) fields.readMember cs

end DirectedPresence
