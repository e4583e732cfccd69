import DirectedPresence.Json.Scalar

/-!
Reading the arrays and objects of JSON documents. How an item or a member is read is a parameter.
Every item takes characters from the document, so the length of the document bounds their number;
the readers of items and members take that bound as fuel.
-/

namespace DirectedPresence.Json

/-- Whether another item follows in an array, and the document from there: at the item, or at the
closing bracket. -/
def readNext (first : Bool) (cs : List Char) : Except Fault (Bool × List Char) :=
  match dropBlanks cs with
  | [] => .error .endOfInput
  | c :: cs =>
    if c = ']' then .ok (false, c :: cs)
    else if first then .ok (true, c :: cs)
    else if c = ',' then
      match dropBlanks cs with
      | [] => .error .endOfInput
      | d :: ds => if d = ']' then .error .malformed else .ok (true, d :: ds)
    else .error .malformed

/-- Reads the items of an array up to its closing bracket. Every item takes at least one character,
so `fuel` need not exceed the length of the document. -/
def readItems {α : Type} (item : Reader α) : (fuel : Nat) → (first : Bool) → Reader (List α)
  | 0, _, _ => .error .endOfInput
  | fuel + 1, first, cs =>
    match readNext first cs with
    | .error e => .error e
    | .ok (false, cs) => .ok ([], cs.tail)
    | .ok (true, cs) =>
      match item cs with
      | .error e => .error e
      | .ok (a, cs) =>
        match readItems item fuel false cs with
        | .error e => .error e
        | .ok (as, cs) => .ok (a :: as, cs)

def readArray {α : Type} (item : Reader α) (cs : List Char) : Except Fault (List α × List Char) :=
  match dropBlanks cs with
  | [] => .error .endOfInput
  | c :: cs =>
    if c = '[' then readItems item (cs.length + 1) true cs else .error (otherKind c cs)

/-- Whether another member follows in an object: the document after the opening quote of its key,
or after the closing brace. -/
def readKeyStart (first : Bool) (cs : List Char) : Except Fault (Bool × List Char) :=
  match dropBlanks cs with
  | [] => .error .endOfInput
  | c :: cs =>
    if c = '}' then .ok (false, cs)
    else if first then (if c = '"' then .ok (true, cs) else .error .malformed)
    else if c = ',' then
      match dropBlanks cs with
      | [] => .error .endOfInput
      | d :: ds => if d = '"' then .ok (true, ds) else .error .malformed
    else .error .malformed

/-- Reads the members of an object up to its closing brace. `member` is given the key and what was
found so far, and reads the colon and the value. -/
def readMembers {σ : Type} (member : String → σ → Reader σ) :
    (fuel : Nat) → (first : Bool) → σ → Reader σ
  | 0, _, _, _ => .error .endOfInput
  | fuel + 1, first, found, cs =>
    match readKeyStart first cs with
    | .error e => .error e
    | .ok (false, cs) => .ok (found, cs)
    | .ok (true, cs) =>
      match readText cs with
      | .error e => .error e
      | .ok (key, cs) =>
        match member (String.ofList key) found cs with
        | .error e => .error e
        | .ok (found, cs) => readMembers member fuel false found cs

/-- Reads a choice: a lone name, handed to `bare`, or an object with one member, of which
`carrying` reads the rest. -/
def readChoice {α : Type} (bare : String → Except Fault α) (carrying : String → Reader α)
    (cs : List Char) : Except Fault (α × List Char) :=
  match dropBlanks cs with
  | [] => .error .endOfInput
  | c :: cs =>
    if c = '"' then
      match readText cs with
      | .error e => .error e
      | .ok (name, cs) =>
        match bare (String.ofList name) with
        | .error e => .error e
        | .ok a => .ok (a, cs)
    else if c = '{' then
      match readMark '"' cs with
      | .error e => .error e
      | .ok cs =>
        match readText cs with
        | .error e => .error e
        | .ok (name, cs) =>
          match carrying (String.ofList name) cs with
          | .error e => .error e
          | .ok (a, cs) =>
            match readMark '}' cs with
            | .error e => .error e
            | .ok cs => .ok (a, cs)
    else .error .malformed

end DirectedPresence.Json
