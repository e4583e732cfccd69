import DirectedPresence.Json.Number

/-!
Reading the values of JSON documents that hold no others: texts, truth values, words and `null`. A
value of another kind is a mismatch, but only if it is well formed as far as its first token goes.
-/

namespace DirectedPresence.Json

/-- The fault at a value of another kind, which starts with `c`: a mismatch, unless the value is
not even well formed. -/
def otherKind (c : Char) (cs : List Char) : Fault :=
  let problem : Except Fault Unit :=
    if c = 'n' then (expect ['u', 'l', 'l'] cs).map fun _ => ()
    else if c = 't' then (expect ['r', 'u', 'e'] cs).map fun _ => ()
    else if c = 'f' then (expect ['a', 'l', 's', 'e'] cs).map fun _ => ()
    else if c = '"' then (readText cs).map fun _ => ()
    else if c = '-' || isDigit c then (readNumber (c :: cs)).map fun _ => ()
    else if c = '[' || c = '{' then .ok ()
    else .error .malformed
  match problem with
  | .ok () => .mismatch
  | .error e => e

def readTextValue (cs : List Char) : Except Fault (String × List Char) :=
  match dropBlanks cs with
  | [] => .error .endOfInput
  | c :: cs =>
    if c = '"' then
      match readText cs with
      | .error e => .error e
      | .ok (text, cs) => .ok (String.ofList text, cs)
    else .error (otherKind c cs)

def readFlag (cs : List Char) : Except Fault (Bool × List Char) :=
  match dropBlanks cs with
  | [] => .error .endOfInput
  | c :: cs =>
    if c = 't' then (expect ['r', 'u', 'e'] cs).map (true, ·)
    else if c = 'f' then (expect ['a', 'l', 's', 'e'] cs).map (false, ·)
    else .error (otherKind c cs)

def readWord (cs : List Char) : Except Fault (UInt64 × List Char) :=
  match dropBlanks cs with
  | [] => .error .endOfInput
  | c :: cs =>
    if c = '-' || isDigit c then
      match readNumber (c :: cs) with
      | .error e => .error e
      | .ok (some n, cs) => .ok (n.toUInt64, cs)
      | .ok (none, _) => .error .mismatch
    else .error (otherKind c cs)

def readNull (cs : List Char) : Except Fault (List Char) :=
  match dropBlanks cs with
  | [] => .error .endOfInput
  | c :: cs => if c = 'n' then expect ['u', 'l', 'l'] cs else .error (otherKind c cs)

/-- Passes over one character, after blanks. -/
def readMark (mark : Char) (cs : List Char) : Except Fault (List Char) :=
  match dropBlanks cs with
  | [] => .error .endOfInput
  | c :: cs => if c = mark then .ok cs else .error .malformed

end DirectedPresence.Json
