/-!
Characters and texts of JSON documents. A reader takes the characters that it needs from the front
of a document and hands on the rest, or tells by a `Fault` why it cannot. Texts come in two
readings: one that decodes them, and one that only checks what is passed over, where a `\u` escape
may stand for half a surrogate pair.
-/

namespace DirectedPresence.Json

/-- Why a document was not read: it ended too early, it is not JSON, or it holds a value of
another kind than the one asked for. -/
inductive Fault where
  | endOfInput
  | malformed
  | mismatch
deriving DecidableEq, Repr

/-- Reads a value from the front of a document and hands on the rest. -/
abbrev Reader (α : Type) := List Char → Except Fault (α × List Char)

/-- Whether `c` may stand between any two tokens. -/
def isBlank (c : Char) : Bool :=
  c = ' ' || c = '\n' || c = '\t' || c = '\r'

def dropBlanks (cs : List Char) : List Char :=
  cs.dropWhile isBlank

def expect (word : List Char) (cs : List Char) : Except Fault (List Char) :=
  match word, cs with
  | [], cs => .ok cs
  | _ :: _, [] => .error .endOfInput
  | w :: word, c :: cs => if c = w then expect word cs else .error .malformed

def hexDigit? (c : Char) : Option Nat :=
  if '0' ≤ c ∧ c ≤ '9' then some (c.toNat - '0'.toNat)
  else if 'a' ≤ c ∧ c ≤ 'f' then some (c.toNat - 'a'.toNat + 10)
  else if 'A' ≤ c ∧ c ≤ 'F' then some (c.toNat - 'A'.toNat + 10)
  else none

/-- The code unit given by four hexadecimal digits. A document that ends within four bytes counts
as ended, whatever these bytes are. -/
def readUnit : Reader Nat
  | a :: b :: c :: d :: cs =>
    match hexDigit? a, hexDigit? b, hexDigit? c, hexDigit? d with
    | some a, some b, some c, some d => .ok (((a * 16 + b) * 16 + c) * 16 + d, cs)
    | _, _, _, _ => .error .malformed
  | cs =>
    .error (if cs.foldl (fun size c => size + c.utf8Size) 0 < 4 then .endOfInput else .malformed)

def shortEscape? (c : Char) : Option Char :=
  if c = '"' then some '"'
  else if c = '\\' then some '\\'
  else if c = '/' then some '/'
  else if c = 'b' then some '\x08'
  else if c = 'f' then some '\x0c'
  else if c = 'n' then some '\n'
  else if c = 'r' then some '\r'
  else if c = 't' then some '\t'
  else none

def isHighUnit (unit : Nat) : Bool := 0xd800 ≤ unit && unit ≤ 0xdbff

def isLowUnit (unit : Nat) : Bool := 0xdc00 ≤ unit && unit ≤ 0xdfff

/-- The second unit of a surrogate pair, which must follow as another escape. -/
def readLowUnit : Reader Nat
  | [] => .error .endOfInput
  | c :: cs =>
    if c ≠ '\\' then .error .malformed
    else
      match cs with
      | [] => .error .endOfInput
      | c :: cs =>
        if c ≠ 'u' then .error .malformed
        else
          match readUnit cs with
          | .error e => .error e
          | .ok (unit, cs) => if isLowUnit unit then .ok (unit, cs) else .error .malformed

/-- The character that an escape stands for; the backslash has been read. -/
def readEscape : Reader Char
  | [] => .error .endOfInput
  | c :: cs =>
    if c = 'u' then
      match readUnit cs with
      | .error e => .error e
      | .ok (unit, cs) =>
        if isLowUnit unit then .error .malformed
        else if isHighUnit unit then
          match readLowUnit cs with
          | .error e => .error e
          | .ok (low, cs) =>
            .ok (Char.ofNat ((unit - 0xd800) * 0x400 + (low - 0xdc00) + 0x10000), cs)
        else .ok (Char.ofNat unit, cs)
    else
      match shortEscape? c with
      | some d => .ok (d, cs)
      | none => .error .malformed

def skipEscape : List Char → Except Fault (List Char)
  | [] => .error .endOfInput
  | c :: cs =>
    if c = 'u' then (readUnit cs).map (·.2)
    else if (shortEscape? c).isSome then .ok cs
    else .error .malformed

private theorem length_of_readUnit {cs rest : List Char} {unit : Nat}
    (h : readUnit cs = .ok (unit, rest)) : rest.length < cs.length := by
  unfold readUnit at h
  grind

private theorem length_of_readLowUnit {cs rest : List Char} {unit : Nat}
    (h : readLowUnit cs = .ok (unit, rest)) : rest.length < cs.length := by
  unfold readLowUnit at h
  grind [→ length_of_readUnit]

private theorem length_of_readEscape {cs rest : List Char} {c : Char}
    (h : readEscape cs = .ok (c, rest)) : rest.length < cs.length := by
  unfold readEscape at h
  grind [→ length_of_readUnit, → length_of_readLowUnit]

private theorem length_of_skipEscape {cs rest : List Char}
    (h : skipEscape cs = .ok rest) : rest.length < cs.length := by
  unfold skipEscape Except.map at h
  grind [→ length_of_readUnit]

def readText : Reader (List Char)
  | [] => .error .endOfInput
  | c :: cs =>
    if c = '"' then .ok ([], cs)
    else if c = '\\' then
      match _h : readEscape cs with
      | .error e => .error e
      | .ok (d, rest) =>
        match readText rest with
        | .error e => .error e
        | .ok (text, rest) => .ok (d :: text, rest)
    else if c.toNat < 0x20 then .error .malformed
    else
      match readText cs with
      | .error e => .error e
      | .ok (text, rest) => .ok (c :: text, rest)
termination_by cs => cs.length
decreasing_by
  · exact Nat.lt_succ_of_lt (length_of_readEscape _h)
  · exact Nat.lt_succ_self _

def skipText : List Char → Except Fault (List Char)
  | [] => .error .endOfInput
  | c :: cs =>
    if c = '"' then .ok cs
    else if c = '\\' then
      match _h : skipEscape cs with
      | .error e => .error e
      | .ok rest => skipText rest
    else if c.toNat < 0x20 then .error .malformed
    else skipText cs
termination_by cs => cs.length
decreasing_by
  · exact Nat.lt_succ_of_lt (length_of_skipEscape _h)
  · exact Nat.lt_succ_self _

theorem length_of_skipText {cs rest : List Char} (h : skipText cs = .ok rest) :
    rest.length < cs.length := by
  fun_induction skipText cs <;> grind [→ length_of_skipEscape]

def escape (c : Char) : List Char :=
  if c = '"' then ['\\', '"']
  else if c = '\\' then ['\\', '\\']
  else if c = '\x08' then ['\\', 'b']
  else if c = '\x0c' then ['\\', 'f']
  else if c = '\n' then ['\\', 'n']
  else if c = '\r' then ['\\', 'r']
  else if c = '\t' then ['\\', 't']
  else if c.toNat < 0x20 then
    ['\\', 'u', '0', '0', Nat.digitChar (c.toNat / 16), Nat.digitChar (c.toNat % 16)]
  else [c]

/-- A text as it is written, between quotes. -/
def writeText (text : String) : List Char :=
  '"' :: text.toList.flatMap escape ++ ['"']

end DirectedPresence.Json
