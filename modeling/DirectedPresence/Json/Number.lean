import DirectedPresence.Json.Text

/-!
Numbers of JSON documents. A number is read to the end of its spelling. It stands for a word when it
is spelled in digits alone, without sign, fraction and exponent, and fits 64 bits; every other
number is of another kind. A number beyond the range of binary floating point is malformed.

The range is judged on a decimal of limited size: the digits are collected as long as they fit 64
bits, the other digits of the integral part only count for the exponent, and the other digits of the
fraction do not count at all. The collected digits and the power of ten are each rounded to a double
before they are multiplied.
-/

namespace DirectedPresence.Json

def isDigit (c : Char) : Bool := '0' ≤ c && c ≤ '9'

def digitValue (c : Char) : Nat := c.toNat - '0'.toNat

def maxWord : Nat := UInt64.size - 1

/-- Appends digits to a number as long as it stays a word, and counts the digits that are left. -/
def collect (number : Nat) : List Char → Nat × Nat
  | [] => (number, 0)
  | d :: ds =>
    if number * 10 + digitValue d ≤ maxWord then collect (number * 10 + digitValue d) ds
    else (number, ds.length + 1)

/-- The double nearest to a natural number, halves going to the even neighbour. -/
def roundToDouble (n : Nat) : Nat :=
  if n < 1 <<< 53 then n
  else
    let unit := 1 <<< (n.log2 - 52)
    let low := n / unit
    let rest := n % unit
    if 2 * rest > unit ∨ (2 * rest = unit ∧ low % 2 = 1) then (low + 1) * unit else low * unit

/-- Whether `number · 10 ^ exponent` is beyond the range of doubles. -/
def isOutOfRange (number : Nat) (exponent : Int) : Bool :=
  number ≠ 0 && exponent ≥ 0 && (exponent > 308 ||
    roundToDouble number * roundToDouble (Nat.pow 10 exponent.toNat) ≥
      1 <<< 1024 - 1 <<< 970)

def takeDigits (cs : List Char) : List Char × List Char :=
  (cs.takeWhile isDigit, cs.dropWhile isDigit)

/-- The integral part of a number: a zero, or digits that start with another one. -/
def readIntegral : Reader (List Char)
  | [] => .error .endOfInput
  | c :: cs =>
    if c = '0' then
      match cs with
      | d :: _ => if isDigit d then .error .malformed else .ok (['0'], cs)
      | [] => .ok (['0'], [])
    else if isDigit c then .ok (takeDigits (c :: cs))
    else .error .malformed

/-- At least one digit. Both callers stand after a mark that calls for one. -/
def readDigits : Reader (List Char)
  | [] => .error .endOfInput
  | c :: cs => if isDigit c then .ok (takeDigits (c :: cs)) else .error .malformed

def readFraction : Reader (Option (List Char))
  | [] => .ok (none, [])
  | c :: cs =>
    if c = '.' then
      match readDigits cs with
      | .error e => .error e
      | .ok (digits, cs) => .ok (some digits, cs)
    else .ok (none, c :: cs)

def readExponent : Reader (Option Int)
  | [] => .ok (none, [])
  | c :: cs =>
    if c = 'e' || c = 'E' then
      let (negative, cs) :=
        match cs with
        | s :: rest => if s = '-' then (true, rest) else if s = '+' then (false, rest)
          else (false, cs)
        | [] => (false, [])
      match readDigits cs with
      | .error e => .error e
      | .ok (digits, cs) =>
        let size : Int := digits.foldl (fun n d => n * 10 + digitValue d) 0
        .ok (some (if negative then -size else size), cs)
    else .ok (none, c :: cs)

/-- Reads a number; a sign has been read if `negative`. The answer is the word that the number
stands for, if it is one. -/
def readUnsigned (negative : Bool) (cs : List Char) : Except Fault (Option Nat × List Char) :=
  match readIntegral cs with
  | .error e => .error e
  | .ok (integral, cs) =>
    match readFraction cs with
    | .error e => .error e
    | .ok (fraction, cs) =>
      match readExponent cs with
      | .error e => .error e
      | .ok (exponent, cs) =>
        let (number, beyond) := collect 0 integral
        let digits := fraction.getD []
        let (number', dropped) := collect number digits
        if isOutOfRange number' (exponent.getD 0 + beyond - (digits.length - dropped : Nat)) then
          .error .malformed
        else if negative || fraction.isSome || exponent.isSome || beyond ≠ 0 then .ok (none, cs)
        else .ok (some number, cs)

def readNumber : Reader (Option Nat)
  | [] => .error .endOfInput
  | c :: cs => if c = '-' then readUnsigned true cs else readUnsigned false (c :: cs)

/-- Passes over a number. The range is not judged, and a number that breaks off is malformed even
at the end of the document. -/
def skipNumber (cs : List Char) : Except Fault (List Char) :=
  let unsigned := match cs with
    | c :: rest => if c = '-' then rest else cs
    | [] => []
  match readIntegral unsigned with
  | .error _ => .error .malformed
  | .ok (_, cs) =>
    match readFraction cs with
    | .error _ => .error .malformed
    | .ok (_, cs) =>
      match readExponent cs with
      | .error _ => .error .malformed
      | .ok (_, cs) => .ok cs

end DirectedPresence.Json
