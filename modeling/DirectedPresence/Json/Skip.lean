import DirectedPresence.Json.Number

/-!
Passing over a value of a JSON document whose content does not matter. The value must be well formed
but may be nested to any depth: the brackets that are still open are kept on a stack, so the
recursion is on the document alone.
-/

namespace DirectedPresence.Json

/-- A bracket that is still open. -/
inductive Frame where
  | list
  | object
deriving DecidableEq, Repr

def Frame.closer : Frame → Char
  | .list => ']'
  | .object => '}'

def skipKey (cs : List Char) : Except Fault (List Char) :=
  match dropBlanks cs with
  | [] => .error .endOfInput
  | c :: cs =>
    if c ≠ '"' then .error .malformed
    else
      match skipText cs with
      | .error e => .error e
      | .ok cs =>
        match dropBlanks cs with
        | [] => .error .endOfInput
        | c :: cs => if c = ':' then .ok cs else .error .malformed

/-- Passes over a value without brackets; `c` is its first character. -/
def skipScalar (c : Char) (cs : List Char) : Except Fault (List Char) :=
  if c = 'n' then expect ['u', 'l', 'l'] cs
  else if c = 't' then expect ['r', 'u', 'e'] cs
  else if c = 'f' then expect ['a', 'l', 's', 'e'] cs
  else if c = '"' then skipText cs
  else if c = '-' || isDigit c then skipNumber (c :: cs)
  else .error .malformed

private theorem length_dropBlanks_le (cs : List Char) : (dropBlanks cs).length ≤ cs.length :=
  (List.dropWhile_sublist isBlank).length_le

private theorem length_of_dropBlanks {c : Char} {cs rest : List Char}
    (h : dropBlanks cs = c :: rest) : rest.length < cs.length := by
  have := length_dropBlanks_le cs
  grind

private theorem length_of_expect {word cs rest : List Char} (h : expect word cs = .ok rest) :
    rest.length ≤ cs.length := by
  fun_induction expect word cs <;> grind

private theorem length_of_skipKey {cs rest : List Char} (h : skipKey cs = .ok rest) :
    rest.length < cs.length := by
  unfold skipKey at h
  grind [length_dropBlanks_le, → length_of_skipText]

private theorem length_takeDigits_le (cs : List Char) : (takeDigits cs).2.length ≤ cs.length :=
  (List.dropWhile_sublist isDigit).length_le

private theorem length_takeDigits_cons {c : Char} {cs : List Char} (h : isDigit c = true) :
    (takeDigits (c :: cs)).2.length ≤ cs.length := by
  simpa [takeDigits, h] using length_takeDigits_le cs

private theorem length_of_readIntegral {cs digits rest : List Char}
    (h : readIntegral cs = .ok (digits, rest)) : rest.length < cs.length := by
  unfold readIntegral at h
  grind [length_takeDigits_cons]

private theorem length_of_readDigits {cs digits rest : List Char}
    (h : readDigits cs = .ok (digits, rest)) : rest.length < cs.length := by
  unfold readDigits at h
  grind [length_takeDigits_cons]

private theorem length_of_readFraction {cs rest : List Char} {fraction : Option (List Char)}
    (h : readFraction cs = .ok (fraction, rest)) : rest.length ≤ cs.length := by
  unfold readFraction at h
  grind [→ length_of_readDigits]

private theorem length_of_readExponent {cs rest : List Char} {exponent : Option Int}
    (h : readExponent cs = .ok (exponent, rest)) : rest.length ≤ cs.length := by
  unfold readExponent at h
  grind [→ length_of_readDigits]

private theorem length_of_skipNumber {cs rest : List Char} (h : skipNumber cs = .ok rest) :
    rest.length < cs.length := by
  unfold skipNumber at h
  grind [→ length_of_readIntegral, → length_of_readFraction, → length_of_readExponent]

private theorem length_of_skipScalar {c : Char} {cs rest : List Char}
    (h : skipScalar c cs = .ok rest) : rest.length ≤ cs.length := by
  unfold skipScalar at h
  grind [→ length_of_skipNumber, → length_of_skipText, → length_of_expect]

mutual

/-- Passes over a value and over what closes the frames around it. -/
def skipInside (stack : List Frame) (cs : List Char) : Except Fault (List Char) :=
  match _h : dropBlanks cs with
  | [] => .error .endOfInput
  | c :: rest =>
    if c = '[' then
      match _h : dropBlanks rest with
      | [] => .error .endOfInput
      | d :: inner =>
        if d = ']' then skipAfter stack inner else skipInside (.list :: stack) (d :: inner)
    else if c = '{' then
      match _h : dropBlanks rest with
      | [] => .error .endOfInput
      | d :: inner =>
        if d = '}' then skipAfter stack inner
        else
          match _h : skipKey (d :: inner) with
          | .error e => .error e
          | .ok rest => skipInside (.object :: stack) rest
    else
      match _h : skipScalar c rest with
      | .error e => .error e
      | .ok rest => skipAfter stack rest
termination_by 2 * cs.length
decreasing_by
  all_goals grind [→ length_of_dropBlanks, → length_of_skipKey, → length_of_skipScalar]

/-- Passes over what follows a value inside the frames of the stack. -/
def skipAfter (stack : List Frame) (cs : List Char) : Except Fault (List Char) :=
  match stack with
  | [] => .ok cs
  | frame :: stack =>
    match _h : dropBlanks cs with
    | [] => .error .endOfInput
    | c :: rest =>
      if c = ',' then
        match frame with
        | .list => skipInside (.list :: stack) rest
        | .object =>
          match _h : skipKey rest with
          | .error e => .error e
          | .ok rest => skipInside (.object :: stack) rest
      else if c = frame.closer then skipAfter stack rest
      else .error .malformed
termination_by 2 * cs.length + 1
decreasing_by
  all_goals grind [→ length_of_dropBlanks, → length_of_skipKey]

end

def skipValue (cs : List Char) : Except Fault (List Char) :=
  skipInside [] cs

end DirectedPresence.Json
