import DirectedPresence.Form
import DirectedPresence.Json.Text

/-!
Writing shaped values as JSON. A record is an object with its fields in order, a case without
payload is its name, a case with payload is an object with the name as its only key, an absent
optional value is `null`. Nothing is written between the tokens.
-/

namespace DirectedPresence

open Json

mutual

def Shape.write : (shape : Shape) → shape.Value → List Char
  | .text, (text : String) => writeText text
  | .flag, (flag : Bool) => if flag then ['t', 'r', 'u', 'e'] else ['f', 'a', 'l', 's', 'e']
  | .word, (word : UInt64) => Nat.toDigits 10 word.toNat
  | .optional _, none => ['n', 'u', 'l', 'l']
  | .optional inner, some value => inner.write value
  | .sequence _, [] => ['[', ']']
  | .sequence item, value :: values =>
    '[' :: item.write value ++ values.flatMap (fun value => ',' :: item.write value) ++ [']']
  | .record fields, values => '{' :: fields.write true values ++ ['}']
  | .choice cases, value => cases.write value

/-- The characters of the fields of a record, up to the closing brace. -/
def Fields.write : (fields : Fields) → (first : Bool) → fields.Value → List Char
  | .done, _, () => []
  | .field name shape rest, first, (value, values) =>
    (if first then [] else [',']) ++ writeText name ++ ':' :: shape.write value ++
      rest.write false values

def Cases.write : (cases : Cases) → cases.Value → List Char
  | .done, value => nomatch value
  | .bare name _, .inl () => writeText name
  | .bare _ rest, .inr value => rest.write value
  | .carrying name payload _, .inl value =>
    '{' :: writeText name ++ ':' :: payload.write value ++ ['}']
  | .carrying _ _ rest, .inr value => rest.write value

end

end DirectedPresence
