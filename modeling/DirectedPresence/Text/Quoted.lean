import DirectedPresence.Text.Coded

/-!
Quoted texts, as they stand in messages and descriptions. A quoted text is put between double
quotes; a quote and a backslash inside it get a backslash, the tab, the two line ends and the null
character get a letter escape, and every other character of `Text.isCoded` is spelled as
`\u{…}` with its code point in hexadecimal, lower case and without padding.
-/

namespace DirectedPresence.Text

def escapeQuoted (c : Char) : List Char :=
  if c = '\x00' then ['\\', '0']
  else if c = '\t' then ['\\', 't']
  else if c = '\n' then ['\\', 'n']
  else if c = '\r' then ['\\', 'r']
  else if c = '"' then ['\\', '"']
  else if c = '\\' then ['\\', '\\']
  else if isCoded c then ['\\', 'u', '{'] ++ Nat.toDigits 16 c.toNat ++ ['}']
  else [c]

/-- The text `s` between double quotes, with every awkward character escaped. -/
def quoted (s : String) : String :=
  String.ofList ('"' :: s.toList.flatMap escapeQuoted ++ ['"'])

end DirectedPresence.Text
