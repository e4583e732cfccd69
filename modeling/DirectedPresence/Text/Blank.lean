/-!
Blank texts. A text is blank when it is empty or holds nothing but characters with the Unicode
property White_Space, which has 25 members. Core's `Char.isWhitespace` knows only some of the ASCII
ones.
-/

namespace DirectedPresence.Text

/-- Inclusive ranges of the code points with the property White_Space. -/
def blankRanges : List (Nat × Nat) :=
  [(0x9, 0xd), (0x20, 0x20), (0x85, 0x85), (0xa0, 0xa0), (0x1680, 0x1680), (0x2000, 0x200a),
    (0x2028, 0x2029), (0x202f, 0x202f), (0x205f, 0x205f), (0x3000, 0x3000)]

def isBlank (c : Char) : Bool :=
  blankRanges.any fun range => range.1 ≤ c.toNat && c.toNat ≤ range.2

/-- Whether `s` is empty or holds blank characters only. -/
def isBlankText (s : String) : Bool :=
  s.toList.all isBlank

example : (blankRanges.map fun range => range.2 + 1 - range.1).sum = 25 := by
  decide

end DirectedPresence.Text
