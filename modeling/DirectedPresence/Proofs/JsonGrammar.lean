import DirectedPresence.Json.Skip
import DirectedPresence.Proofs.JsonTokens

/-!
The grammar of JSON, and that the readers accept what it derives. A text has spellings
(`SpellsText`), in which a character stands for itself or is escaped, alone or by a surrogate pair;
it is read back from each of them. What is only passed over (`IsValue`) may hold any escapes
(`IsRawText`), numbers of any size, and arrays and objects nested to any depth with blanks between
any two tokens; a value is passed over as a whole, whatever frames are open around it
(`IsValue.skipInside`).
-/

namespace DirectedPresence.Json

/-! ## Tokens -/

def AreBlanks (cs : List Char) : Prop :=
  ∀ c ∈ cs, isBlank c = true

instance (cs : List Char) : Decidable (AreBlanks cs) :=
  List.decidableBAll (isBlank · = true) cs

/-- Four hexadecimal digits, with the code unit that they stand for. -/
inductive SpellsUnit : List Char → Nat → Prop where
  | intro {c₁ c₂ c₃ c₄ : Char} {d₁ d₂ d₃ d₄ : Nat} (h₁ : hexDigit? c₁ = some d₁)
    (h₂ : hexDigit? c₂ = some d₂) (h₃ : hexDigit? c₃ = some d₃) (h₄ : hexDigit? c₄ = some d₄) :
    SpellsUnit [c₁, c₂, c₃, c₄] (((d₁ * 16 + d₂) * 16 + d₃) * 16 + d₄)

/-- A character that stands for itself in a text. -/
def IsPlain (c : Char) : Prop :=
  c ≠ '"' ∧ c ≠ '\\' ∧ 0x20 ≤ c.toNat

instance (c : Char) : Decidable (IsPlain c) :=
  inferInstanceAs (Decidable (c ≠ '"' ∧ c ≠ '\\' ∧ 0x20 ≤ c.toNat))

/-- The spellings of a character: itself, an escape of one letter, its code unit, or the two units
of a surrogate pair. -/
inductive SpellsChar : List Char → Char → Prop where
  | plain {c : Char} (h : IsPlain c) : SpellsChar [c] c
  | short {letter c : Char} (h : shortEscape? letter = some c) : SpellsChar ['\\', letter] c
  | unit {digits : List Char} {unit : Nat} (h : SpellsUnit digits unit)
    (hlow : isLowUnit unit = false) (hhigh : isHighUnit unit = false) :
    SpellsChar ('\\' :: 'u' :: digits) (Char.ofNat unit)
  | pair {digits digits' : List Char} {high low : Nat} (h : SpellsUnit digits high)
    (h' : SpellsUnit digits' low) (hhigh : isHighUnit high = true) (hlow : isLowUnit low = true) :
    SpellsChar ('\\' :: 'u' :: digits ++ '\\' :: 'u' :: digits')
      (Char.ofNat ((high - 0xd800) * 0x400 + (low - 0xdc00) + 0x10000))

/-- The spellings of a text, without its quotes. -/
inductive SpellsText : List Char → List Char → Prop where
  | nil : SpellsText [] []
  | cons {spelling cs text : List Char} {c : Char} (h : SpellsChar spelling c)
    (more : SpellsText cs text) : SpellsText (spelling ++ cs) (c :: text)

/-- A text of which no character needs an escape is its own spelling. -/
theorem SpellsText.of_plain {cs : List Char} (h : cs.all (IsPlain ·) = true) :
    SpellsText cs cs := by
  induction cs with
  | nil => exact .nil
  | cons c cs ih =>
    rw [List.all_cons, Bool.and_eq_true, decide_eq_true_iff] at h
    exact .cons (.plain h.1) (ih h.2)

/-- A text whose content does not matter, without its quotes. A code unit need not stand for a
character. -/
inductive IsRawText : List Char → Prop where
  | nil : IsRawText []
  | plain {c : Char} {cs : List Char} (h : IsPlain c) (more : IsRawText cs) : IsRawText (c :: cs)
  | short {letter : Char} {cs : List Char} (h : (shortEscape? letter).isSome = true)
    (more : IsRawText cs) : IsRawText ('\\' :: letter :: cs)
  | unit {digits cs : List Char} {unit : Nat} (h : SpellsUnit digits unit) (more : IsRawText cs) :
    IsRawText ('\\' :: 'u' :: digits ++ cs)

/-- Nothing, or a point and digits. -/
inductive IsFraction : List Char → Prop where
  | absent : IsFraction []
  | point {digits : List Char} (h : AreDigits digits) : IsFraction ('.' :: digits)

/-- Nothing, or a power of ten, with a sign or without one. -/
inductive IsExponent : List Char → Prop where
  | absent : IsExponent []
  | power {mark : Char} {sign digits : List Char} (hmark : mark = 'e' ∨ mark = 'E')
    (hsign : sign = [] ∨ sign = ['+'] ∨ sign = ['-']) (h : AreDigits digits) :
    IsExponent (mark :: sign ++ digits)

inductive IsNumber : List Char → Prop where
  | intro {sign integral fraction exponent : List Char} (hsign : sign = [] ∨ sign = ['-'])
    (hintegral : IsIntegral integral) (hfraction : IsFraction fraction)
    (hexponent : IsExponent exponent) : IsNumber (sign ++ integral ++ fraction ++ exponent)

/-! ## Values -/

/-- The key of a member, with the blanks around it and the colon. -/
inductive IsKey : List Char → Prop where
  | intro {before key after : List Char} (hbefore : AreBlanks before) (h : IsRawText key)
    (hafter : AreBlanks after) : IsKey (before ++ '"' :: key ++ '"' :: after ++ [':'])

mutual

inductive IsValue : List Char → Prop where
  | null : IsValue ['n', 'u', 'l', 'l']
  | yes : IsValue ['t', 'r', 'u', 'e']
  | no : IsValue ['f', 'a', 'l', 's', 'e']
  | number {cs : List Char} (h : IsNumber cs) : IsValue cs
  | text {cs : List Char} (h : IsRawText cs) : IsValue ('"' :: cs ++ ['"'])
  | emptyArray {blanks : List Char} (h : AreBlanks blanks) : IsValue ('[' :: blanks ++ [']'])
  | array {cs : List Char} (h : AreItems cs) : IsValue ('[' :: cs ++ [']'])
  | emptyObject {blanks : List Char} (h : AreBlanks blanks) : IsValue ('{' :: blanks ++ ['}'])
  | object {cs : List Char} (h : AreMembers cs) : IsValue ('{' :: cs ++ ['}'])

/-- The items of an array, with the blanks around them. -/
inductive AreItems : List Char → Prop where
  | one {before value after : List Char} (hbefore : AreBlanks before) (h : IsValue value)
    (hafter : AreBlanks after) : AreItems (before ++ value ++ after)
  | cons {before value after cs : List Char} (hbefore : AreBlanks before) (h : IsValue value)
    (hafter : AreBlanks after) (more : AreItems cs) :
    AreItems (before ++ value ++ after ++ ',' :: cs)

/-- The members of an object, with the blanks around them. -/
inductive AreMembers : List Char → Prop where
  | one {key before value after : List Char} (hkey : IsKey key) (hbefore : AreBlanks before)
    (h : IsValue value) (hafter : AreBlanks after) : AreMembers (key ++ before ++ value ++ after)
  | cons {key before value after cs : List Char} (hkey : IsKey key) (hbefore : AreBlanks before)
    (h : IsValue value) (hafter : AreBlanks after) (more : AreMembers cs) :
    AreMembers (key ++ before ++ value ++ after ++ ',' :: cs)

end

/-! ## Reading tokens -/

theorem dropBlanks_append {blanks : List Char} (h : AreBlanks blanks) (cs : List Char) :
    dropBlanks (blanks ++ cs) = dropBlanks cs :=
  List.dropWhile_append_of_pos h

private theorem isNumberEnd_of_isBlank {c : Char} (h : isBlank c = true) (cs : List Char) :
    isNumberEnd (c :: cs) = true := by
  simp only [isBlank, Bool.or_eq_true, decide_eq_true_eq] at h
  rcases h with ((rfl | rfl) | rfl) | rfl <;> rfl

/-- A number ends before blanks as it does without them. -/
theorem isNumberEnd_append {blanks rest : List Char} (h : AreBlanks blanks)
    (hrest : isNumberEnd rest = true) : isNumberEnd (blanks ++ rest) = true := by
  cases blanks with
  | nil => exact hrest
  | cons c blanks => exact isNumberEnd_of_isBlank (h c List.mem_cons_self) _

private theorem SpellsUnit.readUnit {digits : List Char} {unit : Nat} (h : SpellsUnit digits unit)
    (cs : List Char) : readUnit (digits ++ cs) = .ok (unit, cs) := by
  obtain ⟨h₁, h₂, h₃, h₄⟩ := h
  simp [Json.readUnit, h₁, h₂, h₃, h₄]

private theorem ne_u_of_shortEscape? {letter c : Char} (h : shortEscape? letter = some c) :
    letter ≠ 'u' := by
  rintro rfl
  cases h

private theorem isLowUnit_of_isHighUnit {unit : Nat} (h : isHighUnit unit = true) :
    isLowUnit unit = false := by
  simp only [isHighUnit, Bool.and_eq_true, decide_eq_true_eq] at h
  simp only [isLowUnit, Bool.and_eq_false_iff, decide_eq_false_iff_not]
  omega

/-- A character is read from each of its spellings, whatever comes next. -/
theorem SpellsChar.readText {spelling : List Char} {c : Char} (h : SpellsChar spelling c)
    (cs : List Char) :
    readText (spelling ++ cs) = (readText cs).map fun (text, rest) => (c :: text, rest) := by
  cases h with
  | plain h => exact readText_plain h.1 h.2.1 (Nat.not_lt.mpr h.2.2) cs
  | short h =>
    apply readText_of_readEscape
    simp [readEscape, ne_u_of_shortEscape? h, h]
  | unit h hlow hhigh =>
    apply readText_of_readEscape
    simp [readEscape, h.readUnit, hlow, hhigh]
  | pair h h' hhigh hlow =>
    rw [List.append_assoc]
    apply readText_of_readEscape
    simp [readEscape, h.readUnit, isLowUnit_of_isHighUnit hhigh, hhigh, readLowUnit, h'.readUnit,
      hlow]

/-- A text is read from each of its spellings. -/
theorem SpellsText.readText {cs text : List Char} (h : SpellsText cs text) (rest : List Char) :
    readText (cs ++ '"' :: rest) = .ok (text, rest) := by
  induction h with
  | nil =>
    rw [List.nil_append, Json.readText]
    rfl
  | cons h more ih =>
    rw [List.append_assoc, h.readText, ih]
    rfl

private theorem skipText_of_skipEscape {cs rest : List Char} {after : Except Fault (List Char)}
    (h : skipEscape cs = .ok rest) (hrest : skipText rest = after) :
    skipText ('\\' :: cs) = after := by
  rw [skipText]
  simp only [Char.reduceEq, if_false, if_true]
  split
  · next hfailed =>
    rw [h] at hfailed
    cases hfailed
  · next hsame =>
    rw [h] at hsame
    cases hsame
    exact hrest

/-- A text is passed over up to its closing quote. -/
theorem IsRawText.skipText {cs : List Char} (h : IsRawText cs) (rest : List Char) :
    skipText (cs ++ '"' :: rest) = .ok rest := by
  induction h with
  | nil =>
    rw [List.nil_append, Json.skipText]
    rfl
  | plain h more ih =>
    rw [List.cons_append, Json.skipText]
    simp only [h.1, h.2.1, Nat.not_lt.mpr h.2.2, if_false, ih]
  | short h more ih =>
    obtain ⟨c, hc⟩ := Option.isSome_iff_exists.mp h
    refine skipText_of_skipEscape ?_ ih
    simp [skipEscape, ne_u_of_shortEscape? hc, hc]
  | unit h more ih =>
    rw [List.append_assoc]
    refine skipText_of_skipEscape ?_ ih
    simp [skipEscape, h.readUnit, Except.map]

private theorem AreDigits.readDigits {cs rest : List Char} (h : AreDigits cs)
    (hrest : startsNoDigit rest = true) : readDigits (cs ++ rest) = .ok (cs, rest) := by
  have htake := takeDigits_append h.2 hrest
  obtain ⟨c, digits, rfl⟩ := List.exists_cons_of_ne_nil h.1
  rw [List.cons_append] at htake ⊢
  simp only [Json.readDigits, h.2 c List.mem_cons_self, if_true, htake]

/-- What may follow the fraction of a number: no digit, and no other point. -/
def endsFraction (cs : List Char) : Bool :=
  startsNoDigit cs && cs.head? ≠ some '.'

private theorem IsExponent.endsFraction {cs rest : List Char} (h : IsExponent cs)
    (hrest : isNumberEnd rest = true) : endsFraction (cs ++ rest) = true := by
  cases h with
  | absent =>
    rw [List.nil_append, Json.endsFraction, startsNoDigit_of_isNumberEnd hrest]
    cases rest with
    | nil => rfl
    | cons c rest =>
      simp only [isNumberEnd, Bool.not_eq_true', Bool.or_eq_false_iff] at hrest
      simpa using hrest.1.1.2
  | power hmark hsign h => rcases hmark with rfl | rfl <;> rfl

private theorem ne_of_isDigit {c d : Char} (hc : isDigit c = true) (hd : isDigit d = false) :
    c ≠ d := by
  rintro rfl
  rw [hc] at hd
  cases hd

private theorem IsExponent.readExponent {cs rest : List Char} (h : IsExponent cs)
    (hrest : isNumberEnd rest = true) :
    ∃ exponent, readExponent (cs ++ rest) = .ok (exponent, rest) := by
  cases h with
  | absent => exact ⟨_, readExponent_of_isNumberEnd hrest⟩
  | @power mark sign digits hmark hsign h =>
    have hread := h.readDigits (startsNoDigit_of_isNumberEnd hrest)
    rcases hsign with rfl | rfl | rfl
    · obtain ⟨c, digits, rfl⟩ := List.exists_cons_of_ne_nil h.1
      have hdigit := h.2 c List.mem_cons_self
      have hminus : c ≠ '-' := ne_of_isDigit hdigit rfl
      have hplus : c ≠ '+' := ne_of_isDigit hdigit rfl
      rw [List.cons_append] at hread
      simp [Json.readExponent, hmark, hminus, hplus, hread]
    · simp [Json.readExponent, hmark, hread]
    · simp [Json.readExponent, hmark, hread]

private theorem IsFraction.readFraction {cs rest : List Char} (h : IsFraction cs)
    (hrest : endsFraction rest = true) :
    ∃ fraction, readFraction (cs ++ rest) = .ok (fraction, rest) := by
  simp only [endsFraction, Bool.and_eq_true, decide_eq_true_eq] at hrest
  cases h with
  | absent =>
    refine ⟨none, ?_⟩
    rw [List.nil_append]
    cases rest with
    | nil => rfl
    | cons c rest =>
      have hpoint : c ≠ '.' := by simpa using hrest.2
      simp [Json.readFraction, hpoint]
  | point h => simp [Json.readFraction, h.readDigits hrest.1]

private theorem IsFraction.startsNoDigit {cs rest : List Char} (h : IsFraction cs)
    (hrest : endsFraction rest = true) : startsNoDigit (cs ++ rest) = true := by
  simp only [endsFraction, Bool.and_eq_true] at hrest
  cases h with
  | absent => exact hrest.1
  | point h => rfl

/-- A number of any size is passed over to its end. -/
theorem IsNumber.skipNumber {cs rest : List Char} (h : IsNumber cs)
    (hrest : isNumberEnd rest = true) : skipNumber (cs ++ rest) = .ok rest := by
  obtain ⟨hsign, hintegral, hfraction, hexponent⟩ := h
  have hends := hexponent.endsFraction hrest
  have hread := hintegral.readIntegral (hfraction.startsNoDigit hends)
  obtain ⟨fraction, hfraction⟩ := hfraction.readFraction hends
  obtain ⟨exponent, hexponent⟩ := hexponent.readExponent hrest
  rcases hsign with rfl | rfl
  · obtain ⟨c, digits, rfl⟩ := List.exists_cons_of_ne_nil hintegral.1.1
    have hminus : c ≠ '-' := ne_of_isDigit (hintegral.1.2 c List.mem_cons_self) rfl
    rw [List.cons_append] at hread
    simp [Json.skipNumber, hminus, hread, hfraction, hexponent]
  · simp [Json.skipNumber, hread, hfraction, hexponent]

/-- How a number starts. -/
theorem IsNumber.opens {cs : List Char} (h : IsNumber cs) :
    ∃ c tail, cs = c :: tail ∧ (c = '-' ∨ isDigit c = true) := by
  obtain ⟨rfl | rfl, hintegral, -, -⟩ := h
  · obtain ⟨c, digits, rfl⟩ := List.exists_cons_of_ne_nil hintegral.1.1
    exact ⟨c, _, rfl, Or.inr (hintegral.1.2 c List.mem_cons_self)⟩
  · exact ⟨'-', _, rfl, Or.inl rfl⟩

/-! ## Reading values -/

/-- A mark is read behind blanks. -/
theorem readMark_append {blanks : List Char} (h : AreBlanks blanks) {m : Char}
    (hmark : isBlank m = false) (cs : List Char) : readMark m (blanks ++ m :: cs) = .ok cs := by
  simp [readMark, dropBlanks_append h, dropBlanks_cons hmark]

theorem readTextValue_append {blanks cs : List Char} {text : String} (h : AreBlanks blanks)
    (htext : SpellsText cs text.toList) (rest : List Char) :
    readTextValue (blanks ++ ('"' :: cs ++ ['"']) ++ rest) = .ok (text, rest) := by
  simp only [List.append_assoc, List.cons_append, List.nil_append, readTextValue,
    dropBlanks_append h, dropBlanks_cons (c := '"') rfl, if_true, htext.readText,
    String.ofList_toList]

theorem readWord_append {blanks rest : List Char} {word : UInt64} (h : AreBlanks blanks)
    (hrest : isNumberEnd rest = true) :
    readWord (blanks ++ Nat.toDigits 10 word.toNat ++ rest) = .ok (word, rest) := by
  have hread := readWord_toDigits word hrest
  rw [readWord] at hread
  rw [List.append_assoc, readWord, dropBlanks_append h]
  exact hread

theorem readFlag_append {blanks : List Char} {flag : Bool} (h : AreBlanks blanks)
    (rest : List Char) :
    readFlag
        (blanks ++ (if flag then ['t', 'r', 'u', 'e'] else ['f', 'a', 'l', 's', 'e']) ++ rest) =
      .ok (flag, rest) := by
  rw [List.append_assoc, readFlag, dropBlanks_append h]
  cases flag <;> rfl

/-! ## Passing over values -/

/-- After blanks, a value is passed over as its first character says. -/
theorem skipInside_of_dropBlanks {c : Char} {cs rest : List Char} (h : dropBlanks cs = c :: rest)
    (stack : List Frame) : skipInside stack cs =
      if c = '[' then
        match dropBlanks rest with
        | [] => .error .endOfInput
        | d :: inner =>
          if d = ']' then skipAfter stack inner else skipInside (.list :: stack) (d :: inner)
      else if c = '{' then
        match dropBlanks rest with
        | [] => .error .endOfInput
        | d :: inner =>
          if d = '}' then skipAfter stack inner
          else
            match skipKey (d :: inner) with
            | .error e => .error e
            | .ok rest => skipInside (.object :: stack) rest
      else
        match skipScalar c rest with
        | .error e => .error e
        | .ok rest => skipAfter stack rest := by
  rw [skipInside]
  split
  · next hnil => simp [hnil] at h
  · next hcons =>
    rw [h] at hcons
    cases hcons
    grind

private theorem skipAfter_of_dropBlanks {c : Char} {cs rest : List Char}
    (h : dropBlanks cs = c :: rest) (frame : Frame) (stack : List Frame) :
    skipAfter (frame :: stack) cs =
      if c = ',' then
        match frame with
        | .list => skipInside (.list :: stack) rest
        | .object =>
          match skipKey rest with
          | .error e => .error e
          | .ok rest => skipInside (.object :: stack) rest
      else if c = frame.closer then skipAfter stack rest
      else .error .malformed := by
  rw [skipAfter]
  split
  · next hnil => simp [hnil] at h
  · next hcons =>
    rw [h] at hcons
    cases hcons
    grind

private theorem isBlank_of_dropBlanks {c : Char} {cs rest : List Char}
    (h : dropBlanks cs = c :: rest) : isBlank c = false := by
  have hhead := List.head?_dropWhile_not isBlank cs
  rw [show cs.dropWhile isBlank = c :: rest from h] at hhead
  simpa using hhead

/-- Whether the blanks before a value have been dropped makes no difference. -/
theorem skipInside_congr {cs ds : List Char} (h : dropBlanks cs = dropBlanks ds)
    (stack : List Frame) : skipInside stack cs = skipInside stack ds := by
  cases hds : dropBlanks ds with
  | nil =>
    rw [skipInside, skipInside]
    split <;> split <;> simp_all
  | cons c rest => rw [skipInside_of_dropBlanks (h.trans hds), skipInside_of_dropBlanks hds]

private theorem skipInside_append {blanks : List Char} (h : AreBlanks blanks) (cs : List Char)
    (stack : List Frame) : skipInside stack (blanks ++ cs) = skipInside stack cs :=
  skipInside_congr (dropBlanks_append h cs) stack

private theorem skipInside_scalar {c : Char} {cs rest : List Char} (hblank : isBlank c = false)
    (harray : c ≠ '[') (hobject : c ≠ '{') (h : skipScalar c cs = .ok rest) (stack : List Frame) :
    skipInside stack (c :: cs) = skipAfter stack rest := by
  rw [skipInside_of_dropBlanks (dropBlanks_cons hblank cs)]
  simp only [harray, hobject, if_false, h]

private theorem skipInside_emptyArray {blanks : List Char} (h : AreBlanks blanks) (rest : List Char)
    (stack : List Frame) :
    skipInside stack ('[' :: (blanks ++ ']' :: rest)) = skipAfter stack rest := by
  rw [skipInside_of_dropBlanks (dropBlanks_cons rfl _), dropBlanks_append h, dropBlanks_cons rfl]
  simp only [if_true]

private theorem skipInside_emptyObject {blanks : List Char} (h : AreBlanks blanks)
    (rest : List Char) (stack : List Frame) :
    skipInside stack ('{' :: (blanks ++ '}' :: rest)) = skipAfter stack rest := by
  rw [skipInside_of_dropBlanks (dropBlanks_cons rfl _), dropBlanks_append h, dropBlanks_cons rfl]
  simp only [Char.reduceEq, if_false, if_true]

/-- An array that holds something is passed over as its items are. -/
theorem skipInside_array {d : Char} {cs inner : List Char} (h : dropBlanks cs = d :: inner)
    (hend : d ≠ ']') (stack : List Frame) :
    skipInside stack ('[' :: cs) = skipInside (.list :: stack) cs := by
  have hsame : dropBlanks (d :: inner) = dropBlanks cs :=
    (dropBlanks_cons (isBlank_of_dropBlanks h) inner).trans h.symm
  rw [skipInside_of_dropBlanks (dropBlanks_cons rfl cs), h]
  simp only [hend, if_true, if_false]
  exact skipInside_congr hsame _

private theorem skipKey_congr {cs ds : List Char} (h : dropBlanks cs = dropBlanks ds) :
    skipKey cs = skipKey ds := by
  rw [skipKey, skipKey, h]

/-- A key is passed over with its colon. -/
theorem IsKey.skipKey {key : List Char} (h : IsKey key) (rest : List Char) :
    skipKey (key ++ rest) = .ok rest := by
  obtain ⟨hbefore, h, hafter⟩ := h
  have htext := h.skipText
  simp only [List.append_assoc, List.cons_append, List.nil_append, Json.skipKey,
    dropBlanks_append hbefore, dropBlanks_cons (c := '"') rfl, htext, dropBlanks_append hafter,
    dropBlanks_cons (c := ':') rfl]
  simp

/-- An object that holds something is passed over as its members are. -/
theorem skipInside_object {key : List Char} (h : IsKey key) (cs : List Char) (stack : List Frame) :
    skipInside stack ('{' :: (key ++ cs)) = skipInside (.object :: stack) cs := by
  have hskip := h.skipKey cs
  obtain ⟨inner, hinner⟩ : ∃ inner, dropBlanks (key ++ cs) = '"' :: inner := by
    obtain ⟨hbefore, -, -⟩ := h
    simp only [List.append_assoc, List.cons_append, dropBlanks_append hbefore,
      dropBlanks_cons (c := '"') rfl]
    exact ⟨_, rfl⟩
  have hsame : dropBlanks ('"' :: inner) = dropBlanks (key ++ cs) :=
    (dropBlanks_cons rfl inner).trans hinner.symm
  rw [skipInside_of_dropBlanks (dropBlanks_cons rfl _), hinner]
  simp only [Char.reduceEq, if_false, if_true, skipKey_congr hsame, hskip]

private theorem skipAfter_comma_list {blanks : List Char} (h : AreBlanks blanks) (cs : List Char)
    (stack : List Frame) :
    skipAfter (.list :: stack) (blanks ++ ',' :: cs) = skipInside (.list :: stack) cs := by
  rw [skipAfter_of_dropBlanks ((dropBlanks_append h _).trans (dropBlanks_cons rfl cs))]
  rfl

private theorem skipAfter_comma_object {blanks key : List Char} (h : AreBlanks blanks)
    (hkey : IsKey key) (cs : List Char) (stack : List Frame) :
    skipAfter (.object :: stack) (blanks ++ ',' :: (key ++ cs)) =
      skipInside (.object :: stack) cs := by
  rw [skipAfter_of_dropBlanks ((dropBlanks_append h _).trans (dropBlanks_cons rfl _))]
  simp only [if_true, hkey.skipKey]

private theorem skipAfter_closer {blanks : List Char} (h : AreBlanks blanks) (frame : Frame)
    (rest : List Char) (stack : List Frame) :
    skipAfter (frame :: stack) (blanks ++ frame.closer :: rest) = skipAfter stack rest := by
  have hblank : isBlank frame.closer = false := by cases frame <;> rfl
  have hcomma : frame.closer ≠ ',' := by cases frame <;> decide
  rw [skipAfter_of_dropBlanks ((dropBlanks_append h _).trans (dropBlanks_cons hblank rest))]
  simp only [hcomma, if_false, if_true]

/-- A number is passed over like the other values without brackets. -/
theorem IsNumber.skipInside {cs rest : List Char} (h : IsNumber cs)
    (hrest : isNumberEnd rest = true) (stack : List Frame) :
    skipInside stack (cs ++ rest) = skipAfter stack rest := by
  have hskip := h.skipNumber hrest
  obtain ⟨c, tail, rfl, hc⟩ := h.opens
  have hne : ∀ d : Char, d ≠ '-' → isDigit d = false → c ≠ d := by
    rintro d hd hdigit rfl
    rcases hc with rfl | hc
    · exact hd rfl
    · exact ne_of_isDigit hc hdigit rfl
  have hblank : isBlank c = false := by
    rcases hc with rfl | hc
    · rfl
    · exact (isBlank_of_isDigit hc).1
  have hscalar : skipScalar c (tail ++ rest) = .ok rest := by
    rw [List.cons_append] at hskip
    simp only [skipScalar, hne 'n' (by decide) rfl, hne 't' (by decide) rfl,
      hne 'f' (by decide) rfl, hne '"' (by decide) rfl, if_false, hskip]
    simp [hc]
  exact skipInside_scalar hblank (hne '[' (by decide) rfl) (hne '{' (by decide) rfl) hscalar stack

/-- How a value starts. -/
theorem IsValue.opens {cs : List Char} (h : IsValue cs) :
    ∃ c tail, cs = c :: tail ∧ isBlank c = false ∧ c ≠ ']' := by
  cases h with
  | number h =>
    obtain ⟨c, tail, rfl, hc⟩ := h.opens
    refine ⟨c, tail, rfl, ?_⟩
    rcases hc with rfl | hc
    · exact ⟨rfl, by decide⟩
    · exact ⟨(isBlank_of_isDigit hc).1, ne_of_isDigit hc rfl⟩
  | _ => exact ⟨_, _, rfl, rfl, by decide⟩

private theorem AreItems.opens {cs : List Char} (h : AreItems cs) (rest : List Char) :
    ∃ d inner, dropBlanks (cs ++ rest) = d :: inner ∧ d ≠ ']' := by
  cases h with
  | one hbefore h hafter | cons hbefore h hafter more =>
    obtain ⟨c, tail, rfl, hblank, hend⟩ := h.opens
    simp only [List.append_assoc, List.cons_append, dropBlanks_append hbefore,
      dropBlanks_cons hblank]
    exact ⟨c, _, rfl, hend⟩

mutual

/-- A value is passed over as a whole, whatever frames are open around it. -/
theorem IsValue.skipInside : {cs : List Char} → IsValue cs → (rest : List Char) →
    isNumberEnd rest = true → (stack : List Frame) →
    skipInside stack (cs ++ rest) = skipAfter stack rest
  | _, .null, rest, _, stack => skipInside_scalar rfl (by decide) (by decide) rfl stack
  | _, .yes, rest, _, stack => skipInside_scalar rfl (by decide) (by decide) rfl stack
  | _, .no, rest, _, stack => skipInside_scalar rfl (by decide) (by decide) rfl stack
  | _, .number h, _, hrest, stack => h.skipInside hrest stack
  | _, .text h, rest, _, stack => by
    have hskip : skipScalar '"' (_ ++ '"' :: rest) = .ok rest := h.skipText rest
    rw [List.append_assoc]
    exact skipInside_scalar rfl (by decide) (by decide) hskip stack
  | _, .emptyArray h, rest, _, stack => by
    rw [List.append_assoc]
    exact skipInside_emptyArray h rest stack
  | _, .array h, rest, _, stack => by
    obtain ⟨d, inner, hopens, hend⟩ := h.opens (']' :: rest)
    rw [List.append_assoc]
    exact (skipInside_array hopens hend stack).trans (h.skipItems rest stack)
  | _, .emptyObject h, rest, _, stack => by
    rw [List.append_assoc]
    exact skipInside_emptyObject h rest stack
  | _, .object h, rest, _, stack => by
    obtain ⟨key, tail, rfl, hkey, hskip⟩ := h.skipMembers
    rw [List.append_assoc, List.cons_append, List.append_assoc]
    exact (skipInside_object hkey _ stack).trans (hskip rest stack)

/-- The items of an array are passed over up to its closing bracket. -/
theorem AreItems.skipItems : {cs : List Char} → AreItems cs → (rest : List Char) →
    (stack : List Frame) →
    Json.skipInside (.list :: stack) (cs ++ ']' :: rest) = skipAfter stack rest
  | _, .one hbefore h hafter, rest, stack => by
    rw [List.append_assoc, List.append_assoc, skipInside_append hbefore,
      h.skipInside _ (isNumberEnd_append hafter rfl)]
    exact skipAfter_closer hafter .list rest stack
  | _, .cons hbefore h hafter more, rest, stack => by
    rw [List.append_assoc, List.append_assoc, List.append_assoc, skipInside_append hbefore,
      h.skipInside _ (isNumberEnd_append hafter rfl), List.cons_append, skipAfter_comma_list hafter]
    exact more.skipItems rest stack

/-- Members start with a key, and what follows it is passed over up to the closing brace. -/
theorem AreMembers.skipMembers : {cs : List Char} → AreMembers cs →
    ∃ key tail, cs = key ++ tail ∧ IsKey key ∧ ∀ rest stack,
      Json.skipInside (.object :: stack) (tail ++ '}' :: rest) = skipAfter stack rest
  | _, .one hkey hbefore h hafter => by
    simp only [List.append_assoc]
    refine ⟨_, _, rfl, hkey, fun rest stack => ?_⟩
    rw [List.append_assoc, List.append_assoc, skipInside_append hbefore,
      h.skipInside _ (isNumberEnd_append hafter rfl)]
    exact skipAfter_closer hafter .object rest stack
  | _, .cons hkey hbefore h hafter more => by
    obtain ⟨next, tail, rfl, hnext, hskip⟩ := more.skipMembers
    simp only [List.append_assoc]
    refine ⟨_, _, rfl, hkey, fun rest stack => ?_⟩
    rw [List.append_assoc, List.append_assoc, List.append_assoc, skipInside_append hbefore,
      h.skipInside _ (isNumberEnd_append hafter rfl), List.cons_append, List.append_assoc,
      skipAfter_comma_object hafter hnext]
    exact hskip rest stack

end

/-- A value is passed over, with the blanks before it. -/
theorem IsValue.skipValue {blanks cs rest : List Char} (hblanks : AreBlanks blanks)
    (h : IsValue cs) (hrest : isNumberEnd rest = true) :
    skipValue (blanks ++ cs ++ rest) = .ok rest := by
  rw [List.append_assoc, Json.skipValue, skipInside_append hblanks, h.skipInside rest hrest,
    skipAfter]

end DirectedPresence.Json
