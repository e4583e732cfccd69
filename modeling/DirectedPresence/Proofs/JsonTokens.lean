import DirectedPresence.Json

/-!
Written texts and words are read back, whatever follows them; only a word must not be followed by
something that a number can go on with. A text is read back character by character, since the
reading of an escaped character does not depend on what comes next (`Json.readText_escape`). The
digits of a word are read to their end, and the number that they spell is far within the range of
doubles.
-/

namespace DirectedPresence.Json

theorem dropBlanks_cons {c : Char} (h : isBlank c = false) (cs : List Char) :
    dropBlanks (c :: cs) = c :: cs := by
  simp [dropBlanks, h]

/-- A mark is read where it stands. -/
theorem readMark_cons {c : Char} (h : isBlank c = false) (cs : List Char) :
    readMark c (c :: cs) = .ok cs := by
  simp [readMark, dropBlanks_cons h]

/-! ## Texts -/

private theorem hexDigit?_digitChar :
    ∀ digit < 16, hexDigit? (Nat.digitChar digit) = some digit := by
  decide

private theorem readUnit_of_digits {high low : Nat} (hhigh : high < 16) (hlow : low < 16)
    (cs : List Char) : readUnit ('0' :: '0' :: Nat.digitChar high :: Nat.digitChar low :: cs) =
      .ok (high * 16 + low, cs) := by
  have hzero : hexDigit? '0' = some 0 := hexDigit?_digitChar 0 (by omega)
  simp [readUnit, hzero, hexDigit?_digitChar high hhigh, hexDigit?_digitChar low hlow]

/-- A control character is read back from its code. -/
theorem readEscape_control {c : Char} (h : c.toNat < 0x20) (cs : List Char) :
    readEscape ('u' :: '0' :: '0' :: Nat.digitChar (c.toNat / 16) ::
      Nat.digitChar (c.toNat % 16) :: cs) = .ok (c, cs) := by
  have hunit : c.toNat / 16 * 16 + c.toNat % 16 = c.toNat := Nat.div_add_mod' _ _
  have hlow : isLowUnit c.toNat = false := by
    simp only [isLowUnit, Bool.and_eq_false_iff, decide_eq_false_iff_not]
    omega
  have hhigh : isHighUnit c.toNat = false := by
    simp only [isHighUnit, Bool.and_eq_false_iff, decide_eq_false_iff_not]
    omega
  simp only [readEscape, if_true]
  rw [readUnit_of_digits (by omega) (by omega), hunit]
  simp only [hlow, hhigh, Bool.false_eq_true, if_false, Char.ofNat_toNat]

/-- A character is spelled as it is, or by an escape from which it is read back. -/
theorem escape_cases (c : Char) :
    (escape c = [c] ∧ c ≠ '"' ∧ c ≠ '\\' ∧ ¬ c.toNat < 0x20) ∨
      ∃ spelling, escape c = '\\' :: spelling ∧
        ∀ cs, readEscape (spelling ++ cs) = .ok (c, cs) := by
  unfold escape
  split
  · next heq => exact Or.inr ⟨['"'], rfl, fun _ => by rw [heq]; rfl⟩
  split
  · next heq => exact Or.inr ⟨['\\'], rfl, fun _ => by rw [heq]; rfl⟩
  split
  · next heq => exact Or.inr ⟨['b'], rfl, fun _ => by rw [heq]; rfl⟩
  split
  · next heq => exact Or.inr ⟨['f'], rfl, fun _ => by rw [heq]; rfl⟩
  split
  · next heq => exact Or.inr ⟨['n'], rfl, fun _ => by rw [heq]; rfl⟩
  split
  · next heq => exact Or.inr ⟨['r'], rfl, fun _ => by rw [heq]; rfl⟩
  split
  · next heq => exact Or.inr ⟨['t'], rfl, fun _ => by rw [heq]; rfl⟩
  split
  · next hcontrol => exact Or.inr ⟨_, rfl, readEscape_control hcontrol⟩
  · next hquote hslash _ _ _ _ _ hplain => exact Or.inl ⟨rfl, hquote, hslash, hplain⟩

/-- A character that needs no escape stands for itself. -/
theorem readText_plain {c : Char} (hquote : c ≠ '"') (hslash : c ≠ '\\')
    (hplain : ¬ c.toNat < 0x20) (cs : List Char) :
    readText (c :: cs) = (readText cs).map fun (text, rest) => (c :: text, rest) := by
  rw [readText]
  simp only [hquote, hslash, hplain, if_false]
  cases readText cs <;> rfl

/-- An escape stands for the character that is read from it. -/
theorem readText_of_readEscape {c : Char} {cs rest : List Char}
    (h : readEscape cs = .ok (c, rest)) :
    readText ('\\' :: cs) = (readText rest).map fun (text, rest) => (c :: text, rest) := by
  rw [readText]
  simp only [Char.reduceEq, if_false, if_true]
  split
  · next hfailed =>
    rw [h] at hfailed
    cases hfailed
  · next hsame =>
    rw [h] at hsame
    cases hsame
    cases readText rest <;> rfl

/-- The first character of a text is read back from its spelling, whatever comes next. -/
theorem readText_escape (c : Char) (cs : List Char) :
    readText (escape c ++ cs) = (readText cs).map fun (text, rest) => (c :: text, rest) := by
  rcases escape_cases c with ⟨hself, hquote, hslash, hplain⟩ | ⟨spelling, hescape, hread⟩
  · rw [hself, List.singleton_append, readText_plain hquote hslash hplain]
  · rw [hescape, List.cons_append, readText_of_readEscape (hread cs)]

theorem readText_flatMap (text rest : List Char) :
    readText (text.flatMap escape ++ '"' :: rest) = .ok (text, rest) := by
  induction text with
  | nil =>
    rw [List.flatMap_nil, List.nil_append, readText]
    simp
  | cons c text ih =>
    rw [List.flatMap_cons, List.append_assoc, readText_escape, ih]
    rfl

/-- The written form of a text, with what follows it. -/
theorem writeText_append (text : String) (rest : List Char) :
    writeText text ++ rest = '"' :: (text.toList.flatMap escape ++ '"' :: rest) := by
  simp [writeText]

theorem readTextValue_writeText (text : String) (rest : List Char) :
    readTextValue (writeText text ++ rest) = .ok (text, rest) := by
  rw [writeText_append, readTextValue, dropBlanks_cons rfl]
  simp only [if_true, readText_flatMap, String.ofList_toList]

/-! ## Words -/

/-- Nothing by which a number goes on stands at the front of a document. -/
def isNumberEnd : List Char → Bool
  | [] => true
  | c :: _ => !(isDigit c || c = '.' || c = 'e' || c = 'E')

private theorem isDigit_eq (c : Char) : isDigit c = c.isDigit := rfl

theorem isDigit_of_mem_toDigits {n : Nat} {c : Char} (h : c ∈ Nat.toDigits 10 n) :
    isDigit c = true :=
  (isDigit_eq c).trans (Nat.isDigit_of_mem_toDigits (by omega) (by omega) h)

/-- Only zero is spelled with a zero at its front. -/
theorem head?_toDigits {n : Nat} (h : (Nat.toDigits 10 n).head? = some '0') : n = 0 := by
  induction n using Nat.strongRecOn with
  | _ n ih =>
    rw [Nat.toDigits_eq_if (by omega)] at h
    split at h
    · next hsmall =>
      have hzero : ∀ digit < 10, Nat.digitChar digit = '0' → digit = 0 := by decide
      exact hzero n hsmall (Option.some.inj h)
    · next hlarge =>
      have hsome : Nat.toDigits 10 (n / 10) ≠ [] := Nat.toDigits_ne_nil
      obtain ⟨c, digits, hdigits⟩ := List.exists_cons_of_ne_nil hsome
      rw [hdigits, List.cons_append, List.head?_cons] at h
      have := ih (n / 10) (by omega) (by rw [hdigits]; exact h)
      omega

private theorem readFraction_of_isNumberEnd {rest : List Char} (h : isNumberEnd rest = true) :
    readFraction rest = .ok (none, rest) := by
  unfold isNumberEnd at h
  unfold readFraction
  grind

theorem readExponent_of_isNumberEnd {rest : List Char} (h : isNumberEnd rest = true) :
    readExponent rest = .ok (none, rest) := by
  unfold isNumberEnd at h
  unfold readExponent
  grind

def startsNoDigit (cs : List Char) : Bool :=
  !cs.head?.any isDigit

theorem startsNoDigit_of_isNumberEnd {cs : List Char} (h : isNumberEnd cs = true) :
    startsNoDigit cs = true := by
  cases cs with
  | nil => rfl
  | cons c cs =>
    simp only [isNumberEnd, Bool.not_eq_true', Bool.or_eq_false_iff] at h
    simpa [startsNoDigit] using h.1.1.1

theorem takeDigits_append {digits rest : List Char} (hdigits : ∀ c ∈ digits, isDigit c = true)
    (hrest : startsNoDigit rest = true) : takeDigits (digits ++ rest) = (digits, rest) := by
  have hnone : rest.takeWhile isDigit = [] ∧ rest.dropWhile isDigit = rest := by
    cases rest with
    | nil => exact ⟨rfl, rfl⟩
    | cons c rest =>
      have hc : isDigit c = false := by simpa [startsNoDigit] using hrest
      simp [hc]
  rw [takeDigits, List.takeWhile_append_of_pos hdigits, List.dropWhile_append_of_pos hdigits,
    hnone.1, hnone.2, List.append_nil]

def AreDigits (cs : List Char) : Prop :=
  cs ≠ [] ∧ ∀ c ∈ cs, isDigit c = true

instance (cs : List Char) : Decidable (AreDigits cs) :=
  @instDecidableAnd _ _ _ (List.decidableBAll (isDigit · = true) cs)

/-- Decimal digits without a zero in front of others. -/
def IsIntegral (cs : List Char) : Prop :=
  AreDigits cs ∧ (cs.head? = some '0' → cs = ['0'])

instance (cs : List Char) : Decidable (IsIntegral cs) :=
  inferInstanceAs (Decidable (AreDigits cs ∧ (cs.head? = some '0' → cs = ['0'])))

/-- An integral part is read to its end. -/
theorem IsIntegral.readIntegral {cs rest : List Char} (h : IsIntegral cs)
    (hrest : startsNoDigit rest = true) : readIntegral (cs ++ rest) = .ok (cs, rest) := by
  obtain ⟨⟨hsome, hdigits⟩, hzero⟩ := h
  obtain ⟨c, digits, rfl⟩ := List.exists_cons_of_ne_nil hsome
  by_cases hfirst : c = '0'
  · subst hfirst
    rw [hzero rfl]
    cases rest with
    | nil => rfl
    | cons d rest =>
      have hd : isDigit d = false := by simpa [startsNoDigit] using hrest
      simp [Json.readIntegral, hd]
  · have htake := takeDigits_append hdigits hrest
    rw [List.cons_append] at htake
    simp only [List.cons_append, readIntegral.eq_def, hfirst, hdigits c List.mem_cons_self,
      if_false, if_true, htake]

private theorem isIntegral_toDigits (n : Nat) : IsIntegral (Nat.toDigits 10 n) := by
  refine ⟨⟨Nat.toDigits_ne_nil, fun _ => isDigit_of_mem_toDigits⟩, fun hzero => ?_⟩
  rw [head?_toDigits hzero]
  rfl

/-- The digits of a number are read to their end. -/
theorem readIntegral_toDigits (n : Nat) {rest : List Char} (h : isNumberEnd rest = true) :
    readIntegral (Nat.toDigits 10 n ++ rest) = .ok (Nat.toDigits 10 n, rest) :=
  (isIntegral_toDigits n).readIntegral (startsNoDigit_of_isNumberEnd h)

private theorem le_ofDigitChars (digits : List Char) (number : Nat) :
    number ≤ Nat.ofDigitChars 10 digits number := by
  induction digits generalizing number with
  | nil => exact Nat.le_refl _
  | cons d digits ih =>
    have hstep := ih (10 * number + (d.toNat - '0'.toNat))
    have hcons : Nat.ofDigitChars 10 (d :: digits) number =
        Nat.ofDigitChars 10 digits (10 * number + (d.toNat - '0'.toNat)) := rfl
    omega

/-- No digit of a word is left over. -/
theorem collect_eq {digits : List Char} {number : Nat}
    (h : Nat.ofDigitChars 10 digits number ≤ maxWord) :
    collect number digits = (Nat.ofDigitChars 10 digits number, 0) := by
  induction digits generalizing number with
  | nil => rfl
  | cons d digits ih =>
    have hcons : Nat.ofDigitChars 10 (d :: digits) number =
        Nat.ofDigitChars 10 digits (number * 10 + digitValue d) := by
      rw [Nat.mul_comm]
      rfl
    have hle := le_ofDigitChars digits (number * 10 + digitValue d)
    rw [hcons] at h ⊢
    rw [collect, if_pos (by omega), ih h]

private theorem roundToDouble_le (n : Nat) : roundToDouble n ≤ 2 * n := by
  unfold roundToDouble
  split
  · omega
  · next hlarge =>
    have hpositive : n ≠ 0 := by
      rintro rfl
      exact hlarge (by decide)
    have hunit : 1 <<< (n.log2 - 52) ≤ n := by
      rw [Nat.one_shiftLeft]
      exact Nat.le_trans (Nat.pow_le_pow_right (by omega) (by omega))
        (Nat.log2_self_le hpositive)
    have hlow := Nat.div_mul_le_self n (1 <<< (n.log2 - 52))
    simp only
    split
    · rw [Nat.succ_mul]
      omega
    · omega

/-- A word is within the range of doubles. -/
theorem isOutOfRange_word {n : Nat} (h : n ≤ maxWord) : isOutOfRange n 0 = false := by
  have hone : roundToDouble (Nat.pow 10 (Int.toNat 0)) = 1 := by decide
  have hround := roundToDouble_le n
  have hrange : 2 * maxWord < 1 <<< 1024 - 1 <<< 970 := by decide
  have hwithin : ¬ roundToDouble n ≥ 1 <<< 1024 - 1 <<< 970 := by omega
  simp only [isOutOfRange, hone, Nat.mul_one, hwithin, decide_false, Bool.or_false]
  simp

private theorem readUnsigned_toDigits {n : Nat} (hword : n ≤ maxWord) {rest : List Char}
    (h : isNumberEnd rest = true) :
    readUnsigned false (Nat.toDigits 10 n ++ rest) = .ok (some n, rest) := by
  have hvalue : Nat.ofDigitChars 10 (Nat.toDigits 10 n) 0 = n :=
    Nat.ofDigitChars_toDigits (by omega) (by omega)
  have hcollect : collect 0 (Nat.toDigits 10 n) = (n, 0) := by
    rw [collect_eq (by rw [hvalue]; exact hword), hvalue]
  simp [readUnsigned, readIntegral_toDigits n h, readFraction_of_isNumberEnd h,
    readExponent_of_isNumberEnd h, hcollect, collect, isOutOfRange_word hword]

/-- A digit starts no other token than a number, and is not blank. -/
theorem isBlank_of_isDigit {c : Char} (h : isDigit c = true) : isBlank c = false ∧ c ≠ '-' := by
  simp only [isDigit, Bool.and_eq_true, decide_eq_true_eq] at h
  have hge : '0'.toNat ≤ c.toNat := h.1
  constructor
  · simp only [isBlank, Bool.or_eq_false_iff, decide_eq_false_iff_not]
    refine ⟨⟨⟨?_, ?_⟩, ?_⟩, ?_⟩ <;> rintro rfl <;> simp at hge
  · rintro rfl
    simp at hge

theorem readWord_toDigits (word : UInt64) {rest : List Char} (h : isNumberEnd rest = true) :
    readWord (Nat.toDigits 10 word.toNat ++ rest) = .ok (word, rest) := by
  have hword : word.toNat ≤ maxWord := Nat.le_sub_one_of_lt word.toNat_lt
  have hread := readUnsigned_toDigits hword h
  cases hdigits : Nat.toDigits 10 word.toNat with
  | nil => exact absurd hdigits Nat.toDigits_ne_nil
  | cons c digits =>
    have hdigit : isDigit c = true := isDigit_of_mem_toDigits (by rw [hdigits]; simp)
    obtain ⟨hblank, hminus⟩ := isBlank_of_isDigit hdigit
    rw [hdigits, List.cons_append] at hread
    rw [List.cons_append, readWord, dropBlanks_cons hblank]
    simp [hdigit, readNumber, hminus, hread]

end DirectedPresence.Json
