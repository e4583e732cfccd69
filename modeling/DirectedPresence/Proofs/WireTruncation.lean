import DirectedPresence.Proofs.WireRoundTrip
import DirectedPresence.Settings

/-!
Binary forms delimit themselves. A value is read back from its bytes whatever follows them, and
nothing short of all its bytes is enough: reading comes to the end of what it is given, and meets no
other problem on the way (`Wire.Exhausts`). Like the reading back, this is proved of shapes, and
holds of every readable one; each part of a value passes it on to the next, since a front of two
parts is a front of the first one, or is all of it with a front of the second.

Lengths are read as words. A text or a sequence that no word can count has a length that already is
too great to be read, so what is said of fronts is said of values whose lengths are words
(`Wire.isCounted`), as those of all values in a machine are.
-/

namespace DirectedPresence

mutual

/-- Whether words count the bytes of all texts and the items of all sequences in a value. -/
def Shape.isCounted : (shape : Shape) → shape.Value → Bool
  | .text, (text : String) => decide (text.toByteArray.size < 1 <<< Wire.wordBits)
  | .flag, _ | .word, _ => true
  | .optional _, none => true
  | .optional inner, some value => inner.isCounted value
  | .sequence item, (values : List item.Value) =>
    decide (values.length < 1 <<< Wire.wordBits) && values.all item.isCounted
  | .record fields, values => fields.isCounted values
  | .choice cases, value => cases.isCounted value

def Fields.isCounted : (fields : Fields) → fields.Value → Bool
  | .done, () => true
  | .field _ shape rest, (value, values) => shape.isCounted value && rest.isCounted values

def Cases.isCounted : (cases : Cases) → cases.Value → Bool
  | .done, value => nomatch value
  | .bare _ _, .inl () => true
  | .carrying _ payload _, .inl value => payload.isCounted value
  | .bare _ rest, .inr value | .carrying _ _ rest, .inr value => rest.isCounted value

end

namespace Wire

/-- A reader that is given a front of `bytes`, short of all of them, comes to the end of it. -/
def Exhausts {α : Type} (read : List UInt8 → Except WireError (α × List UInt8))
    (bytes : List UInt8) : Prop :=
  ∀ front, front <+: bytes → front ≠ bytes → read front = .error .unexpectedEnd

/-- A front of two parts is a front of the first one, or all of it with a front of the second. -/
theorem prefix_append_cases {front first second : List UInt8} (h : front <+: first ++ second)
    (hne : front ≠ first ++ second) :
    (front <+: first ∧ front ≠ first) ∨
      ∃ more, front = first ++ more ∧ more <+: second ∧ more ≠ second := by
  obtain ⟨back, hback⟩ := h
  rcases List.append_eq_append_iff.mp hback with ⟨left, rfl, rfl⟩ | ⟨more, rfl, rfl⟩
  · cases left with
    | nil => exact Or.inr ⟨[], by simp, List.nil_prefix, by simpa using hne⟩
    | cons byte left => exact Or.inl ⟨List.prefix_append _ _, by simp⟩
  · exact Or.inr ⟨more, rfl, List.prefix_append _ _, by simpa using hne⟩

section Readers

variable {α : Type} {read : List UInt8 → Except WireError (α × List UInt8)}

private theorem exhausts_nil : Exhausts read [] := by
  intro front hfront hne
  exact absurd (List.prefix_nil.mp hfront) hne

/-- A byte is exhausted only by nothing at all. -/
theorem exhausts_singleton {byte : UInt8} (h : read [] = .error .unexpectedEnd) :
    Exhausts read [byte] := by
  intro front hfront hne
  rcases List.prefix_cons_iff.mp hfront with rfl | ⟨more, rfl, hmore⟩
  · exact h
  · rw [List.prefix_nil.mp hmore] at hne
    exact absurd rfl hne

/-- Values one after another are exhausted if each of them is. -/
theorem exhausts_decodeMany {write : α → List UInt8}
    (hread : ∀ a rest, read (write a ++ rest) = .ok (a, rest)) :
    (as : List α) → (∀ a ∈ as, Exhausts read (write a)) →
    Exhausts (decodeMany read as.length) (as.flatMap write)
  | [], _ => exhausts_nil
  | a :: as, h => by
    intro front hfront hne
    rw [List.flatMap_cons] at hfront hne
    rw [List.length_cons, decodeMany]
    rcases prefix_append_cases hfront hne with ⟨hfirst, hshort⟩ | ⟨more, rfl, hmore, hshort⟩
    · rw [h a (by simp) front hfirst hshort]
    · have hrest := exhausts_decodeMany hread as (fun other hmem => h other (by simp [hmem]))
      simp only [hread, hrest more hmore hshort]

end Readers

end Wire

private theorem Varint.exhausts {bits n : Nat} (h : n < 1 <<< bits) :
    Wire.Exhausts (decode bits) (encode n) := by
  induction n using Nat.strongRecOn generalizing bits with
  | _ n ih =>
    by_cases small : n < 128
    · rw [encode_of_lt small]
      exact Wire.exhausts_singleton rfl
    · have large : 128 ≤ n := by omega
      intro front hfront hne
      rw [encode_of_le large] at hfront hne
      rcases List.prefix_cons_iff.mp hfront with rfl | ⟨more, rfl, hmore⟩
      · rfl
      · have hshort : more ≠ encode (n / 128) := fun heq => hne (heq ▸ rfl)
        have hfewer := (div_lt_of_lt large h).2
        rw [decode_group large h, ih (n / 128) (by omega) hfewer more hmore hshort]
        rfl

namespace Wire

private theorem lt_lengthBits {size : Nat} (h : size < 1 <<< wordBits) (bytes : List UInt8) :
    size < 1 <<< lengthBits bytes := by
  have hbits : 2 ^ wordBits ≤ 2 ^ lengthBits bytes :=
    Nat.pow_le_pow_right (by omega) (Nat.le_max_left _ _)
  omega

/-- A length is exhausted, and read in whatever it stands at the front of. -/
theorem exhausts_length {size : Nat} (h : size < 1 <<< wordBits) :
    Exhausts (fun bytes => Varint.decode (lengthBits bytes) bytes) (Varint.encode size) :=
  fun front hfront hne => Varint.exhausts (lt_lengthBits h front) front hfront hne

private theorem decode_length_of_lt {size : Nat} (h : size < 1 <<< wordBits) (rest : List UInt8) :
    Varint.decode (lengthBits (Varint.encode size ++ rest)) (Varint.encode size ++ rest) =
      .ok (size, rest) :=
  Varint.decode_encode_append (lt_lengthBits h _) rest

private theorem exhausts_decodeText {text : String} (h : text.toByteArray.size < 1 <<< wordBits) :
    Exhausts decodeText (encodeText text) := by
  intro front hfront hne
  rcases prefix_append_cases hfront hne with ⟨hlength, hshort⟩ | ⟨more, rfl, hmore, hshort⟩
  · have hend := exhausts_length h front hlength hshort
    simp only at hend
    rw [decodeText, hend]
  · have hsize : text.toByteArray.data.toList.length = text.toByteArray.size := by simp
    have hfewer : more.length < text.toByteArray.size := by
      have hle := hmore.length_le
      have hless : more.length ≠ text.toByteArray.data.toList.length := fun heq =>
        hshort (hmore.eq_of_length heq)
      omega
    rw [decodeText, decode_length_of_lt h]
    simp only [hfewer, if_true]

end Wire

mutual

/-- The bytes of a value of a readable shape are exhausted, if words count what is in it. -/
theorem Shape.exhausts : (shape : Shape) → shape.isReadable = true → (value : shape.Value) →
    shape.isCounted value = true → Wire.Exhausts shape.decode (shape.encode value)
  | .text, _, (text : String), h => by
    simp only [Shape.isCounted, decide_eq_true_eq] at h
    exact Wire.exhausts_decodeText h
  | .flag, _, (flag : Bool), _ => Wire.exhausts_singleton rfl
  | .word, _, (word : UInt64), _ => by
    have hword : word.toNat < 1 <<< Wire.wordBits := word.toNat_lt
    intro front hfront hne
    rw [Shape.decode, Varint.exhausts hword front hfront hne]
  | .optional _, _, none, _ => Wire.exhausts_singleton rfl
  | .optional inner, hreadable, some value, h => by
    intro front hfront hne
    rcases List.prefix_cons_iff.mp hfront with rfl | ⟨more, rfl, hmore⟩
    · rfl
    · have hshort : more ≠ inner.encode value := fun heq => hne (heq ▸ rfl)
      have hend := inner.exhausts hreadable value h more hmore hshort
      simp [Shape.decode, Wire.decodeBit, hend]
  | .sequence item, hreadable, (values : List item.Value), h => by
    simp only [Shape.isReadable, Bool.and_eq_true] at hreadable
    simp only [Shape.isCounted, Bool.and_eq_true, decide_eq_true_eq, List.all_eq_true] at h
    have hitems := Wire.exhausts_decodeMany
      (fun value rest => item.decode_encode_append hreadable.2 value rest) values
      fun value hmem => item.exhausts hreadable.2 value (h.2 value hmem)
    intro front hfront hne
    rcases Wire.prefix_append_cases hfront hne with ⟨hlength, hshort⟩ | ⟨more, rfl, hmore, hshort⟩
    · have hend := Wire.exhausts_length h.1 front hlength hshort
      simp only at hend
      rw [Shape.decode, hend]
    · rw [Shape.decode, Wire.decode_length_of_lt h.1]
      exact hitems more hmore hshort
  | .record fields, hreadable, value, h => fields.exhausts hreadable value h
  | .choice cases, hreadable, value, h => by
    simp only [Shape.isReadable, Bool.and_eq_true, decide_eq_true_eq] at hreadable
    have hposition := Nat.lt_of_lt_of_le (cases.index_lt_size value) hreadable.1
    intro front hfront hne
    rw [Shape.encode, cases.encode_eq, Nat.zero_add] at hfront hne
    rcases Wire.prefix_append_cases hfront hne with ⟨hindex, hshort⟩ | ⟨more, rfl, hmore, hshort⟩
    · rw [Shape.decode, Varint.exhausts hposition front hindex hshort]
    · rw [Shape.decode, Varint.decode_encode_append hposition]
      exact cases.exhausts hreadable.2 value h more hmore hshort

/-- So are the bytes of the fields of a record. -/
theorem Fields.exhausts : (fields : Fields) → fields.isReadable = true →
    (value : fields.Value) → fields.isCounted value = true →
    Wire.Exhausts fields.decode (fields.encode value)
  | .done, _, (), _ => Wire.exhausts_nil
  | .field _ shape rest, hreadable, (value, values), h => by
    simp only [Fields.isReadable, Bool.and_eq_true] at hreadable
    simp only [Fields.isCounted, Bool.and_eq_true] at h
    intro front hfront hne
    rcases Wire.prefix_append_cases hfront hne with ⟨hfirst, hshort⟩ | ⟨more, rfl, hmore, hshort⟩
    · rw [Fields.decode, shape.exhausts hreadable.1 value h.1 front hfirst hshort]
    · have hend := rest.exhausts hreadable.2 values h.2 more hmore hshort
      simp only [Fields.decode, shape.decode_encode_append hreadable.1, hend]

/-- So are those of the payload of a case. -/
theorem Cases.exhausts : (cases : Cases) → cases.isReadable = true → (value : cases.Value) →
    cases.isCounted value = true →
    Wire.Exhausts (cases.decode (cases.index value)) (cases.payload value)
  | .done, _, value, _ => nomatch value
  | .bare _ _, _, .inl (), _ => Wire.exhausts_nil
  | .bare _ more, hreadable, .inr value, h => by
    intro front hfront hne
    have hend := more.exhausts hreadable value h front hfront hne
    simp only [Cases.index, Cases.decode, hend]
  | .carrying _ payload _, hreadable, .inl value, h => by
    simp only [Cases.isReadable, Bool.and_eq_true] at hreadable
    intro front hfront hne
    have hend := payload.exhausts hreadable.1 value h front hfront hne
    simp only [Cases.index, Cases.decode, hend]
  | .carrying _ _ more, hreadable, .inr value, h => by
    simp only [Cases.isReadable, Bool.and_eq_true] at hreadable
    intro front hfront hne
    have hend := more.exhausts hreadable.2 value h front hfront hne
    simp only [Cases.index, Cases.decode, hend]

end

namespace Wire

/-- Whether words count the bytes of all texts and the items of all sequences in `a`. -/
def isCounted {α : Type} [Form α] (a : α) : Bool :=
  (Form.shape α).isCounted (Form.toValue a)

/-- The values of a type are read back from their bytes, whatever follows these, and nothing short
of all the bytes is enough. -/
structure SelfDelimiting (α : Type) [Form α] : Prop where
  decode_append : ∀ (a : α) (rest : List UInt8), decode α (encode a ++ rest) = .ok (a, rest)
  decode_front : ∀ a : α, isCounted a = true → ∀ front, front <+: encode a → front ≠ encode a →
    decode α front = .error .unexpectedEnd

private theorem selfDelimiting_of_isReadable {α : Type} [Form α] [LawfulForm α]
    (h : (Form.shape α).isReadable = true) : SelfDelimiting α where
  decode_append := decode_encode_append h
  decode_front a hcounted front hfront hne := by
    rw [decode, (Form.shape α).exhausts h _ hcounted front hfront hne]

/-- The binary form of every type of the domain delimits itself. -/
theorem selfDelimiting_domain :
    SelfDelimiting Address ∧ SelfDelimiting NodeId ∧ SelfDelimiting PresenceKind ∧
      SelfDelimiting ErrorCondition ∧ SelfDelimiting SubscriptionState ∧ SelfDelimiting Presence ∧
      SelfDelimiting Message ∧ SelfDelimiting Stanza ∧ SelfDelimiting PendingRequest ∧
      SelfDelimiting RosterItem ∧ SelfDelimiting HandlerEntry ∧ SelfDelimiting Registry ∧
      SelfDelimiting Settings := by
  refine ⟨?_, ?_, ?_, ?_, ?_, ?_, ?_, ?_, ?_, ?_, ?_, ?_, ?_⟩ <;>
    exact selfDelimiting_of_isReadable (by decide)

end Wire

namespace WireSample

open Wire

def registry : Registry :=
  ⟨[⟨.ofDomain "chat.example.org", ⟨"one"⟩,
    {.ofParts (some "romeo") "example.org" none,
      .ofParts (some "nurse") "example.org" (some "hall")}⟩]⟩

/-- A registry that is cut off inside the set of its receivers. -/
theorem registry_cut_short :
    let front := (encode registry).take 40
    (isCounted registry = true ∧ front <+: encode registry ∧ front ≠ encode registry) ∧
      decode Registry front = .error .unexpectedEnd := by
  intro front
  have hcounted : isCounted registry = true := by decide +kernel
  have hfront : front <+: encode registry := List.take_prefix 40 _
  have hshort : front ≠ encode registry := by decide +kernel
  obtain ⟨-, -, -, -, -, -, -, -, -, -, -, hregistry, -⟩ := selfDelimiting_domain
  exact ⟨⟨hcounted, hfront, hshort⟩, hregistry.decode_front registry hcounted front hfront hshort⟩

end WireSample

end DirectedPresence
