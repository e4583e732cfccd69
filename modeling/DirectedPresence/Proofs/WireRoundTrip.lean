import DirectedPresence.Form.Model
import DirectedPresence.Wire

/-!
A value is read back from its binary form, whatever bytes follow it. The theorem is about shapes: it
holds of every shape whose sequences have items that take at least one byte, as a length is then
never greater than the number of bytes after it, and whose choices have no more cases than a
position can name. `Shape.isReadable` computes whether that is so.
-/

namespace DirectedPresence

mutual

/-- Whether every value of the shape takes at least one byte. -/
def Shape.occupies : Shape → Bool
  | .record fields => fields.occupies
  | .text | .flag | .word | .optional _ | .sequence _ | .choice _ => true

def Fields.occupies : Fields → Bool
  | .done => false
  | .field _ shape rest => shape.occupies || rest.occupies

end

def Cases.size : Cases → Nat
  | .done => 0
  | .bare _ rest | .carrying _ _ rest => rest.size + 1

def Cases.index : (cases : Cases) → cases.Value → Nat
  | .done, value => nomatch value
  | .bare _ _, .inl () | .carrying _ _ _, .inl _ => 0
  | .bare _ rest, .inr value | .carrying _ _ rest, .inr value => rest.index value + 1

def Cases.payload : (cases : Cases) → cases.Value → List UInt8
  | .done, value => nomatch value
  | .bare _ _, .inl () => []
  | .carrying _ payload _, .inl value => payload.encode value
  | .bare _ rest, .inr value | .carrying _ _ rest, .inr value => rest.payload value

mutual

/-- Whether lengths and positions of the shape are always read back. -/
def Shape.isReadable : Shape → Bool
  | .text | .flag | .word => true
  | .optional inner => inner.isReadable
  | .sequence item => item.occupies && item.isReadable
  | .record fields => fields.isReadable
  | .choice cases => decide (cases.size ≤ 1 <<< Wire.caseBits) && cases.isReadable

def Fields.isReadable : Fields → Bool
  | .done => true
  | .field _ shape rest => shape.isReadable && rest.isReadable

def Cases.isReadable : Cases → Bool
  | .done => true
  | .bare _ rest => rest.isReadable
  | .carrying _ payload rest => payload.isReadable && rest.isReadable

end

private theorem Varint.encode_length_pos (n : Nat) : 0 < (Varint.encode n).length := by
  by_cases h : n < 128
  · simp [Varint.encode_of_lt h]
  · simp [Varint.encode_of_le (Nat.le_of_not_lt h)]

namespace Wire

/-- A length is read back when the bytes that it counts follow. -/
theorem decode_length {size : Nat} {rest : List UInt8} (h : size ≤ rest.length) :
    Varint.decode (lengthBits (Varint.encode size ++ rest)) (Varint.encode size ++ rest) =
      .ok (size, rest) := by
  apply Varint.decode_encode_append
  have hcount : size ≤ (Varint.encode size ++ rest).length := by
    rw [List.length_append]
    omega
  have hlog : (Varint.encode size ++ rest).length <
      2 ^ ((Varint.encode size ++ rest).length.log2 + 1) := Nat.lt_log2_self
  have hbits : 2 ^ ((Varint.encode size ++ rest).length.log2 + 1) ≤
      2 ^ lengthBits (Varint.encode size ++ rest) :=
    Nat.pow_le_pow_right (by omega) (Nat.le_max_right _ _)
  omega

private theorem fromUTF8?_toByteArray (text : String) :
    String.fromUTF8? ⟨text.toByteArray.data.toList.toArray⟩ = some text := by
  rw [Array.toArray_toList]
  exact dif_pos text.isValidUTF8

private theorem decodeText_encodeText (text : String) (rest : List UInt8) :
    decodeText (encodeText text ++ rest) = .ok (text, rest) := by
  have hsize : text.toByteArray.data.toList.length = text.toByteArray.size := by simp
  have hfits : text.toByteArray.size ≤ (text.toByteArray.data.toList ++ rest).length := by
    simp
  rw [encodeText, List.append_assoc, decodeText, decode_length hfits]
  simp only
  rw [if_neg (by omega), ← hsize, List.take_left, List.drop_left, fromUTF8?_toByteArray]

private theorem decodeMany_append {α : Type} {write : α → List UInt8}
    {item : List UInt8 → Except WireError (α × List UInt8)}
    (h : ∀ a rest, item (write a ++ rest) = .ok (a, rest)) (as : List α) (rest : List UInt8) :
    decodeMany item as.length (as.flatMap write ++ rest) = .ok (as, rest) := by
  induction as with
  | nil => rfl
  | cons a as ih => simp [decodeMany, List.append_assoc, h, ih]

private theorem length_le_flatMap {α : Type} {write : α → List UInt8}
    (h : ∀ a, 0 < (write a).length) (as : List α) : as.length ≤ (as.flatMap write).length := by
  induction as with
  | nil => simp
  | cons a as ih =>
    have hfirst := h a
    simp only [List.flatMap_cons, List.length_append, List.length_cons]
    omega

end Wire

theorem Cases.index_lt_size : (cases : Cases) → (value : cases.Value) →
    cases.index value < cases.size
  | .done, value => nomatch value
  | .bare _ _, .inl () | .carrying _ _ _, .inl _ => Nat.succ_pos _
  | .bare _ rest, .inr value | .carrying _ _ rest, .inr value =>
    Nat.succ_lt_succ (rest.index_lt_size value)

/-- A case is written as its position and its payload. -/
theorem Cases.encode_eq : (cases : Cases) → (first : Nat) → (value : cases.Value) →
    cases.encode first value =
      Varint.encode (first + cases.index value) ++ cases.payload value
  | .done, _, value => nomatch value
  | .bare _ _, _, .inl () => by simp [Cases.encode, Cases.index, Cases.payload]
  | .carrying _ _ _, _, .inl _ => by simp [Cases.encode, Cases.index, Cases.payload]
  | .bare _ rest, first, .inr value | .carrying _ _ rest, first, .inr value => by
    rw [Cases.encode, rest.encode_eq, Nat.add_assoc, Nat.add_comm 1]
    rfl

mutual

/-- A value of a shape that occupies takes at least one byte. -/
theorem Shape.encode_length_pos : (shape : Shape) → shape.occupies = true →
    (value : shape.Value) → 0 < (shape.encode value).length
  | .text, _, (text : String) => by
    have hpos := Varint.encode_length_pos text.toByteArray.size
    simp only [Shape.encode, Wire.encodeText, List.length_append]
    omega
  | .flag, _, (flag : Bool) => by simp [Shape.encode]
  | .word, _, (word : UInt64) => Varint.encode_length_pos word.toNat
  | .optional _, _, none => by simp [Shape.encode]
  | .optional _, _, some _ => by simp [Shape.encode]
  | .sequence item, _, (values : List item.Value) => by
    have hpos := Varint.encode_length_pos values.length
    simp only [Shape.encode, List.length_append]
    omega
  | .record fields, h, value => fields.encode_length_pos h value
  | .choice cases, _, value => by
    have hpos := Varint.encode_length_pos (0 + cases.index value)
    rw [Shape.encode, cases.encode_eq, List.length_append]
    omega

/-- So do the values of fields of which one occupies. -/
theorem Fields.encode_length_pos : (fields : Fields) → fields.occupies = true →
    (value : fields.Value) → 0 < (fields.encode value).length
  | .done, h, _ => by simp [Fields.occupies] at h
  | .field _ shape rest, h, (value, values) => by
    simp only [Fields.occupies, Bool.or_eq_true] at h
    simp only [Fields.encode, List.length_append]
    rcases h with hshape | hrest
    · have hpos := shape.encode_length_pos hshape value
      omega
    · have hpos := rest.encode_length_pos hrest values
      omega

end

mutual

/-- A value of a readable shape is read back from its bytes, whatever follows them. -/
theorem Shape.decode_encode_append : (shape : Shape) → shape.isReadable = true →
    (value : shape.Value) → (rest : List UInt8) →
    shape.decode (shape.encode value ++ rest) = .ok (value, rest)
  | .text, _, (text : String), rest => Wire.decodeText_encodeText text rest
  | .flag, _, (flag : Bool), rest => by
    cases flag <;> rfl
  | .word, _, (word : UInt64), rest => by
    have hread : Varint.decode Wire.wordBits (Varint.encode word.toNat ++ rest) =
        .ok (word.toNat, rest) := Varint.decode_encode_append word.toNat_lt rest
    simp [Shape.encode, Shape.decode, hread]
  | .optional _, _, none, rest => rfl
  | .optional inner, h, some value, rest => by
    have hread := inner.decode_encode_append h value rest
    simp [Shape.encode, Shape.decode, Wire.decodeBit, hread]
  | .sequence item, h, (values : List item.Value), rest => by
    simp only [Shape.isReadable, Bool.and_eq_true] at h
    have hcount : values.length ≤ (values.flatMap item.encode ++ rest).length := by
      have := Wire.length_le_flatMap (item.encode_length_pos h.1) values
      rw [List.length_append]
      omega
    have hitems := Wire.decodeMany_append (fun value rest =>
      item.decode_encode_append h.2 value rest) values rest
    simp only [Shape.encode, Shape.decode, List.append_assoc, Wire.decode_length hcount]
    exact hitems
  | .record fields, h, value, rest => fields.decode_encode_append h value rest
  | .choice cases, h, value, rest => by
    simp only [Shape.isReadable, Bool.and_eq_true, decide_eq_true_eq] at h
    have hindex := cases.index_lt_size value
    have hposition := Varint.decode_encode_append (Nat.lt_of_lt_of_le hindex h.1)
      (cases.payload value ++ rest)
    simp only [Shape.encode, Shape.decode, cases.encode_eq, Nat.zero_add, List.append_assoc,
      hposition]
    exact cases.decode_payload h.2 value rest

/-- Fields are read back one after another. -/
theorem Fields.decode_encode_append : (fields : Fields) → fields.isReadable = true →
    (value : fields.Value) → (rest : List UInt8) →
    fields.decode (fields.encode value ++ rest) = .ok (value, rest)
  | .done, _, (), rest => rfl
  | .field _ shape more, h, (value, values), rest => by
    simp only [Fields.isReadable, Bool.and_eq_true] at h
    have hfirst := shape.decode_encode_append h.1 value (more.encode values ++ rest)
    have hmore := more.decode_encode_append h.2 values rest
    simp only [Fields.encode, Fields.decode, List.append_assoc, hfirst, hmore]

/-- The payload of a case is read back at its position. -/
theorem Cases.decode_payload : (cases : Cases) → cases.isReadable = true →
    (value : cases.Value) → (rest : List UInt8) →
    cases.decode (cases.index value) (cases.payload value ++ rest) = .ok (value, rest)
  | .done, _, value, _ => nomatch value
  | .bare _ _, _, .inl (), _ => rfl
  | .bare _ more, h, .inr value, rest => by
    have hread := more.decode_payload h value rest
    simp only [Cases.index, Cases.payload, Cases.decode, hread]
  | .carrying _ payload more, h, .inl value, rest => by
    simp only [Cases.isReadable, Bool.and_eq_true] at h
    have hread := payload.decode_encode_append h.1 value rest
    simp only [Cases.index, Cases.payload, Cases.decode, hread]
  | .carrying _ _ more, h, .inr value, rest => by
    simp only [Cases.isReadable, Bool.and_eq_true] at h
    have hread := more.decode_payload h.2 value rest
    simp only [Cases.index, Cases.payload, Cases.decode, hread]

end

namespace Wire

theorem decode_encode_append {α : Type} [Form α] [LawfulForm α]
    (h : (Form.shape α).isReadable = true) (a : α) (rest : List UInt8) :
    decode α (encode a ++ rest) = .ok (a, rest) := by
  rw [decode, encode, Shape.decode_encode_append _ h]
  simp only [LawfulForm.ofValue_toValue]

theorem registry_isReadable : (Form.shape Registry).isReadable = true := by
  decide

end Wire

end DirectedPresence
