import DirectedPresence.Form.Model
import DirectedPresence.Proofs.JsonTokens
import DirectedPresence.Settings.Document

/-!
A value is read back from its JSON document. As for the binary form the theorem is about shapes, and
the value may be followed by anything by which a number does not go on (`Shape.read_write`). It
holds of every shape of which `Shape.isUnambiguous` computes that no two fields of a record and no
two cases of a choice have the same name, and that `null` only ever stands for an absent value.

The members of an object are read in the order in which they were written, so that at each of them
the fields before it are found and those after it are not (`Fields.readMembers_write`).
-/

namespace DirectedPresence

open Json

def Fields.names : Fields → List String
  | .done => []
  | .field name _ rest => name :: rest.names

def Cases.names : Cases → List String
  | .done => []
  | .bare name rest | .carrying name _ rest => name :: rest.names

/-- Whether the values of the shape may be absent. -/
def Shape.isOptional : Shape → Bool
  | .optional _ => true
  | _ => false

mutual

/-- Whether names and `null` always tell the values of the shape apart. -/
def Shape.isUnambiguous : Shape → Bool
  | .text | .flag | .word => true
  | .optional inner => !inner.isOptional && inner.isUnambiguous
  | .sequence item => item.isUnambiguous
  | .record fields => fields.isUnambiguous
  | .choice cases => cases.isUnambiguous

/-- Whether the fields have different names and unambiguous values. -/
def Fields.isUnambiguous : Fields → Bool
  | .done => true
  | .field name shape rest =>
    decide (name ∉ rest.names) && shape.isUnambiguous && rest.isUnambiguous

/-- Whether the cases have different names and unambiguous payloads. -/
def Cases.isUnambiguous : Cases → Bool
  | .done => true
  | .bare name rest => decide (name ∉ rest.names) && rest.isUnambiguous
  | .carrying name payload rest =>
    decide (name ∉ rest.names) && payload.isUnambiguous && rest.isUnambiguous

end

/-! ## How values start -/

private theorem Cases.write_opens : (cases : Cases) → (value : cases.Value) →
    ∃ c rest, cases.write value = c :: rest ∧ (c = '"' ∨ c = '{')
  | .done, value => Empty.elim value
  | .bare _ _, .inl () => ⟨'"', _, rfl, Or.inl rfl⟩
  | .carrying _ _ _, .inl _ => ⟨'{', _, rfl, Or.inr rfl⟩
  | .bare _ rest, .inr value | .carrying _ _ rest, .inr value => rest.write_opens value

/-- A value starts as no blank and no end of an array does, and like `null` only where it may be
absent. -/
theorem Shape.write_opens : (shape : Shape) → (value : shape.Value) →
    ∃ c rest, shape.write value = c :: rest ∧ isBlank c = false ∧ c ≠ ']' ∧
      (shape.isOptional = false → c ≠ 'n')
  | .text, (_ : String) => ⟨'"', _, rfl, rfl, by decide, fun _ => by decide⟩
  | .flag, true => ⟨'t', _, rfl, rfl, by decide, fun _ => by decide⟩
  | .flag, false => ⟨'f', _, rfl, rfl, by decide, fun _ => by decide⟩
  | .word, (number : UInt64) => by
    have hsome : Nat.toDigits 10 number.toNat ≠ [] := Nat.toDigits_ne_nil
    obtain ⟨c, digits, hdigits⟩ := List.exists_cons_of_ne_nil hsome
    have hdigit : isDigit c = true := isDigit_of_mem_toDigits (by rw [hdigits]; simp)
    refine ⟨c, digits, hdigits, (isBlank_of_isDigit hdigit).1, ?_, fun _ => ?_⟩ <;>
    · rintro rfl
      revert hdigit
      decide
  | .optional _, none => ⟨'n', _, rfl, rfl, by decide, nofun⟩
  | .optional inner, some value => by
    obtain ⟨c, rest, hwrite, hblank, hend, -⟩ := inner.write_opens value
    exact ⟨c, rest, hwrite, hblank, hend, nofun⟩
  | .sequence _, [] => ⟨'[', _, rfl, rfl, by decide, fun _ => by decide⟩
  | .sequence _, _ :: _ => ⟨'[', _, rfl, rfl, by decide, fun _ => by decide⟩
  | .record _, _ => ⟨'{', _, rfl, rfl, by decide, fun _ => by decide⟩
  | .choice cases, value => by
    obtain ⟨c, rest, hwrite, hfirst⟩ := cases.write_opens value
    refine ⟨c, rest, hwrite, ?_⟩
    rcases hfirst with rfl | rfl
    · exact ⟨rfl, by decide, fun _ => by decide⟩
    · exact ⟨rfl, by decide, fun _ => by decide⟩

/-! ## Arrays and objects -/

namespace Json

section Items

variable {α : Type} {write : α → List Char} {item : Reader α}

private theorem readNext_bracket (first : Bool) (rest : List Char) :
    readNext first (']' :: rest) = .ok (false, ']' :: rest) := by
  cases first <;> rfl

private theorem readNext_first {c : Char} (hblank : isBlank c = false) (hend : c ≠ ']')
    (rest : List Char) : readNext true (c :: rest) = .ok (true, c :: rest) := by
  simp only [readNext, dropBlanks_cons hblank, hend, if_false, if_true]

private theorem readNext_comma {c : Char} (hblank : isBlank c = false) (hend : c ≠ ']')
    (rest : List Char) : readNext false (',' :: c :: rest) = .ok (true, c :: rest) := by
  simp only [readNext, dropBlanks_cons (c := ',') rfl, dropBlanks_cons hblank, hend, Char.reduceEq,
    Bool.false_eq_true, if_false, if_true]

/-- The further items of an array are read back, if every single one is, up to the comma or bracket
after it. -/
theorem readItems_flatMap
    (hread : ∀ a rest, isNumberEnd rest = true → item (write a ++ rest) = .ok (a, rest))
    (hopens : ∀ a, ∃ c rest, write a = c :: rest ∧ isBlank c = false ∧ c ≠ ']') (rest : List Char) :
    (as : List α) → (fuel : Nat) → (as.flatMap fun a => ',' :: write a).length < fuel →
      readItems item fuel false ((as.flatMap fun a => ',' :: write a) ++ ']' :: rest) =
        .ok (as, rest)
  | [], fuel + 1, _ => by
    simp [readItems, readNext_bracket]
  | a :: as, fuel + 1, hfuel => by
    obtain ⟨c, tail, hwrite, hblank, hend⟩ := hopens a
    have hends : isNumberEnd ((as.flatMap fun a => ',' :: write a) ++ ']' :: rest) = true := by
      cases as <;> rfl
    have hitem := hread a _ hends
    have hmore := readItems_flatMap hread hopens rest as fuel (by
      simp only [List.flatMap_cons, List.length_append, List.length_cons] at hfuel
      omega)
    rw [hwrite, List.cons_append] at hitem
    simp only [List.flatMap_cons, hwrite, List.cons_append, List.append_assoc, readItems,
      readNext_comma hblank hend, hitem, hmore]

private theorem readArray_nil (item : Reader α) (rest : List Char) :
    readArray item ('[' :: ']' :: rest) = .ok ([], rest) := by
  simp [readArray, readItems, readNext_bracket, dropBlanks_cons (c := '[') rfl]

private theorem readArray_cons
    (hread : ∀ a rest, isNumberEnd rest = true → item (write a ++ rest) = .ok (a, rest))
    (hopens : ∀ a, ∃ c rest, write a = c :: rest ∧ isBlank c = false ∧ c ≠ ']')
    (a : α) (as : List α) (rest : List Char) :
    readArray item ('[' :: (write a ++ ((as.flatMap fun a => ',' :: write a) ++ ']' :: rest))) =
      .ok (a :: as, rest) := by
  obtain ⟨c, tail, hwrite, hblank, hend⟩ := hopens a
  have hends : isNumberEnd ((as.flatMap fun a => ',' :: write a) ++ ']' :: rest) = true := by
    cases as <;> rfl
  have hitem := hread a _ hends
  have hmore := readItems_flatMap hread hopens rest as
    (write a ++ ((as.flatMap fun a => ',' :: write a) ++ ']' :: rest)).length (by
      simp only [List.length_append, List.length_cons]
      omega)
  rw [hwrite, List.cons_append] at hitem hmore
  simp only [readArray, hwrite, List.cons_append, dropBlanks_cons (c := '[') rfl, if_true,
    readItems, readNext_first hblank hend, hitem, hmore]

end Items

/-- The opening quote of a further key is found behind the comma before it. -/
theorem readKeyStart_text (first : Bool) (name : String) (rest : List Char) :
    readKeyStart first ((if first then [] else [',']) ++ writeText name ++ rest) =
      .ok (true, name.toList.flatMap escape ++ '"' :: rest) := by
  rw [List.append_assoc, writeText_append]
  cases first <;>
    simp [readKeyStart, dropBlanks_cons (c := '"') rfl, dropBlanks_cons (c := ',') rfl]

private theorem readKeyStart_brace (first : Bool) (rest : List Char) :
    readKeyStart first ('}' :: rest) = .ok (false, rest) := by
  cases first <;> rfl

end Json

def Fields.everything : (fields : Fields) → fields.Value → fields.Found
  | .done, () => ()
  | .field _ _ rest, (value, values) => (some value, rest.everything values)

/-- What is found is not replaced by a default. -/
theorem Fields.complete_everything : (fields : Fields) → (values : fields.Value) →
    (defaults : Option fields.Value) →
    fields.complete (fields.everything values) defaults = some values
  | .done, (), _ => rfl
  | .field _ _ rest, (value, values), defaults => by
    simp [Fields.everything, Fields.complete, rest.complete_everything]

/-- Where nothing is kept around the fields they are read as they are. -/
theorem Fields.readMember_id {fields : Fields} {key : String} (found : fields.Found)
    (cs : List Char) : fields.readMember key (id found) cs =
      (fields.readMember key found cs).map fun (found, cs) => (id found, cs) := by
  rw [id]
  cases fields.readMember key found cs <;> rfl

/-- A record is read back from an object if its members are. -/
theorem Json.readRecord_object {fields : Fields} (defaults : Option fields.Value)
    (inOrder : Reader fields.Value) {values : fields.Value} {rest : List Char}
    (hmembers : ∀ fuel, (fields.write true values).length < fuel →
      readMembers fields.readMember fuel true fields.nothing
        (fields.write true values ++ '}' :: rest) = .ok (fields.everything values, rest)) :
    readRecord fields defaults inOrder fields.readMember
      ('{' :: (fields.write true values ++ '}' :: rest)) = .ok (values, rest) := by
  have hread := hmembers ((fields.write true values ++ '}' :: rest).length + 1) (by
    simp only [List.length_append]
    omega)
  simp only [readRecord, dropBlanks_cons (c := '{') rfl, Char.reduceEq, if_false, if_true, hread,
    fields.complete_everything]

section Choices

variable {α : Type} {a : α} {name : String} {payload rest : List Char}

private theorem Json.readChoice_bare {bare : String → Except Fault α} (h : bare name = .ok a)
    (carrying : String → Reader α) :
    readChoice bare carrying (writeText name ++ rest) = .ok (a, rest) := by
  rw [writeText_append, readChoice, dropBlanks_cons rfl]
  simp only [if_true, readText_flatMap, String.ofList_toList, h]

private theorem Json.readChoice_carrying {carrying : String → Reader α}
    (bare : String → Except Fault α)
    (h : carrying name (':' :: (payload ++ '}' :: rest)) = .ok (a, '}' :: rest)) :
    readChoice bare carrying ('{' :: (writeText name ++ ':' :: (payload ++ '}' :: rest))) =
      .ok (a, rest) := by
  rw [readChoice, dropBlanks_cons rfl, writeText_append]
  simp only [Char.reduceEq, if_false, if_true, readMark_cons (c := '"') rfl, readText_flatMap,
    String.ofList_toList, h, readMark_cons (c := '}') rfl]

end Choices

/-! ## Reading back -/

mutual

/-- A value of an unambiguous shape is read back from its characters, whatever follows them, unless
a number would go on there. -/
theorem Shape.read_write : (shape : Shape) → shape.isUnambiguous = true → (value : shape.Value) →
    (rest : List Char) → isNumberEnd rest = true →
    shape.read (shape.write value ++ rest) = .ok (value, rest)
  | .text, _, (content : String), rest, _ => by
    rw [Shape.read]
    exact readTextValue_writeText content rest
  | .flag, _, true, rest, _ => by
    rw [Shape.read]
    rfl
  | .flag, _, false, rest, _ => by
    rw [Shape.read]
    rfl
  | .word, _, (number : UInt64), rest, hrest => by
    rw [Shape.read]
    exact readWord_toDigits number hrest
  | .optional inner, _, none, rest, _ => by
    rw [Shape.read]
    rfl
  | .optional inner, h, some value, rest, hrest => by
    simp only [Shape.isUnambiguous, Bool.and_eq_true, Bool.not_eq_true'] at h
    obtain ⟨c, tail, hwrite, hblank, -, hpresent⟩ := inner.write_opens value
    have hread := inner.read_write h.2 value rest hrest
    rw [hwrite, List.cons_append] at hread
    rw [Shape.read, Shape.write, hwrite, List.cons_append, dropBlanks_cons hblank]
    simp only [hpresent h.1, if_false, hread]
  | .sequence item, _, [], rest, _ => by
    rw [Shape.read]
    exact readArray_nil item.read rest
  | .sequence item, h, (value :: values), rest, _ => by
    have hitems := readArray_cons (item.read_write h)
      (fun value =>
        let ⟨c, tail, hwrite, hblank, hend, _⟩ := item.write_opens value
        ⟨c, tail, hwrite, hblank, hend⟩) value values rest
    rw [Shape.read, Shape.write]
    simpa using hitems
  | .record fields, h, values, rest, _ => by
    have hmembers := fun fuel hfuel =>
      fields.readMembers_write h values id (fun _ _ => Fields.readMember_id) true fuel hfuel rest
    have hobject := readRecord_object none (fields.readInOrder true none) hmembers
    rw [Shape.read, Shape.write]
    simpa using hobject
  | .choice cases, h, value, rest, _ => by
    rw [Shape.read, Shape.write]
    rcases cases.read_write h value with
      ⟨name, -, hwrite, hread⟩ | ⟨name, -, payload, hwrite, hread⟩
    · rw [hwrite]
      exact readChoice_bare hread cases.readCarrying
    · have hobject := readChoice_carrying cases.readBare (hread ('}' :: rest) rfl)
      rw [hwrite]
      simpa using hobject

/-- The members of an object are read back one after another. What is found of the fields before
them is kept by `around`, which leaves their own reading alone. -/
theorem Fields.readMembers_write {σ : Type} {member : String → σ → Reader σ} :
    (fields : Fields) → fields.isUnambiguous = true → (values : fields.Value) →
    (around : fields.Found → σ) →
    (∀ key ∈ fields.names, ∀ found cs, member key (around found) cs =
      (fields.readMember key found cs).map fun (found, cs) => (around found, cs)) →
    (first : Bool) → (fuel : Nat) → (fields.write first values).length < fuel →
    (rest : List Char) →
    readMembers member fuel first (around fields.nothing)
      (fields.write first values ++ '}' :: rest) = .ok (around (fields.everything values), rest)
  | .done, _, (), around, _, first, fuel + 1, _, rest => by
    rw [Fields.write, List.nil_append, readMembers, readKeyStart_brace]
  | .field name shape more, h, (value, values), around, haround, first, fuel + 1, hfuel, rest => by
    simp only [Fields.isUnambiguous, Bool.and_eq_true, decide_eq_true_eq] at h
    obtain ⟨⟨hfresh, hshape⟩, hmore⟩ := h
    have hends : isNumberEnd (more.write false values ++ '}' :: rest) = true := by
      cases more <;> rfl
    have hvalue := shape.read_write hshape value _ hends
    have hfirst : member name (around (none, more.nothing))
        (':' :: (shape.write value ++ (more.write false values ++ '}' :: rest))) =
          .ok (around (some value, more.nothing), more.write false values ++ '}' :: rest) := by
      rw [haround name (by simp [Fields.names])]
      simp only [Fields.readMember, if_true, Option.isSome_none, Bool.false_eq_true, if_false,
        readMark_cons (c := ':') rfl, hvalue]
      rfl
    have hrest : ∀ key ∈ more.names, ∀ found cs, member key (around (some value, found)) cs =
        (more.readMember key found cs).map fun (found, cs) =>
          (around (some value, found), cs) := by
      intro key hkey found cs
      have hne : key ≠ name := fun heq => hfresh (heq ▸ hkey)
      rw [haround key (by simp [Fields.names, hkey])]
      simp only [Fields.readMember, hne, if_false]
      cases more.readMember key found cs <;> rfl
    have hothers := more.readMembers_write hmore values (fun found => around (some value, found))
      hrest false fuel (by
        simp only [Fields.write, List.length_append, List.length_cons] at hfuel
        omega) rest
    have htext : (Fields.field name shape more).write first (value, values) ++ '}' :: rest =
        (if first then [] else [',']) ++ writeText name ++
          ':' :: (shape.write value ++ (more.write false values ++ '}' :: rest)) := by
      simp [Fields.write]
    rw [htext, readMembers, readKeyStart_text]
    simp only [readText_flatMap, String.ofList_toList]
    rw [Fields.nothing, hfirst]
    exact hothers

/-- A case is written as its name, or as an object with its name and its payload, and is read back
by the name. -/
theorem Cases.read_write : (cases : Cases) → cases.isUnambiguous = true → (value : cases.Value) →
    (∃ name ∈ cases.names, cases.write value = writeText name ∧
      cases.readBare name = .ok value) ∨
    ∃ name ∈ cases.names, ∃ payload,
      cases.write value = '{' :: writeText name ++ ':' :: payload ++ ['}'] ∧
      ∀ rest, isNumberEnd rest = true →
        cases.readCarrying name (':' :: (payload ++ rest)) = .ok (value, rest)
  | .done, _, value => Empty.elim value
  | .bare name more, _, .inl () => by
    exact Or.inl ⟨name, by simp [Cases.names], rfl, by simp [Cases.readBare]⟩
  | .carrying name payload more, h, .inl value => by
    simp only [Cases.isUnambiguous, Bool.and_eq_true] at h
    refine Or.inr ⟨name, by simp [Cases.names], payload.write value, rfl, ?_⟩
    intro rest hrest
    simp only [Cases.readCarrying, if_true, readMark_cons (c := ':') rfl,
      payload.read_write h.1.2 value rest hrest]
  | .bare name more, h, .inr value | .carrying name _ more, h, .inr value => by
    obtain ⟨hfresh, hmore⟩ : name ∉ more.names ∧ more.isUnambiguous = true := by
      simp only [Cases.isUnambiguous, Bool.and_eq_true, decide_eq_true_eq] at h
      exact ⟨by simp [h], by simp [h]⟩
    have hne : ∀ given ∈ more.names, given ≠ name := fun given hmem heq => hfresh (heq ▸ hmem)
    rcases more.read_write hmore value with
      ⟨given, hmem, hwrite, hread⟩ | ⟨given, hmem, payload, hwrite, hread⟩
    · exact Or.inl ⟨given, by simp [Cases.names, hmem], hwrite,
        by simp [Cases.readBare, hne given hmem, hread, Except.map]⟩
    · refine Or.inr ⟨given, by simp [Cases.names, hmem], payload, hwrite, ?_⟩
      intro rest hrest
      simp only [Cases.readCarrying, hne given hmem, if_false, hread rest hrest]

end

/-- A record that is read over defaults overrides all of them. -/
theorem Fields.read_write {fields : Fields} (h : fields.isUnambiguous = true)
    (defaults values : fields.Value) (rest : List Char) :
    fields.read defaults ((Shape.record fields).write values ++ rest) = .ok (values, rest) := by
  have hmembers := fun fuel hfuel =>
    fields.readMembers_write h values id (fun _ _ => Fields.readMember_id) true fuel hfuel rest
  have hobject := readRecord_object (some defaults) (fields.readInOrder true (some defaults))
    hmembers
  rw [Fields.read, Shape.write]
  simpa using hobject

/-! ## Documents -/

namespace Json

/-- The values of a type are read back from their documents, of which nothing is left then. -/
structure Faithful (α : Type) [Form α] : Prop where
  parse_render : ∀ a : α, parse α (render a) = .ok a
  read_render : ∀ a : α,
    (Form.shape α).read (render a).toList = .ok (Form.toValue a, [])

private theorem faithful_of_isUnambiguous {α : Type} [Form α] [LawfulForm α]
    (h : (Form.shape α).isUnambiguous = true) : Faithful α := by
  have hread : ∀ a : α, (Form.shape α).read (render a).toList = .ok (Form.toValue a, []) := by
    intro a
    have hback := (Form.shape α).read_write h (Form.toValue a) [] rfl
    rwa [List.append_nil, ← String.toList_ofList (l := (Form.shape α).write _)] at hback
  refine ⟨fun a => ?_, hread⟩
  rw [parse, hread a]
  exact congrArg Except.ok (LawfulForm.ofValue_toValue a)

end Json

namespace Settings

private theorem read_render (s : Settings) :
    fields.read (Form.toValue ({} : Settings)) (render s).toList = .ok (Form.toValue s, []) := by
  have hback := Fields.read_write (by decide) (Form.toValue ({} : Settings)) (Form.toValue s) []
  rwa [List.append_nil, ← String.toList_ofList (l := (Shape.record fields).write _)] at hback

private theorem parse_render (s : Settings) : parse (render s) = .ok s := by
  rw [parse, read_render]
  rfl

/-- Settings that are written and read are accepted, or refused for the first that must be. -/
theorem ofDocument_render (s : Settings) :
    ofDocument (render s) =
      if Text.isBlankText s.cacheName then .error (.invalid .blankCacheName)
      else if s.sweepInterval = 0 then .error (.invalid .zeroSweepInterval)
      else if Text.isBlankText s.listenerName then .error (.invalid .blankListenerName)
      else .ok s := by
  rw [ofDocument, parse_render]
  simp only [validate]
  grind

end Settings

/-- Every value of every type of the domain is read back from its document. Settings are read over
the defaults, and then validated. -/
theorem Json.faithful_domain :
    (Faithful Address ∧ Faithful NodeId ∧ Faithful PresenceKind ∧ Faithful ErrorCondition ∧
      Faithful SubscriptionState ∧ Faithful Presence ∧ Faithful Message ∧ Faithful Stanza ∧
      Faithful PendingRequest ∧ Faithful RosterItem ∧ Faithful HandlerEntry ∧ Faithful Registry) ∧
    ∀ s : Settings,
      (Settings.parse (render s) = .ok s ∧
        Settings.fields.read (Form.toValue ({} : Settings)) (render s).toList =
          .ok (Form.toValue s, [])) ∧
      Settings.ofDocument (render s) =
        if Text.isBlankText s.cacheName then .error (.invalid .blankCacheName)
        else if s.sweepInterval = 0 then .error (.invalid .zeroSweepInterval)
        else if Text.isBlankText s.listenerName then .error (.invalid .blankListenerName)
        else .ok s := by
  refine ⟨⟨?_, ?_, ?_, ?_, ?_, ?_, ?_, ?_, ?_, ?_, ?_, ?_⟩, fun s => ?_⟩
  case refine_13 => exact ⟨⟨s.parse_render, s.read_render⟩, s.ofDocument_render⟩
  all_goals exact faithful_of_isUnambiguous (by decide)

end DirectedPresence
