import DirectedPresence.Proofs.JsonGrammar
import DirectedPresence.Proofs.JsonRoundTrip

/-!
What a JSON document says about the settings. A document that gives no setting twice, with any
blanks and any other members in any order, is read to the defaults in which the given settings are
replaced; these are then accepted, or refused for the first that must be. The members are read one
after another, and each is noted beside what was found before it (`Member.read`), so that the
members that are passed over leave the found settings alone.
-/

namespace DirectedPresence

open Json

namespace Fields

variable {name key : String} {shape : Shape} {more : Fields} {others : more.Found}
  {cs ds rest : List Char}

/-- The value of a field that was not found before is read after its key. -/
theorem readMember_self {value : shape.Value} (hmark : readMark ':' cs = .ok ds)
    (h : shape.read ds = .ok (value, rest)) :
    (field name shape more).readMember name (none, others) cs =
      .ok ((some value, others), rest) := by
  simp only [Fields.readMember, if_true, Option.isSome_none, Bool.false_eq_true, if_false, hmark, h]

/-- A member with another key is none of the field. -/
theorem readMember_other {found : Option shape.Value} {after : more.Found} (hne : key ≠ name)
    (h : more.readMember key others cs = .ok (after, rest)) :
    (field name shape more).readMember key (found, others) cs =
      .ok ((found, after), rest) := by
  simp only [Fields.readMember, hne, if_false, h]

/-- A value whose key is no field is passed over. -/
theorem readMember_done (hmark : readMark ':' cs = .ok ds) (h : skipValue ds = .ok rest) :
    done.readMember key () cs = .ok ((), rest) := by
  simp only [Fields.readMember, hmark, h]
  rfl

end Fields

namespace Settings

/-- A member of a settings document: a setting with its value, or a key that is no setting. -/
inductive Member where
  | cacheName (name : String)
  | sweepInterval (milliseconds : UInt64)
  | includeValues (flag : Bool)
  | listenerName (name : String)
  | other (key : String) (unknown : key ∉ fields.names)

namespace Member

/-- The setting that a member gives. -/
def setting? : Member → Option String
  | .cacheName _ => some "cache_name"
  | .sweepInterval _ => some "sweep_interval_ms"
  | .includeValues _ => some "include_values"
  | .listenerName _ => some "listener_name"
  | .other _ _ => none

def key : Member → String
  | .cacheName _ => "cache_name"
  | .sweepInterval _ => "sweep_interval_ms"
  | .includeValues _ => "include_values"
  | .listenerName _ => "listener_name"
  | .other key _ => key

/-- Settings in which the one that a member gives is replaced. -/
def override (s : Settings) : Member → Settings
  | .cacheName name => { s with cacheName := name }
  | .sweepInterval milliseconds => { s with sweepInterval := milliseconds }
  | .includeValues flag => { s with includeValues := flag }
  | .listenerName name => { s with listenerName := name }
  | .other _ _ => s

/-- The spellings of the value of a member: of a text any, of a word its digits, and of a value that
is no setting any at all. -/
inductive SpellsValue : Member → List Char → Prop where
  | cacheName {name : String} {cs : List Char} (h : SpellsText cs name.toList) :
    SpellsValue (.cacheName name) ('"' :: cs ++ ['"'])
  | sweepInterval {milliseconds : UInt64} :
    SpellsValue (.sweepInterval milliseconds) (Nat.toDigits 10 milliseconds.toNat)
  | includeValues {flag : Bool} : SpellsValue (.includeValues flag)
    (if flag then ['t', 'r', 'u', 'e'] else ['f', 'a', 'l', 's', 'e'])
  | listenerName {name : String} {cs : List Char} (h : SpellsText cs name.toList) :
    SpellsValue (.listenerName name) ('"' :: cs ++ ['"'])
  | other {key : String} {unknown : key ∉ fields.names} {cs : List Char} (h : IsValue cs) :
    SpellsValue (.other key unknown) cs

/-- The spellings of a member, with any blanks around its tokens. -/
inductive Spells : Member → List Char → Prop where
  | intro {m : Member} {before key colon value after next : List Char} (hbefore : AreBlanks before)
    (hkey : SpellsText key m.key.toList) (hcolon : AreBlanks colon) (hvalue : AreBlanks value)
    (h : m.SpellsValue next) (hafter : AreBlanks after) :
    Spells m (before ++ '"' :: (key ++ '"' :: (colon ++ ':' :: (value ++ next ++ after))))

end Member

/-- The spellings of members with commas between them. -/
inductive SpellsMembers : List Member → List Char → Prop where
  | one {m : Member} {cs : List Char} (h : m.Spells cs) : SpellsMembers [m] cs
  | cons {m : Member} {members : List Member} {cs ds : List Char} (h : m.Spells cs)
    (more : SpellsMembers members ds) : SpellsMembers (m :: members) (cs ++ ',' :: ds)

/-- The documents that hold an object with these members. -/
inductive SpellsDocument : List Member → List Char → Prop where
  | empty {before inside after : List Char} (hbefore : AreBlanks before) (h : AreBlanks inside)
    (hafter : AreBlanks after) : SpellsDocument [] (before ++ '{' :: (inside ++ '}' :: after))
  | object {members : List Member} {before cs after : List Char} (hbefore : AreBlanks before)
    (h : SpellsMembers members cs) (hafter : AreBlanks after) :
    SpellsDocument members (before ++ '{' :: (cs ++ '}' :: after))

/-- No setting is given twice. -/
def AreSingle (members : List Member) : Prop :=
  (members.filterMap Member.setting?).Nodup

instance (members : List Member) : Decidable (AreSingle members) :=
  inferInstanceAs (Decidable (List.Nodup _))

def overridden (members : List Member) : Settings :=
  members.foldl Member.override {}

/-! ## Reading -/

namespace Member

def note : fields.Found → Member → fields.Found
  | (_, sweep, flag, listener, ()), .cacheName name => (some name, sweep, flag, listener, ())
  | (cache, _, flag, listener, ()), .sweepInterval milliseconds =>
    (cache, some milliseconds, flag, listener, ())
  | (cache, sweep, _, listener, ()), .includeValues flag =>
    (cache, sweep, some flag, listener, ())
  | (cache, sweep, flag, _, ()), .listenerName name => (cache, sweep, flag, some name, ())
  | found, .other _ _ => found

/-- The setting that a member gives is not found yet. -/
def IsNew : fields.Found → Member → Prop
  | (cache, _), .cacheName _ => cache = none
  | (_, sweep, _), .sweepInterval _ => sweep = none
  | (_, _, flag, _), .includeValues _ => flag = none
  | (_, _, _, listener, ()), .listenerName _ => listener = none
  | _, .other _ _ => True

private theorem isNew_nothing (m : Member) : m.IsNew fields.nothing := by
  cases m <;> first | rfl | trivial

/-- A member stays new when another setting is noted. -/
theorem IsNew.note {m other : Member} {found : fields.Found} (h : other.IsNew found)
    (hne : ∀ name, m.setting? = some name → other.setting? ≠ some name) :
    other.IsNew (m.note found) := by
  obtain ⟨cache, sweep, flag, listener, ⟨⟩⟩ := found
  cases m <;> cases other <;> first | exact h | exact absurd rfl (hne _ rfl)

/-- A member that is new is read, and noted. -/
theorem SpellsValue.readMember {m : Member} {colon value cs rest : List Char} {found : fields.Found}
    (h : m.SpellsValue cs) (hcolon : AreBlanks colon) (hvalue : AreBlanks value)
    (hnew : m.IsNew found) (hrest : isNumberEnd rest = true) :
    fields.readMember m.key found (colon ++ ':' :: (value ++ cs ++ rest)) =
      .ok (m.note found, rest) := by
  obtain ⟨cache, sweep, flag, listener, ⟨⟩⟩ := found
  have hmark := readMark_append hcolon (m := ':') rfl (value ++ cs ++ rest)
  cases h with
  | cacheName h =>
    cases hnew
    exact Fields.readMember_self hmark (readTextValue_append hvalue h rest)
  | sweepInterval =>
    cases hnew
    exact Fields.readMember_other (by simp [key])
      (Fields.readMember_self hmark (readWord_append hvalue hrest))
  | includeValues =>
    cases hnew
    exact Fields.readMember_other (by simp [key]) (Fields.readMember_other (by simp [key])
      (Fields.readMember_self hmark (readFlag_append hvalue rest)))
  | listenerName h =>
    cases hnew
    exact Fields.readMember_other (by simp [key]) (Fields.readMember_other (by simp [key])
      (Fields.readMember_other (by simp [key])
        (Fields.readMember_self hmark (readTextValue_append hvalue h rest))))
  | @other _ unknown _ h =>
    have hunknown := unknown
    simp only [fields, Fields.names, List.mem_cons, List.not_mem_nil, or_false, not_or] at hunknown
    obtain ⟨hcache, hsweep, hflag, hlistener⟩ := hunknown
    exact Fields.readMember_other hcache (Fields.readMember_other hsweep
      (Fields.readMember_other hflag (Fields.readMember_other hlistener
        (Fields.readMember_done hmark (h.skipValue hvalue hrest)))))

end Member

/-- A further member is found behind the comma before it. -/
theorem readKeyStart_append (first : Bool) {blanks : List Char} (h : AreBlanks blanks)
    (cs : List Char) :
    readKeyStart first ((if first then [] else [',']) ++ (blanks ++ '"' :: cs)) =
      .ok (true, cs) := by
  cases first <;>
    simp [readKeyStart, dropBlanks_append h, dropBlanks_cons (c := '"') rfl,
      dropBlanks_cons (c := ',') rfl]

/-- The end of an object is found behind blanks. -/
theorem readKeyStart_end (first : Bool) {blanks : List Char} (h : AreBlanks blanks)
    (rest : List Char) : readKeyStart first (blanks ++ '}' :: rest) = .ok (false, rest) := by
  cases first <;>
    simp [readKeyStart, dropBlanks_append h, dropBlanks_cons (c := '}') rfl]

/-- Blanks before the next member or the end of an object make no difference. -/
theorem readMembers_append {σ : Type} (member : String → σ → Reader σ) (fuel : Nat) (first : Bool)
    (found : σ) {blanks : List Char} (h : AreBlanks blanks) (cs : List Char) :
    readMembers member fuel first found (blanks ++ cs) =
      readMembers member fuel first found cs := by
  cases fuel with
  | zero => rfl
  | succ fuel => rw [readMembers, readMembers, readKeyStart, readKeyStart, dropBlanks_append h]

/-- A member takes one round of reading. -/
theorem Member.Spells.readMembers {m : Member} {cs rest : List Char} {found : fields.Found}
    (h : m.Spells cs) (hnew : m.IsNew found) (hrest : isNumberEnd rest = true) (fuel : Nat)
    (first : Bool) :
    readMembers fields.readMember (fuel + 1) first found
        ((if first then [] else [',']) ++ (cs ++ rest)) =
      readMembers fields.readMember fuel false (m.note found) rest := by
  obtain ⟨hbefore, hkey, hcolon, hvalue, h, hafter⟩ := h
  have hends := isNumberEnd_append hafter hrest
  have hmember := h.readMember hcolon hvalue hnew hends
  simp only [List.append_assoc, List.cons_append] at hmember ⊢
  rw [Json.readMembers, readKeyStart_append first hbefore]
  simp only [hkey.readText, String.ofList_toList, hmember]
  exact readMembers_append _ _ _ _ hafter rest

theorem AreSingle.tail {m : Member} {members : List Member} (h : AreSingle (m :: members)) :
    AreSingle members :=
  h.sublist ((List.sublist_cons_self m members).filterMap _)

/-- The settings of the later members are other ones than that of the first. -/
theorem AreSingle.setting?_ne {m : Member} {members : List Member} (h : AreSingle (m :: members))
    {other : Member} (hother : other ∈ members) (name : String) (hname : m.setting? = some name) :
    other.setting? ≠ some name := by
  intro hsame
  rw [AreSingle, List.filterMap_cons, hname, List.nodup_cons] at h
  exact h.1 (List.mem_filterMap.mpr ⟨other, hother, hsame⟩)

/-- Members that give no setting twice are read one after another, and noted. -/
theorem SpellsMembers.readMembers {members : List Member} {cs : List Char}
    (h : SpellsMembers members cs) (hsingle : AreSingle members) {found : fields.Found}
    (hnew : ∀ m ∈ members, m.IsNew found) {fuel : Nat} (hfuel : members.length < fuel)
    (first : Bool) (rest : List Char) :
    readMembers fields.readMember fuel first found
        ((if first then [] else [',']) ++ (cs ++ '}' :: rest)) =
      .ok (members.foldl Member.note found, rest) := by
  induction h generalizing found fuel first with
  | one h =>
    rw [List.length_singleton] at hfuel
    obtain ⟨fuel, rfl⟩ := Nat.exists_eq_add_of_le' hfuel
    rw [h.readMembers (hnew _ (by simp)) rfl]
    rfl
  | @cons m members cs ds h more ih =>
    obtain ⟨fuel, rfl⟩ := Nat.exists_eq_add_one_of_ne_zero (Nat.ne_zero_of_lt hfuel)
    have hlater : ∀ other ∈ members, other.IsNew (m.note found) := fun other hother =>
      (hnew other (List.mem_cons_of_mem _ hother)).note (hsingle.setting?_ne hother)
    have hrest := ih hsingle.tail hlater (Nat.lt_of_succ_lt_succ hfuel) false
    rw [List.append_assoc, h.readMembers (hnew m List.mem_cons_self) rfl]
    exact hrest

private theorem SpellsMembers.length_le {members : List Member} {cs : List Char}
    (h : SpellsMembers members cs) : members.length ≤ cs.length := by
  induction h with
  | one h =>
    obtain ⟨⟩ := h
    simp only [List.length_append, List.length_cons, List.length_nil]
    omega
  | cons h more ih =>
    simp only [List.length_cons, List.length_append]
    omega

/-! ## Documents -/

/-- The settings that are found replace the defaults. -/
def completed : fields.Found → Settings → Settings
  | (cache, sweep, flag, listener, ()), s =>
    ⟨cache.getD s.cacheName, sweep.getD s.sweepInterval, flag.getD s.includeValues,
      listener.getD s.listenerName⟩

private theorem complete_eq (found : fields.Found) (s : Settings) :
    fields.complete found (some (Form.toValue s)) = some (Form.toValue (completed found s)) := by
  obtain ⟨cache, sweep, flag, listener, ⟨⟩⟩ := found
  cases cache <;> cases sweep <;> cases flag <;> cases listener <;> rfl

private theorem completed_note (m : Member) (found : fields.Found) (s : Settings) :
    completed (m.note found) s = m.override (completed found s) := by
  cases m <;> rfl

private theorem completed_foldl (members : List Member) (found : fields.Found) (s : Settings) :
    completed (members.foldl Member.note found) s =
      members.foldl Member.override (completed found s) := by
  induction members generalizing found with
  | nil => rfl
  | cons m members ih => rw [List.foldl_cons, List.foldl_cons, ih, completed_note]

/-- An object is read over the defaults from its members. -/
theorem read_of_readMembers {before cs rest : List Char} {members : List Member}
    (hbefore : AreBlanks before)
    (h : readMembers fields.readMember (cs.length + 1) true fields.nothing cs =
      .ok (members.foldl Member.note fields.nothing, rest)) :
    fields.read (Form.toValue ({} : Settings)) (before ++ '{' :: cs) =
      .ok (Form.toValue (overridden members), rest) := by
  simp only [Fields.read, readRecord, dropBlanks_append hbefore, dropBlanks_cons (c := '{') rfl,
    Char.reduceEq, if_false, if_true, h, complete_eq, completed_foldl]
  rfl

/-- A document that gives no setting twice is read to the settings that it gives. -/
theorem SpellsDocument.parse {members : List Member} {document : String}
    (h : SpellsDocument members document.toList) (single : AreSingle members) :
    parse document = .ok (overridden members) := by
  have hfinish : ∀ after, AreBlanks after →
      finish (.ok (Form.toValue (overridden members), after)) =
        .ok (Form.toValue (overridden members)) := by
    intro after hafter
    have hnone : dropBlanks (after ++ []) = [] := dropBlanks_append hafter []
    rw [List.append_nil] at hnone
    simp [finish, hnone]
  generalize hcs : document.toList = cs at h
  cases h with
  | @empty before inside after hbefore h hafter =>
    have hmembers : readMembers fields.readMember ((inside ++ '}' :: after).length + 1) true
        fields.nothing (inside ++ '}' :: after) =
          .ok (List.foldl Member.note fields.nothing [], after) := by
      rw [readMembers, readKeyStart_end true h]
      rfl
    rw [Settings.parse, hcs, read_of_readMembers hbefore hmembers,
      hfinish after hafter]
    rfl
  | @object _ before cs after hbefore h hafter =>
    have hfuel : members.length < (cs ++ '}' :: after).length + 1 := by
      have := h.length_le
      simp only [List.length_append]
      omega
    have hmembers := h.readMembers single (fun m _ => m.isNew_nothing) hfuel true after
    rw [Settings.parse, hcs, read_of_readMembers hbefore hmembers, hfinish after hafter]
    rfl

/-- The settings of a document are the defaults in which those that it gives are replaced. They are
accepted, or refused for the first that must be. -/
theorem ofDocument_of_spells {members : List Member} {document : String}
    (h : SpellsDocument members document.toList) (single : AreSingle members) :
    ofDocument document =
      if Text.isBlankText (overridden members).cacheName then .error (.invalid .blankCacheName)
      else if (overridden members).sweepInterval = 0 then .error (.invalid .zeroSweepInterval)
      else if Text.isBlankText (overridden members).listenerName then
        .error (.invalid .blankListenerName)
      else .ok (overridden members) := by
  rw [ofDocument, h.parse single]
  simp only [validate]
  grind

/-- The value of the key that is no setting holds a number beyond all doubles and, as a key, half a
surrogate pair. -/
theorem ofDocument_of_spells_nested :
    ofDocument "\x7b \"extra\":[1e400, \x7b\"\\ud800\":null\x7d], \"sweep_interval_ms\" : 250\x7d" =
      .ok { sweepInterval := 250 } := by
  have hnone : AreBlanks [] := by decide
  have hblank : AreBlanks [' '] := by decide
  have hone : IsIntegral ['1'] := by decide
  have hpower : IsExponent ['e', '4', '0', '0'] := .power (.inl rfl) (.inl rfl) (by decide)
  have hnumber : IsNumber ['1', 'e', '4', '0', '0'] := .intro (.inl rfl) hone .absent hpower
  have hhalf : IsRawText ['\\', 'u', 'd', '8', '0', '0'] := .unit (.intro rfl rfl rfl rfl) .nil
  have hobject : IsValue "\x7b\"\\ud800\":null\x7d".toList :=
    .object (.one (.intro hnone hhalf hnone) hnone .null hnone)
  have harray : IsValue "[1e400, \x7b\"\\ud800\":null\x7d]".toList :=
    .array (.cons hnone (.number hnumber) hnone (.one hblank hobject hnone))
  have hextra : (Member.other "extra" (by decide)).Spells
      " \"extra\":[1e400, \x7b\"\\ud800\":null\x7d]".toList :=
    .intro hblank (.of_plain (by decide)) hnone hnone (.other harray) hnone
  have hsweep : (Member.sweepInterval 250).Spells " \"sweep_interval_ms\" : 250".toList :=
    .intro hblank (.of_plain (by decide)) hblank hblank .sweepInterval hnone
  exact (ofDocument_of_spells (.object hnone (.cons hextra (.one hsweep)) hnone)
    (by decide)).trans rfl

end Settings

end DirectedPresence
