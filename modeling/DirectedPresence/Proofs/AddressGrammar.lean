import DirectedPresence.Address.Parser
import Mathlib.Data.List.TakeWhile

/-!
The grammar of addresses, `[node '@'] domain ['/' resource]`, and its reader. The node part and the
domain hold neither of the two separators, so the first slash and the first at-sign are where the
parts meet, whatever the resource holds (`Address.parse_spelled`). A text is refused for the first
fault in a fixed order (`Address.firstFault?`), and a text without a fault is spelled from proper
parts. Lowercasing keeps a domain proper, so the text form of such an address is read back.
-/

namespace DirectedPresence.Address

/-! ## Spellings -/

/-- Parts of which the grammar makes an address. A resource may hold anything. -/
structure Proper (node : Option String) (domain : String) (resource : Option String) : Prop where
  node : ∀ name ∈ node, name ≠ "" ∧ '@' ∉ name.toList ∧ '/' ∉ name.toList
  domain : domain ≠ "" ∧ '@' ∉ domain.toList ∧ '/' ∉ domain.toList
  resource : ∀ name ∈ resource, name ≠ ""

/-- The text `[node '@'] domain ['/' resource]`. -/
def spelled (node : Option String) (domain : String) (resource : Option String) : String :=
  node.elim "" (· ++ "@") ++ domain ++ resource.elim "" ("/" ++ ·)

/-- The addresses that come from the reader, or from proper parts. -/
def IsProper (a : Address) : Prop :=
  (∃ text, parse text = .ok a) ∨
    ∃ node domain resource, Proper node domain resource ∧ a = ofParts node domain resource

/-! ## Faults -/

def front (text : String) : List Char :=
  text.toList.takeWhile (· ≠ '/')

/-- Nothing stands after the first slash. -/
def LacksResource (text : String) : Prop :=
  text.toList.dropWhile (· ≠ '/') = ['/']

/-- What stands before the first slash starts with an at-sign. -/
def LacksNode (text : String) : Prop :=
  (front text).head? = some '@'

/-- Nothing stands before the first slash, or nothing after the first at-sign there. -/
def LacksDomain (text : String) : Prop :=
  front text = [] ∨ (front text).dropWhile (· ≠ '@') = ['@']

/-- A second at-sign stands before the first slash. -/
def RepeatsAt (text : String) : Prop :=
  2 ≤ (front text).count '@'

instance (text : String) : Decidable (LacksResource text) :=
  inferInstanceAs (Decidable (_ = _))

instance (text : String) : Decidable (LacksNode text) :=
  inferInstanceAs (Decidable (_ = _))

instance (text : String) : Decidable (LacksDomain text) :=
  inferInstanceAs (Decidable (_ ∨ _))

instance (text : String) : Decidable (RepeatsAt text) :=
  inferInstanceAs (Decidable (_ ≤ _))

/-- The first of the four faults that a text has. -/
def firstFault? (text : String) : Option AddressError :=
  if LacksResource text then some (.emptyResource text)
  else if LacksNode text then some (.emptyNode text)
  else if LacksDomain text then some (.emptyDomain text)
  else if RepeatsAt text then some (.invalidDomain text)
  else none

/-! ## The parts of a text -/

/-- Reads what stands before the first slash; the resource after it has been found. -/
def readFront (text : String) (front : List Char) (resource : Option (List Char)) :
    Except AddressError Address :=
  match cutAt '@' front with
  | some ([], _) => .error (.emptyNode text)
  | some (node, domain) => parse.finish text (some node) domain resource
  | none => parse.finish text none front resource

private theorem parse_of_slash {text : String} {before after : List Char} (hbefore : '/' ∉ before)
    (htext : text.toList = before ++ '/' :: after) : parse text =
      if after = [] then .error (.emptyResource text) else readFront text before (some after) := by
  have hcut : cutAt '/' text.toList = some (before, after) :=
    cutAt_eq_some_iff.mpr ⟨hbefore, htext⟩
  cases after <;> simp only [parse, hcut] <;> rfl

private theorem parse_of_no_slash {text : String} (h : '/' ∉ text.toList) :
    parse text = readFront text text.toList none := by
  simp only [parse, cutAt_eq_none_iff.mpr h]
  rfl

private theorem readFront_of_at {text : String} {node domain : List Char} (hnode : '@' ∉ node)
    (resource : Option (List Char)) : readFront text (node ++ '@' :: domain) resource =
      if node = [] then .error (.emptyNode text)
      else parse.finish text (some node) domain resource := by
  have hcut : cutAt '@' (node ++ '@' :: domain) = some (node, domain) :=
    cutAt_eq_some_iff.mpr ⟨hnode, rfl⟩
  cases node <;> simp only [readFront, hcut] <;> rfl

private theorem readFront_of_no_at {text : String} {domain : List Char} (h : '@' ∉ domain)
    (resource : Option (List Char)) :
    readFront text domain resource = parse.finish text none domain resource := by
  simp only [readFront, cutAt_eq_none_iff.mpr h]

/-- Whether or not there is a separator, a text is what stands before it and the rest. -/
theorem cutAt_cases (sep : Char) (cs : List Char) :
    sep ∉ cs ∨ ∃ before after, sep ∉ before ∧ cs = before ++ sep :: after := by
  cases hcut : cutAt sep cs with
  | none => exact .inl (cutAt_eq_none_iff.mp hcut)
  | some cut => exact .inr ⟨cut.1, cut.2, cutAt_eq_some_iff.mp hcut⟩

section Separators

variable {sep : Char} {before : List Char} (h : sep ∉ before)
include h

private theorem decide_ne_of_mem : ∀ c ∈ before, decide (c ≠ sep) = true :=
  fun _ hc => decide_eq_true fun heq => h (heq ▸ hc)

private theorem takeWhile_ne (after : List Char) :
    (before ++ sep :: after).takeWhile (· ≠ sep) = before := by
  rw [List.takeWhile_append_of_pos (decide_ne_of_mem h)]
  simp

private theorem dropWhile_ne (after : List Char) :
    (before ++ sep :: after).dropWhile (· ≠ sep) = sep :: after := by
  rw [List.dropWhile_append_of_pos (decide_ne_of_mem h)]
  simp

private theorem takeWhile_ne_self : before.takeWhile (· ≠ sep) = before :=
  List.takeWhile_eq_self_iff.mpr (decide_ne_of_mem h)

private theorem dropWhile_ne_self : before.dropWhile (· ≠ sep) = [] :=
  List.dropWhile_eq_nil_iff.mpr (decide_ne_of_mem h)

/-- A part that follows a separator, if any, is found behind the first one. -/
theorem cutAt_append_elim (after : Option String) :
    cutAt sep (before ++ after.elim [] fun name => sep :: name.toList) =
      after.map fun name => (before, name.toList) := by
  cases after with
  | none => simpa [cutAt_eq_none_iff] using h
  | some name => exact cutAt_eq_some_iff.mpr ⟨h, rfl⟩

/-- A part that a separator follows, if any, is found before the first one. -/
theorem cutAt_elim_append {first : Option String} (hfirst : ∀ name ∈ first, sep ∉ name.toList) :
    cutAt sep ((first.elim [] fun name => name.toList ++ [sep]) ++ before) =
      first.map fun name => (name.toList, before) := by
  cases first with
  | none => simpa [cutAt_eq_none_iff] using h
  | some name => exact cutAt_eq_some_iff.mpr ⟨hfirst name rfl, by simp⟩

end Separators

/-! ## Accepted texts -/

section Spelled

variable {node resource : Option String} {domain : String}

def frontOf (node : Option String) (domain : String) : List Char :=
  (node.elim [] fun name => name.toList ++ ['@']) ++ domain.toList

private theorem toList_spelled (node : Option String) (domain : String) (resource : Option String) :
    (spelled node domain resource).toList =
    frontOf node domain ++ resource.elim [] fun name => '/' :: name.toList := by
  cases node <;> cases resource <;> simp [spelled, frontOf]

namespace Proper

private theorem slash_not_mem (h : Proper node domain resource) : '/' ∉ frontOf node domain := by
  cases node with
  | none => simpa [frontOf] using h.domain.2.2
  | some name => simpa [frontOf, h.domain.2.2] using (h.node name rfl).2.2

private theorem cutAt_slash (h : Proper node domain resource) :
    cutAt '/' (spelled node domain resource).toList =
      resource.map fun name => (frontOf node domain, name.toList) := by
  rw [toList_spelled, cutAt_append_elim h.slash_not_mem]

private theorem cutAt_at (h : Proper node domain resource) :
    cutAt '@' (frontOf node domain) = node.map fun name => (name.toList, domain.toList) :=
  cutAt_elim_append h.domain.2.1 fun name hname => (h.node name hname).2.1

private theorem readFront_frontOf (h : Proper node domain resource) (text : String) :
    readFront text (frontOf node domain) (resource.map String.toList) =
      .ok (ofParts node domain resource) := by
  have hdomain : domain.toList ≠ [] := fun hnil => h.domain.1 (String.toList_eq_nil_iff.mp hnil)
  cases node with
  | none =>
    rw [frontOf, Option.elim_none, List.nil_append, readFront_of_no_at h.domain.2.1]
    simp [parse.finish, hdomain, h.domain.2.1, Function.comp_def]
  | some name =>
    obtain ⟨hname, hat, -⟩ := h.node name rfl
    rw [frontOf, Option.elim_some, List.append_assoc, List.singleton_append, readFront_of_at hat,
      if_neg fun hnil => hname (String.toList_eq_nil_iff.mp hnil)]
    simp [parse.finish, hdomain, h.domain.2.1, Function.comp_def]

end Proper

/-- A text that is spelled from proper parts is read as these. -/
theorem parse_spelled (h : Proper node domain resource) :
    parse (spelled node domain resource) = .ok (ofParts node domain resource) := by
  have htext := toList_spelled node domain resource
  have hread := h.readFront_frontOf (spelled node domain resource)
  cases resource with
  | none =>
    rw [Option.elim_none, List.append_nil] at htext
    rw [parse_of_no_slash (htext ▸ h.slash_not_mem), htext]
    exact hread
  | some name =>
    have hname : name.toList ≠ [] := fun hnil =>
      h.resource name rfl (String.toList_eq_nil_iff.mp hnil)
    rw [parse_of_slash h.slash_not_mem htext, if_neg hname]
    exact hread

/-- The separators show where the parts meet. -/
theorem spelled_injective {node' resource' : Option String} {domain' : String}
    (h : Proper node domain resource) (h' : Proper node' domain' resource')
    (hsame : spelled node domain resource = spelled node' domain' resource') :
    node = node' ∧ domain = domain' ∧ resource = resource' := by
  have hchars := congrArg String.toList hsame
  have hslash := h.cutAt_slash
  rw [hchars, h'.cutAt_slash] at hslash
  rw [toList_spelled, toList_spelled] at hchars
  obtain ⟨hfront, hresource⟩ : frontOf node domain = frontOf node' domain' ∧
      resource = resource' := by
    cases resource <;> cases resource' <;> simp_all [String.toList_inj]
  have hat := h.cutAt_at
  rw [hfront, h'.cutAt_at] at hat
  cases node <;> cases node' <;> simp_all [frontOf, String.toList_inj]

end Spelled

/-! ## Refused texts -/

section Refused

variable {text : String}

private theorem firstFault?_of_no_at (hresource : ¬ LacksResource text) (hat : '@' ∉ front text) :
    firstFault? text = if front text = [] then some (.emptyDomain text) else none := by
  have hnode : ¬ LacksNode text := fun hhead => hat (List.mem_of_mem_head? hhead)
  have hdomain : LacksDomain text ↔ front text = [] := by
    rw [LacksDomain, dropWhile_ne_self hat]
    simp
  have hrepeats : ¬ RepeatsAt text := by simp [RepeatsAt, List.count_eq_zero.mpr hat]
  simp only [firstFault?, hresource, hnode, hdomain, hrepeats, if_false]

private theorem firstFault?_of_at (hresource : ¬ LacksResource text) {node domain : List Char}
    (hat : '@' ∉ node) (hfront : front text = node ++ '@' :: domain) :
    firstFault? text =
      if node = [] then some (.emptyNode text)
      else if domain = [] then some (.emptyDomain text)
      else if '@' ∈ domain then some (.invalidDomain text)
      else none := by
  have hnode : LacksNode text ↔ node = [] := by
    rw [LacksNode, hfront]
    cases node with
    | nil => simp
    | cons c cs => simpa using fun heq => hat (by simp [heq])
  have hdomain : LacksDomain text ↔ domain = [] := by
    rw [LacksDomain, hfront, dropWhile_ne hat]
    simp
  have hrepeats : RepeatsAt text ↔ '@' ∈ domain := by
    rw [RepeatsAt, hfront, List.count_append, List.count_eq_zero.mpr hat, List.count_cons_self,
      ← List.count_pos_iff]
    omega
  simp only [firstFault?, hresource, hnode, hdomain, hrepeats, if_false]

/-- A text is spelled from proper parts and has no fault, or it is refused for its first fault. -/
def Fares (text : String) (answer : Except AddressError Address) : Prop :=
  (∃ node domain resource, Proper node domain resource ∧ text = spelled node domain resource ∧
    firstFault? text = none) ∨
    ∃ e, answer = .error e ∧ firstFault? text = some e

private theorem proper_of_chars (node : Option (List Char)) {domain : List Char}
    {resource : Option (List Char)} (hnode : ∀ name ∈ node, name ≠ [] ∧ '@' ∉ name ∧ '/' ∉ name)
    (hdomain : domain ≠ [] ∧ '@' ∉ domain ∧ '/' ∉ domain)
    (hresource : ∀ name ∈ resource, name ≠ []) :
    Proper (node.map String.ofList) (String.ofList domain) (resource.map String.ofList) := by
  constructor
  · simpa [← String.toList_eq_nil_iff] using hnode
  · simpa [← String.toList_eq_nil_iff] using hdomain
  · simpa [← String.toList_eq_nil_iff] using hresource

/-- Once it is known that no resource is lacking, what stands before the first slash decides. -/
theorem fares_readFront {resource : Option (List Char)} (hlacks : ¬ LacksResource text)
    (htext : text.toList = front text ++ resource.elim [] ('/' :: ·))
    (hslash : '/' ∉ front text) (hresource : ∀ name ∈ resource, name ≠ []) :
    Fares text (readFront text (front text) resource) := by
  rcases cutAt_cases '@' (front text) with hat | ⟨node, domain, hat, hfront⟩
  · rw [Fares, firstFault?_of_no_at hlacks hat, readFront_of_no_at hat, parse.finish]
    by_cases hempty : front text = []
    · exact .inr ⟨_, if_pos hempty, if_pos hempty⟩
    · refine .inl ⟨none, _, _, proper_of_chars none (by simp) ⟨hempty, hat, hslash⟩
        hresource, ?_, if_neg hempty⟩
      rw [← String.toList_inj, toList_spelled, htext]
      cases resource <;> simp [frontOf]
  · rw [Fares, firstFault?_of_at hlacks hat hfront, hfront, readFront_of_at hat, parse.finish]
    by_cases hnode : node = []
    · exact .inr ⟨_, if_pos hnode, if_pos hnode⟩
    by_cases hdomain : domain = []
    · exact .inr ⟨_, by rw [if_neg hnode, if_pos hdomain], by rw [if_neg hnode, if_pos hdomain]⟩
    by_cases hrepeats : '@' ∈ domain
    · simp only [hnode, hdomain, hrepeats, if_true, if_false]
      exact .inr ⟨_, rfl, rfl⟩
    · rw [hfront, List.mem_append, List.mem_cons, not_or, not_or] at hslash
      simp only [hnode, hdomain, hrepeats, if_false]
      have hproper := proper_of_chars (some node) (by simpa using ⟨hnode, hat, hslash.1⟩)
        ⟨hdomain, hrepeats, hslash.2.2⟩ hresource
      refine .inl ⟨_, _, _, hproper, ?_, trivial⟩
      rw [← String.toList_inj, toList_spelled, htext, hfront]
      cases resource <;> simp [frontOf]

private theorem fares_parse (text : String) : Fares text (parse text) := by
  rcases cutAt_cases '/' text.toList with hslash | ⟨before, after, hbefore, htext⟩
  · have hfront : front text = text.toList := takeWhile_ne_self hslash
    have hlacks : ¬ LacksResource text := by
      rw [LacksResource, dropWhile_ne_self hslash]
      simp
    rw [parse_of_no_slash hslash, ← hfront]
    exact fares_readFront hlacks (by simp [hfront]) (hfront ▸ hslash) (by simp)
  · have hfront : front text = before := by rw [front, htext, takeWhile_ne hbefore]
    have hlacks : LacksResource text ↔ after = [] := by
      rw [LacksResource, htext, dropWhile_ne hbefore]
      simp
    rw [parse_of_slash hbefore htext]
    by_cases hempty : after = []
    · exact .inr ⟨_, if_pos hempty, if_pos (hlacks.mpr hempty)⟩
    · rw [if_neg hempty, ← hfront]
      exact fares_readFront ((not_congr hlacks).mpr hempty) (by simpa [hfront] using htext)
        (hfront ▸ hbefore) (by simpa using hempty)

end Refused

private theorem parse_eq_ok_iff {text : String} {a : Address} : parse text = .ok a ↔
    ∃ node domain resource, Proper node domain resource ∧
      text = spelled node domain resource ∧ a = ofParts node domain resource := by
  constructor
  · intro hread
    rcases fares_parse text with ⟨node, domain, resource, hproper, rfl, -⟩ | ⟨e, hrefused, -⟩
    · rw [parse_spelled hproper] at hread
      exact ⟨node, domain, resource, hproper, rfl, (Except.ok.inj hread).symm⟩
    · rw [hrefused] at hread
      cases hread
  · rintro ⟨node, domain, resource, hproper, rfl, rfl⟩
    exact parse_spelled hproper

private theorem parse_eq_error_iff {text : String} {e : AddressError} :
    parse text = .error e ↔ firstFault? text = some e := by
  rcases fares_parse text with
    ⟨node, domain, resource, hproper, rfl, hfault⟩ | ⟨e', hrefused, hfault⟩
  · rw [parse_spelled hproper, hfault]
    exact ⟨nofun, nofun⟩
  · rw [hrefused, hfault, Except.error.injEq, Option.some.injEq]

/-! ## Text forms -/

/-- A letter from A to Z, code points 65 to 90, becomes the one 32 code points further. -/
private theorem toNat_toLower (c : Char) :
    c.toLower.toNat = if 65 ≤ c.toNat ∧ c.toNat ≤ 90 then c.toNat + 32 else c.toNat := by
  unfold Char.toLower
  split
  · next h =>
    have hcapital : 65 ≤ c.toNat ∧ c.toNat ≤ 90 := h
    rw [if_pos hcapital]
    show (c.val + 32).toNat = c.toNat + 32
    rw [UInt32.toNat_add, Char.toNat_val]
    exact Nat.mod_eq_of_lt (by simp only [UInt32.reduceToNat]; omega)
  · next h =>
    have hother : ¬ (65 ≤ c.toNat ∧ c.toNat ≤ 90) := h
    rw [if_neg hother]

/-- Character by character, A to Z become the letters 32 code points further, and nothing else
changes. -/
theorem map_toNat_canonicalDomain (domain : String) :
    (canonicalDomain domain).toList.map Char.toNat =
      domain.toList.map fun c => if 'A' ≤ c ∧ c ≤ 'Z' then c.toNat + 32 else c.toNat := by
  simp only [canonicalDomain, String.toList_ofList, List.map_map]
  refine List.map_congr_left fun c _ => (toNat_toLower c).trans ?_
  exact ite_congr rfl (fun _ => rfl) fun _ => rfl

/-- Lowercasing a domain neither makes nor removes a character that comes before the letters. -/
private theorem mem_canonicalDomain_iff {domain : String} {c : Char} (hc : c.toNat < 65) :
    c ∈ (canonicalDomain domain).toList ↔ c ∈ domain.toList := by
  have hlower : ∀ d : Char, d.toLower = c ↔ d = c := by
    intro d
    rw [← Char.toNat_inj, ← Char.toNat_inj, toNat_toLower]
    split <;> omega
  simp [canonicalDomain, hlower]

private theorem canonicalDomain_canonicalDomain (domain : String) :
    canonicalDomain (canonicalDomain domain) = canonicalDomain domain := by
  simp only [canonicalDomain, String.toList_ofList, List.map_map]
  refine congrArg String.ofList (List.map_congr_left fun c _ => ?_)
  rw [Function.comp_apply, ← Char.toNat_inj, toNat_toLower, if_neg]
  rw [toNat_toLower]
  split <;> omega

/-- A proper domain is proper in lower case. -/
theorem Proper.lower {node resource : Option String} {domain : String}
    (h : Proper node domain resource) : Proper node (canonicalDomain domain) resource := by
  refine ⟨h.node, ⟨?_, ?_, ?_⟩, h.resource⟩
  · simpa [canonicalDomain, ← String.toList_eq_nil_iff] using h.domain.1
  · exact (not_congr (mem_canonicalDomain_iff (by decide))).mpr h.domain.2.1
  · exact (not_congr (mem_canonicalDomain_iff (by decide))).mpr h.domain.2.2

private theorem render_ofParts (node : Option String) (domain : String) (resource : Option String) :
    (ofParts node domain resource).render = spelled node (canonicalDomain domain) resource := by
  cases node <;> cases resource <;> rfl

/-- The text form of an address that was read or made from proper parts is read back. -/
theorem IsProper.parse_render {a : Address} (h : a.IsProper) : parse a.render = .ok a := by
  obtain ⟨node, domain, resource, hproper, rfl⟩ : ∃ node domain resource,
      Proper node domain resource ∧ a = ofParts node domain resource := by
    rcases h with ⟨text, hread⟩ | hparts
    · obtain ⟨node, domain, resource, hproper, -, rfl⟩ := parse_eq_ok_iff.mp hread
      exact ⟨node, domain, resource, hproper, rfl⟩
    · exact hparts
  rw [render_ofParts, parse_spelled hproper.lower, ofParts, canonicalDomain_canonicalDomain]
  rfl

/-- The reader accepts exactly the texts of the grammar, of which the parts are unique; the domain
comes in lower case, which changes A to Z alone, and the text form of what was read is the text with
its domain in lower case. Every address that was read, or made from parts that the grammar admits,
is read back from its text form, so different ones have different text forms. A text is refused
exactly if it has one of the four faults, and then for the first of them. -/
theorem reads_grammar :
    (∀ text a, parse text = .ok a ↔ ∃ node domain resource, Proper node domain resource ∧
      text = spelled node domain resource ∧ a = ⟨node, canonicalDomain domain, resource⟩) ∧
    (∀ node domain resource node' domain' resource',
      Proper node domain resource → Proper node' domain' resource' →
      spelled node domain resource = spelled node' domain' resource' →
      node = node' ∧ domain = domain' ∧ resource = resource') ∧
    (∀ domain, (canonicalDomain domain).toList.map Char.toNat =
      domain.toList.map fun c => if 'A' ≤ c ∧ c ≤ 'Z' then c.toNat + 32 else c.toNat) ∧
    (∀ node domain resource, Address.render ⟨node, canonicalDomain domain, resource⟩ =
      spelled node (canonicalDomain domain) resource) ∧
    (∀ a, IsProper a → parse a.render = .ok a) ∧
    (∀ a b, IsProper a → IsProper b → a.render = b.render → a = b) ∧
    ∀ text e, parse text = .error e ↔ firstFault? text = some e := by
  refine ⟨fun _ _ => parse_eq_ok_iff, fun _ _ _ _ _ _ => spelled_injective,
    map_toNat_canonicalDomain, render_ofParts, fun _ => IsProper.parse_render,
    fun a b ha hb hsame => ?_, fun _ _ => parse_eq_error_iff⟩
  have hread := ha.parse_render
  rw [hsame, hb.parse_render] at hread
  exact (Except.ok.inj hread).symm

example : parse "Room@MUC.example.org/nick/with@odd" =
    .ok ⟨some "Room", "muc.example.org", some "nick/with@odd"⟩ := by
  decide

end DirectedPresence.Address
