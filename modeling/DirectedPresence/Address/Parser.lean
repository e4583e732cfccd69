import DirectedPresence.Address
import DirectedPresence.Text.Quoted

/-!
The text form of addresses. `Address.render` writes `[node@]domain[/resource]` and `Address.parse`
reads it. The resource starts after the first slash, the node part ends at the first at-sign before
it, and what is left between them is the domain, which must not be empty nor hold another at-sign.
-/

namespace DirectedPresence

/-- Why a text is not an address. Each cause carries the refused text. -/
inductive AddressError where
  | emptyResource (text : String)
  | emptyNode (text : String)
  | emptyDomain (text : String)
  | invalidDomain (text : String)
deriving DecidableEq, Repr

def AddressError.message : AddressError → String
  | .emptyResource text => "address has an empty resource: " ++ Text.quoted text
  | .emptyNode text => "address has an empty node part: " ++ Text.quoted text
  | .emptyDomain text => "address has an empty domain: " ++ Text.quoted text
  | .invalidDomain text => "address has more than one node separator: " ++ Text.quoted text

namespace Address

/-- The parts of `cs` before and after the first `sep`, if there is one. -/
def cutAt (sep : Char) : List Char → Option (List Char × List Char)
  | [] => none
  | c :: cs => if c = sep then some ([], cs) else (cutAt sep cs).map fun cut => (c :: cut.1, cut.2)

theorem cutAt_eq_none_iff {sep : Char} {cs : List Char} : cutAt sep cs = none ↔ sep ∉ cs := by
  induction cs with
  | nil => simp [cutAt]
  | cons c cs ih =>
    by_cases h : c = sep
    · simp [cutAt, h]
    · simp [cutAt, h, ih, Ne.symm h]

theorem cutAt_eq_some_iff {sep : Char} {cs before after : List Char} :
    cutAt sep cs = some (before, after) ↔ sep ∉ before ∧ cs = before ++ sep :: after := by
  induction cs generalizing before with
  | nil => simp [cutAt]
  | cons c cs ih =>
    by_cases h : c = sep
    · subst h
      cases before with
      | nil => simp [cutAt]
      | cons b bs => simp [cutAt]; grind
    · cases before with
      | nil => simp [cutAt, h]
      | cons b bs => simp [cutAt, h, ih]; grind

/-- Reads the text form of an address. The first of the four causes that applies is reported. -/
def parse (text : String) : Except AddressError Address :=
  let split : Option (List Char × Option (List Char)) :=
    match cutAt '/' text.toList with
    | some (_, []) => none
    | some (front, resource) => some (front, some resource)
    | none => some (text.toList, none)
  match split with
  | none => .error (.emptyResource text)
  | some (front, resource) =>
    match cutAt '@' front with
    | some ([], _) => .error (.emptyNode text)
    | some (node, domain) => finish (some node) domain resource
    | none => finish none front resource
where
  /-- Checks the domain and puts the parts together. -/
  finish (node : Option (List Char)) (domain : List Char) (resource : Option (List Char)) :
      Except AddressError Address :=
    if domain = [] then .error (.emptyDomain text)
    else if '@' ∈ domain then .error (.invalidDomain text)
    else .ok (ofParts (node.map String.ofList) (String.ofList domain)
      (resource.map String.ofList))

def render (a : Address) : String :=
  (match a.node with | some node => node ++ "@" | none => "") ++ a.domain ++
    (match a.resource with | some resource => "/" ++ resource | none => "")

def describe (a : Address) : String :=
  "Address(" ++ a.render ++ ")"

end Address

def NodeId.describe (n : NodeId) : String :=
  "NodeId(" ++ n.name ++ ")"

end DirectedPresence
