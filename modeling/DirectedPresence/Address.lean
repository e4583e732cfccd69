import Std.Data.ExtTreeMap
import Std.Data.ExtTreeSet

/-!
Addresses and node identifiers. An address names an entity of the messaging network: an optional
node part, a domain, and an optional resource, displayed as `node@domain/resource`. Both kinds of
name are totally ordered, by code point, with an absent part before every present one; maps and
sets keyed by them are therefore listed in one order whatever their history.
-/

namespace DirectedPresence

/-- The name of a server in the cluster. Any text is a name. -/
structure NodeId where
  name : String
deriving DecidableEq, Repr, Inhabited

/-- The address of a network entity. Only the reader of `Address.parse` and the builders below
lowercase the domain; an address received in a stored form keeps what it was stored with. -/
structure Address where
  node : Option String
  domain : String
  resource : Option String
deriving DecidableEq, Repr, Inhabited

namespace NodeId

instance : Ord NodeId := ⟨compareOn NodeId.name⟩

instance : Std.TransOrd NodeId := inferInstanceAs (Std.TransCmp (compareOn NodeId.name))

instance : Std.LawfulEqOrd NodeId where
  eq_of_compare {a b} h := by
    have h : compare a.name b.name = .eq := h
    obtain ⟨a⟩ := a
    simp_all

end NodeId

namespace Address

/-- Node part first, then domain, then resource. -/
instance : Ord Address :=
  ⟨compareLex (compareOn node) (compareLex (compareOn domain) (compareOn resource))⟩

instance : Std.TransOrd Address :=
  inferInstanceAs (Std.TransCmp
    (compareLex (compareOn node) (compareLex (compareOn domain) (compareOn resource))))

instance : Std.LawfulEqOrd Address where
  eq_of_compare {a b} h := by
    have h : compareLex (compareOn node) (compareLex (compareOn domain) (compareOn resource)) a b
        = .eq := h
    simp only [compareLex_eq_eq, compareOn, Std.LawfulEqOrd.compare_eq_iff_eq] at h
    obtain ⟨node, domain, resource⟩ := a
    simp_all

/-- A domain in its canonical form: the letters A to Z in lower case. -/
def canonicalDomain (domain : String) : String :=
  String.ofList (domain.toList.map Char.toLower)

/-- The address with these parts. Nothing is checked; the domain is made canonical. -/
def ofParts (node : Option String) (domain : String) (resource : Option String) : Address :=
  ⟨node, canonicalDomain domain, resource⟩

def ofDomain (domain : String) : Address :=
  ofParts none domain none

def isBare (a : Address) : Bool :=
  a.resource.isNone

def bare (a : Address) : Address :=
  { a with resource := none }

/-- Whether two addresses belong to one account: they agree up to the resource. -/
def sameBare (a b : Address) : Bool :=
  a.node = b.node ∧ a.domain = b.domain

theorem sameBare_iff {a b : Address} : a.sameBare b = true ↔ a.bare = b.bare := by
  simp [sameBare, bare]

end Address

abbrev AddressSet := Std.ExtTreeSet Address compare

abbrev AddressMap (α : Type) := Std.ExtTreeMap Address α compare

theorem AddressMap.erase_eq_self {α : Type} {m : AddressMap α} {key : Address}
    (h : m[key]? = none) : m.erase key = m := by
  apply Std.ExtTreeMap.ext_getElem?
  intro other
  by_cases hk : key = other
  · subst hk
    simp [h]
  · simp [Std.ExtTreeMap.getElem?_erase, hk]

abbrev NodeMap (α : Type) := Std.ExtTreeMap NodeId α compare

end DirectedPresence
