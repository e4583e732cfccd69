import DirectedPresence.Json.Parser
import DirectedPresence.Json.Printer

/-!
JSON documents that hold one value of a type with a `Form`. `render` writes one and `parse` reads
one; what `render` writes has no blanks, but `parse` accepts them between any two tokens.
-/

namespace DirectedPresence

namespace Json

/-- Nothing but blanks may follow the value of a document. -/
def finish {α : Type} : Except Fault (α × List Char) → Except Fault α
  | .error e => .error e
  | .ok (a, cs) => if dropBlanks cs = [] then .ok a else .error .malformed

def render {α : Type} [Form α] (a : α) : String :=
  String.ofList ((Form.shape α).write (Form.toValue a))

def parse (α : Type) [Form α] (document : String) : Except Fault α :=
  (finish ((Form.shape α).read document.toList)).map Form.ofValue

end Json

end DirectedPresence
