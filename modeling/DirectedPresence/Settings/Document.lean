import DirectedPresence.Json
import DirectedPresence.Settings

/-!
Settings from a JSON document. The document overrides the defaults, setting by setting; the result
is then validated.
-/

namespace DirectedPresence.Settings

inductive DocumentError where
  | unreadable (fault : Json.Fault)
  | invalid (cause : SettingsError)
deriving DecidableEq, Repr

/-- Reads settings over the defaults, without validating them. -/
def parse (document : String) : Except Json.Fault Settings :=
  (Json.finish (fields.read (Form.toValue ({} : Settings)) document.toList)).map Form.ofValue

/-- Reads settings over the defaults and validates them. -/
def ofDocument (document : String) : Except DocumentError Settings :=
  match parse document with
  | .error fault => .error (.unreadable fault)
  | .ok settings =>
    match settings.validate with
    | .error cause => .error (.invalid cause)
    | .ok settings => .ok settings

end DirectedPresence.Settings
