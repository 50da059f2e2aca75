import Intake.Json.Basic

/-!
This module contains what a validator makes of a document before it looks at any field: a working
copy and the list of the keys that have to be claimed.
-/

namespace Intake

namespace Document

def workingElement : Json → Json
  | .obj members => .obj members
  | _ => .null

def workingValue : Json → Json
  | .arr elements => .arr (elements.map workingElement)
  | value => value

def workingCopy (doc : Entries Json) : Entries Json :=
  doc.map fun (key, value) => (key, workingValue value)

def elementKeys (key : String) : Json → List String
  | .obj members => members.map fun member => key ++ "." ++ member.1
  | _ => []

def memberKeys (key : String) : Json → List String
  | .arr elements => elements.flatMap (elementKeys key)
  | _ => [key]

def recordedKeys (doc : Entries Json) : List String :=
  doc.flatMap fun (key, value) => memberKeys key value

end Document

end Intake
