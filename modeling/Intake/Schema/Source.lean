import Intake.Declaration
import Intake.Schema

namespace Intake

namespace Schema

variable [Engine]

def ofMembers (members : Entries Json) : Except Rejection Schema :=
  members.foldlM (fun schema (path, value) => do
    let definition ← (Definition.ofJson value).mapError (·.locate [.field path])
    return schema.insert path definition) empty

def ofJson : Json → Except Rejection Schema
  | .obj members => ofMembers members
  | value => .error (.of (.schemaNotObject value.typeName) none)

def ofSource {α : Type} (read : α → Except String Json) (source : α) : Except Rejection Schema :=
  match read source with
  | .ok value => ofJson value
  | .error detail => .error (.of (.malformedText detail) none)

def ofFile (read : String → Except String Json) (name : String)
    (content : Except String String) : Except Rejection Schema :=
  match content with
  | .ok text => ofSource read text
  | .error detail => .error (.of (.unreadableFile name detail) none)

end Schema

end Intake
