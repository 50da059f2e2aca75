import Intake.Document
import Intake.FieldPath
import Intake.Schema
import Intake.Unclaimed

/-!
This module contains validators, which are compiled schemas. A document is cleaned field by field in
the order of the schema; the first fault rejects it, and so do keys that no field claims.
-/

namespace Intake

variable [Engine]

structure Field where
  path : FieldPath
  definition : Definition
deriving DecidableEq

structure Validator where
  fields : List Field
deriving DecidableEq

structure Progress where
  copy : Entries Json
  unclaimed : Unclaimed
deriving DecidableEq

namespace Progress

def ofDocument (doc : Entries Json) : Progress where
  copy := Document.workingCopy doc
  unclaimed := .ofKeys (Document.recordedKeys doc)

def claim (progress : Progress) (path : String) : Progress :=
  { progress with unclaimed := progress.unclaimed.claim path }

end Progress

namespace Field

def store (entries : Entries Json) (key : String) : Option Json → Entries Json
  | some value => entries.insert key value
  | none => entries.erase key

/--
Clean a member of the document. A rejection shows the value that the caller gave, since the elements
of an array are missing from the copy.
-/
def cleanMember (field : Field) (given : Option Json) (copy : Entries Json) :
    Except Rejection (Entries Json) :=
  match field.definition.clean (copy.get? field.path.prop.text) with
  | .ok cleaned => .ok (store copy field.path.prop.text cleaned)
  | .error rejection =>
    .error ((rejection.receivedFrom given).locate (field.path.segments none))

def cleanElement (field : Field) (sub : String) : Json → Except Rejection Json
  | .obj members => do
    let cleaned ← field.definition.clean (Entries.get? members sub)
    return .obj (store members sub cleaned)
  | _ => .error (.of .notObject none)

def cleanElements (field : Field) (sub : String) (index : Nat) :
    List Json → Except Rejection (List Json)
  | [] => .ok []
  | element :: rest => do
    let cleaned ← (field.cleanElement sub element).mapError
      (·.locate (field.path.segments (some index)))
    return cleaned :: (← cleanElements field sub (index + 1) rest)

def cleanArray (field : Field) (sub : String) (copy : Entries Json) :
    Except Rejection (Entries Json) :=
  match copy.get? field.path.prop.text with
  | some (.arr elements) => do
    return copy.insert field.path.prop.text (.arr (← field.cleanElements sub 0 elements))
  | some value =>
    .error ((Rejection.of .notArray (some value)).locate [.field field.path.prop.text])
  | none => .ok (copy.insert field.path.prop.text (.arr []))

def apply (field : Field) (doc : Entries Json) (progress : Progress) :
    Except Rejection Progress := do
  let claimed := progress.claim field.path.text
  let copy ← match field.path.sub? with
    | none => field.cleanMember (doc.get? field.path.prop.text) claimed.copy
    | some sub => field.cleanArray sub.text claimed.copy
  return { claimed with copy }

def compile (path : String) (definition : Definition) : Except Rejection Field := do
  let fieldPath ← FieldPath.parse path
  definition.checkBounds.mapError (·.locate [.field path])
  return ⟨fieldPath, definition⟩

end Field

namespace Validator

def ofSchema (schema : Schema) : Except Rejection Validator := do
  return ⟨← schema.entries.mapM fun (path, definition) => Field.compile path definition⟩

def paths (validator : Validator) : List String :=
  validator.fields.map (·.path.text)

def validateObject (validator : Validator) (doc : Entries Json) :
    Except Rejection (Entries Json) := do
  let progress ← validator.fields.foldlM (fun progress field => field.apply doc progress)
    (Progress.ofDocument doc)
  if progress.unclaimed.isEmpty then .ok progress.copy
  else .error (.of (.unexpected progress.unclaimed.leftovers) none)

def validate (validator : Validator) : Json → Except Rejection (Entries Json)
  | .obj doc => validator.validateObject doc
  | value => .error (.of (.notDocument value.typeName) (some value))

def accepts (validator : Validator) (doc : Json) : Bool :=
  (validator.validate doc).isOk

def text (validator : Validator) : String :=
  "Validator \x7b fields: [" ++ ", ".intercalate (validator.paths.map Quoted.encode) ++ "] \x7d"

end Validator

end Intake
