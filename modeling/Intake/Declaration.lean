import Intake.Definition

/-!
This module contains the declarations of fields: definitions in the form of JSON objects whose
members are settings, or of arrays that list all settings in order.
-/

namespace Intake

/--
The settings that a declaration gives. A setting that is null counts as not given.
-/
structure Declaration where
  type : Option String := none
  pattern : Option String := none
  omitEmpty : Option Bool := none
  bounds : Bounds := {}
deriving DecidableEq

namespace Declaration

def gives (declaration : Declaration) : Setting → Bool
  | .type => declaration.type.isSome
  | .pattern => declaration.pattern.isSome
  | .omitEmpty => declaration.omitEmpty.isSome
  | .limit l => (declaration.bounds.get l).isSome

def set (declaration : Declaration) : Setting → Json → Except Fault Declaration
  | .type, .str name => .ok { declaration with type := some name }
  | .type, value => .error (.wrongValue value .text)
  | _, .null => .ok declaration
  | .pattern, .str source => .ok { declaration with pattern := some source }
  | .pattern, value => .error (.wrongValue value .text)
  | .omitEmpty, .bool flag => .ok { declaration with omitEmpty := some flag }
  | .omitEmpty, value => .error (.wrongValue value .flag)
  | .limit l, .num n => .ok { declaration with bounds := declaration.bounds.set l n.toDouble }
  | .limit _, value => .error (.wrongValue value .number)

def setMember (declaration : Declaration) (name : String) (value : Json) :
    Except Fault Declaration :=
  match Setting.ofName? name with
  | some setting => declaration.set setting value
  | none => .error (.unknownSetting name)

def ofMembers (members : Entries Json) : Except Fault Declaration :=
  members.foldlM (fun declaration (name, value) => declaration.setMember name value) {}

def ofElements (elements : List Json) : Except Fault Declaration := do
  let declaration ← (Setting.all.zip elements).foldlM
    (fun declaration (setting, value) => declaration.set setting value) {}
  if elements.length < Setting.all.length then .error (.tooFew elements.length)
  else if Setting.all.length < elements.length then .error (.tooMany elements.length)
  else .ok declaration

def ofJson : Json → Except Fault Declaration
  | .obj members => ofMembers members
  | .arr elements => ofElements elements
  | value => .error (.notSettings value)

def misplaced? (declaration : Declaration) (type : FieldType) : Option Setting :=
  Setting.all.find? fun setting => declaration.gives setting && !setting.allowedOn type

variable [Engine]

def build (declaration : Declaration) : FieldType → Except Rejection Definition
  | .string => do
    let rule ← match declaration.pattern with
      | some source => TextRule.matchingSource {} source
      | none => .ok {}
    return .string (if declaration.omitEmpty = some true then rule.omittingEmpty else rule)
  | .number => .ok (.number declaration.bounds.assemble)
  | .integer => .ok (.integer declaration.bounds.assemble)
  | .boolean => .ok .boolean

def define (declaration : Declaration) : Except Rejection Definition :=
  match declaration.type with
  | none => .error (.of (.malformedDeclaration .missingType) none)
  | some name =>
    match FieldType.ofName? name with
    | none => .error (.of (.unknownType name) none)
    | some type =>
      match declaration.misplaced? type with
      | some setting => .error (.of (.misplaced setting type) none)
      | none => declaration.build type

end Declaration

variable [Engine]

def Definition.ofJson (value : Json) : Except Rejection Definition :=
  match Declaration.ofJson value with
  | .ok declaration => declaration.define
  | .error fault => .error (.of (.malformedDeclaration fault) none)

def Definition.ofTypeName (name : String) : Except Rejection Definition :=
  match FieldType.ofName? name with
  | some type => .ok (.ofType type)
  | none => .error (.of (.unknownType name) none)

end Intake
