import Intake.Declaration.Fault

namespace Intake

inductive Kind where
  | schema
  | type
  | validation
  | schemaMismatch
  | unexpected (keys : List String)
deriving DecidableEq

namespace Kind

def key : Kind → String
  | schema => "schema"
  | type => "invalid_type"
  | validation => "invalid_value"
  | schemaMismatch => "schema_mismatch"
  | unexpected _ => "unexpected_property"

end Kind

inductive Cause where
  | malformedPath (raw : String)
  | unknownType (name : String)
  | misplaced (setting : Setting) (type : FieldType)
  | malformedPattern (source detail : String)
  | malformedDeclaration (fault : Declaration.Fault)
  | schemaNotObject (typeName : String)
  | malformedText (detail : String)
  | unreadableFile (name detail : String)
  | notFiniteBound (limit : Limit) (bound : Double)
  | notDocument (typeName : String)
  | notConvertible (typeName : String)
  | notFinite
  | notBooleanText
  | notBooleanNumber
  | noMatch (source : String)
  | outOfBounds (limit : Limit) (bound : Double)
  | notObject
  | notArray
  | unexpected (keys : List String)
  | stated (kind : Kind) (message : String)
deriving DecidableEq

namespace Cause

def kind : Cause → Kind
  | malformedPath _ | unknownType _ | misplaced _ _ | malformedPattern _ _ | malformedDeclaration _
  | schemaNotObject _ | malformedText _ | unreadableFile _ _ | notFiniteBound _ _ => .schema
  | notDocument _ | notConvertible _ | notFinite | notBooleanText | notBooleanNumber => .type
  | noMatch _ | outOfBounds _ _ | notObject => .validation
  | notArray => .schemaMismatch
  | unexpected keys => .unexpected keys
  | stated kind _ => kind

def message : Cause → String
  | malformedPath raw => "invalid property name: " ++ raw
  | unknownType name => "unknown field type: " ++ name
  | misplaced setting type => setting.name ++ " is not allowed on " ++ type.name ++ " fields"
  | malformedPattern source detail => "invalid pattern /" ++ source ++ "/: " ++ detail
  | malformedDeclaration fault => "invalid field definition: " ++ fault.message
  | schemaNotObject typeName => "schema must be an object, received " ++ typeName
  | malformedText detail => "invalid schema JSON: " ++ detail
  | unreadableFile name detail => "failed to read schema file " ++ name ++ ": " ++ detail
  | notFiniteBound limit bound =>
    limit.name ++ " bound must be a finite number, got " ++ bound.text
  | notDocument typeName => "document cannot be " ++ typeName
  | notConvertible typeName => "cannot be " ++ typeName
  | notFinite => "cannot be Infinity, -Infinity, or NaN"
  | notBooleanText => "must be \"true\", \"1\", \"false\", \"0\", or \"\" for string conversion"
  | notBooleanNumber => "must be 1 or 0 for number conversion"
  | noMatch source => "must match /" ++ source ++ "/"
  | outOfBounds limit bound => "must be " ++ limit.phrase ++ " " ++ bound.text
  | notObject => "must be an object"
  | notArray => "must be an array of objects"
  | unexpected keys =>
    if keys.length ≤ 1 then "unexpected property: " ++ String.join keys
    else "unexpected properties: " ++ ", ".intercalate keys
  | stated _ message => message

end Cause

end Intake
