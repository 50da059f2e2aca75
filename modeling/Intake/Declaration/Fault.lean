import Intake.Json.Short
import Intake.Quoted
import Intake.Vocabulary

namespace Intake

namespace Declaration

inductive Expectation where
  | text
  | flag
  | number
deriving DecidableEq

def Expectation.phrase : Expectation → String
  | text => "a string"
  | flag => "a boolean"
  | number => "f64"

inductive Fault where
  | notSettings (found : Json)
  | unknownSetting (name : String)
  | wrongValue (found : Json) (expected : Expectation)
  | missingType
  | tooFew (count : Nat)
  | tooMany (count : Nat)
deriving DecidableEq

def describe : Json → String
  | .null => "null"
  | .bool value => "boolean `" ++ toString value ++ "`"
  | .num (.int value _ _) => "integer `" ++ toString value ++ "`"
  | .num (.float value) => "floating point `" ++ Layout.report.ofFinite value ++ "`"
  | .str value => "string " ++ Quoted.encode value
  | .arr _ => "sequence"
  | .obj _ => "map"

namespace Fault

def settingNames : String :=
  ", ".intercalate (Setting.all.map fun setting => "`" ++ setting.name ++ "`")

def message : Fault → String
  | notSettings found => "invalid type: " ++ describe found ++ ", expected struct RawFieldDef"
  | unknownSetting name => "unknown field `" ++ name ++ "`, expected one of " ++ settingNames
  | wrongValue found expected =>
    "invalid type: " ++ describe found ++ ", expected " ++ expected.phrase
  | missingType => "missing field `" ++ Setting.type.name ++ "`"
  | tooFew count =>
    "invalid length " ++ toString count ++ ", expected struct RawFieldDef with 7 elements"
  | tooMany count => "invalid length " ++ toString count ++ ", expected fewer elements in array"

end Fault

end Declaration

end Intake
