import Intake.Double.Layout
import Intake.Json.Basic

namespace Intake

def Number.text : Number → String
  | int value _ _ => toString value
  | float value => Layout.report.ofFinite value

def ellipsis (most kept : Nat) (text : String) : String :=
  if text.length ≤ most then text else String.ofList (text.toList.take kept) ++ "..."

namespace Json

def short : Json → String
  | null => "null"
  | bool value => toString value
  | num value => value.text
  | str value => "\"" ++ ellipsis 50 47 value ++ "\""
  | arr elements => "Array(len=" ++ toString elements.length ++ ")"
  | obj members => "Object(keys=" ++ toString members.length ++ ")"

def truncated : Json → Json
  | str value => str (ellipsis 100 97 value)
  | arr elements =>
    if elements.length ≤ 5 then
      arr elements
    else
      arr (elements.take 5 ++ [str ("... (" ++ toString (elements.length - 5) ++ " more)")])
  | obj members =>
    if members.length ≤ 5 then obj members
    else str ("Object(keys=" ++ toString members.length ++ ")")
  | value => value

end Json

end Intake
