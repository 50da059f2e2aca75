import Intake.Rejection.Basic

namespace Intake

namespace Rejection

def circumstances (rejection : Rejection) : List String :=
  (if rejection.path.isEmpty then [] else ["at " ++ rejection.pathText]) ++
    rejection.received.toList.map fun value => "received " ++ value.short

def detailLines (rejection : Rejection) : List String :=
  match rejection.kind with
  | .unexpected keys => keys.map ("  → " ++ ·)
  | _ =>
    if rejection.circumstances.isEmpty then []
    else ["  → " ++ ", ".intercalate rejection.circumstances]

def report (rejection : Rejection) : String :=
  "\n".intercalate (("✖ " ++ rejection.message) :: rejection.detailLines)

end Rejection

def Kind.toJson : Kind → Json
  | schema => .str "Schema"
  | type => .str "Type"
  | validation => .str "Validation"
  | schemaMismatch => .str "SchemaMismatch"
  | unexpected keys => .obj [("UnexpectedProperty", .obj [("keys", .arr (keys.map .str))])]

def Segment.toJson : Segment → Json
  | field name => .obj [("Field", .str name)]
  | index position => .obj [("Index", .ofNat position)]

namespace Rejection

def toJson (rejection : Rejection) : Json :=
  .obj [
    ("kind", rejection.kind.toJson),
    ("message", .str rejection.message),
    ("path", .arr (rejection.path.map Segment.toJson)),
    ("received", rejection.received.getD .null)]

end Rejection

end Intake
