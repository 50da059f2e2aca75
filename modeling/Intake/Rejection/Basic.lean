import Intake.Rejection.Cause

namespace Intake

inductive Segment where
  | field (name : String)
  | index (position : Nat)
deriving DecidableEq

namespace Segment

def appendTo (text : String) : Segment → String
  | field name => if text = "" then name else text ++ "." ++ name
  | index position => text ++ "[" ++ toString position ++ "]"

def pathText (path : List Segment) : String :=
  path.foldl appendTo ""

end Segment

structure Rejection where
  cause : Cause
  path : List Segment
  received : Option Json
deriving DecidableEq

namespace Rejection

def of (cause : Cause) (found : Option Json) : Rejection where
  cause
  path := []
  received := found.map Json.truncated

def locate (rejection : Rejection) (path : List Segment) : Rejection :=
  { rejection with path }

def receivedFrom (rejection : Rejection) (given : Option Json) : Rejection :=
  match rejection.received with
  | some _ => { rejection with received := given.map Json.truncated }
  | none => rejection

def kind (rejection : Rejection) : Kind :=
  rejection.cause.kind

def message (rejection : Rejection) : String :=
  rejection.cause.message

def pathText (rejection : Rejection) : String :=
  Segment.pathText rejection.path

def isSchemaFault (rejection : Rejection) : Bool :=
  rejection.kind = .schema

def text (rejection : Rejection) : String :=
  if rejection.path.isEmpty then rejection.message
  else rejection.pathText ++ " " ++ rejection.message

end Rejection

end Intake
