import Intake.Rejection.Basic
import Intake.Utf8

/-!
This module contains the paths of fields: `prop` is a member of the document and `prop.sub` a member
of every element of the array `prop`. Reading a path and writing it are inverse.
-/

namespace Intake

def isWordByte (b : UInt8) : Bool :=
  'A'.toUInt8 ≤ b && b ≤ 'Z'.toUInt8 || 'a'.toUInt8 ≤ b && b ≤ 'z'.toUInt8 ||
    '0'.toUInt8 ≤ b && b ≤ '9'.toUInt8 || b = '_'.toUInt8

def isWord (cs : List Char) : Bool :=
  !cs.isEmpty && (Utf8.encode cs).all isWordByte

structure Word where
  text : String
  wellFormed : isWord text.toList
deriving DecidableEq

def Word.ofList? (cs : List Char) : Option Word :=
  if h : isWord (String.ofList cs).toList then some ⟨String.ofList cs, h⟩ else none

structure FieldPath where
  prop : Word
  sub? : Option Word
deriving DecidableEq

namespace FieldPath

def ofText? (raw : String) : Option FieldPath :=
  let cs := raw.toList
  match Word.ofList? (cs.takeWhile (· ≠ '.')), cs.dropWhile (· ≠ '.') with
  | some prop, [] => some ⟨prop, none⟩
  | some prop, _ :: rest => (Word.ofList? rest).map fun sub => ⟨prop, some sub⟩
  | none, _ => none

def parse (raw : String) : Except Rejection FieldPath :=
  match ofText? raw with
  | some path => .ok path
  | none => .error (.of (.malformedPath raw) none)

def text (path : FieldPath) : String :=
  match path.sub? with
  | some sub => path.prop.text ++ "." ++ sub.text
  | none => path.prop.text

def segments (path : FieldPath) (index : Option Nat) : List Segment :=
  match path.sub? with
  | some sub => .field path.prop.text :: (index.toList.map .index ++ [.field sub.text])
  | none => [.field path.prop.text]

end FieldPath

end Intake
