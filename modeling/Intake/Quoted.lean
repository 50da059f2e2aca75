import Intake.Unicode.Unprintable

namespace Intake

namespace Quoted

def char (c : Char) : List Char :=
  match c with
  | '\x00' => ['\\', '0']
  | '\t' => ['\\', 't']
  | '\n' => ['\\', 'n']
  | '\r' => ['\\', 'r']
  | '\\' => ['\\', '\\']
  | '"' => ['\\', '"']
  | _ =>
    if Unicode.unprintable.contains c then
      '\\' :: 'u' :: '\x7b' :: (Nat.toDigits 16 c.toNat ++ ['\x7d'])
    else
      [c]

def encode (text : String) : String :=
  String.ofList ('"' :: (text.toList.flatMap char ++ ['"']))

end Quoted

end Intake
