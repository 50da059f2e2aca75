import Intake.CodePoint
import Intake.Json.Basic
import Intake.Numeral
import Intake.Step

/-!
This module contains the reader of JSON texts. A member that is repeated keeps its first position
and takes its last value; values that are nested too deep, numbers beyond the range of doubles and
escapes that are no character are refused. Elements and members are read after the opening bracket
or a comma.
-/

namespace Intake

namespace Json

def isBlank (c : Char) : Bool :=
  c = ' ' || c = '\t' || c = '\n' || c = '\r'

def skipBlanks (cs : List Char) : List Char :=
  cs.dropWhile isBlank

theorem length_skipBlanks_le (cs : List Char) : (skipBlanks cs).length ≤ cs.length :=
  (List.dropWhile_suffix isBlank).length_le

theorem length_lt_of_skipBlanks_eq {cs rest : List Char} {c : Char}
    (h : skipBlanks cs = c :: rest) : rest.length < cs.length := by
  have := length_skipBlanks_le cs
  rw [h, List.length_cons] at this
  exact this

/-! ### Numbers -/

def integer? (negative : Bool) (digits : List Char) : Option Number :=
  let magnitude := Nat.ofDigitChars 10 digits 0
  let value : Int := if negative then -magnitude else magnitude
  if h : -9223372036854775808 ≤ value ∧ value < 18446744073709551616 then
    if negative && magnitude = 0 then none else some (.int value h.1 h.2)
  else
    none

def float? (negative : Bool) (d : Decimal) : Option Number :=
  match Double.ofDecimal negative d with
  | .finite x => some (.float x)
  | _ => none

def number? (cs : List Char) : Option Number := do
  let negative := cs.head? = some '-'
  let (whole, cs) := Numeral.splitDigits (if negative then cs.drop 1 else cs)
  if whole.isEmpty || (whole.head? = some '0' && whole.length ≠ 1) then
    none
  else
    let (fraction, cs) := Numeral.splitFraction false cs
    let exponent ← Numeral.exponent? cs
    let plain := if fraction.isEmpty && cs.isEmpty then integer? negative whole else none
    plain <|> float? negative (.ofParts whole (fraction.drop 1) exponent)

def inNumber (c : Char) : Bool :=
  c.isDigit || c ∈ ['+', '-', '.', 'e', 'E']

/-! ### Strings -/

def escape? : Char → Option Char
  | '"' => some '"'
  | '\\' => some '\\'
  | '/' => some '/'
  | 'b' => some '\x08'
  | 'f' => some '\x0c'
  | 'n' => some '\n'
  | 'r' => some '\r'
  | 't' => some '\t'
  | _ => none

def unescape? : List Char → Option (List Char)
  | [] => some []
  | '\\' :: 'u' :: a :: b :: c :: d :: rest => do
    let unit ← CodePoint.ofHex? [a, b, c, d]
    if 0xd800 ≤ unit && unit < 0xdc00 then
      match rest with
      | '\\' :: 'u' :: e :: f :: g :: h :: rest =>
        let low ← CodePoint.ofHex? [e, f, g, h]
        if 0xdc00 ≤ low && low < 0xe000 then
          let first ← CodePoint.toChar? (0x10000 + (unit - 0xd800) * 0x400 + (low - 0xdc00))
          return first :: (← unescape? rest)
        else
          none
      | _ => none
    else
      let first ← CodePoint.toChar? unit
      return first :: (← unescape? rest)
  | '\\' :: c :: rest => do
    let first ← escape? c
    return first :: (← unescape? rest)
  | c :: rest => if c < ' ' then none else (unescape? rest).map (c :: ·)

def splitQuote? : List Char → Option (List Char × List Char)
  | [] => none
  | '"' :: rest => some ([], rest)
  | '\\' :: c :: rest => (splitQuote? rest).map fun (body, rest) => ('\\' :: c :: body, rest)
  | c :: rest => (splitQuote? rest).map fun (body, rest) => (c :: body, rest)

theorem length_lt_of_splitQuote? {cs body rest : List Char}
    (h : splitQuote? cs = some (body, rest)) : rest.length < cs.length := by
  fun_induction splitQuote? cs generalizing body rest with
  | case1 => simp at h
  | case2 => simp_all
  | case3 c cs ih =>
    obtain ⟨⟨body', rest'⟩, h', heq⟩ := Option.map_eq_some_iff.mp h
    have := ih h'
    simp_all
    omega
  | case4 c cs _ _ ih =>
    obtain ⟨⟨body', rest'⟩, h', heq⟩ := Option.map_eq_some_iff.mp h
    have := ih h'
    simp_all
    omega

def string? (cs : List Char) : Option (Step String cs) :=
  match cs with
  | '"' :: rest =>
    match h : splitQuote? rest with
    | some (body, rest') =>
      (unescape? body).map fun chars =>
        ⟨String.ofList chars, rest', Nat.lt_succ_of_lt (length_lt_of_splitQuote? h)⟩
    | none => none
  | _ => none

/-! ### Values -/

def elements? (value? : (cs : List Char) → Option (Step Json cs)) (cs : List Char) :
    Option (Step (List Json) cs) := do
  let first ← value? cs
  match h : skipBlanks first.rest with
  | ']' :: rest =>
    some ⟨[first.value], rest, Nat.lt_trans (length_lt_of_skipBlanks_eq h) first.shorter⟩
  | ',' :: rest =>
    have shorter := Nat.lt_trans (length_lt_of_skipBlanks_eq h) first.shorter
    let others ← elements? value? rest
    some ((others.map (first.value :: ·)).within (Nat.le_of_lt shorter))
  | _ => none
termination_by cs.length

def key? (cs : List Char) : Option (Step String cs) := do
  let key ← string? (skipBlanks cs)
  match h : skipBlanks key.rest with
  | ':' :: rest =>
    have shorter := Nat.lt_trans (length_lt_of_skipBlanks_eq h) key.shorter
    some ⟨key.value, rest, Nat.lt_of_lt_of_le shorter (length_skipBlanks_le cs)⟩
  | _ => none

def members? (value? : (cs : List Char) → Option (Step Json cs)) (cs : List Char) :
    Option (Step (List (String × Json)) cs) := do
  let key ← key? cs
  let first ← value? key.rest
  have short := Nat.lt_trans first.shorter key.shorter
  match h : skipBlanks first.rest with
  | '}' :: rest =>
    some ⟨[(key.value, first.value)], rest, Nat.lt_trans (length_lt_of_skipBlanks_eq h) short⟩
  | ',' :: rest =>
    have shorter := Nat.lt_trans (length_lt_of_skipBlanks_eq h) short
    let others ← members? value? rest
    some ((others.map ((key.value, first.value) :: ·)).within (Nat.le_of_lt shorter))
  | _ => none
termination_by cs.length

def scalarValue? : (cs : List Char) → Option (Step Json cs)
  | 'n' :: 'u' :: 'l' :: 'l' :: rest => some ⟨null, rest, by grind⟩
  | 't' :: 'r' :: 'u' :: 'e' :: rest => some ⟨bool true, rest, by grind⟩
  | 'f' :: 'a' :: 'l' :: 's' :: 'e' :: rest => some ⟨bool false, rest, by grind⟩
  | '"' :: rest => (string? ('"' :: rest)).map (·.map str)
  | c :: rest =>
    (number? (c :: rest.takeWhile inNumber)).map fun number =>
      ⟨num number, rest.dropWhile inNumber,
        Nat.lt_succ_of_le (List.dropWhile_suffix inNumber).length_le⟩
  | [] => none

def value? : (depth : Nat) → (cs : List Char) → Option (Step Json cs)
  | 0, cs => (scalarValue? (skipBlanks cs)).map (·.within (length_skipBlanks_le cs))
  | depth + 1, cs =>
    match h : skipBlanks cs with
    | '[' :: rest =>
      have shorter := length_lt_of_skipBlanks_eq h
      match h' : skipBlanks rest with
      | ']' :: rest' =>
        some ⟨arr [], rest', Nat.lt_trans (length_lt_of_skipBlanks_eq h') shorter⟩
      | _ =>
        (elements? (value? depth) rest).map fun step =>
          (step.map arr).within (Nat.le_of_lt shorter)
    | '\x7b' :: rest =>
      have shorter := length_lt_of_skipBlanks_eq h
      match h' : skipBlanks rest with
      | '\x7d' :: rest' =>
        some ⟨obj [], rest', Nat.lt_trans (length_lt_of_skipBlanks_eq h') shorter⟩
      | _ =>
        (members? (value? depth) rest).map fun step =>
          (step.map fun members => obj (Entries.ofList members)).within (Nat.le_of_lt shorter)
    | _ => (scalarValue? (skipBlanks cs)).map (·.within (length_skipBlanks_le cs))

def maxDepth : Nat := 127

def ofText? (text : String) : Option Json :=
  match value? maxDepth text.toList with
  | some step => if step.rest.all isBlank then some step.value else none
  | none => none

def ofText (text : String) : Except String Json :=
  match ofText? text with
  | some value => .ok value
  | none => .error "not a JSON text"

def ofBytes (bytes : ByteArray) : Except String Json :=
  match String.fromUTF8? bytes with
  | some text => ofText text
  | none => .error "not a text"

end Json

end Intake
