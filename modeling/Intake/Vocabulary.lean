namespace Intake

inductive FieldType where
  | string
  | number
  | integer
  | boolean
deriving DecidableEq

namespace FieldType

def all : List FieldType :=
  [string, number, integer, boolean]

def name : FieldType → String
  | string => "string"
  | number => "number"
  | integer => "integer"
  | boolean => "boolean"

def ofName? (name : String) : Option FieldType :=
  all.find? (·.name = name)

@[simp]
theorem ofName?_name (type : FieldType) : ofName? type.name = some type := by
  cases type <;> decide

theorem ofName?_eq_some_iff (name : String) (type : FieldType) :
    ofName? name = some type ↔ type.name = name := by
  constructor
  . intro h
    simpa using List.find?_some h
  . rintro rfl
    exact ofName?_name type

end FieldType

inductive Limit where
  | gt
  | gte
  | lt
  | lte
deriving DecidableEq

namespace Limit

def all : List Limit :=
  [gt, gte, lt, lte]

theorem mem_all (limit : Limit) : limit ∈ all := by
  cases limit <;> decide

def name : Limit → String
  | gt => "gt"
  | gte => "gte"
  | lt => "lt"
  | lte => "lte"

def phrase : Limit → String
  | gt => "greater than"
  | gte => "greater than or equal to"
  | lt => "less than"
  | lte => "less than or equal to"

end Limit

inductive Setting where
  | type
  | pattern
  | omitEmpty
  | limit (limit : Limit)
deriving DecidableEq

namespace Setting

def all : List Setting :=
  [type, pattern, omitEmpty] ++ Limit.all.map limit

def name : Setting → String
  | type => "type"
  | pattern => "match"
  | omitEmpty => "omitEmpty"
  | limit l => l.name

def ofName? (name : String) : Option Setting :=
  all.find? (·.name = name)

def allowedOn : Setting → FieldType → Bool
  | type, _ => true
  | pattern, fieldType => fieldType = .string
  | omitEmpty, fieldType => fieldType = .string
  | limit _, fieldType => fieldType = .number || fieldType = .integer

theorem mem_all (setting : Setting) : setting ∈ all := by
  cases setting with
  | limit l => cases l <;> decide
  | _ => decide

@[simp]
theorem ofName?_name (setting : Setting) : ofName? setting.name = some setting := by
  cases setting with
  | limit l => cases l <;> decide
  | _ => decide

theorem ofName?_eq_some_iff (name : String) (setting : Setting) :
    ofName? name = some setting ↔ setting.name = name := by
  constructor
  . intro h
    simpa using List.find?_some h
  . rintro rfl
    exact ofName?_name setting

theorem name_inj {setting other : Setting} (h : setting.name = other.name) : setting = other := by
  have hother := ofName?_name other
  rw [← h, ofName?_name, Option.some.injEq] at hother
  exact hother

end Setting

end Intake
