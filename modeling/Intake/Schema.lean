import Intake.Definition

/-!
This module contains schemas: dictionaries from paths to definitions that keep the order in which
paths are first defined. A path is checked only when the schema is compiled.
-/

namespace Intake

variable [Engine]

structure Schema where
  entries : Entries Definition
  nodup : entries.keys.Nodup
deriving DecidableEq

namespace Schema

def empty : Schema where
  entries := []
  nodup := List.nodup_nil

def insert (schema : Schema) (path : String) (definition : Definition) : Schema where
  entries := schema.entries.insert path definition
  nodup := Entries.nodup_keys_insert schema.nodup path definition

def ofList (pairs : List (String × Definition)) : Schema :=
  pairs.foldl (fun schema (path, definition) => schema.insert path definition) empty

def get? (schema : Schema) (path : String) : Option Definition :=
  schema.entries.get? path

def paths (schema : Schema) : List String :=
  schema.entries.keys

def size (schema : Schema) : Nat :=
  schema.entries.length

def isEmpty (schema : Schema) : Bool :=
  schema.entries.isEmpty

@[simp]
theorem get?_empty (path : String) : empty.get? path = none := rfl

theorem get?_insert (schema : Schema) (path path' : String) (definition : Definition) :
    (schema.insert path definition).get? path' =
      if path = path' then some definition else schema.get? path' :=
  Entries.get?_insert schema.entries path path' definition

@[simp]
theorem paths_empty : empty.paths = [] := rfl

theorem paths_insert (schema : Schema) (path : String) (definition : Definition) :
    (schema.insert path definition).paths =
      if path ∈ schema.paths then schema.paths else schema.paths ++ [path] :=
  Entries.keys_insert schema.entries path definition

end Schema

end Intake
