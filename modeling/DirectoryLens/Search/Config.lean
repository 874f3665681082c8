/-
Settings of searches.

* `Scope`: how far below its base a search looks;
* `Config`: the base, scope and page size of searches whose schema names none, and whether
  unmapped attributes are refused;
* `Config.validate`: the settings that are usable;
* `Config.json`, `Config.ofJson?`: settings as JSON and back.
-/
import DirectoryLens.Error
import DirectoryLens.Json.Decode

namespace DirectoryLens

/-! ### Scopes -/

/-- How far below its base a search looks. -/
inductive Scope
  | base
  | oneLevel
  | subtree
  deriving DecidableEq

namespace Scope

/-- The name of a scope. -/
def name : Scope → String
  | .base => "base"
  | .oneLevel => "one_level"
  | .subtree => "subtree"

/-- The scope of one of its names, in any case of their ASCII letters. -/
def ofName (s : String) : Except QueryError Scope :=
  let word := String.ofList (s.toList.map Char.toLower)
  if word = "base" then .ok .base
  else if word = "one" || word = "onelevel" || word = "one_level" then .ok .oneLevel
  else if word = "sub" || word = "subtree" then .ok .subtree
  else .error (.invalidConfiguration (.scope s))

/-- A scope as JSON. -/
def json (s : Scope) : Json :=
  Json.ofString s.name

/-- The scope that a JSON value names exactly. -/
def ofJson? (j : Json) : Option Scope := do
  let word ← j.asChoice?
  [base, oneLevel, subtree].find? (·.name == word)

end Scope

/-! ### Settings -/

/-- Settings of searches. -/
structure Config where
  /-- The base of searches whose schema names none. -/
  baseDn : String
  /-- The scope of searches whose schema names none. -/
  scope : Scope
  /-- The page size of searches whose schema names none; without one there is no paging. -/
  pageSize : Option UInt32
  /-- Attributes that the schema does not map are refused. -/
  strict : Bool
  deriving DecidableEq

namespace Config

/-- The settings that hold unless others are made. -/
def default : Config :=
  { baseDn := "", scope := .subtree, pageSize := some 1000, strict := false }

/-- The greatest page size that a directory is asked for. -/
def maxPageSize : Nat := 100000

/-- Settings are usable when the base, if there is one, names an attribute, and the page size lies
between one and the greatest. -/
def validate (c : Config) : Except QueryError Unit :=
  if c.baseDn ≠ "" ∧ '=' ∉ c.baseDn.toList then .error (.invalidConfiguration (.baseDn c.baseDn))
  else match c.pageSize with
    | some n =>
      if n = 0 then .error (.invalidConfiguration .noPageSize)
      else if maxPageSize < n.toNat then
        .error (.invalidConfiguration (.pageSizeAbove maxPageSize))
      else .ok ()
    | none => .ok ()

/-- A page size as JSON. -/
def pageSizeJson (n : UInt32) : Json :=
  Json.ofInt n.toNat

/-- The page size that a JSON value stands for. -/
def pageSizeOfJson? (j : Json) : Option UInt32 :=
  (j.asUnsigned? 0x1_0000_0000).map UInt32.ofNat

/-- Settings as JSON. -/
def json (c : Config) : Json :=
  Json.record
    [("base_dn", Json.ofString c.baseDn), ("scope", c.scope.json),
     ("page_size", Json.ofOption pageSizeJson c.pageSize), ("strict_schema", .bool c.strict)]

/-- The settings that a JSON value stands for; what it does not give is as by default. -/
def ofJson? (j : Json) : Option Config := do
  match ← j.fields? ["base_dn", "scope", "page_size", "strict_schema"] with
  | [baseDn, scope, pageSize, strict] =>
    return { baseDn := ← Json.field? Json.asText? default.baseDn baseDn
             scope := ← Json.field? Scope.ofJson? default.scope scope
             pageSize := ← Json.field? (Json.asNullable? pageSizeOfJson?) default.pageSize pageSize
             strict := ← Json.field? Json.asBool? default.strict strict }
  | _ => none

end Config

end DirectoryLens
