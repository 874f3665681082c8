/-
Searches compiled from expressions.

* `SearchRequest`: all that a search is run with;
* `Compiler`: converters, settings and a schema;
* `Compiler.ofConfig`: a compiler under usable settings;
* `Compiler.compile`, `Compiler.compileSelecting`: the request of an expression.
-/
import DirectoryLens.Expression.Resolution
import DirectoryLens.Schema.Definition

namespace DirectoryLens

/-- All that a search is run with. -/
structure SearchRequest where
  filter : Filter
  baseDn : String
  scope : Scope
  /-- The directory names that are asked for; all are when there are none. -/
  attributes : List String
  pageSize : Option UInt32

namespace SearchRequest

/-- A request as JSON, its members in the order of their names. -/
def json (r : SearchRequest) : Json :=
  Json.sortedRecord
    [("filter", Json.ofString r.filter.render), ("base_dn", Json.ofString r.baseDn),
     ("scope", r.scope.json), ("attributes", Json.ofList Json.ofString r.attributes),
     ("page_size", Json.ofOption Config.pageSizeJson r.pageSize)]

end SearchRequest

/-- What expressions are compiled with. -/
structure Compiler where
  registry : Registry
  config : Config
  schema : Option ObjectSchema

namespace Compiler

/-- A compiler without a schema, under usable settings. -/
def ofConfig (registry : Registry) (config : Config) : Except QueryError Compiler :=
  match config.validate with
  | .ok () => .ok ⟨registry, config, none⟩
  | .error e => .error e

/-- What expressions are resolved with. -/
def context (c : Compiler) : Context :=
  ⟨c.registry, c.schema, c.config.strict⟩

/-- What a schema's own filter is resolved with. It speaks the directory's words, so that
unmapped attributes are not refused. -/
def scopingContext (c : Compiler) : Context :=
  { c.context with strict := false }

/-- The expression resolved, or its failure. -/
def resolved (ctx : Context) (e : Expression) : Writing Expression := do
  let (e, result) ← (e.resolve ctx : Calling (Expression × Except QueryError Unit))
  match result with
  | .ok () => return e
  | .error fault => throw fault

/-- The expression resolved and joined with what the schema's objects satisfy. -/
def withScoping (c : Compiler) (e : Expression) : Writing Expression := do
  let e ← resolved c.context e
  match c.schema.bind (·.filter) with
  | none => return e
  | some scoping =>
    let scoping ← resolved c.scopingContext scoping
    return .all [scoping, e]

/-- The directory names of the selected names. -/
def attributes (c : Compiler) (selected : List String) : List String :=
  match c.schema with
  | some s => s.directoryNames selected
  | none => selected

/-- The request of an expression that asks for the selected names. What the schema says of base,
scope and page size goes before the settings. -/
def compileSelecting (c : Compiler) (e : Expression) (selected : List String) :
    Writing SearchRequest := do
  let filter ← (← c.withScoping e).filter
  return { filter
           baseDn := (c.schema.bind (·.baseDn)).getD c.config.baseDn
           scope := (c.schema.bind (·.scope)).getD c.config.scope
           attributes := c.attributes selected
           pageSize := (c.schema.bind (·.pageSize)).or c.config.pageSize }

/-- The request of an expression that asks for what the schema selects. -/
def compile (c : Compiler) (e : Expression) : Writing SearchRequest :=
  c.compileSelecting e ((c.schema.map (·.select)).getD [])

end Compiler

end DirectoryLens
