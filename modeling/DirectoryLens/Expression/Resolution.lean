/-
Resolution: an expression in the words and values of a directory.

* `Context`: the converters, the schema and the strictness that an expression is resolved with;
* `Operand.settle`: an operand under a value, translated and converted;
* `Leaf.resolve`: a leaf, whose test has to suit a flag;
* `Expression.resolve`: an expression, leaf by leaf from left to right up to the first failure.

What an earlier resolution left is discarded. A failure leaves the parts before it resolved.
-/
import DirectoryLens.Converter.Registry
import DirectoryLens.Expression.Denotation
import DirectoryLens.Schema.Basic

namespace DirectoryLens

/-- What an expression is resolved with. -/
structure Context where
  registry : Registry
  schema : Option ObjectSchema
  /-- Attributes that the schema does not map are refused. -/
  strict : Bool

/-! ### Operands -/

namespace Operand

/-- The test that a truth value becomes under a converter for a flag. -/
def flagTest? (name : String) (c : Converter) : Value → Option FlagTest
  | .boolean set => c.flagMask.map fun mask => ⟨name, mask, set⟩
  | _ => none

/-- The operand with its value converted by the converter of a name. -/
def convert (registry : Registry) (o : Operand) (v : Value) (name : String) :
    Operand × Except QueryError Unit :=
  match registry.get name with
  | .error e => (o, .error e)
  | .ok c =>
    let o := { o with flag := flagTest? name c v }
    match c.toDirectory v with
    | .error e => (o, .error e)
    | .ok raw => ({ o with converted := some raw }, .ok ())

/-- The operand with its attribute translated, and its value converted as the schema says. -/
def translate (registry : Registry) (schema : ObjectSchema) (strict : Bool) (o : Operand)
    (v : Value) : Operand × Except QueryError Unit :=
  match if strict then schema.mappedName o.name else .ok (schema.directoryName o.name) with
  | .error e => (o, .error e)
  | .ok translated =>
    let o := { o with translated }
    match if o.convertible then schema.converterFor o.name else none with
    | none => (o, .ok ())
    | some name => o.convert registry v name

/-- The operand without what resolution made of it, under a value. -/
def reset (o : Operand) (v : Value) : Operand :=
  { o with translated := "", source := .literal v, converted := none, flag := none }

/-- The operand under a value, resolved. Without a schema nothing is translated or converted. -/
def settle (ctx : Context) (o : Operand) (v : Value) : Operand × Except QueryError Unit :=
  match ctx.schema with
  | none => (o.reset v, .ok ())
  | some schema => (o.reset v).translate ctx.registry schema ctx.strict v

end Operand

/-! ### Leaves -/

/-- The words of a test that cannot be put to a flag. -/
def LeafTest.flagless? : LeafTest → Option String
  | .compare .equal => none
  | .compare comparator => some comparator.symbol
  | .wildcard placement => some placement.name
  | .rule id => if id = .bitwiseAnd then none else some id.text

namespace Leaf

/-- A flag is refused under a test that cannot be put to it. -/
def checkFlag (l : Leaf) : Except QueryError Unit :=
  match l.operand.flag, l.test.flagless? with
  | some flag, some test =>
    .error (.conversionFailed flag.converter (.flagTest l.operand.name test))
  | _, _ => .ok ()

/-- The leaf under a value, resolved. -/
def settle (ctx : Context) (l : Leaf) (v : Value) : Leaf × Except QueryError Unit :=
  match l.operand.settle ctx v with
  | (o, .ok ()) => ({ l with operand := o }, checkFlag { l with operand := o })
  | (o, .error e) => ({ l with operand := o }, .error e)

/-- The leaf resolved, its value asked for if it is deferred. -/
def resolve (ctx : Context) (l : Leaf) : Calling (Leaf × Except QueryError Unit) := do
  return l.settle ctx (← l.operand.source.evaluate)

end Leaf

/-! ### Expressions -/

namespace Expression

mutual

/-- The expression resolved. -/
def resolve (ctx : Context) : Expression → Calling (Expression × Except QueryError Unit)
  | .leaf l => do
    let (l, result) ← l.resolve ctx
    return (.leaf l, result)
  | .composite kind symbol es => do
    let (es, result) ← resolveAll ctx es
    let symbol := if result matches .ok _ then Composite.settledSymbol kind symbol es.length
      else symbol
    return (.composite kind symbol es, result)

/-- The expressions resolved from left to right, up to the first failure. -/
def resolveAll (ctx : Context) :
    List Expression → Calling (List Expression × Except QueryError Unit)
  | [] => pure ([], .ok ())
  | e :: es => do
    let (e, result) ← resolve ctx e
    match result with
    | .error fault => return (e :: es, .error fault)
    | .ok () =>
      let (es, result) ← resolveAll ctx es
      return (e :: es, result)

end

end Expression

end DirectoryLens
