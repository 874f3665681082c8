/-
Filter expressions: what a program asks, in its own names and values.

* `Operand`: an attribute, a value, and what resolution made of them;
* `FlagTest`: the test of bits that a truth value of a flag becomes;
* `Leaf`: an operand under a test;
* `Expression`: a leaf, or a composite of expressions;
* `Composite`: a composite on its own, with `Composite.setSymbol`.
-/
import DirectoryLens.Error
import DirectoryLens.Expression.Source
import DirectoryLens.Filter.Basic

namespace DirectoryLens

/-! ### Operands -/

/-- A truth value of a flag: the bits of a mask are to be set, or not. -/
structure FlagTest where
  converter : String
  mask : UInt32
  set : Bool
  deriving DecidableEq

/-- An attribute and a value, with what resolution against a schema made of them. -/
structure Operand where
  /-- The attribute in the program's words. -/
  name : String
  /-- The attribute in the directory's words, empty until it is resolved. -/
  translated : String
  source : Source
  /-- The value as the directory stores it, when a converter made one. -/
  converted : Option RawValue
  /-- The value is one that a converter may be applied to. -/
  convertible : Bool
  /-- The test that takes the place of the value, for a truth value of a flag. -/
  flag : Option FlagTest

namespace Operand

/-- An operand that is not resolved. -/
def ofSource (name : String) (source : Source) : Operand :=
  { name, translated := "", source, converted := none, convertible := true, flag := none }

/-- An operand without a value. -/
def bare (name : String) : Operand :=
  { ofSource name (.literal .null) with convertible := false }

/-- The name that a filter is written with. -/
def filterName (o : Operand) : String :=
  if o.translated.isEmpty then o.name else o.translated

/-- A converter was applied to the value. -/
def converterUsed (o : Operand) : Bool :=
  o.converted.isSome

end Operand

/-! ### Leaves -/

/-- How a leaf tests its attribute. -/
inductive LeafTest
  | compare (comparator : Comparator)
  | wildcard (placement : Placement)
  | rule (id : RuleId)
  deriving DecidableEq

/-- An attribute under a test. -/
structure Leaf where
  test : LeafTest
  operand : Operand

namespace Leaf

/-- A comparison with a value. -/
def compare (name : String) (comparator : Comparator) (source : Source) : Leaf :=
  ⟨.compare comparator, .ofSource name source⟩

/-- A match with a pattern. Presence has no value. -/
def wildcard (name : String) (placement : Placement) (source : Source) : Leaf :=
  ⟨.wildcard placement, if placement = .present then .bare name else .ofSource name source⟩

/-- An extensible match. -/
def rule (name : String) (id : RuleId) (source : Source) : Leaf :=
  ⟨.rule id, .ofSource name source⟩

end Leaf

/-! ### Expressions -/

/-- A filter expression. -/
inductive Expression
  | leaf (l : Leaf)
  | composite (kind : Connective) (symbol : Symbol) (children : List Expression)

/-- A composite on its own: a connective, the mark it is written with, and its children. -/
structure Composite where
  kind : Connective
  symbol : Symbol
  children : List Expression

namespace Composite

/-- A composite without children. -/
def ofKind (kind : Connective) : Composite :=
  ⟨kind, kind.defaultSymbol, []⟩

/-- The composite as an expression. -/
def toExpression (c : Composite) : Expression :=
  .composite c.kind c.symbol c.children

/-- The mark of a composite: of several object classes any may hold. -/
def settledSymbol (kind : Connective) (symbol : Symbol) (size : Nat) : Symbol :=
  if kind = .classes ∧ 1 < size then .any else symbol

/-- The composite written with another mark, if its connective allows that. -/
def setSymbol (c : Composite) (symbol : String) : Except QueryError Composite :=
  match c.kind.allowedSymbol? symbol with
  | some s => .ok { c with symbol := s }
  | none => .error (.querySyntax (.symbolNotAllowed symbol c.kind))

end Composite

namespace Expression

/-- The expression joins others. -/
def isComposite : Expression → Bool
  | .leaf _ => false
  | .composite .. => true

end Expression

end DirectoryLens
