/-
The filter that an expression denotes.

* `Expression.filter`: the filter of an expression, or why it has none;
* `Expression.display`: its text, whatever comes of it;
* `Composite.add`: a composite with one more child.

A deferred value that is not settled is asked for each time.
-/
import DirectoryLens.Expression.Basic
import DirectoryLens.Value.Stored

namespace DirectoryLens

/-- A computation that may ask for deferred values, and may fail. -/
abbrev Writing := ExceptT QueryError Calling

namespace FlagTest

/-- The test of a flag: a bitwise and with its mask, negated when it is to be clear. -/
def filter (f : FlagTest) (name : String) : Filter :=
  let test := Filter.extensible name .bitwiseAnd (Octets.ofText (Number.decimal f.mask.toNat))
  if f.set then test else .composite .no [test]

end FlagTest

namespace Operand

/-- The name that a filter is written with, if it is one. -/
def checkedName (o : Operand) : Except QueryError String :=
  if Filter.isAttributeName o.filterName.toList then .ok o.filterName
  else .error (.querySyntax (.attributeName o.filterName))

/-- The octets that a filter compares with: those of the converted value, or of the stored form of
the value itself. -/
def octets (o : Operand) : Writing Octets := do
  match o.converted with
  | some raw => return raw.octets
  | none =>
    let v ← (o.source.evaluate : Calling Value)
    return (← (liftExcept v.toRaw)).octets
where
  /-- A result as a computation that asks for nothing. -/
  liftExcept {α : Type} (r : Except QueryError α) : Writing α := ExceptT.mk (pure r)

end Operand

namespace Placement

/-- The pieces of a pattern that a value makes. -/
def pieces : Placement → Octets → List Octets
  | .contains, bs => [[], bs, []]
  | .startsWith, bs => [bs, []]
  | .endsWith, bs => [[], bs]
  | .like, bs => Filter.piecesOfPattern bs
  | .present, _ => [[], []]

end Placement

namespace Leaf

/-- The filter of a leaf. -/
def filter (l : Leaf) : Writing Filter := do
  let name ← Operand.octets.liftExcept l.operand.checkedName
  match l.test, l.operand.flag with
  | .compare _, some f => return f.filter name
  | .rule _, some f => return f.filter name
  | .compare comparator, none => return .item name comparator [← l.operand.octets]
  | .rule id, none => return .extensible name id (← l.operand.octets)
  | .wildcard .present, _ => return .item name .equal (Placement.present.pieces [])
  | .wildcard placement, _ => return .item name .equal (placement.pieces (← l.operand.octets))

end Leaf

namespace Expression

mutual

/-- The filter of an expression. A composite without children has none, and a single object class
stands for itself. -/
def filter : Expression → Writing Filter
  | .leaf l => l.filter
  | .composite kind _ [] => throw (.querySyntax (.noChildren kind))
  | .composite .classes _ [e] => filter e
  | .composite .classes _ es => Filter.composite .any <$> filterAll es
  | .composite _ symbol es => Filter.composite symbol <$> filterAll es

/-- The filters of expressions, from left to right. -/
def filterAll : List Expression → Writing (List Filter)
  | [] => pure []
  | e :: es => do
    let f ← filter e
    let fs ← filterAll es
    return f :: fs

end

/-- The text of an expression, or a mark that it has none. -/
def display (e : Expression) : Calling String := do
  match ← e.filter.run with
  | .ok f => return f.render
  | .error _ => return "<invalid filter>"

end Expression

namespace Composite

/-- The composite with one more child. A negation takes one child, and no composite. -/
def add (c : Composite) (child : Expression) : Writing Composite := do
  if c.kind = .not then
    if !c.children.isEmpty then throw (.querySyntax .secondNegand)
    if child.isComposite then throw (.querySyntax (.compositeNegand (← child.display)))
  let children := c.children ++ [child]
  return ⟨c.kind, settledSymbol c.kind c.symbol children.length, children⟩

end Composite

end DirectoryLens
