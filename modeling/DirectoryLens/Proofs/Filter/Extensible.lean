/-
Extensible matches, read by the whole of their production.

* `Extensible`: an attribute, the mark of distinguished names, a rule and a value, of which the mark
  and the rule may be left out;
* `Filter.isNameMark`: a component that is taken for that mark;
* `Filter.readComponent`, `readNameMark`, `readRule?`: the parts between the attribute and the
  value;
* `Filter.readExtensible`: the extensible match that a whole text is;
* `readExtensible_render`: an extensible match that is written with a rule is read with that rule,
  unless the rule is taken for the mark.

A component that is the mark is never a rule: the grammar has the mark first.
-/
import DirectoryLens.Proofs.Filter.Reader

namespace DirectoryLens

/-- An extensible match as the grammar has it. Without a rule the attribute's own is meant. -/
structure Extensible where
  name : String
  /-- The attributes in the distinguished name of the entry are matched too. -/
  nameAttributes : Bool
  rule : Option RuleId
  value : Octets

namespace Filter

/-! ### Reading -/

/-- The component at the head of a text: what stands behind a colon, of the characters that rules
are of, and what stands behind that. -/
def readComponent : List Char → Option (List Char × List Char)
  | ':' :: s =>
    if (s.takeWhile isRuleChar).isEmpty then none
    else some (s.takeWhile isRuleChar, s.dropWhile isRuleChar)
  | _ => none

/-- A component is the mark of distinguished names, in any case. -/
def isNameMark (component : List Char) : Bool :=
  component.map Char.toLower = ['d', 'n']

/-- Whether the mark of distinguished names is at the head of a text, and what stands behind it. -/
def readNameMark (s : List Char) : Bool × List Char :=
  match readComponent s with
  | some (component, rest) => if isNameMark component then (true, rest) else (false, s)
  | none => (false, s)

/-- The rule at the head of a text, if there is one, and what stands behind it. A component that is
no identifier of a rule ends the reading. -/
def readRule? (s : List Char) : Option (Option RuleId × List Char) :=
  match readComponent s with
  | some (component, rest) => do
    let rule ← RuleId.ofText? (String.ofList component)
    return (some rule, rest)
  | none => some (none, s)

/-- The extensible match that a text is. Its value has no wildcards. -/
def readExtensible (t : String) : Option Extensible :=
  match t.toList with
  | '(' :: s =>
    let name := s.takeWhile isNameChar
    if isAttributeName name then do
      let (nameAttributes, s) := readNameMark (s.dropWhile isNameChar)
      let (rule, s) ← readRule? s
      match s with
      | ':' :: '=' :: s => match readPieces s with
        | some ([value], []) => some ⟨String.ofList name, nameAttributes, rule, value⟩
        | _ => none
      | _ => none
    else none
  | _ => none

/-! ### Written matches -/

/-- The identifier of a rule is not empty. -/
lemma text_ne_nil (rule : RuleId) : rule.text.toList ≠ [] := by
  intro h
  have hvalid := rule.valid
  rw [h] at hvalid
  exact absurd hvalid (by decide)

/-- The identifier of a rule is read as a component. -/
lemma readComponent_text (rule : RuleId) (rest : List Char) :
    readComponent (':' :: (rule.text.toList ++ ':' :: rest))
      = some (rule.text.toList, ':' :: rest) := by
  obtain ⟨htake, hdrop⟩ :=
    takeWhile_append_cons (isRuleChar_of_mem rule) (c := ':') (by decide) rest
  rw [readComponent, htake, hdrop, if_neg (by simpa using text_ne_nil rule)]

/-- No component stands before the value. -/
lemma readRule?_value (s : List Char) :
    readRule? (':' :: '=' :: s) = some (none, ':' :: '=' :: s) :=
  rfl

/-- **An extensible match that is written with a rule is read with that rule**, unless the rule is
taken for the mark of distinguished names. -/
theorem readExtensible_render {name : String} (hname : isAttributeName name.toList) (rule : RuleId)
    (value : Octets) : readExtensible (Filter.extensible name rule value).render
      = some (if isNameMark rule.text.toList then ⟨name, true, none, value⟩
        else ⟨name, false, some rule, value⟩) := by
  have hchars : (Filter.extensible name rule value).render.toList = '(' :: (name.toList
      ++ ':' :: (rule.text.toList ++ ':' :: '=' :: (escape value ++ [')']))) := by
    rw [render, String.toList_ofList, chars]
    simp only [List.cons_append, List.append_assoc, List.nil_append]
  obtain ⟨htake, hdrop⟩ := takeWhile_append_cons (isNameChar_of_isAttributeName hname)
    (c := ':') (by decide) (rule.text.toList ++ ':' :: '=' :: (escape value ++ [')']))
  have hcomponent := readComponent_text rule ('=' :: (escape value ++ [')']))
  have hpieces := readPieces_joinPieces (List.cons_ne_nil value []) []
  rw [List.map_singleton, joinPieces, List.intercalate_singleton] at hpieces
  simp only [readExtensible, hchars, htake, hdrop, if_pos hname, readNameMark, hcomponent]
  split_ifs with hmark
  · simp only [readRule?_value, hpieces, Option.bind_eq_bind, Option.bind_some,
      String.ofList_toList]
  · simp only [readRule?, hcomponent, hpieces, String.ofList_toList, ofText?_text,
      Option.bind_eq_bind, Option.bind_some, Option.pure_def]

end Filter

end DirectoryLens
