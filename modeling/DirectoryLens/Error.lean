/-
What can go wrong, by cause, and the words for it.

* `SyntaxFault`, `ArgumentFault`, `ConversionFault`, `ConfigurationFault`: the causes of the four
  kinds of error that have several;
* `QueryError`: an error of the library;
* `QueryError.code`, `QueryError.message`: its code and its text.
-/
import DirectoryLens.Expression.Symbol
import DirectoryLens.Identifier.Sid
import DirectoryLens.Value.Basic

namespace DirectoryLens

/-! ### Causes -/

/-- Why a filter has no text. -/
inductive SyntaxFault
  /-- An attribute name holds a character that names may not hold. -/
  | attributeName (name : String)
  /-- A composite has nothing to join. -/
  | noChildren (kind : Connective)
  /-- A negation has a child already. -/
  | secondNegand
  /-- A negation would hold a composite, whose text is given. -/
  | compositeNegand (text : String)
  /-- A mark is not one that the connective may be written with. -/
  | symbolNotAllowed (symbol : String) (kind : Connective)
  /-- A cause in the caller's words. -/
  | stated (message : String)
  deriving DecidableEq

/-- Why an argument is refused. -/
inductive ArgumentFault
  /-- A value of this kind has no single stored form. -/
  | noStoredForm (kind : Value.Kind)
  | comparator (symbol : String)
  | placement (name : String)
  | matchingRule (id : String)
  /-- A cause in the caller's words. -/
  | stated (message : String)
  deriving DecidableEq

/-- What a text was expected to be. -/
inductive TextForm
  | boolean
  | integer
  | generalizedTime
  | fileTime
  | guid
  | sid
  | bitfield
  deriving DecidableEq

/-- Why a converter refuses a value. -/
inductive ConversionFault
  /-- The octets are no text. -/
  | notText
  /-- The text is not of the form. -/
  | notOfForm (text : String) (form : TextForm)
  /-- No value of this kind is converted. -/
  | kindRefused (kind : Value.Kind)
  | timestampOutOfRange (seconds : Int64)
  | dateTimeOutOfRange
  | fileTimeOutOfRange (ticks : Int64)
  | guidLength (length : Nat)
  | sid (fault : SidFault)
  /-- A flag was put to a test other than equality or bitwise and. -/
  | flagTest (name : String) (test : String)
  /-- The fault lies in a value of the attribute. -/
  | under (name : String) (fault : ConversionFault)
  /-- A cause in the caller's words. -/
  | stated (message : String)
  deriving DecidableEq

/-- Why a setting is refused. -/
inductive ConfigurationFault
  | scope (name : String)
  | baseDn (dn : String)
  | noPageSize
  | pageSizeAbove (limit : Nat)
  /-- A schema lacks its own name or that of its objects. -/
  | unnamedSchema
  | schemaPageSize (schema : String)
  /-- A cause in the caller's words. -/
  | stated (message : String)
  deriving DecidableEq

/-- An error. -/
inductive QueryError
  | querySyntax (fault : SyntaxFault)
  | invalidArgument (fault : ArgumentFault)
  | unknownConverter (name : String)
  | converterAlreadyRegistered (name : String)
  | invalidConverter (name : String) (message : String)
  | conversionFailed (converter : String) (fault : ConversionFault)
  | unmappedAttribute (name : String) (schema : String)
  | invalidConfiguration (fault : ConfigurationFault)
  /-- The octets of a zone's hours end inside a character. -/
  | undividedZone (text : String)
  deriving DecidableEq

/-! ### Words -/

/-- The words for a syntax fault. -/
def SyntaxFault.message : SyntaxFault → String
  | .attributeName name => s!"invalid attribute name '{name}' in filter"
  | .noChildren kind => kind.name ++ " composite has no children"
  | .secondNegand => "NOT accepts exactly one child"
  | .compositeNegand text => s!"NOT cannot directly contain a composite, got {text}"
  | .symbolNotAllowed symbol kind =>
    s!"operator '{symbol}' is not valid for {kind.name}, allowed: "
      ++ ", ".intercalate (kind.allowed.map Symbol.text)
  | .stated message => message

/-- The words for an argument fault. -/
def ArgumentFault.message : ArgumentFault → String
  | .noStoredForm kind => s!"a {kind.name} value cannot be used as a single directory value"
  | .comparator symbol =>
    s!"unsupported comparison operator '{symbol}', expected one of "
      ++ " ".intercalate (Comparator.all.map Comparator.symbol)
  | .placement name =>
    s!"unsupported wildcard '{name}', expected one of "
      ++ " ".intercalate (Placement.all.map Placement.name)
  | .matchingRule id => s!"'{id}' is not a valid matching rule identifier"
  | .stated message => message

/-- The words for what a text was expected to be. -/
def TextForm.words : TextForm → String
  | .boolean => "a boolean"
  | .integer => "an integer"
  | .generalizedTime => "a generalized time"
  | .fileTime => "a FILETIME"
  | .guid => "a GUID"
  | .sid => "a SID"
  | .bitfield => "a bitfield"

/-- The words for a stored security identifier that is none. -/
def SidFault.message : SidFault → String
  | .shortHeader => "SID is shorter than its 8 byte header"
  | .wrongLength => "SID length does not match its sub-authority count"

/-- The words for a conversion fault. -/
def ConversionFault.message : ConversionFault → String
  | .notText => "expected a text value"
  | .notOfForm text form => s!"'{text}' is not {form.words}"
  | .kindRefused kind => s!"cannot convert a {kind.name} value"
  | .timestampOutOfRange seconds =>
    "timestamp " ++ Number.decimal seconds.toInt ++ " is out of range"
  | .dateTimeOutOfRange => "date-time is out of range"
  | .fileTimeOutOfRange ticks => "FILETIME " ++ Number.decimal ticks.toInt ++ " is out of range"
  | .guidLength length => "expected 16 bytes, got " ++ Number.decimal length
  | .sid fault => fault.message
  | .flagTest name test =>
    s!"'{name}' is a flag and only supports equality or bitwise-and, not {test}"
  | .under name fault => s!"{name}: " ++ fault.message
  | .stated message => message

/-- The words for a configuration fault. -/
def ConfigurationFault.message : ConfigurationFault → String
  | .scope name => s!"unknown search scope '{name}'"
  | .baseDn dn => s!"base_dn '{dn}' is not a distinguished name"
  | .noPageSize => "page_size must be greater than zero"
  | .pageSizeAbove limit => "page_size must not exceed " ++ Number.decimal limit
  | .unnamedSchema => "schema_name and object_type are required"
  | .schemaPageSize schema => s!"page_size 0 for {schema} must be positive"
  | .stated message => message

namespace QueryError

/-- The code of an error. -/
def code : QueryError → String
  | .querySyntax _ => "QUERY_SYNTAX"
  | .invalidArgument _ => "INVALID_ARGUMENT"
  | .unknownConverter _ => "UNKNOWN_CONVERTER"
  | .converterAlreadyRegistered _ => "CONVERTER_ALREADY_REGISTERED"
  | .invalidConverter _ _ => "INVALID_CONVERTER"
  | .conversionFailed _ _ => "CONVERSION_FAILED"
  | .unmappedAttribute _ _ => "UNMAPPED_ATTRIBUTE"
  | .invalidConfiguration _ => "INVALID_CONFIG"
  | .undividedZone _ => "UNDIVIDED_ZONE"

/-- The text of an error. -/
def message : QueryError → String
  | .querySyntax fault => "query syntax error: " ++ fault.message
  | .invalidArgument fault => "invalid argument: " ++ fault.message
  | .unknownConverter name => s!"unknown converter '{name}'"
  | .converterAlreadyRegistered name => s!"converter '{name}' is already registered"
  | .invalidConverter name message => s!"invalid converter '{name}': {message}"
  | .conversionFailed converter fault => s!"converter '{converter}' failed: " ++ fault.message
  | .unmappedAttribute name schema =>
    s!"attribute '{name}' is not mapped in schema '{schema}'"
  | .invalidConfiguration fault => "invalid configuration: " ++ fault.message
  | .undividedZone text => s!"the zone of '{text}' cannot be divided"

/-- The error came from registering a converter. -/
def isRegistration : QueryError → Bool
  | .converterAlreadyRegistered _ | .invalidConverter _ _ => true
  | _ => false

end QueryError

end DirectoryLens
