/-
Converters for points in time.

* `Converter.generalizedTime`: generalized time that ends in `Z`;
* `Converter.markedGeneralizedTime`: generalized time that ends in `.0Z`;
* `Converter.fileTime`: counts of 100 nanoseconds, two of which stand for no time.
-/
import DirectoryLens.Converter.Basic
import DirectoryLens.Time.FileTime

namespace DirectoryLens.Converter

open Number Text

/-! ### Generalized time -/

/-- The instant that a text denotes, or its refusal in a converter's name. -/
def readInstant (name s : String) : Except QueryError Instant :=
  match Instant.ofGeneralizedTime s with
  | .ok t => .ok t
  | .error .malformed => refuseText name s .generalizedTime
  | .error .undividedZone => .error (.undividedZone s)

/-- A converter for generalized time that is written with the given mark at its end. Texts are
read as such a time, and numbers as seconds from the start of 1970. -/
def generalizedTimeMarked (name mark : String) : Converter where
  toDirectory v := do
    let t : Instant ← match v with
      | .dateTime t => .ok t
      | .string s => readInstant name s
      | .integer n => match Instant.ofParts? n.toInt 0 with
        | some t => .ok t
        | none => .error (.conversionFailed name (.timestampOutOfRange n))
      | other => refuseKind name other
    return .text (t.generalizedTime mark)
  fromDirectory raw := do
    let s ← requireText name raw
    Value.dateTime <$> readInstant name s
  flagMask := none

/-- The converter for generalized time. -/
def generalizedTime : Converter :=
  generalizedTimeMarked "generalized_time" "Z"

/-- The converter for generalized time that carries a fraction of zero. -/
def markedGeneralizedTime : Converter :=
  generalizedTimeMarked "windows_generalized_time" ".0Z"

/-! ### File times -/

/-- The converter for file times. Null is written as zero, and the counts that stand for no time
are read as null. -/
def fileTime : Converter where
  toDirectory
    | .null => .ok (.text "0")
    | .integer n => .ok (.text (decimal n.toInt))
    | .dateTime t => match t.fileTime? with
      | some n => .ok (.text (decimal n.toInt))
      | none => .error (.conversionFailed "windows_time" .dateTimeOutOfRange)
    | other => refuseKind "windows_time" other
  fromDirectory raw := do
    let s ← requireText "windows_time" raw
    let n ← expectForm "windows_time" s .fileTime (readInt64? (trim s.toList))
    if FileTime.isNever n then .ok .null
    else match Instant.ofFileTime? n with
      | some t => .ok (.dateTime t)
      | none => .error (.conversionFailed "windows_time" (.fileTimeOutOfRange n))
  flagMask := none

end DirectoryLens.Converter
