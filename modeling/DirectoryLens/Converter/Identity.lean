/-
Converters for the identifiers of objects.

* `Converter.guid`: globally unique identifiers, stored in mixed order;
* `Converter.sid`: security identifiers.

Both read what a directory hands out as text in place of octets.
-/
import DirectoryLens.Converter.Basic
import DirectoryLens.Identifier.Guid

namespace DirectoryLens.Converter

/-! ### Globally unique identifiers -/

/-- The converter for globally unique identifiers. -/
def guid : Converter where
  toDirectory
    | .string s => (fun g => .binary g.mixed) <$> expectForm "windows_guid" s .guid (Guid.ofText? s)
    | .binary bs =>
      if bs.length = 16 then .ok (.binary bs) else refuseKind "windows_guid" (.binary bs)
    | other => refuseKind "windows_guid" other
  fromDirectory
    | .binary bs => match Guid.ofMixed? bs with
      | some g => .ok (.string g.text)
      | none => .error (.conversionFailed "windows_guid" (.guidLength bs.length))
    | .text s =>
      (fun g => Value.string g.text) <$> expectForm "windows_guid" s .guid (Guid.ofText? s)
  flagMask := none

/-! ### Security identifiers -/

/-- The identifier of its stored form, or the refusal of the octets. -/
def readSidOctets (bs : Octets) : Except QueryError Sid :=
  match Sid.ofOctets bs with
  | .ok s => .ok s
  | .error fault => .error (.conversionFailed "windows_sid" (.sid fault))

/-- The identifier of its written form, or the refusal of the text. -/
def readSidText (s : String) : Except QueryError Sid :=
  expectForm "windows_sid" s .sid (Sid.ofText? s)

/-- The converter for security identifiers. A text that starts with `S-` is the written form and
stays as it is; any other is the stored form in disguise. -/
def sid : Converter where
  toDirectory
    | .string s => (fun i => .binary i.octets) <$> readSidText s
    | .binary bs => (fun _ => .binary bs) <$> readSidOctets bs
    | other => refuseKind "windows_sid" other
  fromDirectory
    | .binary bs => (fun i => Value.string i.text) <$> readSidOctets bs
    | .text s =>
      if s.toList.take 2 = ['S', '-'] then (fun _ => Value.string s) <$> readSidText s
      else (fun i => Value.string i.text) <$> readSidOctets (Octets.ofText s)
  flagMask := none

end DirectoryLens.Converter
