import DirectoryLens.ActiveDirectory.Converters
import DirectoryLens.ActiveDirectory.Predicates
import DirectoryLens.ActiveDirectory.Schemas
import DirectoryLens.Proofs.Entry.Source
import DirectoryLens.Proofs.Expression.Flag
import DirectoryLens.Search.Compiler
import DirectoryLens.Proofs.Json.Record
import DirectoryLens.Proofs.Search.Attributes
import DirectoryLens.Proofs.Value.Stored
import DirectoryLens.Proofs.Schema.Definition
import DirectoryLens.Proofs.Expression.Asking
import DirectoryLens.Proofs.Expression.History
import DirectoryLens.Proofs.Search.Failure
import DirectoryLens.Proofs.Search.Scoping
import DirectoryLens.Proofs.Search.Settings
import DirectoryLens.Proofs.Search.Strict
import DirectoryLens.Proofs.Search.Calls
import DirectoryLens.Proofs.Expression.Reachable
import DirectoryLens.Proofs.Expression.Mark
import DirectoryLens.Proofs.Search.Spelling
import DirectoryLens.Proofs.Schema.Declaration
import DirectoryLens.Proofs.Schema.Direction
import DirectoryLens.Proofs.Search.Selection
import DirectoryLens.Proofs.Converter.Registry
import DirectoryLens.Proofs.Identifier.Sid
import DirectoryLens.Proofs.Converter.Guid
import DirectoryLens.Proofs.Converter.Identity
import DirectoryLens.Proofs.Time.Calendar
import DirectoryLens.Proofs.Time.GeneralizedTime
import DirectoryLens.Proofs.Time.Clock
import DirectoryLens.Proofs.Time.Writing
import DirectoryLens.Proofs.Converter.Moment
import DirectoryLens.Proofs.Identifier.Canonical
import DirectoryLens.Proofs.Time.Zone
import DirectoryLens.Proofs.Time.FileTime
import DirectoryLens.Proofs.Converter.FileTime
import DirectoryLens.Proofs.Expression.Inequality
import DirectoryLens.Proofs.Expression.MatchingRule
import DirectoryLens.Proofs.Expression.Pattern
import DirectoryLens.Proofs.ActiveDirectory.Bitfield
import DirectoryLens.Proofs.Entry.Building
import DirectoryLens.Proofs.Entry.Search
import DirectoryLens.Proofs.Entry.Reload
import DirectoryLens.Proofs.Value.Reload
import DirectoryLens.Proofs.ActiveDirectory.Converters
import DirectoryLens.Proofs.Converter.Integer
import DirectoryLens.Proofs.Filter.Escape
