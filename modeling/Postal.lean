import Postal.Main
import Postal.Json.Named
import Postal.LookupKey.Edit
import Postal.Proofs.Envelope.Edges
import Postal.Proofs.Interpreter.CustomOrder
import Postal.Proofs.Interpreter.Faults
import Postal.Proofs.LookupKey.Suffix
import Postal.Proofs.LookupKey.Collisions
import Postal.Proofs.LookupKey.Hierarchy
import Postal.Proofs.LookupKey.Reuse
import Postal.Proofs.Address.WriteBack
import Postal.Proofs.Interpreter.UnknownRegion
import Postal.Proofs.Envelope.Country
import Postal.Proofs.Interpreter.LineBreaks
import Postal.Proofs.CommandLine.HiddenFields
import Postal.Proofs.Address.Slots
import Postal.Proofs.RegionTable.Loaders
import Postal.Proofs.FieldOrder.Custom
import Postal.Proofs.Diagnostic.Span
import Postal.Proofs.Envelope.Row
import Postal.Proofs.Envelope.Filling
import Postal.Proofs.LookupKey.Ascent
import Postal.Proofs.Interpreter.WidthOverrides
import Postal.Proofs.LookupKey.BlankSegment
import Postal.Proofs.LookupKey.Contents
import Postal.Proofs.Address.LineSetters
import Postal.Proofs.Envelope.UnknownCodes
import Postal.Proofs.FormOptions.Runs
import Postal.Proofs.Text.EditDistance
import Postal.Proofs.Text.Suggestion
import Postal.Proofs.Language.Latin
import Postal.Proofs.RegionTable.Entries
import Postal.Proofs.Address.LastWrites
import Postal.Proofs.Envelope.Stability
import Postal.Proofs.FieldOrder.FirstSeen
import Postal.Proofs.RegionTable.Bundled
import Postal.Proofs.CommandLine.Templates
