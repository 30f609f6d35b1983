import ShortcutRelay.Text.Blank
import ShortcutRelay.Text.Word
import ShortcutRelay.Text.Quoted
import ShortcutRelay.Text.Case
import ShortcutRelay.Text.Pieces
import ShortcutRelay.Decimal.Shortest
import ShortcutRelay.Decimal.Reading
import ShortcutRelay.Calendar.Iso
import ShortcutRelay.OrderedMap
import ShortcutRelay.Document.Number
import ShortcutRelay.Template.Symbol
import ShortcutRelay.Template.Placeholder
import ShortcutRelay.Config.Parse
import ShortcutRelay.Json.Reader
import ShortcutRelay.Json.Printer
import ShortcutRelay.Swift.Literal
import ShortcutRelay.Artifacts
import ShortcutRelay.Yaml.Value
import ShortcutRelay.Preview
import ShortcutRelay.Protocol.Nonce
import ShortcutRelay.Protocol.StoredValue
import ShortcutRelay.Store.Backend
import ShortcutRelay.Store.SuiteFile
import ShortcutRelay.Protocol.Command
import ShortcutRelay.Intent.State
import ShortcutRelay.Notice
import ShortcutRelay.Intent.Perform
import ShortcutRelay.App.Manager
import ShortcutRelay.Scenario.Session
import ShortcutRelay.CommandLine.Generate
import ShortcutRelay.Files.Tree
import ShortcutRelay.Main
import ShortcutRelay.Store.Directory
import ShortcutRelay.Proofs.Delivery.Latest
import ShortcutRelay.Proofs.Scenario.RoundTrip
import ShortcutRelay.Proofs.Delivery.StaleClear
import ShortcutRelay.Proofs.Delivery.Visit
import ShortcutRelay.Proofs.Company.Membership
import ShortcutRelay.Proofs.Company.Gathering
import ShortcutRelay.Proofs.Json.RoundTrip
import ShortcutRelay.Proofs.Json.Readable
import ShortcutRelay.Proofs.Localization.Merge
import ShortcutRelay.Proofs.Intent.Unannounced
import ShortcutRelay.Proofs.Assembly.Admission
import ShortcutRelay.Proofs.Text.Utf8
import ShortcutRelay.Proofs.Swift.Literal
import ShortcutRelay.Proofs.Localization.PhraseTable
import ShortcutRelay.Proofs.Swift.Phrase
import ShortcutRelay.Proofs.Json.Spelling
import ShortcutRelay.Proofs.Artifacts.Assembly
import ShortcutRelay.Proofs.Artifacts.Phrases
import ShortcutRelay.Proofs.Files.Tree
import ShortcutRelay.Proofs.Files.Runs
import ShortcutRelay.Proofs.CommandLine.Output
import ShortcutRelay.Proofs.CommandLine.Interrupted
import ShortcutRelay.Proofs.CommandLine.Places
import ShortcutRelay.Proofs.CommandLine.Regeneration
import ShortcutRelay.Proofs.CommandLine.Preview
import ShortcutRelay.Proofs.Config.Refused
import ShortcutRelay.Proofs.CommandLine.Refusal
import ShortcutRelay.Proofs.Decimal.Written
import ShortcutRelay.Proofs.Swift.Lines
import ShortcutRelay.Proofs.Swift.Names
import ShortcutRelay.Proofs.Swift.Closed
import ShortcutRelay.Proofs.Swift.Types
import ShortcutRelay.Proofs.Artifacts.Translations
import ShortcutRelay.Proofs.Localization.Keys
import ShortcutRelay.Proofs.Decimal.Order
import ShortcutRelay.Proofs.Store.Alike
import ShortcutRelay.Proofs.Store.Keeper
import ShortcutRelay.Proofs.Store.SuiteFile
import ShortcutRelay.Proofs.Store.Disturbed
import ShortcutRelay.Proofs.Store.Handles
import ShortcutRelay.Proofs.App.Sharing
import ShortcutRelay.Proofs.App.State
import ShortcutRelay.Proofs.Store.Confined
import ShortcutRelay.Proofs.Protocol.Alike
import ShortcutRelay.Proofs.Protocol.Families
import ShortcutRelay.Proofs.App.Families
import ShortcutRelay.Proofs.Intent.Dialogs
import ShortcutRelay.Proofs.Localization.SourceLanguage
import ShortcutRelay.Proofs.Intent.Waiting
import ShortcutRelay.Proofs.App.Brought
import ShortcutRelay.Proofs.Decimal.Faithful
import ShortcutRelay.Proofs.Calendar.Range
import ShortcutRelay.Proofs.App.Seen
import ShortcutRelay.Proofs.Swift.Comparison
import ShortcutRelay.Proofs.Assembly.Handover
import ShortcutRelay.Proofs.Localization.TableLines
import ShortcutRelay.Proofs.Template.Turns
import ShortcutRelay.Proofs.Intent.Interpolation
import ShortcutRelay.Proofs.Swift.Spoken
import ShortcutRelay.Proofs.TypeDeclarations
import ShortcutRelay.Proofs.Config.Spelling
import ShortcutRelay.Proofs.Protocol.Mailbox
import ShortcutRelay.Proofs.App.Audience
import ShortcutRelay.Proofs.Template.Tokens
import ShortcutRelay.Proofs.Artifacts.Names
