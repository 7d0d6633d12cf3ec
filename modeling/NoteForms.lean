import NoteForms.Decimal.Double
import NoteForms.Decimal.Layout
import NoteForms.Decimal.Shortest
import NoteForms.Decode.Decoder
import NoteForms.Decode.Failure
import NoteForms.Decode.Record
import NoteForms.Decode.Sum
import NoteForms.Edit.Drafts
import NoteForms.Edit.Editor
import NoteForms.Edit.Initial
import NoteForms.Edit.Pager
import NoteForms.Fault
import NoteForms.Form.Mounted
import NoteForms.Form.Plugin
import NoteForms.Form.View
import NoteForms.Json.Equality
import NoteForms.Json.Fault
import NoteForms.Json.Number
import NoteForms.Json.Printer
import NoteForms.Json.Reader
import NoteForms.Json.Value
import NoteForms.Note.Frontmatter
import NoteForms.Proofs.Edit.Placing
import NoteForms.Proofs.Edit.Run
import NoteForms.Proofs.Form.NoteSubmit
import NoteForms.Proofs.Form.Submit
import NoteForms.Proofs.Form.TextSubmit
import NoteForms.Proofs.Form.Turns
import NoteForms.Proofs.Form.World
import NoteForms.Proofs.Json.Entries
import NoteForms.Proofs.Note.Block
import NoteForms.Proofs.Note.Printed
import NoteForms.Proofs.Note.RoundTrip
import NoteForms.Proofs.Note.Tidy
import NoteForms.Proofs.Records.Stored
import NoteForms.Proofs.Track.Attends
import NoteForms.Proofs.Track.Delivery
import NoteForms.Proofs.Track.Follow
import NoteForms.Proofs.Track.NoteTracking
import NoteForms.Proofs.Track.Run
import NoteForms.Proofs.Track.Spared
import NoteForms.Proofs.Track.TextTracking
import NoteForms.Proofs.Vault.Report
import NoteForms.Proofs.Vault.Rewrite
import NoteForms.Proofs.Vault.Settled
import NoteForms.Proofs.Yaml.OneLine
import NoteForms.Records.Document
import NoteForms.Records.Store
import NoteForms.Setup.Configuration
import NoteForms.Setup.Language
import NoteForms.Setup.Path
import NoteForms.Setup.Settings
import NoteForms.Text.Blank
import NoteForms.Text.Digits
import NoteForms.Text.Hidden
import NoteForms.Text.Shown
import NoteForms.Track.Host
import NoteForms.Track.Label
import NoteForms.Track.Roster
import NoteForms.Track.Tracker
import NoteForms.Vault.Basic
import NoteForms.Vault.Event
import NoteForms.Yaml.Anchor
import NoteForms.Yaml.Chars
import NoteForms.Yaml.Cursor
import NoteForms.Yaml.Node
import NoteForms.Yaml.Printer
import NoteForms.Yaml.Reader
import NoteForms.Yaml.Scalar
import NoteForms.Yaml.Style
import NoteForms.Yaml.Token
import NoteForms.Yaml.Token.Block
import NoteForms.Yaml.Token.Gap
import NoteForms.Yaml.Token.Lexer
import NoteForms.Yaml.Token.Plain
import NoteForms.Yaml.Token.Property
import NoteForms.Yaml.Token.Quoted
import NoteForms.Proofs.Decode.Properties
import NoteForms.Proofs.Decode.Pinpoint
import NoteForms.Proofs.Vault.Cache
import NoteForms.Proofs.Edit.Copies
import NoteForms.Proofs.Form.Advance
import NoteForms.Proofs.Form.Current
import NoteForms.Proofs.Track.Admit
import NoteForms.Proofs.Track.Resubscribe
import NoteForms.Proofs.Form.Failure
import NoteForms.Proofs.Setup.Agreement
import NoteForms.Proofs.Form.Site
import NoteForms.Proofs.Form.Announced
import NoteForms.Proofs.Track.Rest
import NoteForms.Proofs.Form.Unrelated
import NoteForms.Proofs.Track.Holders
import NoteForms.Proofs.Form.Request
import NoteForms.Proofs.Form.Wakes
import NoteForms.Proofs.Form.Balance
import NoteForms.Proofs.Form.Custody
import NoteForms.Proofs.Form.Accounts
import NoteForms.Proofs.Decode.Accepts
import NoteForms.Proofs.Decode.Rearranged
import NoteForms.Proofs.Setup.Grammar
import NoteForms.Proofs.Setup.Encoding
import NoteForms.Proofs.Json.Sameness
import NoteForms.Proofs.Json.Distinct
import NoteForms.Proofs.Note.Distinct
import NoteForms.Proofs.Edit.History
import NoteForms.Proofs.Track.Distinct
import NoteForms.Proofs.Form.Distinct
import NoteForms.Proofs.Form.Fresh
import NoteForms.Proofs.Edit.Paging
import NoteForms.Proofs.Decode.Variants
import NoteForms.Proofs.Decode.Overriding
import NoteForms.Proofs.Setup.Layers
import NoteForms.Proofs.Json.OneLine
import NoteForms.Proofs.Decode.Message
import NoteForms.Proofs.Setup.Extension
import NoteForms.Proofs.Note.Cut
import NoteForms.Proofs.Vault.Apart
