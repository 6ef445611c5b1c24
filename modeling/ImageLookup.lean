import ImageLookup.Authentication
import ImageLookup.Challenge
import ImageLookup.Client
import ImageLookup.CommandLine.Arguments
import ImageLookup.CommandLine.Program
import ImageLookup.Conversation
import ImageLookup.Credential
import ImageLookup.Decimal.Double
import ImageLookup.Decimal.Reading
import ImageLookup.Decimal.Shortest
import ImageLookup.Digest
import ImageLookup.Failure
import ImageLookup.Hash
import ImageLookup.Http.Host
import ImageLookup.Http.Message
import ImageLookup.Http.Url
import ImageLookup.ImageDocument
import ImageLookup.Json.Numeral
import ImageLookup.Json.Printer
import ImageLookup.Json.Token
import ImageLookup.Json.Tree
import ImageLookup.Json.Value
import ImageLookup.Main
import ImageLookup.ManifestLookup
import ImageLookup.Memo
import ImageLookup.Reference.Basic
import ImageLookup.Reference.Readings
import ImageLookup.Reference.Words
import ImageLookup.Report.Item
import ImageLookup.Report.Style
import ImageLookup.Resolver
import ImageLookup.Settings.Config
import ImageLookup.Settings.Environment
import ImageLookup.Settings.Path
import ImageLookup.Settings.Value
import ImageLookup.Text.Base64
import ImageLookup.Text.Character
import ImageLookup.Text.Cut
import ImageLookup.Text.Octets
import ImageLookup.WorkingDirectory
import ImageLookup.Yaml.Cursor
import ImageLookup.Yaml.Datum
import ImageLookup.Yaml.Document
import ImageLookup.Yaml.Scalar
import ImageLookup.Yaml.Token
import ImageLookup.Yaml.Writer
import ImageLookup.Proofs.Reference.Productions
import ImageLookup.Proofs.Reference.Canonical
import ImageLookup.Proofs.Reference.Grammar
import ImageLookup.Proofs.Challenge.Splitting
import ImageLookup.Proofs.Challenge.Reading
import ImageLookup.Proofs.Conversation.Transcript
import ImageLookup.Proofs.Conversation.Limits
import ImageLookup.Proofs.Conversation.Stages
import ImageLookup.Proofs.Resolution.Outcome
import ImageLookup.Proofs.Resolution.Calls
import ImageLookup.Proofs.Resolution.Confinement
import ImageLookup.Proofs.Resolution.Lookups
import ImageLookup.Proofs.Resolution.Delivery
import ImageLookup.Proofs.Resolution.Memory
import ImageLookup.Proofs.Resolution.Directories
import ImageLookup.Proofs.Conversation.Likeness
import ImageLookup.Proofs.Resolution.Transparency
import ImageLookup.Proofs.Resolution.Deadline
import ImageLookup.Proofs.Resolution.Agreement
import ImageLookup.Proofs.Resolution.Itinerary
import ImageLookup.Proofs.Resolution.Protocol
import ImageLookup.Proofs.Conversation.Renaming
import ImageLookup.Proofs.Resolution.Secrecy
import ImageLookup.Proofs.Reference.Ambiguity
import ImageLookup.Proofs.Address.Segments
import ImageLookup.Proofs.Address.Confinement
import ImageLookup.Proofs.Address.Identity
import ImageLookup.Proofs.Challenge.Fields
import ImageLookup.Proofs.Conversation.Negotiation
import ImageLookup.Proofs.Conversation.TokenAnswers
import ImageLookup.Proofs.Settings.Numerals
import ImageLookup.Proofs.Settings.Places
import ImageLookup.Proofs.Settings.Fields
import ImageLookup.Proofs.Settings.Layering
import ImageLookup.Proofs.Settings.PlainHosts
import ImageLookup.Proofs.Reference.Qualified
import ImageLookup.Proofs.Reference.Advice
import ImageLookup.Proofs.CommandLine.Exits
import ImageLookup.Proofs.Json.Machines
import ImageLookup.Proofs.Json.Texts
import ImageLookup.Proofs.Json.RoundTrip
import ImageLookup.Proofs.Report.Documents
import ImageLookup.Proofs.Report.Styling
import ImageLookup.Proofs.Text.Base64
import ImageLookup.Proofs.Credential.Header
import ImageLookup.Proofs.Digest.Verification
import ImageLookup.Proofs.Challenge.Cuts
import ImageLookup.Proofs.Json.Paths
import ImageLookup.Proofs.Image.Fields
