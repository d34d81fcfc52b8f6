import Pagemark.Codec.Basic
import Pagemark.Codec.Seal
import Pagemark.Codec.Stack
import Pagemark.Command.Arguments
import Pagemark.Command.Basic
import Pagemark.Command.Location
import Pagemark.Digest.Blake3
import Pagemark.Digest.LittleEndian
import Pagemark.Form
import Pagemark.Identity
import Pagemark.Json.Documents
import Pagemark.Json.Lexeme
import Pagemark.Json.Printer
import Pagemark.Json.Reader
import Pagemark.Json.Record
import Pagemark.Json.Value
import Pagemark.Log.Event
import Pagemark.Log.Filter
import Pagemark.Log.Pattern
import Pagemark.Log.Session
import Pagemark.Main
import Pagemark.Page
import Pagemark.Pager.Admission
import Pagemark.Pager.Basic
import Pagemark.Pager.Error
import Pagemark.Pager.Links
import Pagemark.Proofs.Codec.RoundTrip
import Pagemark.Proofs.Command.RoundTrip
import Pagemark.Proofs.Form
import Pagemark.Proofs.Identity
import Pagemark.Proofs.Json.Documents
import Pagemark.Proofs.Json.Text
import Pagemark.Proofs.Log.Session
import Pagemark.Proofs.Page
import Pagemark.Proofs.Pager.Absolute
import Pagemark.Proofs.Pager.Admission
import Pagemark.Proofs.Pager.Built
import Pagemark.Proofs.Pager.Carried
import Pagemark.Proofs.Pager.Edited
import Pagemark.Proofs.Pager.Entry
import Pagemark.Proofs.Pager.InPlace
import Pagemark.Proofs.Pager.Link
import Pagemark.Proofs.Pager.Overwrite
import Pagemark.Proofs.Pager.Replay
import Pagemark.Proofs.Pager.Secret
import Pagemark.Proofs.Pager.Sharing
import Pagemark.Proofs.Pager.Size
import Pagemark.Proofs.Pager.Verdict
import Pagemark.Proofs.Pager.Walk
import Pagemark.Proofs.Seal.Acceptance
import Pagemark.Proofs.Seal.Checksum
import Pagemark.Proofs.Seal.Message
import Pagemark.Proofs.Settings.Disk
import Pagemark.Proofs.Settings.Environment
import Pagemark.Proofs.Settings.Paging
import Pagemark.Proofs.Settings.Precedence
import Pagemark.Proofs.Settings.Reading
import Pagemark.Proofs.Sorting
import Pagemark.Proofs.Sorting.Reading
import Pagemark.Proofs.Target
import Pagemark.Proofs.Text.Cut
import Pagemark.Proofs.Text.Integer
import Pagemark.Proofs.Text.Numeral
import Pagemark.Proofs.Text.Percent
import Pagemark.Proofs.Text.Utf8
import Pagemark.Proofs.Toml.Document
import Pagemark.Proofs.Toml.Merge
import Pagemark.Proofs.Uri
import Pagemark.Proofs.Url.Address
import Pagemark.Proofs.Url.Authority
import Pagemark.Proofs.Url.Host
import Pagemark.Proofs.Url.Join
import Pagemark.Proofs.Url.Path
import Pagemark.Proofs.Url.Query
import Pagemark.Proofs.Url.Reference
import Pagemark.Proofs.Url.Text
import Pagemark.Settings.Basic
import Pagemark.Settings.Disk
import Pagemark.Settings.Environment
import Pagemark.Settings.Layers
import Pagemark.Settings.Paging
import Pagemark.Sorting
import Pagemark.Target
import Pagemark.Text.Alphanumeric
import Pagemark.Text.Base64Url
import Pagemark.Text.Blank
import Pagemark.Text.Combining
import Pagemark.Text.Cut
import Pagemark.Text.Numeral
import Pagemark.Text.Percent
import Pagemark.Text.Quoted
import Pagemark.Text.Unprintable
import Pagemark.Text.Utf8
import Pagemark.Toml.Document
import Pagemark.Toml.Scalar
import Pagemark.Toml.Text
import Pagemark.Toml.Value
import Pagemark.Uri
import Pagemark.Url.Alphabet
import Pagemark.Url.Basic
import Pagemark.Url.FilePath
import Pagemark.Url.Host
import Pagemark.Url.Idna
import Pagemark.Url.Path
import Pagemark.Url.Query
import Pagemark.Url.Reference
