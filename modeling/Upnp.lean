import Upnp.Action.Argument
import Upnp.Action.Basic
import Upnp.Action.Control
import Upnp.Action.Error
import Upnp.Config.Basic
import Upnp.Config.Loading
import Upnp.Config.Settings
import Upnp.Config.Tree
import Upnp.Control.Discovery
import Upnp.Control.Point
import Upnp.Decimal.Binary64
import Upnp.Decimal.Integer
import Upnp.Decimal.Real
import Upnp.Decimal.Shortest
import Upnp.Description.Error
import Upnp.Description.Version
import Upnp.Device.Basic
import Upnp.Device.Description
import Upnp.Device.Find
import Upnp.Device.Link
import Upnp.Device.Loading
import Upnp.Device.Registry
import Upnp.Device.Revision
import Upnp.Device.Shelves
import Upnp.Http.Client
import Upnp.Http.Server
import Upnp.Logging.Filter
import Upnp.Markup.Attribute
import Upnp.Markup.Token
import Upnp.Net.Interface
import Upnp.Outcome
import Upnp.Proofs.Action.Values
import Upnp.Proofs.Config.Layering
import Upnp.Proofs.Config.Tree
import Upnp.Proofs.Control.Discovery
import Upnp.Proofs.Control.Registration
import Upnp.Proofs.Decimal.Integer
import Upnp.Proofs.Description.Root
import Upnp.Proofs.Device.Description
import Upnp.Proofs.Device.Entries
import Upnp.Proofs.Device.Links
import Upnp.Proofs.Device.Loading
import Upnp.Proofs.Device.Registry
import Upnp.Proofs.Device.Shelves
import Upnp.Proofs.Device.Within
import Upnp.Proofs.Markup.Content
import Upnp.Proofs.Markup.Escape
import Upnp.Proofs.Markup.Lexeme
import Upnp.Proofs.Markup.Nesting
import Upnp.Proofs.Markup.Tag
import Upnp.Proofs.Markup.Written
import Upnp.Proofs.Service.Description
import Upnp.Proofs.Serving.Call
import Upnp.Proofs.Serving.Dispatch
import Upnp.Proofs.Serving.Header
import Upnp.Proofs.Serving.Location
import Upnp.Proofs.Serving.Routing
import Upnp.Proofs.Serving.Search
import Upnp.Proofs.Soap.Body
import Upnp.Proofs.Soap.Call
import Upnp.Proofs.Soap.Envelope
import Upnp.Proofs.Soap.Fault
import Upnp.Proofs.Ssdp.Building
import Upnp.Proofs.Ssdp.Headers
import Upnp.Proofs.Ssdp.Wire
import Upnp.Proofs.Text.LowerCase
import Upnp.Proofs.Text.Run
import Upnp.Proofs.Text.Split
import Upnp.Proofs.Text.Utf8
import Upnp.Proofs.Url.Path
import Upnp.Proofs.Url.Text
import Upnp.Proofs.Url.Web
import Upnp.Proofs.Xml.Document
import Upnp.Proofs.Xml.Fields
import Upnp.Proofs.Xml.Passage
import Upnp.Proofs.Xml.Tag
import Upnp.Proofs.Yaml.Blank
import Upnp.Proofs.Yaml.Value
import Upnp.Service.Basic
import Upnp.Service.Description
import Upnp.Service.Variable
import Upnp.Serving.Responder
import Upnp.Serving.Server
import Upnp.Soap.Decode
import Upnp.Soap.Encode
import Upnp.Soap.Fault
import Upnp.Ssdp.MaxAge
import Upnp.Ssdp.Message
import Upnp.Ssdp.Packet
import Upnp.Ssdp.Reception
import Upnp.Ssdp.Server
import Upnp.Text.Blank
import Upnp.Text.CaseTable
import Upnp.Text.Digit
import Upnp.Text.LowerCase
import Upnp.Text.Split
import Upnp.Text.Utf8
import Upnp.Url.Basic
import Upnp.Url.Host
import Upnp.Url.Parse
import Upnp.Url.Percent
import Upnp.Url.Punycode
import Upnp.Url.Resolve
import Upnp.Xml.Char
import Upnp.Xml.Event
import Upnp.Xml.Node
import Upnp.Xml.Prolog
import Upnp.Xml.Reader
import Upnp.Xml.Reference
import Upnp.Xml.Tag
import Upnp.Xml.Writer
import Upnp.Yaml.Block
import Upnp.Yaml.Document
import Upnp.Yaml.Folding
import Upnp.Yaml.Node
import Upnp.Yaml.Place
import Upnp.Yaml.Plain
import Upnp.Yaml.Tag
import Upnp.Yaml.Token
import Upnp.Yaml.Value
import Upnp.Yaml.Writer
import Upnp.Proofs.Device.Addresses
import Upnp.Proofs.Device.Revision
import Upnp.Proofs.Config.Changes
import Upnp.Proofs.Config.Keys
import Upnp.Proofs.Config.Saving
import Upnp.Proofs.Action.Posting
import Upnp.Proofs.Serving.Filling
import Upnp.Proofs.Control.Adding
import Upnp.Proofs.Config.Paths
import Upnp.Proofs.Markup.Prolog
import Upnp.Proofs.Soap.Extraction
import Upnp.Proofs.Soap.Spelling
import Upnp.Proofs.Config.Overrides
import Upnp.Proofs.Config.Vacant
import Upnp.Proofs.Url.Punycode
import Upnp.Proofs.Url.Domain
import Upnp.Proofs.Url.Address
import Upnp.Proofs.Url.Host
import Upnp.Proofs.Url.Base
import Upnp.Proofs.Device.Resolution
import Upnp.Proofs.Ssdp.Lines
import Upnp.Proofs.Ssdp.Writes
import Upnp.Proofs.Ssdp.Spacing
import Upnp.Proofs.Ssdp.Answer
import Upnp.Proofs.Outcome
import Upnp.Proofs.Ssdp.Reception
import Upnp.Proofs.Ssdp.Servers
import Upnp.Proofs.Serving.Lifecycle
import Upnp.Proofs.Device.Attempts
import Upnp.Proofs.Net.Nearest
import Upnp.Proofs.Ssdp.MaxAge
import Upnp.Proofs.Service.AllowedValues
import Upnp.Proofs.Ssdp.Numbers
import Upnp.Proofs.Action.Numbers
import Upnp.Proofs.Config.Settings
