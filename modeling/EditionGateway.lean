import EditionGateway.Backend.Layout
import EditionGateway.Backend.Packet
import EditionGateway.Backend.Version
import EditionGateway.Binary.Number
import EditionGateway.Binary.Reader
import EditionGateway.Bytes
import EditionGateway.Bytes.Hex
import EditionGateway.Client.Layout
import EditionGateway.Client.Packet
import EditionGateway.Client.Version
import EditionGateway.Compression.CodeTree
import EditionGateway.Compression.Deflate
import EditionGateway.Compression.Format
import EditionGateway.Compression.Inflate
import EditionGateway.Conversion.Coordinate
import EditionGateway.Conversion.Dispatch
import EditionGateway.Conversion.Error
import EditionGateway.Conversion.Mappings
import EditionGateway.Conversion.ToBackend
import EditionGateway.Conversion.ToClient
import EditionGateway.Conversion.Update
import EditionGateway.Datagram.Connection
import EditionGateway.Datagram.Endpoint
import EditionGateway.Datagram.Message
import EditionGateway.Datagram.Opening
import EditionGateway.Datagram.Probe
import EditionGateway.Datagram.Reassembly
import EditionGateway.Decimal.Shortest
import EditionGateway.Discovery.Advertisement
import EditionGateway.Discovery.Layout
import EditionGateway.Discovery.Refresher
import EditionGateway.Discovery.Responder
import EditionGateway.Discovery.StatusDocument
import EditionGateway.Duration
import EditionGateway.Gateway.Config
import EditionGateway.Gateway.Error
import EditionGateway.Gateway.Host
import EditionGateway.Gateway.InProcess
import EditionGateway.Gateway.Loopback
import EditionGateway.Gateway.Network
import EditionGateway.Gateway.Server
import EditionGateway.Gateway.Session
import EditionGateway.Geometry
import EditionGateway.Identity.Ids
import EditionGateway.Identity.Md5
import EditionGateway.Identity.Uuid
import EditionGateway.Json.Access
import EditionGateway.Json.Basic
import EditionGateway.Json.Float
import EditionGateway.Json.FloatBits
import EditionGateway.Json.Lexer
import EditionGateway.Json.Parser
import EditionGateway.Json.Printer
import EditionGateway.Json.Record
import EditionGateway.Link.Address
import EditionGateway.Link.Error
import EditionGateway.Link.Frame
import EditionGateway.Link.Memory
import EditionGateway.Link.Stream
import EditionGateway.Link.StreamPair
import EditionGateway.Link.Varint
import EditionGateway.Linking.Conversation
import EditionGateway.Linking.Error
import EditionGateway.Linking.Login
import EditionGateway.Linking.Script
import EditionGateway.Linking.StatusQuery
import EditionGateway.Main
import EditionGateway.Proofs.Conversion.Chat
import EditionGateway.Proofs.Conversion.Entities
import EditionGateway.Proofs.Conversion.Failures
import EditionGateway.Proofs.Conversion.Outputs
import EditionGateway.Proofs.Conversion.Teleports
import EditionGateway.Proofs.Datagram.Bounds
import EditionGateway.Proofs.Datagram.History
import EditionGateway.Proofs.Datagram.Interleaving
import EditionGateway.Proofs.Datagram.Isolation
import EditionGateway.Proofs.Datagram.Loss
import EditionGateway.Proofs.Datagram.Lossless
import EditionGateway.Proofs.Datagram.Mingling
import EditionGateway.Proofs.Datagram.Ownership
import EditionGateway.Proofs.Datagram.Pinging
import EditionGateway.Proofs.Datagram.Sizes
import EditionGateway.Proofs.Datagram.Torn
import EditionGateway.Proofs.Discovery.Advertisement
import EditionGateway.Proofs.Discovery.Replies
import EditionGateway.Proofs.Gateway.Agreement
import EditionGateway.Proofs.Gateway.Bookkeeping
import EditionGateway.Proofs.Gateway.Chatter
import EditionGateway.Proofs.Gateway.Chronicle
import EditionGateway.Proofs.Gateway.Crowding
import EditionGateway.Proofs.Gateway.Endings
import EditionGateway.Proofs.Gateway.Liaison
import EditionGateway.Proofs.Gateway.Reading
import EditionGateway.Proofs.Gateway.Runs
import EditionGateway.Proofs.Gateway.Soundness
import EditionGateway.Proofs.Gateway.Switching
import EditionGateway.Proofs.Link.Denotation
import EditionGateway.Proofs.Link.Memory
import EditionGateway.Proofs.Link.RoundTrip
import EditionGateway.Proofs.Linking.Decision
import EditionGateway.Proofs.Linking.Limits
import EditionGateway.Proofs.Linking.Probing
import EditionGateway.Proofs.Session.Admission
import EditionGateway.Proofs.Session.Agenda
import EditionGateway.Proofs.Session.Barrier
import EditionGateway.Proofs.Session.ClientData
import EditionGateway.Proofs.Session.Course
import EditionGateway.Proofs.Session.Custody
import EditionGateway.Proofs.Session.Dues
import EditionGateway.Proofs.Session.EntityHistory
import EditionGateway.Proofs.Session.EntityNumbers
import EditionGateway.Proofs.Session.Entrance
import EditionGateway.Proofs.Session.Establishment
import EditionGateway.Proofs.Session.Forwarding
import EditionGateway.Proofs.Session.Gate
import EditionGateway.Proofs.Session.Ledger
import EditionGateway.Proofs.Session.Membership
import EditionGateway.Proofs.Session.Phases
import EditionGateway.Proofs.Session.Registry
import EditionGateway.Proofs.Session.Settings
import EditionGateway.Proofs.Session.Teardown
import EditionGateway.Proofs.Session.UnknownKeys
import EditionGateway.Proofs.Shape.Packets
import EditionGateway.Proofs.Text.Legacy
import EditionGateway.Report.Cause
import EditionGateway.Report.Error
import EditionGateway.Report.Frame
import EditionGateway.Report.Packet
import EditionGateway.Report.State
import EditionGateway.Report.Watch
import EditionGateway.Session.Channel
import EditionGateway.Session.ClientData
import EditionGateway.Session.Context
import EditionGateway.Session.Credentials
import EditionGateway.Session.Disconnect
import EditionGateway.Session.Error
import EditionGateway.Session.Lifecycle
import EditionGateway.Session.Registry
import EditionGateway.Shape.Basic
import EditionGateway.Shape.Codec
import EditionGateway.Shape.Fields
import EditionGateway.Shape.Text
import EditionGateway.Shape.Variant
import EditionGateway.Table
import EditionGateway.Text.Blank
import EditionGateway.Text.Component
import EditionGateway.Text.Legacy
import EditionGateway.Text.Quoted
import EditionGateway.Text.Unprintable
