import RadioGateway.Chip.Board
import RadioGateway.Chip.Memory
import RadioGateway.Chip.Model
import RadioGateway.Chip.Program
import RadioGateway.Chip.Register
import RadioGateway.Chip.Transceiver
import RadioGateway.CommandLine.Address
import RadioGateway.CommandLine.Arguments
import RadioGateway.CommandLine.Session
import RadioGateway.CommandLine.Settings
import RadioGateway.Decimal.Binary
import RadioGateway.Decimal.Layout
import RadioGateway.Decimal.Shortest
import RadioGateway.Gateway.Buffer
import RadioGateway.Gateway.Client
import RadioGateway.Gateway.Error
import RadioGateway.Gateway.Inbox
import RadioGateway.Gateway.Iteration
import RadioGateway.Gateway.Listener
import RadioGateway.Gateway.Lock
import RadioGateway.Gateway.Packet
import RadioGateway.Gateway.Run
import RadioGateway.Gateway.State
import RadioGateway.Gateway.Stats
import RadioGateway.Gateway.Step
import RadioGateway.Http.ConnectRequest
import RadioGateway.Http.Endpoint
import RadioGateway.Http.Message
import RadioGateway.Http.Server
import RadioGateway.Json.Error
import RadioGateway.Json.Number
import RadioGateway.Json.Reader
import RadioGateway.Json.Record
import RadioGateway.Json.Scan
import RadioGateway.Json.Skip
import RadioGateway.Json.Value
import RadioGateway.Json.Writer
import RadioGateway.Log.Event
import RadioGateway.Log.Filter
import RadioGateway.Main
import RadioGateway.Pattern.Basic
import RadioGateway.Pattern.CharSet
import RadioGateway.Pattern.Reader
import RadioGateway.Proofs.Accounting
import RadioGateway.Proofs.Alike
import RadioGateway.Proofs.Attachment
import RadioGateway.Proofs.BackOff
import RadioGateway.Proofs.Bus
import RadioGateway.Proofs.Bystanders
import RadioGateway.Proofs.ClockDriven
import RadioGateway.Proofs.ConnectBodies
import RadioGateway.Proofs.Conservation
import RadioGateway.Proofs.Decoding
import RadioGateway.Proofs.Dismissal
import RadioGateway.Proofs.Documents
import RadioGateway.Proofs.Doubles
import RadioGateway.Proofs.Drift
import RadioGateway.Proofs.FailedConnects
import RadioGateway.Proofs.Footprint
import RadioGateway.Proofs.FrameDelivery
import RadioGateway.Proofs.Health
import RadioGateway.Proofs.Lifecycle
import RadioGateway.Proofs.Linearizable
import RadioGateway.Proofs.ListeningAgain
import RadioGateway.Proofs.Meanings
import RadioGateway.Proofs.Memory
import RadioGateway.Proofs.Moves
import RadioGateway.Proofs.Numerals
import RadioGateway.Proofs.OnAir
import RadioGateway.Proofs.OneSlice
import RadioGateway.Proofs.Openings
import RadioGateway.Proofs.Order
import RadioGateway.Proofs.Overwriting
import RadioGateway.Proofs.Pacing
import RadioGateway.Proofs.Payloads
import RadioGateway.Proofs.Places
import RadioGateway.Proofs.Polling
import RadioGateway.Proofs.Progress
import RadioGateway.Proofs.Queues
import RadioGateway.Proofs.Reading
import RadioGateway.Proofs.Reception
import RadioGateway.Proofs.Recognition
import RadioGateway.Proofs.Records
import RadioGateway.Proofs.Relaying
import RadioGateway.Proofs.Requests
import RadioGateway.Proofs.Rereading
import RadioGateway.Proofs.Scanning
import RadioGateway.Proofs.SendOutcomes
import RadioGateway.Proofs.Sending
import RadioGateway.Proofs.Serial
import RadioGateway.Proofs.Settings
import RadioGateway.Proofs.Skipping
import RadioGateway.Proofs.SlicedReceive
import RadioGateway.Proofs.Spelling
import RadioGateway.Proofs.StandIn
import RadioGateway.Proofs.Supervision
import RadioGateway.Proofs.SymbolTime
import RadioGateway.Proofs.Transmission
import RadioGateway.Proofs.Utf8
import RadioGateway.Proofs.Waiting
import RadioGateway.Radio.Airtime
import RadioGateway.Radio.Config
import RadioGateway.Radio.Error
import RadioGateway.Radio.Frame
import RadioGateway.Radio.Scripted
import RadioGateway.Station.Basic
import RadioGateway.Station.Driver
import RadioGateway.Station.Effect
import RadioGateway.Station.Pins
import RadioGateway.Station.Solo
import RadioGateway.Text.Blank
import RadioGateway.Text.Hex
import RadioGateway.Text.Parts
import RadioGateway.Text.Printable
import RadioGateway.Text.Quoted
import RadioGateway.Text.Terminal
import RadioGateway.Text.Utf8
