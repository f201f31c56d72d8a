import EdgeDevice.Bytes
import EdgeDevice.Clock
import EdgeDevice.Coap.Client
import EdgeDevice.Coap.Code
import EdgeDevice.Coap.Message
import EdgeDevice.Coap.Option
import EdgeDevice.Coap.Path
import EdgeDevice.Command.Assignment
import EdgeDevice.Command.Resource
import EdgeDevice.Command.Scan
import EdgeDevice.Device.Actuator
import EdgeDevice.Device.Generator
import EdgeDevice.Device.Identity
import EdgeDevice.Device.Kind
import EdgeDevice.Device.Model
import EdgeDevice.Device.Sensor
import EdgeDevice.Json.Object
import EdgeDevice.Json.Settings
import EdgeDevice.Library.Escaping
import EdgeDevice.Library.Skipping
import EdgeDevice.Library.Xoshiro
import EdgeDevice.Log
import EdgeDevice.Mqtt.Client
import EdgeDevice.Mqtt.Packet
import EdgeDevice.Net.Error
import EdgeDevice.Net.Link
import EdgeDevice.Node.Basic
import EdgeDevice.Node.Button
import EdgeDevice.Node.Event
import EdgeDevice.Node.Handlers
import EdgeDevice.Node.PeriodDial
import EdgeDevice.Node.Run
import EdgeDevice.Node.Settings
import EdgeDevice.Node.Timers
import EdgeDevice.Session.Broker
import EdgeDevice.Session.Channel
import EdgeDevice.Session.Registrar
import EdgeDevice.Simulation.Counterpart
import EdgeDevice.Simulation.Wire
import EdgeDevice.Text.Ascii
import EdgeDevice.Text.Blank
import EdgeDevice.Text.Hidden
import EdgeDevice.Text.Number
import EdgeDevice.Text.Printable
import EdgeDevice.Text.Quoted
import EdgeDevice.Proofs.Device.Obedience
import EdgeDevice.Proofs.Json.Size
import EdgeDevice.Proofs.Node.Reaction
import EdgeDevice.Proofs.Node.Expiry
import EdgeDevice.Proofs.Node.Runs
import EdgeDevice.Proofs.Node.Inputs
import EdgeDevice.Proofs.Node.Rest
import EdgeDevice.Proofs.Node.Standing
import EdgeDevice.Proofs.Session.Record
import EdgeDevice.Proofs.Node.Protocol
import EdgeDevice.Proofs.Mqtt.Session
import EdgeDevice.Proofs.Node.Agreement
import EdgeDevice.Proofs.Node.Outlook
import EdgeDevice.Proofs.Node.Quiet
import EdgeDevice.Proofs.Session.Transparent
import EdgeDevice.Proofs.Node.Effort
import EdgeDevice.Proofs.Node.Selection
import EdgeDevice.Proofs.Node.FailSafe
import EdgeDevice.Proofs.Session.Registrar
import EdgeDevice.Proofs.Node.Confirmation
import EdgeDevice.Proofs.Session.Metered
import EdgeDevice.Proofs.Node.Order
import EdgeDevice.Proofs.Coap.Option
import EdgeDevice.Proofs.Coap.Path
import EdgeDevice.Proofs.Coap.Datagram
import EdgeDevice.Proofs.Coap.RoundTrip
import EdgeDevice.Proofs.Text.Characters
import EdgeDevice.Proofs.Text.Integer
import EdgeDevice.Proofs.Command.Grammar
import EdgeDevice.Proofs.Command.Lexemes
import EdgeDevice.Proofs.Command.Document
import EdgeDevice.Proofs.Command.Assignment
import EdgeDevice.Proofs.Net.Tap
import EdgeDevice.Proofs.Net.Stream
import EdgeDevice.Proofs.Coap.Concern
import EdgeDevice.Proofs.Coap.Exchange
import EdgeDevice.Proofs.Coap.Separation
import EdgeDevice.Proofs.Coap.Response
import EdgeDevice.Proofs.Mqtt.Conduct
import EdgeDevice.Proofs.Mqtt.History
import EdgeDevice.Proofs.Mqtt.Frame
import EdgeDevice.Proofs.Session.Search
import EdgeDevice.Proofs.Device.Acceptance
import EdgeDevice.Proofs.Node.Service
import EdgeDevice.Proofs.Json.Document
import EdgeDevice.Proofs.Text.Hexadecimal
import EdgeDevice.Proofs.Session.Bodies
import EdgeDevice.Proofs.Command.Ending
import EdgeDevice.Proofs.Command.Truncation
import EdgeDevice.Proofs.Device.Saturation
import EdgeDevice.Proofs.Coap.Format
import EdgeDevice.Proofs.Coap.Reencoding
import EdgeDevice.Proofs.Coap.Building
import EdgeDevice.Proofs.Mqtt.Closing
import EdgeDevice.Proofs.Net.Timekeeping
import EdgeDevice.Proofs.Coap.Awaiting
import EdgeDevice.Proofs.Coap.Deadline
import EdgeDevice.Proofs.Net.Script
import EdgeDevice.Proofs.Coap.Stray
import EdgeDevice.Proofs.Mqtt.Publishing
import EdgeDevice.Proofs.Mqtt.Chunking
import EdgeDevice.Proofs.Device.Serialization
import EdgeDevice.Proofs.Device.Range
import EdgeDevice.Proofs.Node.Presses
import EdgeDevice.Proofs.Node.Schedule
import EdgeDevice.Proofs.Command.Progress
import EdgeDevice.Proofs.Device.Ramp
import EdgeDevice.Proofs.Node.Settings
