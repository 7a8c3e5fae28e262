import RemotusHardware.Base.CString
import RemotusHardware.Base.Debounce
import RemotusHardware.Base.Decimal
import RemotusHardware.Base.LevelPattern
import RemotusHardware.Base.RelativeError
import RemotusHardware.Base.Rounding
import RemotusHardware.Base.Scanner
import RemotusHardware.Base.SortedMap
import RemotusHardware.Base.Transition
import RemotusHardware.Base.Wire
import RemotusHardware.Board
import RemotusHardware.PicoJson
import RemotusHardware.Parse
import RemotusHardware.Tables
import RemotusHardware.Syntax
import RemotusHardware.ReadFile
import RemotusHardware.Grammar
import RemotusHardware.WholeFile
import RemotusHardware.Serialize
import RemotusHardware.Validation
import RemotusHardware.Configuration
import RemotusHardware.Packet
import RemotusHardware.Client
import RemotusHardware.Cycle
import RemotusHardware.Update
import RemotusHardware.Texts
import RemotusHardware.Thermometer
import RemotusHardware.Dispatch
import RemotusHardware.Delivery
import RemotusHardware.TopicFilter
import RemotusHardware.Payload
import RemotusHardware.Bounds
import RemotusHardware.Commands
import RemotusHardware.Heartbeat
import RemotusHardware.Isolation
import RemotusHardware.Publishing
import RemotusHardware.Subscription
import RemotusHardware.ByValue
import RemotusHardware.Rain
import RemotusHardware.Connect
import RemotusHardware.Stream
import RemotusHardware.RemoteControl
import RemotusHardware.Operations
import RemotusHardware.KeepAlive
import RemotusHardware.Requests
import RemotusHardware.FallingEdges
import RemotusHardware.WindVane
import RemotusHardware.SensorLine
