import ModbusProxy.Library.Runs
import ModbusProxy.Library.Memory
import ModbusProxy.Poll.Cache
import ModbusProxy.Library.Outcomes
import ModbusProxy.Poll.Thread
import ModbusProxy.Poll.Staleness
import ModbusProxy.Poll.Strings
import ModbusProxy.Poll.Typed
import ModbusProxy.Poll.Registry
import ModbusProxy.Poll.Isolation
import ModbusProxy.Wire.Client
import ModbusProxy.Wire.Strings
import ModbusProxy.Wire.Reads
import ModbusProxy.Wire.Server
import ModbusProxy.Wire.Agreement
import ModbusProxy.Library.Framing
import ModbusProxy.Wire.Requests
import ModbusProxy.Wire.Connection
import ModbusProxy.Library.Quantize
import ModbusProxy.Logger.Pack
import ModbusProxy.Logger.Fields
import ModbusProxy.Library.AckQueue
import ModbusProxy.Logger.Ring
import ModbusProxy.Library.Loop
import ModbusProxy.Logger.Upload
import ModbusProxy.Logger.Delivery
import ModbusProxy.Convert.Reader
import ModbusProxy.Convert.Huawei
import ModbusProxy.Convert.Nrgkick
import ModbusProxy.Convert.CanEz3
import ModbusProxy.Convert.Defined
import ModbusProxy.Convert.Snapshot
import ModbusProxy.Convert.Phases
import ModbusProxy.Convert.Energy
import ModbusProxy.Logger.Summary
import ModbusProxy.Logger.Chunks
import ModbusProxy.Logger.Deadline
import ModbusProxy.Logger.Saturation
import ModbusProxy.Library.CString
import ModbusProxy.Db.Response
import ModbusProxy.Library.Tokens
import ModbusProxy.Http.Request
import ModbusProxy.Convert.MeterLayout
import ModbusProxy.Fronius.Transfer
import ModbusProxy.Fronius.Values
import ModbusProxy.Library.JsonText
import ModbusProxy.Convert.Info
import ModbusProxy.Http.Info
import ModbusProxy.Library.Rounding
import ModbusProxy.Library.Binary32
import ModbusProxy.Library.Decimal
import ModbusProxy.Library.LineProtocol
import ModbusProxy.Logger.Text
import ModbusProxy.Library.HttpMessage
import ModbusProxy.Db.Request
import ModbusProxy.Library.Calls
import ModbusProxy.Library.Threads
import ModbusProxy.Library.Printf
import ModbusProxy.Library.JsonPrint
import ModbusProxy.Library.FloatBits
import ModbusProxy.Http.Page
import ModbusProxy.Http.Values
import ModbusProxy.Http.Readings
import ModbusProxy.Process.Calls
import ModbusProxy.Process.Database
import ModbusProxy.Process.ModbusServer
import ModbusProxy.Process.Polling
import ModbusProxy.Process.WebServer
import ModbusProxy.Process.Threads
