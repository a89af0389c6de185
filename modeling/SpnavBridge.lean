import SpnavBridge.Theory.Accounts
import SpnavBridge.Theory.Bytes
import SpnavBridge.Theory.CNumber
import SpnavBridge.Theory.CString
import SpnavBridge.Theory.Decimal
import SpnavBridge.Theory.Dialogue
import SpnavBridge.Theory.Drift
import SpnavBridge.Theory.Ieee
import SpnavBridge.Theory.Incremental
import SpnavBridge.Theory.Machine
import SpnavBridge.Theory.NumberText
import SpnavBridge.Theory.Overwrite
import SpnavBridge.Theory.Paths
import SpnavBridge.Theory.Precision
import SpnavBridge.Theory.PrecisionText
import SpnavBridge.Theory.Recover
import SpnavBridge.Theory.Triangular
import SpnavBridge.Theory.Utf8
import SpnavBridge.Theory.Words
import SpnavBridge.Wire.Canonical
import SpnavBridge.Wire.Document
import SpnavBridge.Wire.Encoding
import SpnavBridge.Wire.Frames
import SpnavBridge.Wire.Grammar
import SpnavBridge.Wire.Head
import SpnavBridge.Wire.Http
import SpnavBridge.Wire.Json
import SpnavBridge.Wire.Meaning
import SpnavBridge.Wire.Nesting
import SpnavBridge.Wire.Origins
import SpnavBridge.Wire.Parse
import SpnavBridge.Wire.PrintNumber
import SpnavBridge.Wire.RequestLine
import SpnavBridge.Wire.Response
import SpnavBridge.Wire.RoundTrip
import SpnavBridge.Wire.Sizes
import SpnavBridge.Wire.Spelling
import SpnavBridge.Wire.Unmasked
import SpnavBridge.Wire.Wamp
import SpnavBridge.Wire.Ws
import SpnavBridge.Camera.Euler
import SpnavBridge.Camera.Exact
import SpnavBridge.Camera.GramSchmidt
import SpnavBridge.Camera.Mat4
import SpnavBridge.Kernel.Budget
import SpnavBridge.Kernel.Coalescing
import SpnavBridge.Kernel.Controller
import SpnavBridge.Kernel.Deadline
import SpnavBridge.Kernel.Drift
import SpnavBridge.Kernel.Focus
import SpnavBridge.Kernel.Gain
import SpnavBridge.Kernel.Gate
import SpnavBridge.Kernel.Gestures
import SpnavBridge.Kernel.Heeded
import SpnavBridge.Kernel.Moves
import SpnavBridge.Kernel.OneGain
import SpnavBridge.Kernel.Outstanding
import SpnavBridge.Kernel.Patience
import SpnavBridge.Kernel.Pivot
import SpnavBridge.Kernel.Prefixes
import SpnavBridge.Kernel.Readable
import SpnavBridge.Kernel.Rigid
import SpnavBridge.Kernel.Script
import SpnavBridge.Kernel.Sends
import SpnavBridge.Kernel.Text
import SpnavBridge.Kernel.Verdict
import SpnavBridge.Kernel.Writes
import SpnavBridge.Kernel.Zoom
import SpnavBridge.Daemon.Answerable
import SpnavBridge.Daemon.Answers
import SpnavBridge.Daemon.Certificates
import SpnavBridge.Daemon.Chunking
import SpnavBridge.Daemon.Client
import SpnavBridge.Daemon.Delivery
import SpnavBridge.Daemon.Device
import SpnavBridge.Daemon.Disconnect
import SpnavBridge.Daemon.EventLoop
import SpnavBridge.Daemon.History
import SpnavBridge.Daemon.Inbound
import SpnavBridge.Daemon.OriginGate
import SpnavBridge.Daemon.Output
import SpnavBridge.Daemon.Peer
import SpnavBridge.Daemon.Provisioning
import SpnavBridge.Daemon.Queue
import SpnavBridge.Daemon.Reachable
import SpnavBridge.Daemon.Report
import SpnavBridge.Daemon.Requests
import SpnavBridge.Daemon.Restart
import SpnavBridge.Daemon.Sensitivity
import SpnavBridge.Daemon.Sessions
import SpnavBridge.Daemon.Slot
import SpnavBridge.Daemon.Slots
import SpnavBridge.Daemon.StartUp
import SpnavBridge.Daemon.Steps
import SpnavBridge.Daemon.Stream
import SpnavBridge.Daemon.Talks
import SpnavBridge.Daemon.Transmission
import SpnavBridge.Daemon.Waits
import SpnavBridge.Daemon.Wakeup
