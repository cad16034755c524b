import SmolNet.AcceptOrder
import SmolNet.AcceptQueues
import SmolNet.Access
import SmolNet.AccessSpecs
import SmolNet.ActiveQuota
import SmolNet.Adapter
import SmolNet.AdapterCalls
import SmolNet.AdapterCapacity
import SmolNet.AdapterReads
import SmolNet.AdapterStream
import SmolNet.Basic
import SmolNet.Blocking
import SmolNet.CallSpecs
import SmolNet.Calls
import SmolNet.ConnectionIndex
import SmolNet.Device
import SmolNet.DeviceRuns
import SmolNet.DeviceSpecs
import SmolNet.Drive
import SmolNet.DriveSpecs
import SmolNet.Endpoint
import SmolNet.Ephemeral
import SmolNet.Feeders
import SmolNet.Fifo
import SmolNet.FinishCall
import SmolNet.FirstFit
import SmolNet.FourTuples
import SmolNet.Frames
import SmolNet.Framing
import SmolNet.InetOptions
import SmolNet.Ingress
import SmolNet.Intervals
import SmolNet.Maintenance
import SmolNet.MaintenanceSpecs
import SmolNet.Monitor
import SmolNet.NativeSocket
import SmolNet.Outcomes
import SmolNet.Ownership
import SmolNet.OwnershipLemmas
import SmolNet.OwnershipSteps
import SmolNet.Partition
import SmolNet.PathMtu
import SmolNet.Paths
import SmolNet.PortRuns
import SmolNet.Program
import SmolNet.Rack
import SmolNet.RackAck
import SmolNet.RackRuns
import SmolNet.RackSamples
import SmolNet.RackSteps
import SmolNet.RackVerdicts
import SmolNet.ReadyQueue
import SmolNet.RecordSteps
import SmolNet.Records
import SmolNet.Resources
import SmolNet.Runs
import SmolNet.ScanReady
import SmolNet.ScanRuns
import SmolNet.Scoreboard
import SmolNet.Script
import SmolNet.SendHistory
import SmolNet.SendLog
import SmolNet.SendLogMerge
import SmolNet.SendLogQueries
import SmolNet.SendLogRuns
import SmolNet.SendLogSpans
import SmolNet.SendLogSteps
import SmolNet.Serial
import SmolNet.Shutdown
import SmolNet.ShutdownSpecs
import SmolNet.SocketOwners
import SmolNet.SocketTable
import SmolNet.Stack
import SmolNet.StackProcess
import SmolNet.Steps
import SmolNet.TableSpecs
import SmolNet.TcpCallSpecs
import SmolNet.TcpCalls
import SmolNet.TcpMachine
import SmolNet.TcpProcess
import SmolNet.TcpStream
import SmolNet.TcpStreamSpecs
import SmolNet.Transition
import SmolNet.TreeMap
import SmolNet.UdpAdapter
import SmolNet.UdpCallSpecs
import SmolNet.UdpCalls
import SmolNet.UdpReads
import SmolNet.UdpWaiters
import SmolNet.WaiterRuns
import SmolNet.Waiters
import SmolNet.Wakeups
import SmolNet.Wire
import SmolNet.World
