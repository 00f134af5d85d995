import Praefectus.Program.Tree
import Praefectus.Program.Concurrent
import Praefectus.Text.Lines
import Praefectus.Ledger.Repair
import Praefectus.Json.Visible
import Praefectus.Json.Canonical
import Praefectus.System.Stability
import Praefectus.System.InProgress
import Praefectus.System.HostAgreement
import Praefectus.System.Agreement
import Praefectus.Program.Emissions
import Praefectus.Native.Keysyms
import Praefectus.Native.Typing
import Praefectus.Native.Pointer
import Praefectus.Native.ClearedField
import Praefectus.Native.MacTyping
import Praefectus.Program.Verdicts
import Praefectus.Semantic.Fence
import Praefectus.Semantic.ProviderText
import Praefectus.Engine.Routes
import Praefectus.Engine.Boundaries
import Praefectus.Native.KeyNames
import Praefectus.Program.Served
import Praefectus.Json.Size
import Praefectus.Observe.LinuxSnapshot
import Praefectus.Observe.LinuxTarget
import Praefectus.Observe.LinuxEvidence
import Praefectus.Observe.LinuxEffect
import Praefectus.Observe.LinuxFence
import Praefectus.Observe.LinuxSeen
import Praefectus.Observe.Persist
import Praefectus.Observe.PersistDisk
import Praefectus.Observe.PersistRuns
import Praefectus.System.Reports
import Praefectus.System.Refused
import Praefectus.Semantic.Mapping
import Praefectus.Observe.Cdp
import Praefectus.Observe.CdpTree
import Praefectus.Observe.CdpElements
import Praefectus.Observe.CdpChannel
import Praefectus.Observe.CdpReplies
import Praefectus.Observe.CdpSession
import Praefectus.Observe.CdpLate
import Praefectus.Observe.CdpObserve
import Praefectus.Observe.CdpNewest
import Praefectus.Native.Fenced
import Praefectus.Json.Order
import Praefectus.Protocol.Derived
import Praefectus.Native.Chunks
import Praefectus.Native.Coordinates
import Praefectus.Native.Screens
import Praefectus.Engine.Batch
import Praefectus.Engine.StrictFacts
import Praefectus.Protocol.Bounded
import Praefectus.Text.Joined
import Praefectus.Semantic.ElementIds
import Praefectus.Observe.LinuxMapping
import Praefectus.Observe.Topology
import Praefectus.Native.Capture
import Praefectus.Text.Words
import Praefectus.Observe.ProcessStart
import Praefectus.Observe.WindowsPaths
import Praefectus.Observe.Windows
import Praefectus.Observe.WindowsWalk
import Praefectus.Observe.ElementIds
import Praefectus.Text.Sha256
import Praefectus.Text.Fields
import Praefectus.Observe.CdpDiscover
import Praefectus.Observe.CdpAnswer
import Praefectus.Program.Twins
import Praefectus.Observe.CdpProbe
import Praefectus.Observe.CdpAlike
import Praefectus.Observe.CdpProtected
import Praefectus.Protocol.Encodings
import Praefectus.Engine.Authority
import Praefectus.Program.Handled
import Praefectus.Program.Upholds
import Praefectus.Observe.CdpEffect
import Praefectus.Observe.CdpFence
import Praefectus.Observe.CdpDispatch
import Praefectus.Observe.CdpSettled
import Praefectus.Engine.Dispatches
import Praefectus.Observe.CdpEngine
import Praefectus.Program.Planned
import Praefectus.Native.Plans
import Praefectus.Native.Portal
import Praefectus.Native.PlannedDispatch
import Praefectus.Native.MacDeeds
import Praefectus.Native.MacTells
import Praefectus.Native.LinuxDispatch
import Praefectus.Native.LinuxPlans
import Praefectus.Program.Settings
import Praefectus.Native.GlobalInput
