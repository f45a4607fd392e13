import DapDbgeng.Machine
import DapDbgeng.RespondsOnce
import DapDbgeng.ParkedRequests
import DapDbgeng.Scopes
import DapDbgeng.BreakReports
import DapDbgeng.Containers
import DapDbgeng.Writer
import DapDbgeng.Tracking
import DapDbgeng.Updates
import DapDbgeng.Permits
import DapDbgeng.ThreadEvents
import DapDbgeng.Endings
import DapDbgeng.ResponseOrder
import DapDbgeng.Framing
import DapDbgeng.Outbound
import DapDbgeng.Delivery
import DapDbgeng.TaskQueue
import DapDbgeng.BackwardScan
import DapDbgeng.Disassembly
import DapDbgeng.Replacing
import DapDbgeng.VariableTrees
import DapDbgeng.SymbolForest
import DapDbgeng.Base64
import DapDbgeng.CommandLine
import DapDbgeng.Windows
import DapDbgeng.SourceResults
import DapDbgeng.CommandTexts
import DapDbgeng.Protgen.RoundTrip
import DapDbgeng.AddressRequests
import DapDbgeng.FrameIds
import DapDbgeng.Verdicts
import DapDbgeng.BreakpointEvents
import DapDbgeng.FailedResumes
import DapDbgeng.TraceRecorder
import DapDbgeng.CurrentThread
import DapDbgeng.SteppingModes
import DapDbgeng.StopReasons
import DapDbgeng.SuppressedStops
import DapDbgeng.AcceptedStops
import DapDbgeng.Greeting
import DapDbgeng.Progress
import DapDbgeng.KernelTargets
import DapDbgeng.Conversation
import DapDbgeng.DispatcherRefinement
import DapDbgeng.ScopeListing
import DapDbgeng.LocalsTree
import DapDbgeng.RunningConditions
import DapDbgeng.ContentLength
import DapDbgeng.FirstTokens
import DapDbgeng.Int32Arguments
import DapDbgeng.InboundMessages
import DapDbgeng.OutputCapture
import DapDbgeng.SymbolExpansion
import DapDbgeng.Protgen.ClassOrder
