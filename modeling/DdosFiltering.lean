import DdosFiltering.Config.Bounds
import DdosFiltering.Config.Comments
import DdosFiltering.Config.Echo
import DdosFiltering.Config.Numerals
import DdosFiltering.Config.OptionOrder
import DdosFiltering.Config.SlaveQueues
import DdosFiltering.Config.Statistics
import DdosFiltering.Control.Buffers
import DdosFiltering.Control.ExitCallbacks
import DdosFiltering.Control.FloatingIds
import DdosFiltering.Control.IpcFifo
import DdosFiltering.Control.MainLoop
import DdosFiltering.Control.Recreation
import DdosFiltering.Control.Rings
import DdosFiltering.Datapath.LoopRefinement
import DdosFiltering.Datapath.StopLosses
import DdosFiltering.Datapath.TimerDrains
import DdosFiltering.Engine.BpfProgram
import DdosFiltering.Engine.Deployed
import DdosFiltering.Engine.FastStrstrPackets
import DdosFiltering.Engine.HashFrames
import DdosFiltering.Engine.Initialisers
import DdosFiltering.Engine.Keys
import DdosFiltering.Engine.PatternLengths
import DdosFiltering.Engine.PatternStores
import DdosFiltering.Engine.PatternSums
import DdosFiltering.Engine.PatternTree
import DdosFiltering.Master.LinkStatus
import DdosFiltering.Master.Reports
