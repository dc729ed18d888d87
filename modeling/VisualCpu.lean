import VisualCpu.Pipeline.RenameRuns
import VisualCpu.Mem.AccessBitRuns
import VisualCpu.Exec.CacheRuns
import VisualCpu.Exec.ReservationRuns
import VisualCpu.SupervisorTimer
import VisualCpu.PcAlignment
import VisualCpu.Exec.CompressedSemantics
import VisualCpu.Exec.NanBoxing
import VisualCpu.Dbt.HostRefinement
import VisualCpu.Devices.VirtioMmio
import VisualCpu.Devices.RingRuns
import VisualCpu.Kernel.Wakeups
import VisualCpu.Kernel.SchedulerRuns
import VisualCpu.Kernel.FdRuns
import VisualCpu.Kernel.CowMemory
import VisualCpu.Frontend.DebugCliMatching
import VisualCpu.Frontend.SessionRuns
import VisualCpu.Kernel.TrapPrivilege
import VisualCpu.Kernel.TrapSoundness
import VisualCpu.Kernel.LinuxPipeRuns
import VisualCpu.Kernel.LinuxDuplicateRuns
import VisualCpu.Frontend.LoginLimit
import VisualCpu.Frontend.ControllerRoutes
import VisualCpu.Pipeline.Forwarding
import VisualCpu.Mem.Sv39Walk
import VisualCpu.Frontend.BreakpointRuns
import VisualCpu.Frontend.SessionResetRuns
import VisualCpu.Frontend.TerminalMergeRuns
import VisualCpu.Devices.TaskSpecAgreement
import VisualCpu.Exec.IntegerResults
import VisualCpu.Devices.ShapeResolution
import VisualCpu.Devices.IntegerKernels
import VisualCpu.Devices.BlockRequests
import VisualCpu.Kernel.OfflineRuns
import VisualCpu.Kernel.CourseMemory
import VisualCpu.Exec.ExecutionProfile
import VisualCpu.Kernel.CourseElfLoader
import VisualCpu.Frontend.TerminalInputPump
import VisualCpu.Kernel.LinuxPathSpellings
import VisualCpu.Exec.ShadowCache
import VisualCpu.Pipeline.InOrder
