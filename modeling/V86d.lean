import V86d.TaskRuns
import V86d.TaskLength
import V86d.VbeReturn
import V86d.DaemonSender
import V86d.DaemonReplies
import V86d.Lrmi
import V86d.AddressSpace
import V86d.Isolation
import V86d.GuestReturn
import V86d.FaultDelivery
import V86d.HeapBounds
import V86d.StringIo
import V86d.SoftwareInt
import V86d.GuestHome
import V86d.ControlFlow
import V86d.Rotations
import V86d.Decimal
import V86d.Quotients
import V86d.Nesting
import V86d.Strings
import V86d.BackendRuns
