import Reflex.Nvme.Rejection
import Reflex.Nvme.Lifetime
import Reflex.Nvme.History
import Reflex.Nvme.Rotation
import Reflex.Nvme.Accrual
import Reflex.Nvme.Isolation
import Reflex.Nvme.Fifo
import Reflex.Nvme.Conversion
import Reflex.Nvme.Savings
import Reflex.Nvme.Bucket
import Reflex.Nvme.Commands
import Reflex.Server.Shortage
import Reflex.Server.Bounds
import Reflex.Server.Completion
import Reflex.Client.Exchange
import Reflex.Nbd.Transfer
import Reflex.Thread.Answers
import Reflex.Ixev.ZeroCopy
import Reflex.Ixev.Wakeup
import Reflex.Tcp.Buffers
import Reflex.Tcp.Arrival
import Reflex.Tcp.Demux
import Reflex.Tcp.Reassembly
import Reflex.Tcp.ActiveTable
import Reflex.Net.Custody
import Reflex.Net.Checksum
import Reflex.Net.Frame
import Reflex.Tcp.Ports
import Reflex.Timers.Unified
import Reflex.Timers.Punctual
