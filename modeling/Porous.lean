import Porous.Frame.Datagram
import Porous.DatenMeister.PendingPacket
import Porous.DatenMeister.Queues
import Porous.DatenMeister.PacketSender
import Porous.DatenMeister.DataFrameEmitter
import Porous.DatenMeister.Packing
import Porous.DatenMeister.Frames
import Porous.DatenMeister.EmitFrame
import Porous.DatenMeister.Budget
import Porous.DatenMeister.Termination
import Porous.DatenMeister.Turn
import Porous.DatenMeister.Acknowledged
import Porous.DatenMeister.Monotone
import Porous.DatenMeister.Endpoint
import Porous.DatenMeister.Lifecycle
import Porous.DatenMeister.Backoff
import Porous.DatenMeister.Order
import Porous.DatenMeister.Window
import Porous.DatenMeister.AckFrames
import Porous.DatenMeister.Returns
import Porous.DatenMeister.AckPacking
import Porous.DatenMeister.Reliable
import Porous.DatenMeister.DataSplit
import Porous.DatenMeister.Distinct
import Porous.DatenMeister.AckNextFit
