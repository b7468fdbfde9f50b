import BscTarget.Driver.Exchange
import BscTarget.Driver.Mask
import BscTarget.Driver.Isolation
import BscTarget.Driver.Polling
import BscTarget.Driver.Buffers
import BscTarget.Driver.Renewal
import BscTarget.Direct.Commands
import BscTarget.Direct.Replies
import BscTarget.Loader.Cleanup
import BscTarget.Loader.Transactions
import BscTarget.Scpi.Framing
import BscTarget.Display.Completion
import BscTarget.Display.Safety
import BscTarget.Display.Resync
import BscTarget.Display.Presentation
import BscTarget.Service.Echo
import BscTarget.Service.Screen
import BscTarget.Service.Sleepers
import BscTarget.Display.Pixels
import BscTarget.Diagnostics.Replay
import BscTarget.Diagnostics.Capture
import BscTarget.Loader.Sessions
import BscTarget.Scpi.Acquisition
import BscTarget.Diagnostics.PadControl
import BscTarget.Diagnostics.Rp1PadControl
import BscTarget.Driver.Lifetime
