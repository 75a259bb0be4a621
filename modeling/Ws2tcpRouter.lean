import Ws2tcpRouter.Lib.Table
import Ws2tcpRouter.Lib.Timed
import Ws2tcpRouter.Lib.Except
import Ws2tcpRouter.Lib.Text
import Ws2tcpRouter.Lib.Base64
import Ws2tcpRouter.Lib.Sha256
import Ws2tcpRouter.Lib.Run
import Ws2tcpRouter.Lib.Pipe
import Ws2tcpRouter.Lib.Mask
import Ws2tcpRouter.Lib.Sessions
import Ws2tcpRouter.Lib.Fields
import Ws2tcpRouter.Lib.Json
import Ws2tcpRouter.Token.Capacity
import Ws2tcpRouter.Token.Growth
import Ws2tcpRouter.Token.Redemption
import Ws2tcpRouter.Token.Sweeping
import Ws2tcpRouter.Token.Format
import Ws2tcpRouter.Token.Independence
import Ws2tcpRouter.Token.Representation
import Ws2tcpRouter.Token.Lifetimes
import Ws2tcpRouter.Token.Overflow
import Ws2tcpRouter.Token.Restart
import Ws2tcpRouter.Grammar
import Ws2tcpRouter.Ranges
import Ws2tcpRouter.Allowlist
import Ws2tcpRouter.Reload
import Ws2tcpRouter.Replay
import Ws2tcpRouter.Mediation
import Ws2tcpRouter.Removal
import Ws2tcpRouter.Tunnel
import Ws2tcpRouter.Gate
import Ws2tcpRouter.Segmentation
import Ws2tcpRouter.Forwarded
import Ws2tcpRouter.Waiting
import Ws2tcpRouter.Fidelity
import Ws2tcpRouter.Deadlock
import Ws2tcpRouter.Atomicity
import Ws2tcpRouter.Serving
import Ws2tcpRouter.Apart
import Ws2tcpRouter.Tunnels
import Ws2tcpRouter.Exchange
import Ws2tcpRouter.Wire
import Ws2tcpRouter.Startup
import Ws2tcpRouter.Running
import Ws2tcpRouter.Passwords
