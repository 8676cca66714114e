import Tun2Socks.Dns.Declined
import Tun2Socks.Dns.Leftover
import Tun2Socks.Dns.RoundTrip
import Tun2Socks.Flow.Fairness
import Tun2Socks.Flow.Framing
import Tun2Socks.Flow.PacketBuffer
import Tun2Socks.Flow.PacketPassProtocol
import Tun2Socks.Net.Bounds
import Tun2Socks.Net.Ipv6Print
import Tun2Socks.Plugin.Start
import Tun2Socks.Plugin.Stop
import Tun2Socks.Plugin.Success
import Tun2Socks.Reactor.Descriptors
import Tun2Socks.Reactor.Dispatch
import Tun2Socks.Run.Lifetime
import Tun2Socks.Socks.Agreement
import Tun2Socks.Socks.Credentials
import Tun2Socks.Socks.Discipline
import Tun2Socks.Structure.AvlAgreement
import Tun2Socks.Structure.BStringMapRuns
import Tun2Socks.TcpClient.Lifecycle
import Tun2Socks.TcpClient.Ownership
import Tun2Socks.TcpClient.Streams
import Tun2Socks.Tunnel.PrivateAddress
import Tun2Socks.UdpGw.Comparators
import Tun2Socks.UdpGw.Delivery
import Tun2Socks.UdpGw.GatewayTables
import Tun2Socks.UdpGw.Resend
