import RaknetRs.Packet.Buf
import RaknetRs.Packet.FrameSet
import RaknetRs.Packet.Ack
import RaknetRs.Packet.Packer
import RaknetRs.Packet.Connected
import RaknetRs.Packet.Faults
import RaknetRs.Link.Transfer
import RaknetRs.Link.System
import RaknetRs.Link.Egress
import RaknetRs.Guard.Resend
import RaknetRs.Guard.Outgoing
import RaknetRs.Guard.Accounting
import RaknetRs.Guard.Projection
import RaknetRs.Guard.Order
import RaknetRs.Guard.Drain
import RaknetRs.Guard.Strategy
import RaknetRs.Guard.Close
import RaknetRs.Guard.Lifecycle
import RaknetRs.Guard.Sink
import RaknetRs.Peers.Socket
import RaknetRs.Peers.Nacks
import RaknetRs.Peers.Close
import RaknetRs.Client.Conn
import RaknetRs.Server.Incoming
import RaknetRs.Server.Routes
