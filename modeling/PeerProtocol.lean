import PeerProtocol.Address.Edit
import PeerProtocol.Connection.Manager
import PeerProtocol.Connection.Server
import PeerProtocol.Frame.Stream
import PeerProtocol.Handshake
import PeerProtocol.Peer.Feed
import PeerProtocol.Settings.File
import PeerProtocol.Proofs.Connection.Channel
import PeerProtocol.Proofs.Peer.Session
import PeerProtocol.Proofs.Connection.Ledger
import PeerProtocol.Proofs.Connection.Exchange
import PeerProtocol.Proofs.Address.Size
import PeerProtocol.Proofs.AddressList.Size
import PeerProtocol.Proofs.AddressBook.Size
import PeerProtocol.Proofs.AddressBook.Recount
import PeerProtocol.Proofs.AddressList.Rewriting
import PeerProtocol.Proofs.AddressList.Notices
import PeerProtocol.Proofs.AddressList.Sources
import PeerProtocol.Proofs.Address.Switching
import PeerProtocol.Proofs.Connection.Intake
import PeerProtocol.Proofs.Connection.Shutdown
import PeerProtocol.Proofs.Connection.Imitation
import PeerProtocol.Proofs.Frame.Grammar
import PeerProtocol.Proofs.Frame.Source
import PeerProtocol.Proofs.AddressList.Tiling
import PeerProtocol.Proofs.Peer.Pongs
import PeerProtocol.Proofs.Frame.Resumption
import PeerProtocol.Proofs.Frame.Inverse
import PeerProtocol.Proofs.Frame.Writing
import PeerProtocol.Proofs.Connection.Leftover
import PeerProtocol.Proofs.CompactSize
import PeerProtocol.Proofs.Onion.Grammar
import PeerProtocol.Proofs.Settings
import PeerProtocol.Proofs.Connection.Admission
