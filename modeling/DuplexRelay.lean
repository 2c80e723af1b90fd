import DuplexRelay.Main
import DuplexRelay.Proofs.Bridge.Backpressure
import DuplexRelay.Proofs.Bridge.Budget
import DuplexRelay.Proofs.Bridge.Discarding
import DuplexRelay.Proofs.Bridge.Flooding
import DuplexRelay.Proofs.Bridge.Termination
import DuplexRelay.Proofs.ByteBuffer.Queue
import DuplexRelay.Proofs.Chain.Transparent
import DuplexRelay.Proofs.OrderedMap.Handles
import DuplexRelay.Proofs.OrderedMap.Soundness
import DuplexRelay.Proofs.Pipe.AfterFin
import DuplexRelay.Proofs.Pipe.Assembly
import DuplexRelay.Proofs.Pipe.Connecting
import DuplexRelay.Proofs.Pipe.Decoding
import DuplexRelay.Proofs.Pipe.DeferredClosing
import DuplexRelay.Proofs.Pipe.Headroom
import DuplexRelay.Proofs.Pipe.Interest
import DuplexRelay.Proofs.Pipe.WholeFrames
import DuplexRelay.Proofs.Reactor.Disposal
import DuplexRelay.Proofs.Reactor.Forced
import DuplexRelay.Proofs.Relay.Limits
import DuplexRelay.Proofs.Relay.Scaling
import DuplexRelay.Proofs.Varint.Storing
import DuplexRelay.Session.Bridge
import DuplexRelay.Session.Buffer
import DuplexRelay.Session.Loop
import DuplexRelay.Session.Map
import DuplexRelay.Session.Pipe
import DuplexRelay.Session.Relay
