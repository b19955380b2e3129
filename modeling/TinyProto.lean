import TinyProto.Hdlc.Checksums
import TinyProto.Hdlc.DefaultCrc
import TinyProto.Hdlc.Delineation
import TinyProto.Hdlc.Duplex
import TinyProto.Hdlc.Threads
import TinyProto.Hdlc.WrongBits
import TinyProto.Light.Losses
import TinyProto.Fd.AckRules
import TinyProto.Fd.BoundedMap
import TinyProto.Fd.Chunking
import TinyProto.Fd.Connect
import TinyProto.Fd.Pace
import TinyProto.Fd.ConnectEvents
import TinyProto.Fd.FreeSlots
import TinyProto.Fd.Isolation
import TinyProto.Fd.Retries
import TinyProto.Fd.Service
import TinyProto.Fd.UserView
import TinyProto.Net.Confirmed
import TinyProto.Net.Connect
import TinyProto.Net.Noise
import TinyProto.Net.NormalResponse
import TinyProto.Net.Quiescence
import TinyProto.Net.Recovery
