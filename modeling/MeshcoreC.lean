import MeshcoreC.Library.WhileLoop
import MeshcoreC.Library.Transducer
import MeshcoreC.Library.Framing
import MeshcoreC.Library.Buffers
import MeshcoreC.Companion.Layout
import MeshcoreC.Companion.CommandParser
import MeshcoreC.Companion.SerialReader
import MeshcoreC.Companion.ByteMachine
import MeshcoreC.Companion.FramedReceiver
import MeshcoreC.Companion.ReaderTermination
import MeshcoreC.Companion.FrameDelivery
import MeshcoreC.Companion.CommandPackets
import MeshcoreC.Companion.CommandDelivery
import MeshcoreC.Library.EarlyReturn
import MeshcoreC.Library.WireProgram
import MeshcoreC.Mesh.Packet
import MeshcoreC.Mesh.PacketDecoding
import MeshcoreC.Mesh.PacketGrammar
import MeshcoreC.Mesh.PacketRoundTrip
import MeshcoreC.Mesh.Advert
import MeshcoreC.Mesh.AdvertDecoding
import MeshcoreC.Mesh.AdvertEncoding
import MeshcoreC.Mesh.AdvertRoundTrip
import MeshcoreC.Companion.ReceiverRest
import MeshcoreC.Companion.Callbacks
import MeshcoreC.Companion.TextFields
import MeshcoreC.Companion.ResponseWriter
import MeshcoreC.Mesh.Request
import MeshcoreC.Mesh.GroupText
import MeshcoreC.Mesh.Ack
import MeshcoreC.Mesh.GroupTextStack
import MeshcoreC.Mesh.AdvertGrammar
import MeshcoreC.Mesh.AdvertReencoding
import MeshcoreC.Mesh.DecoderInputs
import MeshcoreC.Companion.CommandTable
import MeshcoreC.Companion.BufferDiscipline
import MeshcoreC.Companion.ResponseReading
import MeshcoreC.Library.BlockCiphers
import MeshcoreC.Library.CirculantLayer
import MeshcoreC.Library.Rijndael
import MeshcoreC.Library.IteratedHash
import MeshcoreC.Library.Sha256Standard
import MeshcoreC.Crypto.Aes
import MeshcoreC.Crypto.AesInverse
import MeshcoreC.Crypto.AesStandard
import MeshcoreC.Crypto.AesChaining
import MeshcoreC.Crypto.AesCounter
import MeshcoreC.Crypto.Sha256
import MeshcoreC.Crypto.Sha256Compression
import MeshcoreC.Crypto.Sha256Streaming
import MeshcoreC.Crypto.HmacSha256
import MeshcoreC.Mesh.GroupTextCrypto
import MeshcoreC.Mesh.ReencodingCheck
import MeshcoreC.Companion.SampleServer
import MeshcoreC.Companion.ServerAnswers
import MeshcoreC.Companion.ServerSessions
