import Simulators.ATECC608.Device
import Simulators.ATECC608.Handlers
import Simulators.ATECC608.Locks
import Simulators.ATECC608.Responses
import Simulators.ATECC608.TcpServer
import Simulators.ATECC608.Update
import Simulators.ATECC608.Volatile
import Simulators.ATECC608.Zones
import Simulators.Lib.Bits
import Simulators.Lib.Blocks
import Simulators.Lib.Bus
import Simulators.Lib.Bytes
import Simulators.Lib.Calendar
import Simulators.Lib.Der
import Simulators.Lib.Gcm
import Simulators.Lib.GcmField
import Simulators.Lib.Handler
import Simulators.Lib.History
import Simulators.Lib.Json
import Simulators.Lib.Layout
import Simulators.Lib.Limbs
import Simulators.Lib.Memory
import Simulators.Lib.Modes
import Simulators.Lib.Overlay
import Simulators.Lib.Packed
import Simulators.Lib.Parity
import Simulators.Lib.Run
import Simulators.Lib.Server
import Simulators.Lib.Staging
import Simulators.Lib.Words
import Simulators.Lib.X509
import Simulators.PIC32.Algo
import Simulators.PIC32.Chain
import Simulators.PIC32.CipherModes
import Simulators.PIC32.Descriptors
import Simulators.PIC32.Engine
import Simulators.PIC32.OneShot
import Simulators.PIC32.Polling
import Simulators.PIC32.Ring
import Simulators.PIC32.Streaming
import Simulators.PIC32.Tasks
import Simulators.PIC32.Waiting
import Simulators.SE050.Applet
import Simulators.SE050.Atomic
import Simulators.SE050.Authentication
import Simulators.SE050.Chaining
import Simulators.SE050.Channel
import Simulators.SE050.CipherStream
import Simulators.SE050.Contexts
import Simulators.SE050.Counters
import Simulators.SE050.Dispatch
import Simulators.SE050.Document
import Simulators.SE050.Files
import Simulators.SE050.Framing
import Simulators.SE050.Handled
import Simulators.SE050.Handlers.Ec
import Simulators.SE050.Handlers.Objects
import Simulators.SE050.Handlers.Rsa
import Simulators.SE050.Handlers.Symmetric
import Simulators.SE050.Iso7816
import Simulators.SE050.Metadata
import Simulators.SE050.MultiStep
import Simulators.SE050.Operations
import Simulators.SE050.Persistence
import Simulators.SE050.Protection
import Simulators.SE050.PutKey
import Simulators.SE050.Refusals
import Simulators.SE050.Routing
import Simulators.SE050.RsaImport
import Simulators.SE050.RsaProtection
import Simulators.SE050.Scp03
import Simulators.SE050.Secrecy
import Simulators.SE050.SecurityDomain
import Simulators.SE050.Serde
import Simulators.SE050.Store
import Simulators.SE050.T1
import Simulators.SE050.TcpServer
import Simulators.SE050.TlvCodec
import Simulators.SE050.Transition
import Simulators.SE050.Transport
import Simulators.SE050.WellFormed
import Simulators.SE050.Wire
import Simulators.SE050.Writes
import Simulators.STM32.Board
import Simulators.STM32.Cryp.BlockModes
import Simulators.STM32.Cryp.Coherence
import Simulators.STM32.Cryp.Engine
import Simulators.STM32.Cryp.FlowControl
import Simulators.STM32.Cryp.Gcm
import Simulators.STM32.Cryp.GcmMul
import Simulators.STM32.Cryp.LengthBlock
import Simulators.STM32.Cryp.Messages
import Simulators.STM32.Cryp.Programs
import Simulators.STM32.Cryp.RegisterFile
import Simulators.STM32.Cryp.V1
import Simulators.STM32.Cryp.V2
import Simulators.STM32.DataType
import Simulators.STM32.Hash.Contexts
import Simulators.STM32.Hash.Engine
import Simulators.STM32.Hash.Messages
import Simulators.STM32.Hash.Stream
import Simulators.STM32.Hash.V1
import Simulators.STM32.Peripherals
import Simulators.STM32.Pka.Engine
import Simulators.STM32.Pka.Operations
import Simulators.STM32.Pka.V2
import Simulators.STM32.Pka.Window
import Simulators.STSAFEA120.Device
import Simulators.STSAFEA120.Handlers
import Simulators.STSAFEA120.Layouts
import Simulators.STSAFEA120.TcpServer
import Simulators.TROPIC01.Answers
import Simulators.TROPIC01.BitErrors
import Simulators.TROPIC01.CertChain
import Simulators.TROPIC01.CertStore
import Simulators.TROPIC01.Certs
import Simulators.TROPIC01.Channel
import Simulators.TROPIC01.Chip
import Simulators.TROPIC01.Device
import Simulators.TROPIC01.Frame
import Simulators.TROPIC01.FreshDevice
import Simulators.TROPIC01.Host
import Simulators.TROPIC01.Invariant
import Simulators.TROPIC01.L3
import Simulators.TROPIC01.MacAndDestroy
import Simulators.TROPIC01.Persistence
import Simulators.TROPIC01.Privileges
import Simulators.TROPIC01.Provision
import Simulators.TROPIC01.Requests
import Simulators.TROPIC01.Resend
import Simulators.TROPIC01.Results
import Simulators.TROPIC01.Session
import Simulators.TROPIC01.Shape
import Simulators.TROPIC01.Spoiled
import Simulators.TROPIC01.TcpServer
import Simulators.TROPIC01.Transaction
import Simulators.TROPIC01.Transport
import Simulators.TROPIC01.Tunnel
