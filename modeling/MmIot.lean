import MmIot.Lib.Transition
import MmIot.Lib.CInt
import MmIot.Lib.Transducer
import MmIot.Lib.Memory
import MmIot.Lib.Recency
import MmIot.Lib.Ownership
import MmIot.Lib.Latch
import MmIot.Lib.CasLoop
import MmIot.Lib.Scatter
import MmIot.Lib.Tlv
import MmIot.Lib.Word
import MmIot.Lib.Loops
import MmIot.Lib.FirstOccurrence
import MmIot.Lib.LastWrite
import MmIot.Lib.Terminated
import MmIot.Lib.Strtoul
import MmIot.Lib.Crc32
import MmIot.Lib.PyText
import MmIot.Lib.Regex
import MmIot.Lib.Fnmatch
import MmIot.Lib.UnifiedDiff
import MmIot.Spec.Channel
import MmIot.Spec.DriverData
import MmIot.Spec.NetMgmt
import MmIot.Spec.WifiMgmt
import MmIot.Spec.Shell
import MmIot.Spec.ScanStatus
import MmIot.Spec.LinkEvents
import MmIot.Spec.WifiCalls
import MmIot.Spec.ScanResult
import MmIot.Spec.ApStations
import MmIot.Spec.IfaceStatus
import MmIot.Spec.AesCbc
import MmIot.Spec.MacAddr
import MmIot.Spec.Sleep
import MmIot.Spec.BusIrq
import MmIot.Spec.Mutex
import MmIot.Spec.Critical
import MmIot.Spec.Semaphore
import MmIot.Spec.DeepSleep
import MmIot.Spec.SdioHost
import MmIot.Spec.SdioSpi
import MmIot.Spec.SdioRegister
import MmIot.Spec.SpiTraining
import MmIot.Spec.SpiStm32
import MmIot.Spec.SpiDma
import MmIot.Spec.SpiPower
import MmIot.Spec.SpiConfigure
import MmIot.Spec.RecoveryPolicy
import MmIot.Spec.ScanPolicy
import MmIot.Spec.OsObjects
import MmIot.Spec.NetPackets
import MmIot.Spec.Mbin
import MmIot.Spec.MbinImage
import MmIot.Spec.MbinForm
import MmIot.Spec.FwBcfTest
import MmIot.Spec.BcfInfo
import MmIot.Spec.TodoChecker
import MmIot.Spec.CopyrightChecker
import MmIot.Proofs.Channel
import MmIot.Proofs.Driver
import MmIot.Proofs.Radio
import MmIot.Proofs.RegDomain
import MmIot.Proofs.StartFailure
import MmIot.Proofs.ApChannel
import MmIot.Proofs.OperatingChannel
import MmIot.Proofs.Credentials
import MmIot.Proofs.Refused
import MmIot.Proofs.IfaceStatus
import MmIot.Proofs.ApSettings
import MmIot.Proofs.Shell
import MmIot.Proofs.ScanStatus
import MmIot.Proofs.LinkEvents
import MmIot.Proofs.WifiCalls
import MmIot.Proofs.ScanResult
import MmIot.Proofs.ApStations
import MmIot.Proofs.AesCbc
import MmIot.Proofs.MacAddr
import MmIot.Proofs.Sleep
import MmIot.Proofs.BusIrq
import MmIot.Proofs.Mutex
import MmIot.Proofs.Critical
import MmIot.Proofs.Semaphore
import MmIot.Proofs.DeepSleep
import MmIot.Proofs.SdioSpi
import MmIot.Proofs.SdioFaults
import MmIot.Proofs.SdioEdge
import MmIot.Proofs.SdioRegister
import MmIot.Proofs.SpiTraining
import MmIot.Proofs.SpiContext
import MmIot.Proofs.SpiFifo
import MmIot.Proofs.SpiTiming
import MmIot.Proofs.SpiDma
import MmIot.Proofs.SpiPower
import MmIot.Proofs.SpiConfigure
import MmIot.Proofs.RecoveryPolicy
import MmIot.Proofs.ScanPolicy
import MmIot.Proofs.OsObjects
import MmIot.Proofs.NetPackets
import MmIot.Proofs.Mbin
import MmIot.Proofs.MbinForm
import MmIot.Proofs.FwImage
import MmIot.Proofs.FwBcfTest
import MmIot.Proofs.CompressErrors
import MmIot.Proofs.Recompress
import MmIot.Proofs.BcfInfo
import MmIot.Proofs.BcfRead
import MmIot.Proofs.TodoChecker
import MmIot.Proofs.CopyrightChecker
