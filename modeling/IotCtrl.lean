import IotCtrl.ClosedFacts
import IotCtrl.RingFifo
import IotCtrl.ByteMemory
import IotCtrl.Logged
import IotCtrl.Transition
import IotCtrl.Deadline
import IotCtrl.Reassembly
import IotCtrl.FifoBroadcast
import IotCtrl.Debounce
import IotCtrl.Station
import IotCtrl.Logic
import IotCtrl.Crc
import IotCtrl.Modbus
import IotCtrl.CanSend
import IotCtrl.Message
import IotCtrl.CanReceive
import IotCtrl.Control
import IotCtrl.Footprint
import IotCtrl.LineFrame
import IotCtrl.LineCommand
import IotCtrl.StepFrame
import IotCtrl.LineStop
import IotCtrl.CanSegment
import IotCtrl.CanBounds
import IotCtrl.CommStatements
import IotCtrl.CanInterleave
import IotCtrl.ServerDatagram
import IotCtrl.ParaReply
import IotCtrl.Rings
import IotCtrl.UdpFrames
import IotCtrl.LineInvariants
import IotCtrl.TableAccess
import IotCtrl.SpeedWrites
import IotCtrl.AutoStart
import IotCtrl.Transactions
import IotCtrl.StatusUpload
import IotCtrl.Interlock
import IotCtrl.QuietTicks
import IotCtrl.LineRelays
import IotCtrl.LineAgreement
import IotCtrl.ParameterWrite
import IotCtrl.UdpReception
import IotCtrl.PollStatus
import IotCtrl.Panel
import IotCtrl.JamFaults
import IotCtrl.DebouncedInputs
import IotCtrl.MasterSteps
import IotCtrl.AnswerBuffer
import IotCtrl.RunOutputs
import IotCtrl.ResetRestarts
import IotCtrl.ParaLoads
import IotCtrl.StopSpeeds
import IotCtrl.Utterances
import IotCtrl.BitCrc
import IotCtrl.CrcReference
import IotCtrl.CorruptedAnswers
import IotCtrl.RequestFrames
import IotCtrl.DipScan
import IotCtrl.ParaRouting
import IotCtrl.BesideSteps
import IotCtrl.MasterPhase
import IotCtrl.MasterProgress
import IotCtrl.LineDelivery
import IotCtrl.MainLoop
import IotCtrl.CanAssembly
import IotCtrl.EmergencyStop
import IotCtrl.LineReplication
import IotCtrl.Clock
import IotCtrl.JamResponse
import IotCtrl.PollCycle
import IotCtrl.BusExchange
import IotCtrl.ParameterRead
import IotCtrl.StatusExchange
import IotCtrl.StationPolls
import IotCtrl.NeighbourLink
