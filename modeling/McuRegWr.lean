import McuRegWr.Base.Alone
import McuRegWr.Base.Atomic
import McuRegWr.Base.Chain
import McuRegWr.Base.FdTable
import McuRegWr.Base.Fifo
import McuRegWr.Base.Guarded
import McuRegWr.Base.History
import McuRegWr.Base.LinearFold
import McuRegWr.Base.LittleEndian
import McuRegWr.Base.Lower
import McuRegWr.Base.Numeral
import McuRegWr.Base.Pool
import McuRegWr.Base.Prog
import McuRegWr.Base.Rotation
import McuRegWr.Base.SharedCell
import McuRegWr.Base.ShiftRegister
import McuRegWr.Base.Strtol
import McuRegWr.Base.Threads
import McuRegWr.Base.Total
import McuRegWr.Base.View
import McuRegWr.Base.World
import McuRegWr.CanEvent
import McuRegWr.CanMsg
import McuRegWr.CommandLine
import McuRegWr.General.Argparse
import McuRegWr.General.Bits
import McuRegWr.General.CrcCheck
import McuRegWr.General.Debug
import McuRegWr.General.DebugLog
import McuRegWr.General.HexDump
import McuRegWr.General.MemCtrl
import McuRegWr.General.PpUart
import McuRegWr.General.PpUartOpen
import McuRegWr.Main
import McuRegWr.Modes
import McuRegWr.MpuBusiness
import McuRegWr.Proof.Burn.Bootloader
import McuRegWr.Proof.Burn.Budget
import McuRegWr.Proof.Burn.Complete
import McuRegWr.Proof.Burn.Delivery
import McuRegWr.Proof.Burn.Erase
import McuRegWr.Proof.Burn.Handshake
import McuRegWr.Proof.Burn.Round
import McuRegWr.Proof.Burn.Seen
import McuRegWr.Proof.Burn.Success
import McuRegWr.Proof.Business.Board
import McuRegWr.Proof.Business.CanEvent
import McuRegWr.Proof.Business.Dtc
import McuRegWr.Proof.Business.DtcEdit
import McuRegWr.Proof.Business.RegFile
import McuRegWr.Proof.Business.Wdog
import McuRegWr.Proof.Checksum.Bitwise
import McuRegWr.Proof.Command.Access
import McuRegWr.Proof.Command.Arguments
import McuRegWr.Proof.Command.Asked
import McuRegWr.Proof.Command.Checked
import McuRegWr.Proof.Command.Chosen
import McuRegWr.Proof.Command.Faults
import McuRegWr.Proof.Command.Files
import McuRegWr.Proof.Command.Footprint
import McuRegWr.Proof.Command.Frames
import McuRegWr.Proof.Command.Hex
import McuRegWr.Proof.Command.Options
import McuRegWr.Proof.Command.Session
import McuRegWr.Proof.Command.WriteRead
import McuRegWr.Proof.Log.HexDump
import McuRegWr.Proof.Log.Retention
import McuRegWr.Proof.Log.Streams
import McuRegWr.Proof.Memory.ByteOrder
import McuRegWr.Proof.Ring.Buffer
import McuRegWr.Proof.Ring.Can
import McuRegWr.Proof.Ring.Client
import McuRegWr.Proof.Ring.Counts
import McuRegWr.Proof.Ring.Echo
import McuRegWr.Proof.Ring.Peep
import McuRegWr.Proof.Ring.Serve
import McuRegWr.Proof.Ring.Timestamps
import McuRegWr.Proof.Setup.Init
import McuRegWr.Proof.Transport.Ack
import McuRegWr.Proof.Transport.Burst
import McuRegWr.Proof.Transport.Collect
import McuRegWr.Proof.Transport.Frame
import McuRegWr.Proof.Transport.Header
import McuRegWr.Proof.Transport.Mcu
import McuRegWr.Proof.Transport.Prompt
import McuRegWr.Proof.Transport.Read
import McuRegWr.Proof.Transport.Server
import McuRegWr.Proof.Transport.Shared
import McuRegWr.Proof.Transport.Sharing
import McuRegWr.Proof.Transport.Sparse
import McuRegWr.Proof.Transport.Trace
import McuRegWr.Proof.Transport.Write
import McuRegWr.RearviewMcu
import McuRegWr.Reg
import McuRegWr.RegwrCb
import McuRegWr.Run
import McuRegWr.SpiReg
import McuRegWr.SpiRegInit
import McuRegWr.Sys
