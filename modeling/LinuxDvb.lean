import LinuxDvb.DvbCore.Demux.Reassembly
import LinuxDvb.DvbCore.Demux.PayloadLess
import LinuxDvb.DvbCore.Demux.ByteStream
import LinuxDvb.DvbCore.Dmxdev.ReadAligned
import LinuxDvb.DvbCore.Dmxdev.OneShot
import LinuxDvb.DvbCore.Dmxdev.CheckCrc
import LinuxDvb.DvbCore.Dmxdev.SetFilter
import LinuxDvb.DvbCore.Ringbuffer.PacketRun
import LinuxDvb.DvbCore.CaEn50221.ReadRun
import LinuxDvb.DvbCore.CaEn50221.CamChange
import LinuxDvb.DvbCore.Net.UleExtensions
import LinuxDvb.DvbCore.Net.UleRoundTrip
import LinuxDvb.LibDvbEn50221.Incarnation
import LinuxDvb.LibDvbEn50221.ResponseTimer
import LinuxDvb.LibDvbEn50221.Conformant
import LinuxDvb.LibDvbEn50221.StdcamSlot
import LinuxDvb.LibDvbEn50221.StdcamSession
import LinuxDvb.LibDvbCfg.ZapchannelRoundTrip
import LinuxDvb.LibDvbEn50221.ResourceLocks
import LinuxDvb.LibUcsi.SectionPacketisation
import LinuxDvb.Mantis.DmaRing
import LinuxDvb.Mantis.Feeds
import LinuxDvb.Mantis.I2cTransfer
import LinuxDvb.Scan.TransponderRun
import LinuxDvb.Scan.Stranding
import LinuxDvb.Frontends.Stb0899.PointedAccess
import LinuxDvb.Frontends.Cu1216.Driver
import LinuxDvb.DvbCore.Demux.SectionBounds
import LinuxDvb.DvbCore.Demux.CrcAgreement
import LinuxDvb.DvbCore.Demux.Dispatch
import LinuxDvb.LibDvbEn50221.ChainReassembly
import LinuxDvb.LibDvbEn50221.CaPmtFormat
import LinuxDvb.LibDvbSec.BandDecision
import LinuxDvb.LibDvbSec.CommandRun
import LinuxDvb.LibDvbEn50221.MmiMenus
import LinuxDvb.LibUcsi.Continuity
import LinuxDvb.LibUcsi.PsiTable
import LinuxDvb.LibUcsi.SectionCrc
import LinuxDvb.LibUcsi.SectionBufChunks
import LinuxDvb.LibUcsi.TransportOutcome
import LinuxDvb.LibDvbEn50221.CaObjects
import LinuxDvb.LibDvbEn50221.MmiDisplayReply
import LinuxDvb.LibUcsi.DcctIterators
import LinuxDvb.LibUcsi.RrtIterators
import LinuxDvb.LibUcsi.IntIterators
import LinuxDvb.LibUcsi.AtscTextIterators
import LinuxDvb.DvbCore.Math.Intlog
import LinuxDvb.DvbCore.Net.Interfaces
import LinuxDvb.DvbCore.CaEn50221.SlotAccess
import LinuxDvb.DvbCore.Net.Mpe
import LinuxDvb.DvbCore.CaEn50221.Cis
import LinuxDvb.LibUcsi.AtscTextReport
import LinuxDvb.DvbCore.Frontend.ZigzagThread
import LinuxDvb.DvbCore.Frontend.EventOrder
import LinuxDvb.DvbCore.Filter.Pes2Ts
import LinuxDvb.DvbCore.Filter.Ac3Info
import LinuxDvb.Scan.SectionHistory
import LinuxDvb.Scan.VctRecords
import LinuxDvb.Scan.DescriptorVisits
import LinuxDvb.Bt8xx.DstCa
import LinuxDvb.Frontends.Stb0899.ReportedLock
import LinuxDvb.Frontends.Stb0899.Diseqc
import LinuxDvb.Frontends.Stb0899.SymbolRate
import LinuxDvb.LibUcsi.DvbTypes
import LinuxDvb.Frontends.Stb0899.ErrorRate
import LinuxDvb.Frontends.Stb0899.CarrierQuality
import LinuxDvb.Frontends.Stb0899.Dvbs2SymbolRate
import LinuxDvb.Frontends.Stb0899.Tuner
import LinuxDvb.Frontends.Mb86a16.Frequency
import LinuxDvb.Frontends.Mb86a16.Sweep
