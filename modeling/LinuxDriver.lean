import LinuxDriver.NpNcWindDown
import LinuxDriver.AuditWakeup
import LinuxDriver.AuditDrainSize
import LinuxDriver.WakeUpFrame
import LinuxDriver.Sys2CommandMeaning
import LinuxDriver.Sys2Params
import LinuxDriver.Sys2Parse
import LinuxDriver.Sys2ProcessFd
import LinuxDriver.Sys2Range
import LinuxDriver.Sys2NiceInit
import LinuxDriver.Sys2Trim
import LinuxDriver.Sys2SetmtuBuffer
import LinuxDriver.Sys2Clear
import LinuxDriver.SysListing
import LinuxDriver.PrintPid
import LinuxDriver.SystemCallAudit
import LinuxDriver.PacketStatistics
import LinuxDriver.PacketPassive
import LinuxDriver.NewChrdevBase
import LinuxDriver.IoctlDevice
import LinuxDriver.DtsofledRegs
import LinuxDriver.DtsofledSwitch
import LinuxDriver.Dtsof
import LinuxDriver.OwnRegistrations
import LinuxDriver.MyNetwork
import LinuxDriver.MutexReveal
import LinuxDriver.MutexLife
import LinuxDriver.ProcSys
import LinuxDriver.SameBuf
import LinuxDriver.DbgMsgBuffer
import LinuxDriver.EntryExit
import LinuxDriver.EntryTransparent
import LinuxDriver.AuditDaemon
import LinuxDriver.Sys2Runs
