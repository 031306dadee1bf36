import Omap4.Machine
import Omap4.Monitor
import Omap4.Memory
import Omap4.FdTable
import Omap4.FdLog
import Omap4.FileMap
import Omap4.CString
import Omap4.Tokens
import Omap4.Framing
import Omap4.LinkedList
import Omap4.DoublyLinked
import Omap4.Eviction
import Omap4.Lines
import Omap4.RunLength
import Omap4.Transfer
import Omap4.CBuffer
import Omap4.Stdio
import Omap4.Throw
import Omap4.Matcher
import Omap4.Slots
import Omap4.SharedBuffers
import Omap4.Comparison
import Omap4.Audio.Registry
import Omap4.Audio.RegistryLaw
import Omap4.Audio.Mute
import Omap4.Audio.MuteSaved
import Omap4.Audio.Edid
import Omap4.Audio.EdidFormat
import Omap4.Aplogd.Basic
import Omap4.Aplogd.Rotation
import Omap4.Aplogd.LogIo
import Omap4.Aplogd.Descriptors
import Omap4.Aplogd.Agreement
import Omap4.Aplogd.Lossless
import Omap4.Aplogd.Accepted
import Omap4.Aplogd.Switch
import Omap4.Aplogd.Rambuf
import Omap4.Aplogd.ShortWrites
import Omap4.Aplogd.VoldStream
import Omap4.Aplogd.VoldMatch
import Omap4.Aplogd.MoveLogs
import Omap4.Aplogd.BackupDirs
import Omap4.Aplogd.ClearDir
import Omap4.Usbd.Modes
import Omap4.Usbd.Daemon
import Omap4.Usbd.DeviceEvent
import Omap4.Usbd.Handlers
import Omap4.Usbd.Lock
import Omap4.Usbd.Hooks
import Omap4.Usbd.Requests
import Omap4.Usbd.Enumeration
import Omap4.Usbd.ClientFds
import Omap4.Usbd.SelectSet
import Omap4.Usbd.Cdrom
import Omap4.Usbd.ScsiDevice
import Omap4.ChargeOnly.Queue
import Omap4.ChargeOnly.Alarm
import Omap4.ChargeOnly.Display
import Omap4.ChargeOnly.Delay
import Omap4.ChargeOnly.Untouched
import Omap4.ChargeOnly.Screen
import Omap4.ChargeOnly.Flip
import Omap4.ChargeOnly.Events
import Omap4.ChargeOnly.Marker
import Omap4.ChargeOnly.Launch
import Omap4.ChargeOnly.Blit
import Omap4.ChargeOnly.Anim
import Omap4.Doze.Proximity
import Omap4.Libpower.Power
import Omap4.Libpower.Boostpulse
import Omap4.Modemlog.Checkdir
import Omap4.Modemlog.Panic
import Omap4.Modemlog.BootInfo
import Omap4.Motobox.Config
import Omap4.Motobox.Setconfig
import Omap4.Motobox.CommandFile
import Omap4.Motobox.NoErase
import Omap4.Motobox.Test
import Omap4.Motobox.TestGrammar
import Omap4.Motorild.Call
import Omap4.Motorild.Ring
import Omap4.Ril.Basic
import Omap4.Ril.Solicited
import Omap4.Libmotou.Vector
import Omap4.Libmotou.Frame
import Omap4.Libmotou.Contents
import Omap4.Libmotou.Sort
import Omap4.Libmotou.CopyOnWrite
import Omap4.Libmotou.SortedVector
