import UefiToolkit.RamLog
import UefiToolkit.FlashWrite
import UefiToolkit.SparseExpand
import UefiToolkit.HexDecode
import UefiToolkit.HexAccept
import UefiToolkit.HexAddress
import UefiToolkit.ArgsParse
import UefiToolkit.ConsoleEdit
import UefiToolkit.ShellSession
import UefiToolkit.PartitionBounds
import UefiToolkit.SparseBounds
import UefiToolkit.DiskRestore
import UefiToolkit.CommandRegistry
import UefiToolkit.AvbPartition
import UefiToolkit.CapsuleRoundTrip
import UefiToolkit.RamReset
import UefiToolkit.RamOversize
import UefiToolkit.DispatchAgree
import UefiToolkit.ParamParse
import UefiToolkit.HexOrder
import UefiToolkit.FlashTail
import UefiToolkit.FlashTool
import UefiToolkit.SparseApplied
import UefiToolkit.PartSave
import UefiToolkit.PartLabel
import UefiToolkit.DeviceScan
import UefiToolkit.DeviceNames
import UefiToolkit.ShellNumber
import UefiToolkit.ShellLine
import UefiToolkit.ConsoleCursor
import UefiToolkit.ConsoleHistory
import UefiToolkit.ConvertModel
import UefiToolkit.ConvertDigits
import UefiToolkit.ConvertString
import UefiToolkit.ParamEscape
import UefiToolkit.ArgsBracket
import UefiToolkit.ToolAccess
import UefiToolkit.ToolOptions
import UefiToolkit.HexLines
import UefiToolkit.CapsuleSign
import UefiToolkit.TransportOwner
import UefiToolkit.BootSafety
import UefiToolkit.BootBuffers
import UefiToolkit.GptTable
import UefiToolkit.FlashCycles
import UefiToolkit.SectionSize
import UefiToolkit.GrowString
import UefiToolkit.ShellScan
import UefiToolkit.Crc
import UefiToolkit.Effect
import UefiToolkit.AvbTypes
import UefiToolkit.AbModel
import UefiToolkit.AbCodec
import UefiToolkit.AbPolicy
import UefiToolkit.AbFlow
import UefiToolkit.AbRuns
import UefiToolkit.Limbs
import UefiToolkit.AvbUtil
import UefiToolkit.RsaModel
import UefiToolkit.RsaProduct
import UefiToolkit.RsaVerify
import UefiToolkit.Chain
import UefiToolkit.ShaModel
import UefiToolkit.ShaStream
import UefiToolkit.ShaTail
