import Peachos.Fs.SeekRead
import Peachos.Fs.PathRoundTrip
import Peachos.Fs.RootSearch
import Peachos.Fs.RootBounds
import Peachos.Fs.FilePosition
import Peachos.Fs.SubdirectoryLoad
import Peachos.Fs.SubdirectoryOrder
import Peachos.Fs.OpenError
import Peachos.Fs.ResolveError
import Peachos.Memory.PageRuns
import Peachos.Memory.HeapExhaustion
import Peachos.Task.Isolation
import Peachos.Task.OutOfMemory
import Peachos.Task.Rounds
import Peachos.Task.LoadFailure
import Peachos.Task.Slots
import Peachos.Task.Switching
import Peachos.Foundation.Ignores
import Peachos.Fs.ReadMany
import Peachos.Fs.DirectoryCalls
import Peachos.Foundation.PortMachine
import Peachos.Disk.Ata
import Peachos.Foundation.Agreement
import Peachos.Fs.MetadataReads
import Peachos.Gdt.Gdt
import Peachos.Kernel.Terminal
import Peachos.Memory.HeapFree
import Peachos.Loader.ElfSegments
import Peachos.Loader.ElfBounds
import Peachos.Fs.ShortNames
import Peachos.Fs.PathFree
import Peachos.Fs.FileTableRuns
import Peachos.Fs.OpenLeak
import Peachos.Fs.DescriptorLookup
import Peachos.Fs.OpenFailure
import Peachos.Task.UserMode
import Peachos.Task.Confinement
import Peachos.Foundation.Resolution
import Peachos.Fs.Resolution
import Peachos.Kernel.RoomRuns
import Peachos.Fs.ResolutionRuns
import Peachos.Fs.OpenResolution
import Peachos.Task.LoadBinary
import Peachos.Foundation.TwoRuns
import Peachos.Fs.Interleaving
import Peachos.Fs.InterleavedCalls
import Peachos.Fs.Mounting
import Peachos.Memory.HeapHistory
import Peachos.Foundation.Protection
import Peachos.Idt.Idt
import Peachos.Idt.Commands
import Peachos.Idt.Delivery
import Peachos.Idt.DivideError
import Peachos.Task.ErrorCode
import Peachos.Task.LoadedSpace
import Peachos.Kernel.KernelMain
import Peachos.Loader.ElfLoad
