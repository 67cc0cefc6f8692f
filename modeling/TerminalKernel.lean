import TerminalKernel.Console.Screen
import TerminalKernel.Console.Serial
import TerminalKernel.Devices.Faulty
import TerminalKernel.FileSystem.Overlay
import TerminalKernel.Kernel.Interrupt
import TerminalKernel.Sample
import TerminalKernel.Proofs.Slots
import TerminalKernel.Proofs.Stacks
import TerminalKernel.Proofs.StackMoves
import TerminalKernel.Proofs.Entries
import TerminalKernel.Proofs.Pages
import TerminalKernel.Proofs.Layouts
import TerminalKernel.Proofs.ProcessMap
import TerminalKernel.Proofs.Arena
import TerminalKernel.Proofs.Consistency
import TerminalKernel.Proofs.Launching
import TerminalKernel.Proofs.Starting
import TerminalKernel.Proofs.Halting
import TerminalKernel.Proofs.Displays
import TerminalKernel.Proofs.Services
import TerminalKernel.Proofs.Effects
import TerminalKernel.Proofs.Soundness
import TerminalKernel.Proofs.Booting
import TerminalKernel.Proofs.Chains
import TerminalKernel.Proofs.Bootable
import TerminalKernel.Proofs.Registers
import TerminalKernel.Proofs.Mappings
import TerminalKernel.Proofs.Histories
import TerminalKernel.Proofs.Transfers
import TerminalKernel.Proofs.Tracking
import TerminalKernel.Proofs.Snapshots
import TerminalKernel.Proofs.Interrupts
import TerminalKernel.Proofs.Refusals
import TerminalKernel.Proofs.RoundTrips
import TerminalKernel.Proofs.KernelMap
import TerminalKernel.Proofs.Globals
import TerminalKernel.Proofs.Chronicles
import TerminalKernel.Proofs.RoundRobin
import TerminalKernel.Proofs.FlatMaps
import TerminalKernel.Proofs.FlatSpaces
import TerminalKernel.Proofs.Areas
import TerminalKernel.Proofs.Isolation
import TerminalKernel.Proofs.FileContents
import TerminalKernel.Proofs.FileReads
import TerminalKernel.Proofs.Chunks
import TerminalKernel.Proofs.Admission
import TerminalKernel.Proofs.CommandLines
import TerminalKernel.Proofs.Streaming
import TerminalKernel.Proofs.Bystanders
import TerminalKernel.Proofs.FileCalls
import TerminalKernel.Proofs.Replays
import TerminalKernel.Proofs.Survivors
import TerminalKernel.Proofs.Deliveries
import TerminalKernel.Proofs.Arguments
import TerminalKernel.Proofs.Pieces
import TerminalKernel.Proofs.ImageBuilding
import TerminalKernel.Proofs.MachineMaps
import TerminalKernel.Proofs.Backends
import TerminalKernel.Proofs.BareMachine
import TerminalKernel.Proofs.KernelSpace
import TerminalKernel.Proofs.Conflicts
import TerminalKernel.Proofs.BootOutcomes
import TerminalKernel.Proofs.StandardStreams
import TerminalKernel.Proofs.FileTables
import TerminalKernel.Proofs.OpenFiles
import TerminalKernel.Proofs.TerminalCalls
import TerminalKernel.Proofs.TerminalTraffic
import TerminalKernel.Proofs.SameWork
import TerminalKernel.Proofs.OffScreen
import TerminalKernel.Proofs.TableHistories
import TerminalKernel.Proofs.IdentityRanges
import TerminalKernel.Proofs.UserRanges
import TerminalKernel.Proofs.DirectoryReads
import TerminalKernel.Proofs.CheckedLayouts
import TerminalKernel.Proofs.StackOwners
import TerminalKernel.Proofs.SpaceInvariants
import TerminalKernel.Proofs.Scrolling
import TerminalKernel.Proofs.ScreenText
