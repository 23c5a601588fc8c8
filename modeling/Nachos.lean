import Nachos.Lib.Agenda
import Nachos.Lib.Agents
import Nachos.Lib.Atomicity
import Nachos.Lib.Chains
import Nachos.Lib.GuardedRun
import Nachos.Lib.LittleEndian
import Nachos.Lib.MesaCounter
import Nachos.Lib.Mips
import Nachos.Lib.Objects
import Nachos.Lib.Ownership
import Nachos.Lib.Phases
import Nachos.Lib.QueuePartition
import Nachos.Lib.Simulation
import Nachos.Lib.Stacked
import Nachos.Lib.StateRules
import Nachos.Machine.Translate
import Nachos.Machine.Mipssim
import Nachos.Machine.Confinement
import Nachos.Machine.DelayedLoads
import Nachos.Machine.UserMemory
import Nachos.Machine.HostOrder
import Nachos.Machine.PreciseExceptions
import Nachos.Machine.LoadDelay
import Nachos.Machine.Decoding
import Nachos.Machine.WordArithmetic
import Nachos.Machine.Architecture
import Nachos.Machine.DiskLatency
import Nachos.Machine.Safety
import Nachos.Machine.Interrupt
import Nachos.Machine.InterruptOrder
import Nachos.Machine.InterruptTies
import Nachos.Threads.Kernel
import Nachos.Threads.Processor
import Nachos.Threads.StepEffects
import Nachos.Threads.Refinement
import Nachos.Threads.Runs
import Nachos.Threads.ThreadLife
import Nachos.Threads.StepAccounts
import Nachos.Threads.ThreadDestruction
import Nachos.Threads.SemaphoreDiscipline
import Nachos.Threads.TickCounters
import Nachos.Threads.LockDiscipline
import Nachos.Threads.LockBrackets
import Nachos.Threads.Programs
import Nachos.Threads.SynchList
import Nachos.Threads.LinkedList
import Nachos.Threads.ListOrder
import Nachos.Threads.ConditionDiscipline
import Nachos.Threads.Broadcast
import Nachos.Threads.InterruptLevel
import Nachos.Userprog.Syscalls
import Nachos.Userprog.Tables
import Nachos.Userprog.FileTables
import Nachos.Userprog.Frames
import Nachos.Userprog.Stacks
import Nachos.Userprog.ThreadStages
import Nachos.Userprog.ProcessSteps
import Nachos.Userprog.UserTicks
import Nachos.Userprog.GlobalLocks
import Nachos.Userprog.WaitCall
import Nachos.Userprog.InvalidIds
import Nachos.Userprog.Momentary
import Nachos.Userprog.LockDeletion
import Nachos.Userprog.ConditionDeletion
import Nachos.Userprog.Contention
import Nachos.Userprog.BitMap
import Nachos.Userprog.BitMapSets
import Nachos.Userprog.TableMaps
import Nachos.Userprog.AddrSpace
import Nachos.Userprog.System
import Nachos.Userprog.SystemSteps
import Nachos.Userprog.UserCopies
import Nachos.Userprog.ExecCall
import Nachos.Userprog.ReadCall
import Nachos.Userprog.PrintfCall
import Nachos.Userprog.Spaces
import Nachos.Userprog.PageTables
import Nachos.Userprog.Isolation
import Nachos.Userprog.ContextSwitch
import Nachos.Userprog.ForkedThreads
import Nachos.Userprog.UserCode
import Nachos.Userprog.LiveThreads
import Nachos.Userprog.StackAreas
import Nachos.Userprog.FrameUse
import Nachos.Userprog.Roll
import Nachos.Userprog.ProcessAccounts
import Nachos.Userprog.ProcessCounts
import Nachos.Userprog.ExitCall
import Nachos.Userprog.SynchConsole
import Nachos.Filesys.SynchDisk
import Nachos.Filesys.DiskOrder
import Nachos.Filesys.FileHeader
import Nachos.Filesys.OpenFile
import Nachos.Filesys.Directory
import Nachos.Filesys.BitMapFiles
import Nachos.Filesys.FileSystem
import Nachos.Filesys.SectorUse
import Nachos.Filesys.Consistency
import Nachos.Filesys.Volumes
import Nachos.Filesys.Transfers
import Nachos.Filesys.RequestBounds
import Nachos.Filesys.CreateSizes
import Nachos.Filesys.CreateUndo
import Nachos.Test.LiaisonLine
import Nachos.Test.SeatLoop
import Nachos.Test.CheckInBags
import Nachos.Test.ManagerPasses
import Nachos.Test.Conveyor
import Nachos.Test.ConveyorAccounts
import Nachos.Airport.Screening
import Nachos.Airport.ScreeningRounds
import Nachos.Airport.OfficerSearch
import Nachos.Airport.Seats
import Nachos.Lib.Desk
import Nachos.Lib.Tallies
import Nachos.Airport.Liaisons
import Nachos.Airport.LiaisonDesks
import Nachos.Airport.Tickets
import Nachos.Airport.Counters
import Nachos.Airport.CounterMoves
import Nachos.Airport.CounterDesks
import Nachos.Airport.CounterBags
import Nachos.Airport.Cargo
import Nachos.Airport.Gates
import Nachos.Airport.Simulation
import Nachos.Airport.SimulationMoves
import Nachos.Airport.Ledgers
import Nachos.Airport.Boarding
import Nachos.Airport.EndOfDay
import Nachos.Airport.Security
import Nachos.Airport.Arrays
import Nachos.Airport.Indices
import Nachos.Airport.ScreeningIndices
import Nachos.Airport.Terminal
import Nachos.Airport.Judgements
import Nachos.Airport.Verdicts
import Nachos.Airport.Checkpoint
import Nachos.Userprog.Executables
import Nachos.Lib.Scans
import Nachos.Bin.Coff2noff
import Nachos.Bin.Conversions
import Nachos.Bin.Programs
import Nachos.Network.Delivery
import Nachos.Lib.Traces
import Nachos.Lib.FileStore
import Nachos.Filesys.Contents
import Nachos.Filesys.Space
import Nachos.Filesys.Archive
import Nachos.Filesys.ArchiveStops
import Nachos.Filesys.FileCopies
import Nachos.Threads.Stops
import Nachos.Lib.Turns
import Nachos.Threads.RoundRobin
import Nachos.Userprog.SynchOutput
import Nachos.Userprog.WrittenLines
import Nachos.Userprog.ConsoleTest
import Nachos.Network.MailTest
