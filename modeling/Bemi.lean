import Bemi.Lib.Machine
import Bemi.Lib.Run
import Bemi.Lib.Filling
import Bemi.Lib.Ram
import Bemi.Lib.SlotRing
import Bemi.Lib.SlotQueue
import Bemi.Lib.RoundRobin
import Bemi.Lib.Chain
import Bemi.Lib.SaveArea
import Bemi.Lib.Parts
import Bemi.Lib.Shift
import Bemi.Lib.Stream
import Bemi.Lib.X64
import Bemi.Lib.I8086
import Bemi.Lib.Brackets
import Bemi.Lib.Lookup
import Bemi.Lib.Bits
import Bemi.Lib.Ripple
import Bemi.Lib.Priority
import Bemi.Lib.Slots
import Bemi.Lib.Loop
import Bemi.Lib.Division
import Bemi.Lib.Scan
import Bemi.Lib.Countdown
import Bemi.Lib.Recency
import Bemi.Lib.Since
import Bemi.Lib.RegisterFile
import Bemi.Lib.TailCall
import Bemi.Lib.Binary64
import Bemi.Lib.MaskRange
import Bemi.Lib.Search
import Bemi.Lib.FlowRel
import Bemi.Lib.Program
import Bemi.Lib.Coupled
import Bemi.Lib.Ownership
import Bemi.Lib.X86Core
import Bemi.Lib.I8086Run
import Bemi.Efi
import Bemi.Dbt.Ir
import Bemi.Dbt.BoundedList
import Bemi.Dbt.Executor
import Bemi.Dbt.Optimizer
import Bemi.Dbt.NormalForm
import Bemi.Dbt.Decoder
import Bemi.Dbt.Translator
import Bemi.Dbt.Branch
import Bemi.Dbt.BlockEnd
import Bemi.Dbt.Linkage
import Bemi.Dbt.Operand
import Bemi.Dbt.Integer
import Bemi.Dbt.Moves
import Bemi.Dbt.Width
import Bemi.Dbt.Codegen
import Bemi.Dbt.Emitted
import Bemi.Dbt.Truncation
import Bemi.Dbt.Flags
import Bemi.Dbt.Division
import Bemi.Dbt.Setcc
import Bemi.Dbt.Shifts
import Bemi.Dbt.PushPop
import Bemi.Dbt.Compare
import Bemi.Dbt.MultiWord
import Bemi.Dbt.Core
import Bemi.Dbt.Pipeline
import Bemi.Dbt.Liveness
import Bemi.I8088.Executor
import Bemi.I8088.Step
import Bemi.I8088.Words
import Bemi.I8088.Refine
import Bemi.I8088.Stack
import Bemi.I8088.Termination
import Bemi.I8088.Frame
import Bemi.I8088.Sweep
import Bemi.I8088.Run
import Bemi.TCache.TraceCache
import Bemi.TCache.Links
import Bemi.TCache.Represents
import Bemi.TCache.Chains
import Bemi.TCache.Refine
import Bemi.TCache.Memory
import Bemi.TCache.Agreement
import Bemi.TCache.Simulation
import Bemi.TCache.Arena
import Bemi.TCache.Pins
import Bemi.TCache.Overlap
import Bemi.TCache.Victim
import Bemi.TCache.Effect
import Bemi.TCache.Live
import Bemi.TCache.Eviction
import Bemi.TCache.Tallies
import Bemi.TCache.Prefill
import Bemi.Rob.V72
import Bemi.Rob.V72InFlight
import Bemi.Rob.V72Turns
import Bemi.Rob.V72Tags
import Bemi.Rob.V72Rings
import Bemi.Rob.V72Retire
import Bemi.Rob.Distributor
import Bemi.Rob.Allocation
import Bemi.Rob.Retirement
import Bemi.Rob.InOrder
import Bemi.Rob.V72Init
import Bemi.L0.Cache
import Bemi.L0.Coherence
import Bemi.L0.DirectMapped
import Bemi.L0.Scratch
import Bemi.Tage.Predictor
import Bemi.Tage.Learning
import Bemi.Tage.Targets
import Bemi.Tage.Prefill
import Bemi.Tage.Branches
import Bemi.Apic.Shadow
import Bemi.Apic.Registers
import Bemi.Apic.Pending
import Bemi.Apic.Vectors
import Bemi.Apic.Nesting
import Bemi.Apic.Timer
import Bemi.Apic.Schedule
import Bemi.Apic.Device
import Bemi.Interrupt.Latency
import Bemi.Interrupt.Oldest
import Bemi.Interrupt.Statistics
import Bemi.Vmx.Handler
import Bemi.Vmx.RoundTrip
import Bemi.Vmx.Injection
import Bemi.Vmx.Vcpu
import Bemi.Vmx.Dispatch
import Bemi.Vmx.Undo
import Bemi.Vmx.Controls
import Bemi.Backend.CrAccess
import Bemi.Backend.Io
import Bemi.Svm.Handler
import Bemi.Svm.Npf
import Bemi.Svm.RunLoop
import Bemi.Msr.Exits
import Bemi.Vmx.Isolation
import Bemi.Msr.Shadow
import Bemi.Msr.Lockstep
import Bemi.Msr.RegisterFile
import Bemi.Cpuid.Spoof
import Bemi.Cpuid.Exits
import Bemi.Cpuid.Subleaves
import Bemi.Fusion.MacroOp
import Bemi.Fusion.Refine
import Bemi.BwGov.Governor
import Bemi.BwGov.Thresholds
import Bemi.Acpi.Madt
import Bemi.Post.Topology
import Bemi.Smm.Smrr
import Bemi.Smm.Latency
import Bemi.Csm.E820
import Bemi.Boot.Protocol
import Bemi.Boot.Services
import Bemi.Simulator.Boot
import Bemi.Simulator.Pentium
import Bemi.Simulator.Bill
