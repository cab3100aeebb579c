import Handheld.Word
import Handheld.Text.Numeral
import Handheld.Core.Mode
import Handheld.Core.Status
import Handheld.Core.Exception
import Handheld.Core.Lines
import Handheld.Core.SystemControl
import Handheld.Text.CharSet
import Handheld.Text.Printable
import Handheld.Text.GraphemeExtend
import Handheld.Text.UpperCase
import Handheld.Text.Quoted
import Handheld.Text.Split
import Handheld.Text.Terminal
import Handheld.Mmio.Literal
import Handheld.Mmio.Tag
import Handheld.Core.RegisterFile
import Handheld.Memory.Bus
import Handheld.Memory.Ram
import Handheld.Core.Program
import Handheld.Core.State
import Handheld.Core.Execution
import Handheld.Proofs.Sequences
import Handheld.Proofs.Core.Operations
import Handheld.Proofs.Core.Moment
import Handheld.Proofs.Core.Cells
import Handheld.Proofs.Core.Entry
import Handheld.Proofs.Core.Coherence
import Handheld.Proofs.Core.Runs
import Handheld.Proofs.Core.Dispatch
import Handheld.Proofs.Core.Parts
import Handheld.Proofs.Core.Wake
import Handheld.Proofs.Core.Target
import Handheld.Proofs.Core.Limit
import Handheld.Proofs.Core.Slices
import Handheld.Proofs.Core.RegisterHistory
import Handheld.Proofs.Core.Handling
import Handheld.Proofs.Core.SavedStatus
import Handheld.Proofs.Core.Transfers
import Handheld.Proofs.Core.Coprocessors
import Handheld.Proofs.Core.Hooks
import Handheld.Saved.Document
import Handheld.Touch.Pen
import Handheld.Saved.Instances
import Handheld.Mmio.Register
import Handheld.Mmio.Device
import Handheld.Mmio.Setup
import Handheld.Mmio.Bank
import Handheld.Division.Quotient
import Handheld.Division.Divider
import Handheld.Proofs.Mmio.SparseMemory
import Handheld.Proofs.Mmio.BankMemory
import Handheld.Proofs.Mmio.LastWritten
import Handheld.Proofs.Division.Contents
import Handheld.Proofs.Division.Accesses
import Handheld.Proofs.Division.Arithmetic
import Handheld.Touch.Calibration
import Handheld.Touch.Transfer
import Handheld.CommandLine.Number
import Handheld.CommandLine.Arguments
import Handheld.CommandLine.Commands
import Handheld.Main
import Handheld.Proofs.Memory.Image
import Handheld.Proofs.Touch.Interpolation
import Handheld.Proofs.Touch.Framing
import Handheld.Proofs.Touch.Snapshots
import Handheld.Proofs.Touch.Settings
import Handheld.Proofs.CommandLine.Conversion
import Handheld.Proofs.Text.Numerals
import Handheld.Proofs.Text.Digits
import Handheld.Proofs.CommandLine.Language
import Handheld.Proofs.CommandLine.Numbers
import Handheld.Proofs.CommandLine.Division
import Handheld.Proofs.Mmio.Turns
import Handheld.Proofs.Mmio.Halves
import Handheld.Proofs.Division.ZeroFlag
import Handheld.Proofs.Mmio.Declarations
import Handheld.Proofs.Mmio.LiteralGrammar
import Handheld.Proofs.Mmio.Literals
import Handheld.Proofs.Mmio.Options
import Handheld.Proofs.Mmio.Initialization
import Handheld.Proofs.Mmio.Partition
import Handheld.Proofs.Mmio.ReadOnly
import Handheld.Proofs.Core.LineHistory
import Handheld.Proofs.Core.Storm
import Handheld.Proofs.Core.Cycles
import Handheld.Proofs.Core.Raising
import Handheld.Proofs.Core.SoftwareInterrupts
import Handheld.Proofs.Core.Overshoot
import Handheld.Proofs.Saved.Spelling
import Handheld.Proofs.Saved.Machine
import Handheld.Proofs.Saved.Reloading
import Handheld.Proofs.Word.Shifting
import Handheld.Proofs.Core.StatusHistory
