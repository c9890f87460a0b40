import Brainfuck.Main
import Brainfuck.Files.Disk
import Brainfuck.Proofs.Control
import Brainfuck.Proofs.Nesting
import Brainfuck.Proofs.Halting
import Brainfuck.Proofs.Record
import Brainfuck.Proofs.Returns
import Brainfuck.Proofs.Invariant
import Brainfuck.Proofs.Passing
import Brainfuck.Proofs.Strategies
import Brainfuck.Proofs.BracketErrors
import Brainfuck.Proofs.Line
import Brainfuck.Proofs.Structured.BigStep
import Brainfuck.Proofs.Renumbering
import Brainfuck.Proofs.Remarks
import Brainfuck.Proofs.Limits
import Brainfuck.Proofs.Room
import Brainfuck.Proofs.Lockstep
import Brainfuck.Proofs.Layout
import Brainfuck.Proofs.Insertion
import Brainfuck.Proofs.Unread
import Brainfuck.Proofs.Readable
import Brainfuck.Proofs.Reports
import Brainfuck.Proofs.Caret
import Brainfuck.Proofs.Fields
import Brainfuck.Proofs.ConfigLines
import Brainfuck.Proofs.ConfigReading
import Brainfuck.Proofs.ConfigLayout
import Brainfuck.Proofs.Sources
import Brainfuck.Proofs.Echo
