import Brainfuck.Device.Feed.History
import Brainfuck.Device.Writer
import Brainfuck.Machine.Describe
import Brainfuck.Machine.Evaluation
import Brainfuck.Machine.Run
import Brainfuck.Main
import Brainfuck.Program.Balance
import Brainfuck.Program.Comments
import Brainfuck.Program.Pairing
import Brainfuck.Proofs.Device.Feed
import Brainfuck.Proofs.Device.Delivery
import Brainfuck.Proofs.Device.Waiting
import Brainfuck.Proofs.Machine.JumpTable
import Brainfuck.Proofs.Machine.Adequacy
import Brainfuck.Proofs.Machine.Accounting
import Brainfuck.Proofs.Machine.Policies
import Brainfuck.Proofs.Machine.Safety
import Brainfuck.Proofs.Machine.Loops
import Brainfuck.Proofs.Machine.Composition
import Brainfuck.Proofs.Machine.Comments
import Brainfuck.Proofs.Machine.Insertion
import Brainfuck.Proofs.Machine.Devices
import Brainfuck.Proofs.Machine.Errors
import Brainfuck.Proofs.Machine.Calls
import Brainfuck.Proofs.Machine.Stuck
import Brainfuck.Proofs.Machine.Progress
import Brainfuck.Proofs.Machine.Lockstep
import Brainfuck.Proofs.CommandLine.Session
import Brainfuck.Proofs.CommandLine.Outcome
import Brainfuck.Proofs.Device.Output
import Brainfuck.Proofs.Noninterference.Output
import Brainfuck.Proofs.Noninterference.Input
import Brainfuck.Proofs.Machine.Straight
import Brainfuck.Proofs.Program.Insertion
import Brainfuck.Proofs.Device.Writer
import Brainfuck.Proofs.Machine.Writing
import Brainfuck.Proofs.Machine.Echo
import Brainfuck.Proofs.Machine.Sending
import Brainfuck.Proofs.Machine.Translation
import Brainfuck.Proofs.Machine.Multiplication
import Brainfuck.Proofs.Tape
import Brainfuck.Proofs.Settings.Locality
import Brainfuck.Proofs.Settings.Spelling
import Brainfuck.Proofs.Settings.Spacing
import Brainfuck.Proofs.Settings.Layers
import Brainfuck.Proofs.Excerpt
