import Bytewise.Main
import Bytewise.Proofs.Checksum.Chunks
import Bytewise.Proofs.Checksum.Corruption
import Bytewise.Proofs.Classifier.BlockComments
import Bytewise.Proofs.Classifier.Loop
import Bytewise.Proofs.Classifier.Padding
import Bytewise.Proofs.Command.LastFlag
import Bytewise.Proofs.Command.LineDiff
import Bytewise.Proofs.Command.Listing
import Bytewise.Proofs.Command.Offsets
import Bytewise.Proofs.Command.Pace
import Bytewise.Proofs.Command.Settings
import Bytewise.Proofs.Command.Umbrella
import Bytewise.Proofs.Dump.Failing
import Bytewise.Proofs.Dump.LongestNumber
import Bytewise.Proofs.Dump.Squeezing
import Bytewise.Proofs.LineDiff.Ignoring
import Bytewise.Proofs.LineDiff.Records
import Bytewise.Proofs.Settings.Saving
import Bytewise.Proofs.Source.Registration
import Bytewise.Proofs.Survey.GivenLanguages
import Bytewise.Proofs.Survey.History
import Bytewise.Proofs.Survey.Losses
import Bytewise.Proofs.Survey.Pruning
