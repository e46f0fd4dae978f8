import Verdict.Main
import Verdict.Proofs.Bracketing
import Verdict.Proofs.Reading
import Verdict.Proofs.Sentence
import Verdict.Proofs.Pieces
import Verdict.Proofs.Languages
import Verdict.Proofs.Preference
import Verdict.Proofs.Front
import Verdict.Proofs.Forms
import Verdict.Proofs.Captures
import Verdict.Proofs.Scanning
import Verdict.Proofs.Lexing
import Verdict.Proofs.Writing
import Verdict.Proofs.RoundTrip
import Verdict.Proofs.FirstFault
import Verdict.Proofs.Replacing
import Verdict.Proofs.Spelling
import Verdict.Proofs.WholeMatch
import Verdict.Proofs.Reserving
import Verdict.Proofs.ScannedText
import Verdict.Proofs.Rereading
import Verdict.Proofs.Dependence
import Verdict.Proofs.Appending
import Verdict.Proofs.Enclosing
import Verdict.Proofs.Registering
import Verdict.Proofs.Locating
import Verdict.Proofs.Leads
import Verdict.Proofs.Standing
import Verdict.Proofs.Depths
import Verdict.Proofs.Misplacing
import Verdict.Proofs.Asking
import Verdict.Proofs.Listing
import Verdict.Proofs.Mirroring
import Verdict.Proofs.Equating
import Verdict.Proofs.Arguments
import Verdict.Proofs.Advancing
