import Lexis.Disk.Files
import Lexis.Json.Grammar
import Lexis.Main
import Lexis.Proofs.Joining
import Lexis.Proofs.Progress
import Lexis.Proofs.Respacing
import Lexis.Proofs.Placement
import Lexis.Proofs.Prologue
import Lexis.Proofs.Restart
import Lexis.Proofs.Lookahead
import Lexis.Proofs.Concatenation
import Lexis.Proofs.Ending
import Lexis.Proofs.Reports
import Lexis.Proofs.Parts
import Lexis.Proofs.Calls
import Lexis.Proofs.Namespaces
import Lexis.Proofs.Positions
import Lexis.Proofs.Pulling
import Lexis.Proofs.Encoding
import Lexis.Proofs.Sources
import Lexis.Proofs.Checking
import Lexis.Proofs.Numerals
import Lexis.Proofs.Quoting
import Lexis.Proofs.Dumps
import Lexis.Proofs.JsonDumps
import Lexis.Proofs.Listing
import Lexis.Proofs.Layout
import Lexis.Proofs.Storage
import Lexis.Proofs.Bounds
import Lexis.Proofs.RoundTrip
import Lexis.Proofs.Histories
import Lexis.Proofs.Strings
import Lexis.Proofs.LongestMatch
import Lexis.Proofs.Words
import Lexis.Proofs.Gaps
import Lexis.Proofs.Lines
import Lexis.Proofs.Rendering
import Lexis.Proofs.Carets
import Lexis.Proofs.Ascii
import Lexis.Proofs.Canonical
import Lexis.Proofs.Merging
import Lexis.Proofs.Directories
import Lexis.Proofs.Creating
