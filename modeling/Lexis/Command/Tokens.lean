import Lexis.Command.Basic

/-!
# Listing tokens

The streams of all sources, in order. As text, each has a headline if there are several sources;
as JSON, each has a line.
-/

namespace Lexis.Command

/-- What the command is asked to do. -/
structure TokensRequest where
  /-- Talk about the work. -/
  verbose : Bool := false
  /-- How streams are listed, if not as the settings say. -/
  format : Option Format := none
  /-- Namespaces beside those of the settings. -/
  namespaces : List String := []
  /-- Number of workers, if not as the settings say. -/
  jobs : Option Nat := none
deriving DecidableEq, Repr

/-- The listing of one source among `count`. -/
def listing (format : Format) (count : Nat) (file : LexedFile) : String :=
  match format with
  | .text =>
    (if 1 < count then "==> " ++ file.path ++ " <==\n" else "") ++ Dump.text file.reading.tokens
  | .json => Dump.json file.reading.tokens ++ "\n"

/-- Lists the tokens of all sources. -/
def tokens (request : TokensRequest) (settings : Settings) (sources : Sources) : Outcome :=
  match lexAll settings request.namespaces request.jobs sources with
  | (remarks, .error fault) => { remarks, fault := some fault }
  | (remarks, .ok files) =>
    let format := request.format.getD settings.format
    let total := LexedFile.total (·.reading.tokens.length) files
    { out := String.join (files.map (listing format files.length))
      remarks := remarks ++ summary request.verbose
        ("Dumped " ++ toString total ++ " token(s) from " ++ toString files.length ++
          " file(s)") }

end Lexis.Command
