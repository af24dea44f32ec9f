import ApiClientGen.CommandLine.Parse
import ApiClientGen.Generate.Service

/-!
The program: settings from the command line, then a run. What makes a run fail is reported in one
text, unless it is nothing that a run reports.
-/
namespace ApiClientGen.CommandLine

/-- How the program ends: the command line stopped it, or a run came to its end with a status. -/
inductive Ending
  | stopped (code : Nat)
  | ran (status : Nat)
  deriving DecidableEq, Repr

def client : Web.Client := ⟨true⟩

def report (failure : Failure) : Run Ending :=
  if failure.isReported then do
    Run.warn ("error: " ++ failure.message)
    return .ran 1
  else throw failure

def endAt : Stop → Run Ending
  | .help => do
    modify fun world => { world with stdout := world.stdout ++ helpText }
    return .stopped 0
  | .misuse misuse => do
    modify fun world => { world with stderr := world.stderr ++ misuse.report }
    return .stopped 2

def execute (settings : Settings) : Run Ending :=
  tryCatch (do
    let _ ← Generate.run settings client
    return .ran 0) report

def program (words : List String) : Run Ending :=
  match parse words with
  | .ok settings => execute settings
  | .error stop => endAt stop

end ApiClientGen.CommandLine
