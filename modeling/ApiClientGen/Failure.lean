import ApiClientGen.Files.FileError
import ApiClientGen.Json.Fault
import ApiClientGen.Schema.Violation
import ApiClientGen.Web.Reply
import ApiClientGen.Web.Url

/-!
The ways in which a run fails.
-/
namespace ApiClientGen

/-- What is wrong with a document: it cannot be read, or it has not the shape of a record. -/
inductive DocumentFault
  | unreadable (fault : Json.Fault)
  | shape (violations : List Schema.Violation)

def DocumentFault.message : DocumentFault → String
  | .unreadable fault => "invalid JSON: " ++ fault.message
  | .shape violations => Schema.violationsText violations

inductive Failure
  | document (url : String) (fault : DocumentFault)
  | nothingToMerge
  | dangling (name : String) (missing : List String)
  | badStatus (bad : Web.BadStatus)
  | tooManyRedirects
  | transport (fault : Web.TransportFault) (message : String)
  | badUrl (fault : Web.UrlFault)
  | file (error : FileError)

namespace Failure

def danglingText (name : String) (missing : List String) : String :=
  name ++ ": unresolved model references: " ++ String.intercalate ", " missing

/-- The wording of a failure. Nesting is no fault of a document by itself, so that its URL is not
named. -/
def message : Failure → String
  | .document _ (.unreadable (.tooDeep nest)) => (Json.Fault.tooDeep nest).message
  | .document url fault => url ++ ": " ++ fault.message
  | .nothingToMerge => "No resources to merge"
  | .dangling name missing => danglingText name missing
  | .badStatus bad => bad.message
  | .tooManyRedirects => "Exceeded maximum allowed redirects."
  | .transport _ message => message
  | .badUrl fault => fault.message
  | .file error => error.message

/-- Whether the command line reports a failure. A document that is nested too deeply, what gives
no URL, what the layers below the client raise and a path that no system call can name go further
up. -/
def isReported : Failure → Bool
  | .document _ (.unreadable (.tooDeep _)) => false
  | .badUrl _ => false
  | .transport .foreign _ => false
  | .file .embeddedNul => false
  | _ => true

end Failure

end ApiClientGen
