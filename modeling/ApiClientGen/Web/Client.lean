import ApiClientGen.Web.Redirect
import ApiClientGen.World

/-!
Getting a URL. A client may follow the locations to which answers send it, up to a limit; an
answer that is no success is refused.
-/
namespace ApiClientGen.Web

structure Client where
  followsRedirects : Bool
  deriving DecidableEq, Repr

def redirectLimit : Nat := 20

/-- The URL to which an answer sends a request on. A location that is no URL is a fault of the
server; one that gives no URL once it is seen from the URL that was asked for is a bad URL. -/
def nextUrl (url : Url) (location : String) : Except Failure Url := do
  let location ← (Url.read location.toList).mapError fun fault =>
    Failure.transport .remoteProtocolError s!"Invalid URL in location header: {fault.message}."
  (url.redirected location).mapError .badUrl

def ask (client : Client) (url : Url) : Run (Response × Option Url) := do
  let response ← Run.request url.text
  match response.redirect? with
  | none => return (response, none)
  | some location =>
    let next ← Run.ofExcept id (nextUrl url location)
    return (response, if client.followsRedirects then some next else none)

/-- The answer to a request that may be sent on `left` times, with the URL that it answers. -/
def follow (client : Client) : (left : Nat) → Url → Run (Url × Response)
  | 0, url => do
    match ← ask client url with
    | (response, none) => return (url, response)
    | (_, some _) => throw .tooManyRedirects
  | left + 1, url => do
    match ← ask client url with
    | (response, none) => return (url, response)
    | (_, some next) => follow client left next

def accepted (url : Url) (response : Response) : Except Failure Response :=
  if isSuccess response.status then .ok response
  else .error (.badStatus ⟨response.status, url.text, response.redirect?⟩)

def getBody (client : Client) (url : String) : Run ByteArray := do
  let url ← Run.ofExcept .badUrl (Url.ofString url)
  let (final, response) ← follow client redirectLimit url.target
  let response ← Run.ofExcept id (accepted final response)
  return response.body

end ApiClientGen.Web
