import ApiClientGen.Web.Status

/-!
What a server answers to a request. A server may answer each request anew: its answer hangs on the
requests that came before as well as on the URL.
-/
namespace ApiClientGen.Web

/-- The ways in which a request fails before an answer comes. From `timeout` to `other` they are
known only by their family; `foreign` is what the layers below the client raise as they are, a
value or a text that they cannot handle. -/
inductive TransportFault
  | connectTimeout
  | readTimeout
  | writeTimeout
  | poolTimeout
  | connectError
  | readError
  | writeError
  | closeError
  | proxyError
  | unsupportedProtocol
  | localProtocolError
  | remoteProtocolError
  | decodingError
  | timeout
  | network
  | protocol
  | transport
  | other
  | foreign
  deriving DecidableEq, Repr

structure Response where
  status : Nat
  location : Option String
  body : ByteArray

inductive Reply
  | response (response : Response)
  | failed (fault : TransportFault) (message : String)

/-- A server answers a URL, given the URLs that were requested before, the latest first. -/
abbrev Server := List String → String → Reply

def Response.redirect? (response : Response) : Option String :=
  if isRedirect response.status then response.location else none

structure BadStatus where
  status : Nat
  url : String
  location : Option String
  deriving DecidableEq, Repr

def BadStatus.message (bad : BadStatus) : String :=
  s!"{statusKind bad.status} '{bad.status} {reasonPhrase bad.status}' for url '{bad.url}'\n" ++
    (match bad.location with
      | some location => s!"Redirect location: '{location}'\n"
      | none => "") ++
    "For more information check: " ++
    s!"https://developer.mozilla.org/en-US/docs/Web/HTTP/Status/{bad.status}"

end ApiClientGen.Web
