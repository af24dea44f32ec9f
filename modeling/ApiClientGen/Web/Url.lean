import ApiClientGen.Text.Quoted

/-!
URLs in parts, and their text.
-/
namespace ApiClientGen.Web

open Text

structure Url where
  scheme : String
  user : String
  host : String
  portNumber : Option Int
  path : String
  query : Option String
  fragment : Option String
  deriving DecidableEq, Repr

inductive UrlFault
  | tooLong
  | unprintable (char : Char) (index : Nat)
  | partTooLong (part : String)
  | unprintableIn (part : String) (char : Char) (index : Nat)
  | badPort (text : String)
  | address (text : String)
  | longAddress (text : String)
  | host (text : String)
  | detachedPath
  | doubleSlash
  | leadingColon
  deriving DecidableEq, Repr

def UrlFault.message : UrlFault → String
  | .tooLong => "URL too long"
  | .unprintable char index =>
    let shown := quoted (String.singleton char)
    s!"Invalid non-printable ASCII character in URL, {shown} at position {index}."
  | .partTooLong part => s!"URL component '{part}' too long"
  | .unprintableIn part char index =>
    let shown := quoted (String.singleton char)
    s!"Invalid non-printable ASCII character in URL {part} component, {shown} " ++
      s!"at position {index}."
  | .badPort text => "Invalid port: " ++ quoted text
  | .address text => "Invalid IPv4 address: " ++ quoted text
  | .longAddress text => "Invalid IPv6 address: " ++ quoted text
  | .host text => "Invalid IDNA hostname: " ++ quoted text
  | .detachedPath => "For absolute URLs, path must be empty or begin with '/'"
  | .doubleSlash => "Relative URLs cannot have a path starting with '//'"
  | .leadingColon => "Relative URLs cannot have a path starting with ':'"

namespace Url

def authority (url : Url) : String :=
  (if url.user = "" then "" else url.user ++ "@") ++
    (if url.host.contains ':' then "[" ++ url.host ++ "]" else url.host) ++
    (match url.portNumber with
      | some portNumber => ":" ++ toString portNumber
      | none => "")

def text (url : Url) : String :=
  (if url.scheme = "" then "" else url.scheme ++ ":") ++
    (if url.authority = "" then "" else "//" ++ url.authority) ++ url.path ++
    (match url.query with
      | some query => "?" ++ query
      | none => "") ++
    (match url.fragment with
      | some fragment => "#" ++ fragment
      | none => "")

def isAbsolute (url : Url) : Bool := url.scheme != "" && url.host != ""

/-- The URL that a request for a URL goes to. Without a scheme and a host only path and query
count, seen from the root. -/
def target (url : Url) : Url :=
  if url.isAbsolute then url
  else
    { scheme := "", user := "", host := "", portNumber := none
      path := "/" ++ String.ofList (url.path.toList.dropWhile (· == '/'))
      query := url.query, fragment := none }

end Url

end ApiClientGen.Web
