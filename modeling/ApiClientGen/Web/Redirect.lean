import ApiClientGen.Web.UrlReader

/-!
Where an answer sends a request on: a location may be a URL of its own, or be seen from the URL
that was asked for.
-/
namespace ApiClientGen.Web.Url

open Text

/-- The segments of a relative path behind those of the path it is seen from. -/
def joinSegments (base path : List Char) : List (List Char) :=
  let parts := pieces (· == '/') path
  if path.head? = some '/' then parts
  else
    let before := pieces (· == '/') base
    let before := if before.getLast? = some [] then before else before.dropLast
    let all := before ++ parts
    all.take 1 ++ ((all.drop 1).dropLast.filter fun segment => !segment.isEmpty) ++
      (if all.length ≤ 1 then [] else all.drop (all.length - 1))

def joinPath (base path : List Char) : List Char :=
  let segments := joinSegments base path
  let kept := segments.foldl (fun kept segment =>
    if segment = ['.', '.'] then kept.dropLast
    else if segment = ['.'] then kept
    else kept ++ [segment]) []
  let kept := match segments.getLast? with
    | some ['.'] | some ['.', '.'] => kept ++ [[]]
    | _ => kept
  match List.intercalate ['/'] kept with
  | [] => ['/']
  | path => path

def hierarchical : List String :=
  ["", "ftp", "http", "gopher", "nntp", "imap", "wais", "file", "https", "shttp", "mms",
    "prospero", "rtsp", "rtsps", "rtspu", "sftp", "svn", "svn+ssh", "ws", "wss"]

def parametric : List String :=
  ["", "ftp", "imap", "http", "https", "shttp", "mms", "prospero", "rtsp", "rtsps", "rtspu",
    "sftp"]

/-- A path without the parameters of its last segment, and these. -/
def cutParameters (scheme path : List Char) : List Char × List Char :=
  if parametric.contains (String.ofList scheme) then
    let (backward, directory) := cutAt (· == '/') path.reverse
    let (name, parameters) := cutAt (· == ';') backward.reverse
    (directory.reverse ++ name, parameters.drop 1)
  else (path, [])

/-- A part behind its mark; a part that is empty has no mark. -/
def marked (mark : Char) (part : List Char) : List Char :=
  if part.isEmpty then [] else mark :: part

def joinParts (parts : Spelling) (parameters : List Char) : List Char :=
  let path := parts.path ++ marked ';' parameters
  let path :=
    if parts.authority.isEmpty && parts.scheme.isEmpty && !(['/', '/'].isPrefixOf path) then path
    else
      let path := if path.isEmpty || path.head? = some '/' then path else '/' :: path
      '/' :: '/' :: parts.authority ++ path
  (if parts.scheme.isEmpty then [] else parts.scheme ++ [':']) ++ path ++
    marked '?' (parts.query.getD []) ++ marked '#' (parts.fragment.getD [])

def seenFrom (base url : List Char) : List Char :=
  if base.isEmpty then url
  else if url.isEmpty then base
  else
    let root := cutParts base
    let parts := cutParts url
    let above := root.scheme.map Char.toLower
    let scheme := if parts.scheme.isEmpty then above else parts.scheme.map Char.toLower
    if scheme ≠ above ∨ !hierarchical.contains (String.ofList scheme) then url
    else
      let (path, parameters) := cutParameters scheme parts.path
      let (directory, inherited) := cutParameters scheme root.path
      if !parts.authority.isEmpty then joinParts { parts with scheme, path } parameters
      else if path.isEmpty && parameters.isEmpty then
        let query := if (parts.query.getD []).isEmpty then root.query else parts.query
        joinParts { parts with
          scheme, authority := root.authority, path := directory, query } inherited
      else
        joinParts { parts with
          scheme, authority := root.authority, path := joinPath directory path } parameters

def ofParts (parts : Spelling) : Except UrlFault Url := do
  checkParts parts
  ofSpelling parts

def spelledHost (host : String) : List Char :=
  if host.contains ':' then '[' :: host.toList ++ [']'] else host.toList

/-- A location with a scheme and without a host gets the host of the URL that was asked for. -/
def withHost (base location : Url) : Except UrlFault Url :=
  if location.scheme ≠ "" ∧ location.host = "" then
    ofParts { location.spelling with host := some (spelledHost base.host) }
  else .ok location

/-- A URL without a fragment gets that of the URL that was asked for, as it reads once its percent
codes are resolved. -/
def withFragment (base url : Url) : Except UrlFault Url :=
  match decodePercents (base.fragment.getD "").toList, url.fragment.getD "" with
  | [], _ => .ok url
  | fragment, "" => ofParts { url.spelling with fragment := some fragment }
  | _, _ => .ok url

def redirected (base location : Url) : Except UrlFault Url := do
  let url ← withHost base location
  let url ← if url.isAbsolute then pure url else read (seenFrom base.text.toList url.text.toList)
  withFragment base url

end ApiClientGen.Web.Url
