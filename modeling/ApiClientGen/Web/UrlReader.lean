import ApiClientGen.Number.Reading
import ApiClientGen.Web.Percent
import ApiClientGen.Web.Url

/-!
Reading a URL encodes what its parts may not hold, lowers scheme and host, drops the number behind
the host that a scheme has anyway, and resolves single and double points in an absolute path.
-/
namespace ApiClientGen.Web.Url

open Text

/-- The text before the first character that satisfies a condition, and what is left from it
on. -/
def cutAt (stop : Char → Bool) (text : List Char) : List Char × List Char :=
  (text.takeWhile (!stop ·), text.dropWhile (!stop ·))

/-- The scheme in front of a colon, and what follows; without a scheme, the whole text. -/
def cutScheme (text : List Char) : List Char × List Char :=
  let (scheme, rest) := cutAt (fun c => !(c.isAlphanum || c == '+' || c == '.' || c == '-')) text
  match scheme, rest with
  | first :: _, ':' :: rest => if first.isAlpha then (scheme, rest) else ([], text)
  | [], ':' :: rest => ([], rest)
  | _, _ => ([], text)

def cutAuthority (text : List Char) : List Char × List Char :=
  match text with
  | '/' :: '/' :: rest => cutAt (fun c => c == '/' || c == '?' || c == '#') rest
  | text => ([], text)

def behind (mark : Char) (text : List Char) : Option (List Char) :=
  match text with
  | c :: rest => if c = mark then some rest else none
  | [] => none

def cutLast (mark : Char) (text : List Char) : Option (List Char × List Char) :=
  let (after, rest) := cutAt (· == mark) text.reverse
  match rest with
  | _ :: before => some (before.reverse, after.reverse)
  | [] => none

/-- The user, the host and the number behind it in an authority. A host in brackets may hold
colons. -/
def cutHost (authority : List Char) : List Char × List Char × List Char :=
  let (user, rest) := (cutLast '@' authority).getD ([], authority)
  let (host, portNumber) :=
    match rest, cutLast ']' rest with
    | '[' :: _, some (inside, after) => (inside ++ [']'], after)
    | _, _ => cutAt (· == ':') rest
  (user, host, (behind ':' portNumber).getD portNumber)

def integer? (text : List Char) : Option Int := do
  let plain ← Number.dropUnderscores? false ((trimBy Number.isMargin text).map Number.plainDigit)
  let (negative, digits) := match plain with
    | '-' :: digits => (true, digits)
    | '+' :: digits => (false, digits)
    | digits => (false, digits)
  if digits.isEmpty || !digits.all Char.isDigit then none
  else
    let size := (Number.digitsValue digits : Int)
    some (if negative then -size else size)

/-- The number behind the host that the URLs of a scheme have anyway. -/
def usualPort? (scheme : List Char) : Option Int :=
  match String.ofList scheme with
  | "ftp" => some 21
  | "http" | "ws" => some 80
  | "https" | "wss" => some 443
  | _ => none

def readPort (scheme portNumber : List Char) : Except UrlFault (Option Int) :=
  if portNumber.isEmpty then .ok none
  else match integer? portNumber with
    | some n => .ok (if usualPort? scheme = some n then none else some n)
    | none => .error (.badPort (String.ofList portNumber))

def looksNumeric (host : List Char) : Bool :=
  go 3 host
where
  /-- Digits, and as often as `left` says one character and digits again. -/
  go : Nat → List Char → Bool
    | 0, text => !text.isEmpty && text.all Char.isDigit
    | left + 1, text =>
      (List.range text.length).any fun n =>
        0 < n && (text.take n).all Char.isDigit && go left (text.drop (n + 1))

/-- Whether a host is a numeric address: four numbers below 256 without leading zeros. -/
def isAddress (host : List Char) : Bool :=
  let numbers := pieces (· == '.') host
  numbers.length == 4 && numbers.all fun digits =>
    !digits.isEmpty && digits.all Char.isDigit && digits.length ≤ 3 &&
      Number.digitsValue digits < 256 && (digits.length == 1 || digits.head? != some '0')

def isGroup (digits : List Char) : Bool :=
  !digits.isEmpty && digits.length ≤ 4 && digits.all isHexDigit

/-- Whether groups are the eight of a long address. One gap, at which two colons meet, may stand
for any number of them; at the start and at the end of the address it leaves an empty text
behind. -/
def fillGroups (groups : List (List Char)) : Bool :=
  match (groups.drop 1).dropLast.findIdx? List.isEmpty with
  | none => groups.length == 8 && groups.all isGroup
  | some index =>
    let before := groups.take (index + 1)
    let after := groups.drop (index + 2)
    let given := (if before = [[]] then [] else before) ++ (if after = [[]] then [] else after)
    given.length < 8 && given.all isGroup

/-- Whether a host is a long address: groups between colons, of which the last two may be written
as a numeric address, and perhaps the name of a zone. -/
def isLongAddress (host : List Char) : Bool :=
  let (number, zone) := cutAt (· == '%') host
  let zoned := match behind '%' zone with
    | some name => !name.isEmpty && !name.contains '%'
    | none => true
  let parts := pieces (· == ':') number
  let last := parts.getLastD []
  zoned &&
    if last.contains '.' then isAddress last && fillGroups (parts.dropLast ++ [['0'], ['0']])
    else fillGroups parts

def readHost (host : List Char) : Except UrlFault (List Char) :=
  if host.isEmpty then .ok []
  else if looksNumeric host then
    if isAddress host then .ok host else .error (.address (String.ofList host))
  else if host.head? = some '[' && host.getLast? = some ']' then
    let inside := (host.drop 1).dropLast
    if isLongAddress inside then .ok inside else .error (.longAddress (String.ofList host))
  else if host.all (·.toNat < 0x80) then .ok (encode hostSafe (host.map Char.toLower))
  else .error (.host (String.ofList host))

def resolvePoints (segments : List (List Char)) : List (List Char) :=
  segments.foldl (fun kept segment =>
    if segment = ['.'] then kept
    else if segment = ['.', '.'] then
      if kept = [] ∨ kept = [[]] then kept else kept.dropLast
    else kept ++ [segment]) []

def normalPath (path : List Char) : List Char :=
  List.intercalate ['/'] (resolvePoints (pieces (· == '/') path))

def checkPath (path : List Char) (hasScheme hasAuthority : Bool) : Except UrlFault Unit :=
  if hasAuthority && !path.isEmpty && path.head? != some '/' then .error .detachedPath
  else if !hasScheme && !hasAuthority && ['/', '/'].isPrefixOf path then .error .doubleSlash
  else if !hasScheme && !hasAuthority && path.head? = some ':' then .error .leadingColon
  else .ok ()

/-- The number of characters that a URL and each of its parts may have. -/
def lengthLimit : Nat := 65536

def control? (text : List Char) : Option (Char × Nat) :=
  let index := text.findIdx fun c => c.toNat < 0x20 || c.toNat == 0x7F
  text[index]?.map (·, index)

/-- The parts of a URL as they are spelled. A host given by itself stands for that of the
authority. -/
structure Spelling where
  scheme : List Char
  authority : List Char
  path : List Char
  query : Option (List Char)
  fragment : Option (List Char)
  host : Option (List Char) := none

def cutParts (text : List Char) : Spelling :=
  let (scheme, rest) := cutScheme text
  let (authority, rest) := cutAuthority rest
  let (path, rest) := cutAt (fun c => c == '?' || c == '#') rest
  let (query, rest) := match behind '?' rest with
    | some rest => let (query, rest) := cutAt (· == '#') rest; (some query, rest)
    | none => (none, rest)
  { scheme, authority, path, query, fragment := behind '#' rest }

def ofSpelling (parts : Spelling) : Except UrlFault Url := do
  let (user, host, portNumber) := cutHost parts.authority
  let user := encode userSafe user
  let host ← readHost (parts.host.getD host)
  let portNumber ← readPort parts.scheme portNumber
  let hasScheme := !parts.scheme.isEmpty
  let hasAuthority := !user.isEmpty || !host.isEmpty || portNumber.isSome
  checkPath parts.path hasScheme hasAuthority
  let path := if hasScheme || hasAuthority then normalPath parts.path else parts.path
  return {
    scheme := String.ofList (parts.scheme.map Char.toLower)
    user := String.ofList user
    host := String.ofList host
    portNumber := portNumber
    path := String.ofList (encode pathSafe path)
    query := parts.query.map fun query => String.ofList (encode querySafe query)
    fragment := parts.fragment.map fun fragment => String.ofList (encode fragmentSafe fragment) }

def read (text : List Char) : Except UrlFault Url := do
  if lengthLimit < text.length then .error .tooLong
  match control? text with
  | some (c, index) => .error (.unprintable c index)
  | none => ofSpelling (cutParts text)

def spelling (url : Url) : Spelling where
  scheme := url.scheme.toList
  authority := url.authority.toList
  path := url.path.toList
  query := url.query.map String.toList
  fragment := url.fragment.map String.toList

/-- The parts that are there, under their names. -/
def Spelling.named (parts : Spelling) : List (String × List Char) :=
  [("scheme", parts.scheme), ("authority", parts.authority), ("path", parts.path)] ++
    (parts.query.map (Prod.mk "query")).toList ++
    (parts.fragment.map (Prod.mk "fragment")).toList ++ (parts.host.map (Prod.mk "host")).toList

/-- Whether the parts out of which a URL is put together may be parts of it. -/
def checkParts (parts : Spelling) : Except UrlFault Unit :=
  parts.named.forM fun (name, part) =>
    if lengthLimit < part.length then .error (.partTooLong name)
    else match control? part with
      | some (c, index) => .error (.unprintableIn name c index)
      | none => .ok ()

/-- The URL that a text spells, to which a request can go. A URL without a scheme and a host is
put together anew for that. -/
def ofString (text : String) : Except UrlFault Url := do
  let url ← read text.toList
  if !url.isAbsolute then checkParts url.target.spelling
  return url

end ApiClientGen.Web.Url
