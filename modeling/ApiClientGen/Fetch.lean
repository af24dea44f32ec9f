import ApiClientGen.Cache
import ApiClientGen.Json.Document
import ApiClientGen.Schema.Decode
import ApiClientGen.Web.Client

/-!
Fetching the listing of a service and the resources that it names. A document that is kept in the
cache is not requested; one that is requested is read before it is kept, so that the cache holds
only documents that can be read.
-/
namespace ApiClientGen

namespace Fetch

def readDocument (url : String) (body : ByteArray) : Except Failure Json :=
  (Json.ofBytes body).mapError fun fault => .document url (.unreadable fault)

def readRecord {α : Type} (url : String) : Schema.Checked α → Except Failure α
  | .good record => .ok record
  | .bad violations => .error (.document url (.shape violations))

/-- The value of the document at a URL, from the cache if it is there. -/
def json (cache : Path) (client : Web.Client) (url : String) : Run Json := do
  match ← Cache.read cache url with
  | some body => Run.ofExcept id (readDocument url body)
  | none =>
    Run.printLine ("Request " ++ url)
    let body ← Web.getBody client url
    let value ← Run.ofExcept id (readDocument url body)
    let _ ← Cache.write cache url body
    return value

def listing (cache : Path) (client : Web.Client) (url : String) : Run Listing := do
  let value ← json cache client url
  Run.ofExcept id (readRecord url (Schema.readListing value))

/-- A path without its extension: what stands behind the last point of the last segment, provided
that the segment has something else than points before it. -/
def withoutExtension (path : String) : String :=
  let backward := path.toList.reverse
  let segment := backward.takeWhile (· ≠ '/')
  let extension := segment.takeWhile (· ≠ '.')
  match segment.drop extension.length with
  | '.' :: stem =>
    if stem.any (· ≠ '.') then String.ofList (backward.drop (extension.length + 1)).reverse
    else path
  | _ => path

def withoutSlashes (text : String) : String :=
  String.ofList (text.toList.reverse.dropWhile (· = '/')).reverse

/-- The URL of the resource of an entry: behind the base path of the listing or, when it has none,
behind the URL of the listing. -/
def entryUrl (root : String) (listing : Listing) (entry : ListingEntry) : String :=
  listing.basePath.getD (withoutSlashes root) ++ entry.path

def entryTitle (entry : ListingEntry) : String :=
  (nonempty? entry.description).getD entry.path

/-- A resource with a path: its own, or that of its entry without the extension. -/
def withPath (entry : ListingEntry) (resource : Resource) : Resource :=
  match nonempty? resource.resourcePath with
  | some _ => resource
  | none => { resource with resourcePath := some (withoutExtension entry.path) }

def resource (cache : Path) (client : Web.Client) (root : String) (listing : Listing)
    (entry : ListingEntry) : Run Resource := do
  Run.printLine ("Get schema for \"" ++ entryTitle entry ++ "\"")
  let url := entryUrl root listing entry
  let value ← json cache client url
  let found ← Run.ofExcept id (readRecord url (Schema.readResource value))
  return withPath entry found

def resources (cache : Path) (client : Web.Client) (root : String) (listing : Listing) :
    List ListingEntry → Run (List Resource)
  | [] => return []
  | entry :: rest => do
    let first ← resource cache client root listing entry
    let others ← resources cache client root listing rest
    return first :: others

def load (cache : Path) (client : Web.Client) (root : String) : Run (List Resource) := do
  let found ← listing cache client root
  resources cache client root found found.apis

end Fetch

/-- How far a listing was read: not yet, or up to the entries that are left. -/
inductive Progress
  | unopened
  | reading (listing : Listing) (left : List ListingEntry)

structure Cursor where
  cache : Path
  client : Web.Client
  root : String
  progress : Progress := .unopened

/-- The next resource and the cursor behind it; none at the end. -/
def Cursor.next (cursor : Cursor) : Run (Option (Resource × Cursor)) := do
  let (listing, left) ← match cursor.progress with
    | .unopened => do
      let listing ← Fetch.listing cursor.cache cursor.client cursor.root
      pure (listing, listing.apis)
    | .reading listing left => pure (listing, left)
  match left with
  | [] => return none
  | entry :: rest => do
    let resource ← Fetch.resource cursor.cache cursor.client cursor.root listing entry
    return some (resource, { cursor with progress := .reading listing rest })

end ApiClientGen
