import ApiClientGen.Proofs.OutputNames
import ApiClientGen.Proofs.RunSteps

/-!
Which requests a run sends. For a document that is kept there is none; for any other there is one
for its URL and then one for each location to which an answer sends it on. Nothing else that a run
does sends a request, and documents are asked for in the order of the listing.
-/
namespace ApiClientGen.RequestTrail

open Answers Generate KeptDocuments OutputFiles Run RunEffect RunSteps

variable {α β : Type} {client : Web.Client} {server : Web.Server} {cache : Path}
  {settings : Settings} {url : String} {first second earlier between later : List String}
  {world middle after : World}

/-- The requests that asking for a URL leads to: the one for it, as long as its answer sends it
on, the one for the next location, and so on. The latest stand first. -/
inductive Sent (client : Web.Client) (server : Web.Server) :
    List String → Web.Url → List String → Prop
  | asked {earlier : List String} {url : Web.Url} :
    Sent client server earlier url (url.text :: earlier)
  | sentOn {earlier later : List String} {url next : Web.Url} {response : Web.Response}
    {location : String} :
    client.followsRedirects = true → server earlier url.text = .response response →
      response.redirect? = some location → Web.nextUrl url location = .ok next →
        Sent client server (url.text :: earlier) next later →
          Sent client server earlier url later

/-- A document is asked for: nothing is sent, or the requests to which its URL leads. -/
def AskedFor (client : Web.Client) (server : Web.Server) (url : String)
    (earlier later : List String) : Prop :=
  later = earlier ∨ ∃ target, Web.Url.ofString url = .ok target ∧
    Sent client server earlier target.target later

/-- The documents at some URLs are asked for, one after the other, and no other one is. -/
def AskedInTurn (client : Web.Client) (server : Web.Server) :
    List String → List String → List String → Prop
  | [], earlier, later => later = earlier
  | url :: rest, earlier, later => ∃ between,
    AskedFor client server url earlier between ∧ AskedInTurn client server rest between later

theorem AskedInTurn.append (h : AskedInTurn client server first earlier between)
    (hnext : AskedInTurn client server second between later) :
    AskedInTurn client server (first ++ second) earlier later := by
  induction first generalizing earlier with
  | nil =>
    cases h
    exact hnext
  | cons url rest ih =>
    obtain ⟨asked, hurl, hrest⟩ := h
    exact ⟨asked, hurl, ih hrest⟩

/-- From one world to another the documents at some URLs are asked for, at the same server. -/
structure Asks (client : Web.Client) (urls : List String) (before after : World) : Prop where
  server_eq : after.server = before.server
  asked : AskedInTurn client before.server urls before.requests after.requests

theorem Asks.append (h : Asks client first world middle)
    (hnext : Asks client second middle after) : Asks client (first ++ second) world after := by
  refine ⟨hnext.server_eq.trans h.server_eq, h.asked.append ?_⟩
  rw [← h.server_eq]
  exact hnext.asked

/-- Nothing is asked for as long as neither server nor requests change. -/
theorem asks_nil (hserver : after.server = world.server)
    (hrequests : after.requests = world.requests) : Asks client [] world after :=
  ⟨hserver, hrequests⟩

theorem lasting_asks_nil (client : Web.Client) : Lasting (Asks client []) :=
  ⟨Asks.append, fun _ _ _ => asks_nil rfl rfl⟩

/-- From one world to another at most files change. -/
def FilesOnly (before after : World) : Prop :=
  ∃ files, after = { before with files := files }

section FilesOnly

theorem carried_filesOnly : Carried FilesOnly := by
  refine ⟨fun world => ⟨world.files, rfl⟩, ?_⟩
  rintro first second third ⟨_, rfl⟩ ⟨files, rfl⟩
  exact ⟨files, rfl⟩

theorem FilesOnly.asks_nil (h : FilesOnly world after) : Asks client [] world after := by
  obtain ⟨_, rfl⟩ := h
  exact ⟨rfl, rfl⟩

theorem leaves_make (path : Path) : Leaves FilesOnly (ensureDirectories path) := by
  intro world outcome after hends
  rw [ends_ensureDirectories_iff] at hends
  exact ⟨_, (ends_ofExcept_iff.mp hends).2⟩

theorem leaves_writeFile (path : Path) (content : ByteArray) :
    Leaves FilesOnly (writeFile path content) := by
  intro world outcome after hends
  cases outcome with
  | error failure => exact ⟨world.files, eq_of_writeFile_error hends⟩
  | ok value =>
    obtain ⟨changed, -, rfl⟩ := ends_writeFile_ok_iff.mp hends
    exact ⟨changed, rfl⟩

theorem leaves_text (path : Path) (text : String) : Leaves FilesOnly (writeText path text) := by
  have hR := carried_filesOnly
  refine hR.leaves_bind (leaves_make path.parent) fun _ => ?_
  exact hR.leaves_bind (leaves_writeFile path text.toUTF8) fun _ => hR.leaves_pure _

theorem leaves_keep (cache : Path) (url : String) (body : ByteArray) :
    Leaves FilesOnly (Cache.write cache url body) := by
  have hR := carried_filesOnly
  refine hR.leaves_bind (leaves_make cache) fun _ => ?_
  exact hR.leaves_bind (leaves_writeFile _ body) fun _ => hR.leaves_pure _

theorem leaves_lookUp (cache : Path) (url : String) :
    Leaves FilesOnly (Cache.read cache url) := by
  have hR := carried_filesOnly
  refine hR.leaves_bind (hR.leaves_look _) fun isFile => ?_
  cases isFile with
  | true => exact hR.leaves_bind (hR.leaves_look _) fun body => hR.leaves_pure _
  | false => exact hR.leaves_pure _

theorem leaves_start (settings : Settings) : Leaves FilesOnly (prepare settings) :=
  leaves_prepare carried_filesOnly leaves_make (leaves_text _ _)

/-- Writing what a resource gives sends no request. -/
theorem leaves_ofResource (settings : Settings) (resource : Resource) :
    Leaves (Asks client []) (writeResource settings resource) :=
  leaves_writeResource (lasting_asks_nil client).reports fun _ _ =>
    (leaves_text _ _).mono FilesOnly.asks_nil

end FilesOnly

section Fetch

/-- A single request is sent whatever comes of it, and nothing else changes. -/
theorem world_of_ask {target : Web.Url} {outcome : Except Failure (Web.Response × Option Web.Url)}
    (h : Ends (Web.ask client target) world outcome after) :
    after = { world with requests := target.text :: world.requests } := by
  rcases ends_bind_iff.mp h with ⟨failure, hfails, -⟩ | ⟨response, sent, hrequest, hrest⟩
  · exact world_of_request hfails
  rw [← world_of_request hrequest]
  cases hredirect : response.redirect? with
  | none =>
    rw [hredirect] at hrest
    exact (ends_pure_iff.mp hrest).2
  | some location =>
    rw [hredirect] at hrest
    rcases ends_bind_iff.mp hrest with ⟨failure, hfails, -⟩ | ⟨next, last, hnext, hrest⟩
    · exact (ends_ofExcept_iff.mp hfails).2
    · rw [(ends_pure_iff.mp hrest).2, (ends_ofExcept_iff.mp hnext).2]

theorem sent_of_ask {target : Web.Url} {outcome : Except Failure (Web.Response × Option Web.Url)}
    (h : Ends (Web.ask client target) world outcome after) :
    ∃ later, after = { world with requests := later } ∧
      Sent client world.server world.requests target later :=
  ⟨_, world_of_ask h, .asked⟩

theorem sent_of_follow {left : Nat} {target : Web.Url}
    {outcome : Except Failure (Web.Url × Web.Response)}
    (h : Ends (Web.follow client left target) world outcome after) :
    ∃ later, after = { world with requests := later } ∧
      Sent client world.server world.requests target later := by
  induction left generalizing world target with
  | zero =>
    rcases ends_bind_iff.mp h with ⟨_, hfails, -⟩ | ⟨⟨response, _ | next⟩, asked, hask, hrest⟩
    · exact sent_of_ask hfails
    · obtain ⟨-, rfl⟩ := ends_pure_iff.mp hrest
      exact sent_of_ask hask
    · obtain ⟨-, rfl⟩ := ends_throw_iff.mp hrest
      exact sent_of_ask hask
  | succ left ih =>
    rcases ends_bind_iff.mp h with ⟨_, hfails, -⟩ | ⟨⟨response, _ | next⟩, asked, hask, hrest⟩
    · exact sent_of_ask hfails
    · obtain ⟨-, rfl⟩ := ends_pure_iff.mp hrest
      exact sent_of_ask hask
    · obtain ⟨hserver, rfl, hnext⟩ := ends_ask_ok hask
      obtain ⟨hfollows, location, hlocation, htarget⟩ := hnext next rfl
      obtain ⟨later, rfl, hsent⟩ := ih hrest
      exact ⟨later, rfl, .sentOn hfollows hserver hlocation htarget hsent⟩

/-- Getting a body changes nothing but the list of requests, by those to which its URL leads. -/
theorem askedFor_of_getBody {outcome : Except Failure ByteArray}
    (h : Ends (Web.getBody client url) world outcome after) :
    ∃ later, after = { world with requests := later } ∧
      AskedFor client world.server url world.requests later := by
  rcases ends_bind_iff.mp h with ⟨_, hfails, -⟩ | ⟨target, opened, hopen, hrest⟩
  · rw [(ends_ofExcept_iff.mp hfails).2]
    exact ⟨world.requests, rfl, Or.inl rfl⟩
  obtain ⟨hurl, rfl⟩ := ends_ofExcept_ok_iff.mp hopen
  have hlater {outcome : Except Failure (Web.Url × Web.Response)} {last : World}
      (hfollow : Ends (Web.follow client Web.redirectLimit target.target) opened outcome last) :
      ∃ later, last = { opened with requests := later } ∧
        AskedFor client opened.server url opened.requests later := by
    obtain ⟨later, hlast, hsent⟩ := sent_of_follow hfollow
    exact ⟨later, hlast, Or.inr ⟨target, hurl, hsent⟩⟩
  rcases ends_bind_iff.mp hrest with ⟨_, hfails, -⟩ | ⟨answer, answered, hanswer, hrest⟩
  · exact hlater hfails
  rcases ends_bind_iff.mp hrest with ⟨_, hfails, -⟩ | ⟨response, checked, hcheck, hrest⟩
  · obtain ⟨-, rfl⟩ := ends_ofExcept_iff.mp hfails
    exact hlater hanswer
  · obtain ⟨-, rfl⟩ := ends_pure_iff.mp hrest
    obtain ⟨-, rfl⟩ := ends_ofExcept_ok_iff.mp hcheck
    exact hlater hanswer

/-- A document that has to be asked for need not be. -/
theorem Asks.one (h : Asks client [] world after) (url : String) :
    Asks client [url] world after :=
  ⟨h.server_eq, after.requests, Or.inl h.asked, rfl⟩

theorem leaves_before {action : Run α} {next : α → Run β} (h : Leaves (Asks client []) action)
    (hnext : ∀ value, Leaves (Asks client [url]) (next value)) :
    Leaves (Asks client [url]) (action >>= next) := by
  intro world outcome after hends
  rcases ends_bind_iff.mp hends with ⟨failure, hfails, -⟩ | ⟨first, between, hfirst, hrest⟩
  · exact (h hfails).one url
  · exact (h hfirst).append (hnext first hrest)

theorem leaves_behind {action : Run α} {next : α → Run β} (h : Leaves (Asks client [url]) action)
    (hnext : ∀ value, Leaves (Asks client []) (next value)) :
    Leaves (Asks client [url]) (action >>= next) := by
  intro world outcome after hends
  rcases ends_bind_iff.mp hends with ⟨failure, hfails, -⟩ | ⟨first, between, hfirst, hrest⟩
  · exact h hfails
  · exact (h hfirst).append (hnext first hrest)

theorem leaves_getBody (client : Web.Client) (url : String) :
    Leaves (Asks client [url]) (Web.getBody client url) := by
  intro world outcome after hends
  obtain ⟨later, rfl, hasked⟩ := askedFor_of_getBody hends
  exact ⟨rfl, later, hasked, rfl⟩

/-- Fetching a document asks for it alone, whatever comes of it. -/
theorem leaves_json (cache : Path) (client : Web.Client) (url : String) :
    Leaves (Asks client [url]) (Fetch.json cache client url) := by
  have hR := lasting_asks_nil client
  refine leaves_before ((leaves_lookUp cache url).mono FilesOnly.asks_nil) fun found => ?_
  cases found with
  | some body => exact fun _ _ _ hends => (leaves_ofExcept hR id _ hends).one url
  | none =>
    refine leaves_before (leaves_printLine hR _) fun _ => ?_
    refine leaves_behind (leaves_getBody client url) fun body => ?_
    refine (leaves_ofExcept hR id _).bind hR fun value => ?_
    exact ((leaves_keep cache url body).mono FilesOnly.asks_nil).bind hR fun _ => leaves_pure hR _

theorem leaves_listing (cache : Path) (client : Web.Client) (root : String) :
    Leaves (Asks client [root]) (Fetch.listing cache client root) :=
  leaves_behind (leaves_json cache client root) fun _ =>
    leaves_ofExcept (lasting_asks_nil client) id _

theorem leaves_resource (cache : Path) (client : Web.Client) (root : String) (listing : Listing)
    (entry : ListingEntry) :
    Leaves (Asks client [Fetch.entryUrl root listing entry])
      (Fetch.resource cache client root listing entry) := by
  have hR := lasting_asks_nil client
  refine leaves_before (leaves_printLine hR _) fun _ => ?_
  refine leaves_behind (leaves_json cache client _) fun value => ?_
  exact (leaves_ofExcept hR id _).bind hR fun found => leaves_pure hR _

/-- Entries are asked for in their order. -/
theorem asks_of_writeResources {listing : Listing} {entries : List ListingEntry}
    {found : List Path × List Resource}
    (h : Ends (writeResources settings cache client listing entries) world (.ok found) after) :
    Asks client (entries.map (Fetch.entryUrl settings.url listing)) world after := by
  induction entries generalizing world found with
  | nil =>
    obtain ⟨-, rfl⟩ := ends_pure_iff.mp h
    exact asks_nil rfl rfl
  | cons entry rest ih =>
    obtain ⟨resource, fetched, written, wrote, others, hfetch, hwrite, hothers, -⟩ :=
      ends_writeResources_cons_iff.mp h
    have hfirst := leaves_resource cache client settings.url listing entry hfetch
    have hnothing : Asks client [] fetched wrote := leaves_ofResource settings resource hwrite
    exact hfirst.append (hnothing.append (ih hothers))

end Fetch

end ApiClientGen.RequestTrail
