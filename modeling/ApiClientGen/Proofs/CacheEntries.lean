import ApiClientGen.Proofs.OutputNames
import ApiClientGen.Proofs.RunSteps

/-!
What a cache directory holds in the course of several calls that share it. An entry is a file that
stands directly in the directory, under the key of a URL. Whatever the calls are and however they
end, they add documents that can be read and that the server gave, and they change none: a
document is read before it is kept, it is kept only where none is, and no other file of the
program is ever an entry.

A path such as `a/../b` leads to `b` only once `a` is there, and keeping a document makes `a`. So
an entry is safe from the start only if the path of its directory leads there from the start.
-/
namespace ApiClientGen.CacheEntries

open Answers FilePlaces FileTree Generate KeptDocuments OutputFiles OutputNames Run RunEffect
  RunSteps

variable {cache : Path} {url : String} {body : ByteArray}

/-- A document stands in the directory of a cache under the key of a URL. -/
def Entry (cache : Path) (tree : FileTree) (url : String) (body : ByteArray) : Prop :=
  Cache.key url ≠ "" ∧ tree.node? (tree.placeOf cache ++ [Cache.key url]) = some (.file body)

def Readable (body : ByteArray) : Prop :=
  ∃ value, Json.ofBytes body = .ok value

/-- If there are entries, the path of the cache leads to their directory. -/
def Reached (cache : Path) (tree : FileTree) : Prop :=
  ∀ url body, Entry cache tree url body → tree.isDirectory cache = .ok true

section Grows

variable {written : Set FilePlace} {before after : FileTree}

/-- An entry whose directory is reached is seen, provided that its path can be followed at all. -/
theorem isFile_of_entry (hentry : Entry cache before url body)
    (hdirectory : before.isDirectory cache = .ok true) {content : ByteArray}
    (hread : after.read (Cache.pathFor cache url) = .ok content) :
    before.isFile (Cache.pathFor cache url) = .ok true := by
  obtain ⟨hkey, hnode⟩ := hentry
  obtain ⟨hresolve, hdir⟩ := isDirectory_eq_true_iff.mp hdirectory
  have hlater := (read_eq_ok_iff.mp hread).1
  rw [placeOf_pathFor after cache hkey, resolve_pathFor_eq_ok_iff hkey] at hlater
  obtain ⟨hnul, hshort, hname, -, -⟩ := hlater
  rw [isFile_eq_true_iff, placeOf_pathFor before cache hkey, resolve_pathFor_eq_ok_iff hkey]
  exact ⟨⟨hnul, hshort, hname, (resolve_eq_ok_iff.mp hresolve).2.2, hdir⟩, body, hnode⟩

/-- Entries stay and come only where something is written. -/
theorem entry_iff_of_grows (h : Grows written before after)
    (hplace : before.placeOf cache ++ [Cache.key url] ∉ written) :
    Entry cache after url body ↔ Entry cache before url body := by
  rw [Entry, Entry, h.placeOf_eq]
  refine and_congr_right fun _ => ?_
  rcases h.cases_node (before.placeOf cache ++ [Cache.key url]) with
    hsame | ⟨hnone, hdir⟩ | ⟨hmem, -⟩
  · rw [hsame]
  · simp [hnone, hdir]
  · exact absurd hmem hplace

end Grows

/-- What a call with one of some clients does to the entries: none is changed, and those that are
added can be read and were obtained from the server. -/
structure Secures (cache : Path) (clients : Set Web.Client) (before after : World) : Prop where
  acts : Acts Set.univ before after
  reached : Reached cache before.files → Reached cache after.files
  kept : Reached cache before.files → ∀ url body,
    Entry cache before.files url body → Entry cache after.files url body
  added : ∀ url body, Entry cache after.files url body → Entry cache before.files url body ∨
    Readable body ∧ ∃ client ∈ clients, ∃ other, Cache.key other = Cache.key url ∧
      Obtained after client other body

section Secures

variable {client : Web.Client} {clients more : Set Web.Client} {world between after : World}
  {written : Set FilePlace}

theorem Secures.mono (h : Secures cache clients world after) (hsub : clients ⊆ more) :
    Secures cache more world after := by
  refine ⟨h.acts, h.reached, h.kept, ?_⟩
  intro url body hentry
  rcases h.added url body hentry with hold | ⟨hreadable, client, hclient, hobtained⟩
  · exact Or.inl hold
  · exact Or.inr ⟨hreadable, client, hsub hclient, hobtained⟩

theorem Secures.trans (h : Secures cache clients world between)
    (hnext : Secures cache clients between after) : Secures cache clients world after := by
  refine ⟨(lasting_acts _).trans h.acts hnext.acts,
    fun hreached => hnext.reached (h.reached hreached), ?_, ?_⟩
  · intro hreached url body hentry
    exact hnext.kept (h.reached hreached) url body (h.kept hreached url body hentry)
  · intro url body hentry
    rcases hnext.added url body hentry with hold | hnew
    · rcases h.added url body hold with hfirst | ⟨hreadable, client, hclient, other, hkey, hgiven⟩
      · exact Or.inl hfirst
      · exact Or.inr ⟨hreadable, client, hclient, other, hkey, hgiven.later hnext.acts⟩
    · exact Or.inr hnew

/-- What writes no entry leaves all of them as they are. -/
theorem secures_of_acts (h : Acts written world after)
    (hplaces : ∀ url, Cache.key url ≠ "" →
      world.files.placeOf (Cache.pathFor cache url) ∉ written) :
    Secures cache clients world after := by
  have hentries : ∀ url body,
      Entry cache after.files url body ↔ Entry cache world.files url body := by
    intro url body
    by_cases hkey : Cache.key url = ""
    · simp [Entry, hkey]
    · apply entry_iff_of_grows h.grows
      rw [← placeOf_pathFor world.files cache hkey]
      exact hplaces url hkey
  refine ⟨h.mono (Set.subset_univ written), ?_, ?_, ?_⟩
  · intro hreached url body hentry
    exact h.grows.isDirectory (hreached url body ((hentries url body).mp hentry))
  · exact fun _ url body => (hentries url body).mpr
  · exact fun url body hentry => Or.inl ((hentries url body).mp hentry)

/-- Where nothing is written, every entry stays. -/
theorem secures_of_acts_empty (h : Acts ∅ world after) : Secures cache clients world after :=
  secures_of_acts h fun _ _ => Set.notMem_empty _

theorem lasting_secures (cache : Path) (clients : Set Web.Client) :
    Lasting (Secures cache clients) := by
  refine ⟨Secures.trans, ?_⟩
  intro world stdout stderr
  exact secures_of_acts_empty ((lasting_acts ∅).printed world stdout stderr)

/-- A document that is kept becomes an entry of its own; it takes the place of another entry only
if the path of the cache did not lead to that one. -/
theorem secures_of_stored (h : Stored cache client url body world after)
    (hclient : client ∈ clients) : Secures cache clients world after := by
  have hgrows := h.acts.grows
  have hother : ∀ {other : String}, Cache.key other ≠ Cache.key url →
      world.files.placeOf cache ++ [Cache.key other] ∉
        ({world.files.placeOf (Cache.pathFor cache url)} : Set FilePlace) := by
    intro other hne hmem
    rw [placeOf_pathFor world.files cache h.key_ne, Set.mem_singleton_iff] at hmem
    exact hne (by simpa using hmem)
  refine ⟨h.acts.mono (Set.subset_univ _), fun _ _ _ _ => h.directory, ?_, ?_⟩
  · intro hreached other content hentry
    by_cases hkey : Cache.key other = Cache.key url
    · -- the directory was reached, so this entry would have been found
      have hpath : Cache.pathFor cache url = Cache.pathFor cache other := by
        rw [Cache.pathFor, Cache.pathFor, hkey]
      have hread := h.read_eq
      have hmissing := h.missing
      rw [hpath] at hread hmissing
      rw [isFile_of_entry hentry (hreached other content hentry) hread] at hmissing
      cases hmissing
    · exact (entry_iff_of_grows hgrows (hother hkey)).mpr hentry
  · intro other content hentry
    by_cases hkey : Cache.key other = Cache.key url
    · have hnode := (read_eq_ok_iff.mp h.read_eq).2
      rw [placeOf_pathFor after.files cache h.key_ne, ← hkey, hentry.2] at hnode
      cases hnode
      exact Or.inr ⟨h.readable, client, hclient, url, hkey.symm, h.obtained⟩
    · exact Or.inl ((entry_iff_of_grows hgrows (hother hkey)).mp hentry)

theorem leaves_fetch (hclient : client ∈ clients) (url : String) :
    Leaves (Secures cache clients) (Fetch.json cache client url) :=
  leaves_json_of (lasting_secures cache clients) secures_of_acts_empty
    fun hstored => secures_of_stored hstored hclient

/-- No generated file is an entry. -/
theorem leaves_writeText {path : Path} (text : String) (h : IsOutput path) :
    Leaves (Secures cache clients) (writeText path text) := by
  intro world outcome after hends
  apply secures_of_acts (acts_of_writeText hends)
  intro url hkey hmem
  have hplace := outputPlace_placeOf world.files h
  rw [← Set.mem_singleton_iff.mp hmem] at hplace
  exact not_outputPlace_pathFor world.files cache hkey hplace

end Secures

inductive Call
  | fetch (client : Web.Client) (url : String)
  | load (client : Web.Client) (root : String)
  | generate (client : Web.Client) (settings : Settings)

namespace Call

def client : Call → Web.Client
  | fetch client _ | load client _ | generate client _ => client

def action (cache : Path) : Call → Run Unit
  | fetch client url => do let _ ← Fetch.json cache client url
  | load client root => do let _ ← Fetch.load cache client root
  | generate client settings => do let _ ← runWith settings cache client

def perform (cache : Path) (world : World) (call : Call) : World :=
  ((call.action cache).run.run world).2

def performAll (cache : Path) (world : World) (calls : List Call) : World :=
  calls.foldl (perform cache) world

theorem performAll_append (cache : Path) (world : World) (first second : List Call) :
    performAll cache world (first ++ second) =
      performAll cache (performAll cache world first) second :=
  List.foldl_append

end Call

variable {clients : Set Web.Client}

/-- Each kind of call is safe for the entries. -/
theorem leaves_action (cache : Path) {call : Call} (hclient : call.client ∈ clients) :
    Leaves (Secures cache clients) (call.action cache) := by
  have hR := lasting_secures cache clients
  cases call with
  | fetch client url => exact (leaves_fetch hclient url).bind hR fun _ => leaves_pure hR _
  | load client root =>
    exact (leaves_load hR.prints (leaves_fetch hclient) root).bind hR fun _ => leaves_pure hR _
  | generate client settings =>
    have hmake : ∀ path, Leaves (Secures cache clients) (ensureDirectories path) :=
      fun path _ _ _ hends => secures_of_acts_empty (leaves_ensureDirectories path hends)
    have htext : ∀ resources, ∀ draft ∈ drafts settings resources,
        Leaves (Secures cache clients) (writeText draft.1 draft.2) :=
      fun _ draft hmem => leaves_writeText draft.2 (isOutput_of_mem_drafts hmem)
    have hrun := leaves_runWith hR.reports hmake (leaves_fetch hclient) htext
    exact hrun.bind hR fun _ => leaves_pure hR _

theorem secures_perform (cache : Path) (world : World) {call : Call}
    (hclient : call.client ∈ clients) :
    Secures cache clients world (call.perform cache world) :=
  leaves_action cache hclient rfl

/-- The entries are as safe across many calls as they are across one. -/
theorem secures_performAll (cache : Path) (world : World) (calls : List Call) :
    Secures cache {client | ∃ call ∈ calls, call.client = client} world
      (Call.performAll cache world calls) := by
  induction calls using List.reverseRecOn with
  | nil => exact (lasting_secures cache _).refl world
  | append_singleton calls call ih =>
    rw [Call.performAll_append]
    have hsub : {client | ∃ call ∈ calls, call.client = client} ⊆
        {client | ∃ other ∈ calls ++ [call], other.client = client} := by
      rintro client ⟨earlier, hmem, hclient⟩
      exact ⟨earlier, List.mem_append_left _ hmem, hclient⟩
    exact (ih.mono hsub).trans (secures_perform cache _ ⟨call, by simp, rfl⟩)

/-- A document that cannot be had changes no entry. -/
theorem entry_iff_of_json_error {client : Web.Client} {world after : World} {failure : Failure}
    (h : Ends (Fetch.json cache client url) world (.error failure) after) (other : String)
    (content : ByteArray) :
    Entry cache after.files other content ↔ Entry cache world.files other content := by
  rcases ends_json_cases h with ⟨_, -, hacts⟩ | ⟨value, body, hvalue, -⟩
  · exact entry_iff_of_grows hacts.grows (Set.notMem_empty _)
  · cases hvalue

/-- However calls with a shared cache follow one another and however each ends: entries can be
read if they could at the start; each is kept as it is; those that a call adds are bodies of
successes at which a request for a URL with their key ended; and fetching a document in vain
changes none. -/
theorem entries_safe_across_calls (cache : Path) (world : World)
    (hreached : Reached cache world.files)
    (hreadable : ∀ url body, Entry cache world.files url body → Readable body)
    (first second : List Call) :
    (∀ url body, Entry cache (Call.performAll cache world first).files url body → Readable body) ∧
    (∀ url body, Entry cache (Call.performAll cache world first).files url body →
      Entry cache (Call.performAll cache world (first ++ second)).files url body) ∧
    (∀ url body, Entry cache (Call.performAll cache world (first ++ second)).files url body →
      Entry cache (Call.performAll cache world first).files url body ∨
        ∃ call ∈ second, ∃ other, Cache.key other = Cache.key url ∧
          Obtained (Call.performAll cache world (first ++ second)) call.client other body) ∧
    ∀ client url failure after,
      Ends (Fetch.json cache client url) (Call.performAll cache world first) (.error failure)
        after → ∀ other body, Entry cache after.files other body ↔
          Entry cache (Call.performAll cache world first).files other body := by
  have hbefore := secures_performAll cache world first
  have hafter := secures_performAll cache (Call.performAll cache world first) second
  rw [← Call.performAll_append] at hafter
  refine ⟨?_, hafter.kept (hbefore.reached hreached), ?_, ?_⟩
  · intro url body hentry
    rcases hbefore.added url body hentry with hold | ⟨hnew, -⟩
    · exact hreadable url body hold
    · exact hnew
  · intro url body hentry
    rcases hafter.added url body hentry with hold | ⟨-, _, ⟨call, hmem, rfl⟩, hobtained⟩
    · exact Or.inl hold
    · exact Or.inr ⟨call, hmem, hobtained⟩
  · intro client url failure after hends
    exact entry_iff_of_json_error hends

/-- A directory `b` with one entry. -/
def shelf : FileTree where
  here := []
  nodes := ⟨[(["b"], .directory), (["b", "httpb"], .file "\x7b\x7d".toUTF8)], by decide⟩

/-- A server that sends requests for `http://a` on to `http://b`. -/
def sendingOn : Web.Server := fun _ url =>
  if url = "http://a" then .response ⟨302, some "http://b", ByteArray.empty⟩
  else .response ⟨200, none, "[]".toUTF8⟩

def shelfWorld : World where
  files := shelf
  server := sendingOn

def direct : Path := ⟨.here, ["b"]⟩

/-- A path that leads to the directory once there is another one beside it. -/
def roundabout : Path := ⟨.here, ["a", "..", "b"]⟩

theorem eq_of_entry_shelf (hplace : shelf.placeOf cache = ["b"])
    (h : Entry cache shelf url body) : body = "\x7b\x7d".toUTF8 := by
  have hnode := h.2
  rw [hplace, List.singleton_append, node?, if_neg (List.cons_ne_nil _ _)] at hnode
  have hmem := Entries.mem_of_find?_eq_some hnode
  simp only [shelf, List.mem_cons, Prod.mk.injEq, reduceCtorEq, and_false, Node.file.injEq,
    List.not_mem_nil, or_false, false_or] at hmem
  exact hmem.2

set_option maxRecDepth 10000 in
theorem readable_of_entry_shelf (hplace : shelf.placeOf cache = ["b"])
    (h : Entry cache shelf url body) : Readable body := by
  rw [eq_of_entry_shelf hplace h]
  exact ⟨.object [], by cbv⟩

/-- Both fetches succeed; the second finds its document, and the first adds what the server gives
in answer to the request that is sent on. -/
theorem entries_safe_on_shelf :
    Reached direct shelf ∧ (∀ url body, Entry direct shelf url body → Readable body) ∧
    Entry direct (Call.performAll direct shelfWorld
      [.fetch ⟨true⟩ "http://a", .fetch ⟨false⟩ "http://b"]).files "http://b"
        "\x7b\x7d".toUTF8 ∧
    ∀ url body, Entry direct (Call.performAll direct shelfWorld
        [.fetch ⟨true⟩ "http://a", .fetch ⟨false⟩ "http://b"]).files url body →
      Entry direct shelf url body ∨
        ∃ call ∈ [Call.fetch ⟨true⟩ "http://a", Call.fetch ⟨false⟩ "http://b"], ∃ other,
          Cache.key other = Cache.key url ∧ Obtained (Call.performAll direct shelfWorld
            [.fetch ⟨true⟩ "http://a", .fetch ⟨false⟩ "http://b"]) call.client other body := by
  have hreached : Reached direct shelf := fun _ _ _ => by cbv
  have hreadable : ∀ url body, Entry direct shelf url body → Readable body :=
    fun _ _ => readable_of_entry_shelf rfl
  obtain ⟨-, hkept, hadded, -⟩ :=
    entries_safe_across_calls direct shelfWorld hreached hreadable []
    [.fetch ⟨true⟩ "http://a", .fetch ⟨false⟩ "http://b"]
  exact ⟨hreached, hreadable, hkept "http://b" _ ⟨by decide, by cbv⟩, hadded⟩

set_option maxRecDepth 10000 in
/-- Fetching `http://b` makes the directory `a`; only then does the path lead to the entry, which
is replaced. And with a client that is sent on, what is kept for `http://a` is not the body of any
success that answers a URL of that key. -/
theorem fetch_through_missing_directory_replaces_entry :
    (∀ url body, Entry roundabout shelf url body → Readable body) ∧
    Entry roundabout shelf "http://b" "\x7b\x7d".toUTF8 ∧
    ¬ Entry roundabout (Call.performAll roundabout shelfWorld
        [.fetch ⟨false⟩ "http://b"]).files "http://b" "\x7b\x7d".toUTF8 ∧
    ¬ Entry direct shelf "http://a" "[]".toUTF8 ∧
    Entry direct (Call.performAll direct shelfWorld
        [.fetch ⟨true⟩ "http://a"]).files "http://a" "[]".toUTF8 ∧
    ¬ ∃ other response, Cache.key other = Cache.key "http://a" ∧
        Answered (Call.performAll direct shelfWorld [.fetch ⟨true⟩ "http://a"]) other response ∧
          Web.isSuccess response.status = true := by
  refine ⟨fun _ _ => readable_of_entry_shelf rfl, ⟨by decide, by cbv⟩, ?_, ?_,
    ⟨by decide, by cbv⟩, ?_⟩
  · rintro ⟨-, hnode⟩
    have hnew : Entry roundabout (Call.performAll roundabout shelfWorld
        [.fetch ⟨false⟩ "http://b"]).files "http://b" "[]".toUTF8 := ⟨by decide, by cbv⟩
    have hbodies := hnew.2.symm.trans hnode
    revert hbodies
    decide
  · rintro ⟨-, hnode⟩
    revert hnode
    decide
  · rintro ⟨other, response, hkey, ⟨earlier, hsuffix, hserver⟩, hsuccess⟩
    have hrequests : (Call.performAll direct shelfWorld [.fetch ⟨true⟩ "http://a"]).requests =
        ["http://b", "http://a"] := by cbv
    rw [hrequests, List.suffix_cons_iff, List.suffix_cons_iff, List.suffix_nil] at hsuffix
    obtain hsent | hsent | hsent := hsuffix
    · obtain ⟨rfl, -⟩ := List.cons.inj hsent
      revert hkey
      decide
    · obtain ⟨rfl, -⟩ := List.cons.inj hsent
      have hsame := (secures_performAll direct shelfWorld
        [.fetch ⟨true⟩ "http://a"]).acts.server_eq
      have hanswer : shelfWorld.server earlier "http://a" =
        .response ⟨302, some "http://b", ByteArray.empty⟩ := rfl
      rw [hsame, hanswer] at hserver
      cases hserver
      revert hsuccess
      decide
    · cases hsent

end ApiClientGen.CacheEntries
