import ApiClientGen.Proofs.RequestTrail

/-!
The documents that a computation gets when it ends well. A document that is kept already is read
where it lies, and nothing happens. Any other one is requested, with all the locations to which
its URL leads, and from then on it is kept. So a computation that ends well has requested the
documents of some URLs, one after the other, and has written where these are kept.
-/
namespace ApiClientGen.FetchedDocuments

open FileTree KeptDocuments RequestTrail Run RunEffect

variable {cache : Path} {client : Web.Client} {server : Web.Server} {url : String} {value : Json}
  {first second urls earlier between later : List String} {others more : Set FilePlace}
  {world middle after : World}

/-- The documents at some URLs are requested, one after the other, and nothing else is. -/
inductive GotInTurn (client : Web.Client) (server : Web.Server) :
    List String → List String → List String → Prop
  | done {requests : List String} : GotInTurn client server [] requests requests
  | got {url : String} {target : Web.Url} {rest earlier between later : List String} :
    Web.Url.ofString url = .ok target → Sent client server earlier target.target between →
      GotInTurn client server rest between later →
        GotInTurn client server (url :: rest) earlier later

section GotInTurn

theorem GotInTurn.append (h : GotInTurn client server first earlier between)
    (hnext : GotInTurn client server second between later) :
    GotInTurn client server (first ++ second) earlier later := by
  induction h with
  | done => exact hnext
  | got hurl hsent _ ih => exact .got hurl hsent (ih hnext)

/-- A client that goes nowhere else sends one request for each document. -/
theorem GotInTurn.requests_eq (hstays : client.followsRedirects = false)
    (h : GotInTurn client server urls earlier later) :
    ∃ targets, List.Forall₂ (fun url target => Web.Url.ofString url = .ok target) urls targets ∧
      later = (targets.map fun target => target.target.text).reverse ++ earlier := by
  induction h with
  | done => exact ⟨[], .nil, rfl⟩
  | @got url target _ _ _ _ hurl hsent _ ih =>
    obtain ⟨targets, htargets, rfl⟩ := ih
    refine ⟨target :: targets, .cons hurl htargets, ?_⟩
    cases hsent with
    | asked => simp
    | sentOn hfollows =>
      rw [hstays] at hfollows
      cases hfollows

end GotInTurn

/-- The places at which the documents of some URLs are kept. -/
def placesFor (cache : Path) (tree : FileTree) (urls : List String) : Set FilePlace :=
  {place | ∃ url ∈ urls, place = tree.placeOf (Cache.pathFor cache url)}

/-- From one world to another the documents at some URLs are requested, and nothing is written but
where these are kept and at some other places. -/
structure Gets (cache : Path) (client : Web.Client) (others : Set FilePlace) (urls : List String)
    (before after : World) : Prop where
  acts : Acts (placesFor cache before.files urls ∪ others) before after
  got : GotInTurn client before.server urls before.requests after.requests

section Gets

theorem Gets.mono (h : Gets cache client others urls world after) (hsub : others ⊆ more) :
    Gets cache client more urls world after :=
  ⟨h.acts.mono (Set.union_subset_union_right _ hsub), h.got⟩

theorem Gets.append (h : Gets cache client others first world middle)
    (hnext : Gets cache client others second middle after) :
    Gets cache client others (first ++ second) world after := by
  have hplaces : placesFor cache middle.files second = placesFor cache world.files second := by
    simp only [placesFor, h.acts.grows.placeOf_eq]
  have hlater := hnext.acts
  rw [hplaces] at hlater
  refine ⟨(lasting_acts _).trans (h.acts.mono ?_) (hlater.mono ?_), h.got.append ?_⟩
  · apply Set.union_subset_union_left
    rintro place ⟨url, hurl, hplace⟩
    exact ⟨url, List.mem_append_left _ hurl, hplace⟩
  · apply Set.union_subset_union_left
    rintro place ⟨url, hurl, hplace⟩
    exact ⟨url, List.mem_append_right _ hurl, hplace⟩
  · rw [← h.acts.server_eq]
    exact hnext.got

theorem gets_nil (hacts : Acts others world after) (hrequests : after.requests = world.requests) :
    Gets cache client others [] world after := by
  refine ⟨hacts.mono Set.subset_union_right, ?_⟩
  rw [hrequests]
  exact .done

theorem lasting_gets_nil (cache : Path) (client : Web.Client) (others : Set FilePlace) :
    Lasting (Gets cache client others []) :=
  ⟨Gets.append, fun world stdout stderr =>
    gets_nil ((lasting_acts others).printed world stdout stderr) rfl⟩

end Gets

section Fetch

/-- A body that is had was requested. -/
theorem sent_of_getBody {body : ByteArray}
    (h : Ends (Web.getBody client url) world (.ok body) after) :
    ∃ target later, Web.Url.ofString url = .ok target ∧
      after = { world with requests := later } ∧
        Sent client world.server world.requests target.target later := by
  obtain ⟨target, opened, hopen, hrest⟩ := ends_bind_ok_iff.mp h
  obtain ⟨hurl, rfl⟩ := ends_ofExcept_ok_iff.mp hopen
  obtain ⟨answer, answered, hfollow, hrest⟩ := ends_bind_ok_iff.mp hrest
  obtain ⟨success, checked, hcheck, hpure⟩ := ends_bind_ok_iff.mp hrest
  obtain ⟨-, rfl⟩ := ends_ofExcept_ok_iff.mp hcheck
  obtain ⟨-, rfl⟩ := ends_pure_iff.mp hpure
  obtain ⟨later, hafter, hsent⟩ := sent_of_follow hfollow
  exact ⟨target, later, hurl, hafter, hsent⟩

/-- A document that is not kept is had by requests alone. -/
theorem sent_of_json (hmissing : world.files.isFile (Cache.pathFor cache url) = .ok false)
    (h : Ends (Fetch.json cache client url) world (.ok value) after) :
    ∃ target, Web.Url.ofString url = .ok target ∧
      Sent client world.server world.requests target.target after.requests := by
  obtain ⟨found, looked, hfound, hrest⟩ := ends_bind_ok_iff.mp h
  obtain ⟨rfl, hfound⟩ := ends_read_iff.mp hfound
  cases found with
  | some body =>
    rw [isFile_of_read hfound] at hmissing
    cases hmissing
  | none =>
    obtain ⟨_, printed, hprint, hrest⟩ := ends_bind_ok_iff.mp hrest
    obtain ⟨-, rfl⟩ := ends_printLine_iff.mp hprint
    obtain ⟨body, answered, hbody, hrest⟩ := ends_bind_ok_iff.mp hrest
    obtain ⟨target, later, hurl, rfl, hsent⟩ := sent_of_getBody hbody
    obtain ⟨found, checked, hcheck, hrest⟩ := ends_bind_ok_iff.mp hrest
    obtain ⟨-, rfl⟩ := ends_ofExcept_ok_iff.mp hcheck
    obtain ⟨path, kept, hkeep, hrest⟩ := ends_bind_ok_iff.mp hrest
    obtain ⟨-, rfl⟩ := ends_pure_iff.mp hrest
    obtain ⟨files, rfl⟩ := leaves_keep cache url body hkeep
    exact ⟨target, hurl, hsent⟩

/-- A document that is fetched was kept already and nothing happens, or it is the one that is
requested, and it is kept from then on. -/
theorem ends_json_ok_cases (h : Ends (Fetch.json cache client url) world (.ok value) after) :
    ∃ body, Fetch.readDocument url body = .ok value ∧
      (after = world ∧ world.files.read (Cache.pathFor cache url) = .ok body ∨
        Stored cache client url body world after ∧ Gets cache client ∅ [url] world after) := by
  rcases ends_json_cases h with ⟨failure, heq, -⟩ | ⟨_, body, heq, hvalue, hcases⟩
  · cases heq
  cases heq
  refine ⟨body, hvalue, hcases.imp_right fun hstored => ⟨hstored, ?_, ?_⟩⟩
  · refine hstored.acts.mono (Set.singleton_subset_iff.mpr (Or.inl ?_))
    exact ⟨url, List.mem_singleton_self url, rfl⟩
  · obtain ⟨target, hurl, hsent⟩ := sent_of_json hstored.missing h
    exact .got hurl hsent .done

/-- A document is requested once or not at all. -/
theorem exists_gets_of_json (h : Ends (Fetch.json cache client url) world (.ok value) after) :
    ∃ asked, asked.Sublist [url] ∧ Gets cache client ∅ asked world after := by
  obtain ⟨body, -, ⟨rfl, -⟩ | ⟨-, hgets⟩⟩ := ends_json_ok_cases h
  · exact ⟨[], List.nil_sublist _, (lasting_gets_nil cache client ∅).refl after⟩
  · exact ⟨[url], List.Sublist.refl _, hgets⟩

end Fetch

end ApiClientGen.FetchedDocuments
