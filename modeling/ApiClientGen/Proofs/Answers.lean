import ApiClientGen.Proofs.RunEffect

/-!
What the server answered in the course of a run. A request for a URL ends at a response: at the
one that the server gave or, if the client goes where that one sends it, at the one at which the
request for the next URL ends.
-/
namespace ApiClientGen.Answers

open Run RunEffect

variable {world after : World} {client : Web.Client} {url : Web.Url} {response : Web.Response}

/-- The server gave a response to one of the requests that were sent. -/
def Answered (world : World) (url : String) (response : Web.Response) : Prop :=
  ∃ earlier, (url :: earlier) <:+ world.requests ∧ world.server earlier url = .response response

/-- A request for a URL ends at a response that the server gave. -/
inductive EndsAt (world : World) (client : Web.Client) : Web.Url → Web.Response → Prop
  | answered {url : Web.Url} {response : Web.Response} :
    Answered world url.text response → EndsAt world client url response
  | sentOn {url next : Web.Url} {response last : Web.Response} {location : String} :
    client.followsRedirects = true → Answered world url.text response →
      response.redirect? = some location → Web.nextUrl url location = .ok next →
        EndsAt world client next last → EndsAt world client url last

/-- A document is the body of the success at which a request for a URL ended. -/
def Obtained (world : World) (client : Web.Client) (url : String) (body : ByteArray) : Prop :=
  ∃ target response, Web.Url.ofString url = .ok target ∧
    EndsAt world client target.target response ∧ Web.isSuccess response.status = true ∧
      response.body = body

section Acts

variable {written : Set FilePlace} (h : Acts written world after)
include h

theorem Answered.later {url : String} (hanswered : Answered world url response) :
    Answered after url response := by
  obtain ⟨earlier, hsuffix, hserver⟩ := hanswered
  refine ⟨earlier, hsuffix.trans h.requests_suffix, ?_⟩
  rw [h.server_eq]
  exact hserver

theorem EndsAt.later (hends : EndsAt world client url response) :
    EndsAt after client url response := by
  induction hends with
  | answered hanswered => exact .answered (hanswered.later h)
  | sentOn hfollows hanswered hlocation hnext _ ih =>
    exact .sentOn hfollows (hanswered.later h) hlocation hnext ih

theorem Obtained.later {url : String} {body : ByteArray}
    (hobtained : Obtained world client url body) : Obtained after client url body := by
  obtain ⟨target, response, hurl, hends, hsuccess, hbody⟩ := hobtained
  exact ⟨target, response, hurl, hends.later h, hsuccess, hbody⟩

end Acts

/-- A single request is answered, and the next URL is the one to which its answer sends it. -/
theorem ends_ask_ok {next : Option Web.Url}
    (h : Ends (Web.ask client url) world (.ok (response, next)) after) :
    world.server world.requests url.text = .response response ∧
      after = { world with requests := url.text :: world.requests } ∧
        ∀ further ∈ next, client.followsRedirects = true ∧
          ∃ location, response.redirect? = some location ∧
            Web.nextUrl url location = .ok further := by
  rw [Web.ask, ends_bind_ok_iff] at h
  obtain ⟨found, sent, hrequest, hrest⟩ := h
  obtain ⟨hserver, rfl⟩ := ends_request_ok_iff.mp hrequest
  cases hredirect : found.redirect? with
  | none =>
    simp only [hredirect, ends_pure_iff] at hrest
    obtain ⟨heq, rfl⟩ := hrest
    cases heq
    exact ⟨hserver, rfl, fun further hmem => by cases hmem⟩
  | some location =>
    simp only [hredirect, ends_bind_ok_iff, ends_ofExcept_ok_iff, ends_pure_iff] at hrest
    obtain ⟨target, _, ⟨hnext, rfl⟩, heq, rfl⟩ := hrest
    cases heq
    refine ⟨hserver, rfl, ?_⟩
    intro further hmem
    cases hfollows : client.followsRedirects with
    | false =>
      rw [hfollows, if_neg Bool.false_ne_true] at hmem
      cases hmem
    | true =>
      rw [hfollows, if_pos rfl] at hmem
      cases hmem
      exact ⟨rfl, location, hredirect, hnext⟩

theorem answered_of_ask {next : Option Web.Url}
    (h : Ends (Web.ask client url) world (.ok (response, next)) after) :
    Answered after url.text response := by
  obtain ⟨hserver, rfl, -⟩ := ends_ask_ok h
  exact ⟨world.requests, List.suffix_rfl, hserver⟩

theorem endsAt_of_follow {left : Nat} {answer : Web.Url × Web.Response}
    (h : Ends (Web.follow client left url) world (.ok answer) after) :
    EndsAt after client url answer.2 := by
  induction left generalizing world url with
  | zero =>
    rw [Web.follow, ends_bind_ok_iff] at h
    obtain ⟨⟨response, _ | next⟩, asked, hask, hrest⟩ := h
    · obtain ⟨heq, rfl⟩ := ends_pure_iff.mp hrest
      cases heq
      exact .answered (answered_of_ask hask)
    · cases (ends_throw_iff.mp hrest).1
  | succ left ih =>
    rw [Web.follow, ends_bind_ok_iff] at h
    obtain ⟨⟨response, _ | next⟩, asked, hask, hrest⟩ := h
    · obtain ⟨heq, rfl⟩ := ends_pure_iff.mp hrest
      cases heq
      exact .answered (answered_of_ask hask)
    · obtain ⟨-, -, hnext⟩ := ends_ask_ok hask
      obtain ⟨hfollows, location, hlocation, htarget⟩ := hnext next rfl
      have hanswered := answered_of_ask hask
      have hlater : Acts ∅ asked after := leaves_follow client left next hrest
      exact .sentOn hfollows (hanswered.later hlater) hlocation htarget (ih hrest)

/-- A body comes from a success of the server. -/
theorem obtained_of_getBody {url : String} {body : ByteArray}
    (h : Ends (Web.getBody client url) world (.ok body) after) :
    Obtained after client url body := by
  rw [Web.getBody, ends_bind_ok_iff] at h
  obtain ⟨target, opened, hopen, hrest⟩ := h
  obtain ⟨hurl, rfl⟩ := ends_ofExcept_ok_iff.mp hopen
  obtain ⟨⟨final, response⟩, answered, hfollow, hrest⟩ := ends_bind_ok_iff.mp hrest
  simp only [ends_bind_ok_iff] at hrest
  obtain ⟨success, last, hcheck, hrest⟩ := hrest
  obtain ⟨haccepted, rfl⟩ := ends_ofExcept_ok_iff.mp hcheck
  obtain ⟨heq, rfl⟩ := ends_pure_iff.mp hrest
  cases heq
  rw [Web.accepted] at haccepted
  split at haccepted
  · rename_i hsuccess
    cases haccepted
    exact ⟨target, response, hurl, endsAt_of_follow hfollow, hsuccess, rfl⟩
  · cases haccepted

end ApiClientGen.Answers
