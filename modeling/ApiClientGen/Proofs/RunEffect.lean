import ApiClientGen.Generate.Output
import ApiClientGen.Proofs.RunOutcome
import ApiClientGen.Proofs.TreeGrowth
import ApiClientGen.Web.Client

/-!
What a computation does to the world, however it ends. A relation between worlds that goes through
from step to step holds across a computation as soon as it holds across each of its steps, also
where one of them fails. Requests and the making and writing of files only let the tree grow and
the list of requests become longer.
-/
namespace ApiClientGen.RunEffect

open FileTree Generate Run

variable {α β : Type} {R : World → World → Prop} {world after : World}

/-- However a computation ends, the world that it leaves is related to the one in which it
began. -/
def Leaves (R : World → World → Prop) (action : Run α) : Prop :=
  ∀ ⦃world : World⦄ ⦃outcome : Except Failure α⦄ ⦃after : World⦄,
    Ends action world outcome after → R world after

theorem Leaves.mono {S : World → World → Prop} {action : Run α} (h : Leaves R action)
    (hsub : ∀ {before after}, R before after → S before after) : Leaves S action :=
  fun _ _ _ hends => hsub (h hends)

/-- A relation that goes through from step to step. -/
structure Carried (R : World → World → Prop) : Prop where
  refl : ∀ world, R world world
  trans : ∀ {first second third : World}, R first second → R second third → R first third

namespace Carried

variable (hR : Carried R)
include hR

theorem leaves_pure (value : α) : Leaves R (pure value : Run α) := by
  intro world outcome after hends
  obtain ⟨-, rfl⟩ := ends_pure_iff.mp hends
  exact hR.refl after

theorem leaves_throw (failure : Failure) : Leaves R (throw failure : Run α) := by
  intro world outcome after hends
  obtain ⟨-, rfl⟩ := ends_throw_iff.mp hends
  exact hR.refl after

theorem leaves_ofExcept {ε : Type} (failure : ε → Failure) (result : Except ε α) :
    Leaves R (ofExcept failure result) := by
  cases result with
  | ok value => exact hR.leaves_pure value
  | error error => exact hR.leaves_throw (failure error)

theorem leaves_look (see : FileTree → Except FileError α) : Leaves R (look see) := by
  intro world outcome after hends
  exact hR.leaves_ofExcept _ _ (ends_look_iff.mp hends)

/-- A relation holds across two steps if it holds across each, and the second need not be
taken. -/
theorem leaves_bind {action : Run α} {next : α → Run β} (h : Leaves R action)
    (hnext : ∀ value, Leaves R (next value)) : Leaves R (action >>= next) := by
  intro world outcome after hends
  rcases ends_bind_iff.mp hends with ⟨failure, hfails, -⟩ | ⟨first, between, hfirst, hrest⟩
  · exact h hfails
  · exact hR.trans (h hfirst) (hnext first hrest)

end Carried

/-- A relation that goes through from step to step and holds across each line that is printed. -/
structure Prints (R : World → World → Prop) : Prop extends Carried R where
  line : ∀ line, Leaves R (printLine line)

/-- A relation that also holds across each warning of a run. -/
structure Reports (R : World → World → Prop) : Prop extends Prints R where
  warning : ∀ name missing, Leaves R (warn ("warning: " ++ Failure.danglingText name missing))

/-- A relation that goes through from step to step and does not see what is printed. -/
structure Lasting (R : World → World → Prop) : Prop where
  trans : ∀ {first second third : World}, R first second → R second third → R first third
  printed : ∀ (world : World) (stdout stderr : String),
    R world { world with stdout := stdout, stderr := stderr }

section Lasting

variable (hR : Lasting R)
include hR

theorem Lasting.refl (world : World) : R world world :=
  hR.printed world world.stdout world.stderr

theorem Lasting.carried : Carried R :=
  ⟨hR.refl, hR.trans⟩

theorem leaves_pure (value : α) : Leaves R (pure value : Run α) :=
  hR.carried.leaves_pure value

theorem leaves_throw (failure : Failure) : Leaves R (throw failure : Run α) :=
  hR.carried.leaves_throw failure

theorem leaves_ofExcept {ε : Type} (failure : ε → Failure) (result : Except ε α) :
    Leaves R (ofExcept failure result) :=
  hR.carried.leaves_ofExcept failure result

theorem leaves_look (see : FileTree → Except FileError α) : Leaves R (look see) :=
  hR.carried.leaves_look see

theorem leaves_printLine (line : String) : Leaves R (printLine line) := by
  intro world outcome after hends
  obtain ⟨-, rfl⟩ := ends_printLine_iff.mp hends
  exact hR.printed world _ world.stderr

theorem leaves_warn (line : String) : Leaves R (warn line) := by
  intro world outcome after hends
  obtain ⟨-, rfl⟩ := ends_warn_iff.mp hends
  exact hR.printed world world.stdout _

/-- What does not see the output holds across each line that is printed. -/
theorem Lasting.prints : Prints R :=
  ⟨hR.carried, leaves_printLine hR⟩

theorem Lasting.reports : Reports R :=
  ⟨hR.prints, fun _ _ => leaves_warn hR _⟩

theorem Leaves.bind {action : Run α} {next : α → Run β} (h : Leaves R action)
    (hnext : ∀ value, Leaves R (next value)) : Leaves R (action >>= next) :=
  hR.carried.leaves_bind h hnext

end Lasting

/-- From one world to another the tree grew and requests were sent to the same server. -/
structure Acts (written : Set FilePlace) (before after : World) : Prop where
  grows : Grows written before.files after.files
  server_eq : after.server = before.server
  requests_suffix : before.requests <:+ after.requests

section Acts

variable {written more : Set FilePlace} {between : World}

/-- Trees that grow and requests that follow each other go through from step to step. -/
theorem lasting_acts (written : Set FilePlace) : Lasting (Acts written) := by
  refine ⟨?_, ?_⟩
  · intro first second third h hnext
    exact ⟨h.grows.trans hnext.grows, hnext.server_eq.trans h.server_eq,
      h.requests_suffix.trans hnext.requests_suffix⟩
  · intro world stdout stderr
    exact ⟨Grows.refl written world.files, rfl, List.suffix_rfl⟩

/-- Places that depend on the working directory alone are the same after any step. -/
theorem lasting_acts_in {places : FileTree → Set FilePlace}
    (hplaces : ∀ {before after : FileTree}, after.here = before.here →
      places after = places before) :
    Lasting fun before after => Acts (places before.files) before after := by
  refine ⟨?_, ?_⟩
  · intro first second third h hnext
    rw [hplaces h.grows.here_eq] at hnext
    exact (lasting_acts _).trans h hnext
  · intro world stdout stderr
    exact (lasting_acts _).printed world stdout stderr

/-- More places may be written. -/
theorem Acts.mono (h : Acts written world after) (hsub : written ⊆ more) :
    Acts more world after :=
  ⟨h.grows.mono hsub, h.server_eq, h.requests_suffix⟩

/-- What is done before writing does not change where is written. -/
theorem Acts.trans_at {path : Path} (h : Acts ∅ world between)
    (hnext : Acts {between.files.placeOf path} between after) :
    Acts {world.files.placeOf path} world after := by
  rw [h.grows.placeOf_eq] at hnext
  exact (lasting_acts _).trans (h.mono (Set.empty_subset _)) hnext

/-- A request is sent whatever comes of it. -/
theorem world_of_request {url : String} {outcome : Except Failure Web.Response}
    (h : Ends (request url) world outcome after) :
    after = { world with requests := url :: world.requests } := by
  rw [ends_request_iff] at h
  cases hreply : world.server world.requests url with
  | response found =>
    rw [hreply] at h
    exact (ends_pure_iff.mp h).2
  | failed fault message =>
    rw [hreply] at h
    exact (ends_throw_iff.mp h).2

theorem leaves_request (url : String) : Leaves (Acts ∅) (request url) := by
  intro world outcome after hends
  rw [world_of_request hends]
  exact ⟨Grows.refl ∅ world.files, rfl, List.suffix_cons url world.requests⟩

/-- A request writes no file. -/
theorem leaves_ask (client : Web.Client) (url : Web.Url) :
    Leaves (Acts ∅) (Web.ask client url) := by
  have hR := lasting_acts ∅
  refine (leaves_request url.text).bind hR fun response => ?_
  cases response.redirect? with
  | none => exact leaves_pure hR _
  | some location =>
    exact (leaves_ofExcept hR id _).bind hR fun next => leaves_pure hR _

/-- No number of redirects writes a file. -/
theorem leaves_follow (client : Web.Client) (left : Nat) (url : Web.Url) :
    Leaves (Acts ∅) (Web.follow client left url) := by
  have hR := lasting_acts ∅
  induction left generalizing url with
  | zero =>
    refine (leaves_ask client url).bind hR fun answer => ?_
    rcases answer with ⟨response, _ | next⟩
    · exact leaves_pure hR _
    · exact leaves_throw hR _
  | succ left ih =>
    refine (leaves_ask client url).bind hR fun answer => ?_
    rcases answer with ⟨response, _ | next⟩
    · exact leaves_pure hR _
    · exact ih next

/-- Asking the server leaves the files alone. -/
theorem leaves_getBody (client : Web.Client) (url : String) :
    Leaves (Acts ∅) (Web.getBody client url) := by
  have hR := lasting_acts ∅
  refine (leaves_ofExcept hR Failure.badUrl _).bind hR fun target => ?_
  refine (leaves_follow client Web.redirectLimit target.target).bind hR fun answer => ?_
  exact (leaves_ofExcept hR id _).bind hR fun response => leaves_pure hR _

theorem leaves_ensureDirectories (path : Path) : Leaves (Acts ∅) (ensureDirectories path) := by
  intro world outcome after hends
  rw [ends_ensureDirectories_iff] at hends
  have hmade : Acts ∅ world { world with files := (world.files.ensureDirectories path).2 } :=
    ⟨(makes_ensureUpTo path.parts.length world.files path).1, rfl, List.suffix_rfl⟩
  exact (lasting_acts ∅).trans hmade (leaves_ofExcept (lasting_acts ∅) _ _ hends)

/-- A file that cannot be written leaves the world as it was. -/
theorem eq_of_writeFile_error {path : Path} {content : ByteArray} {failure : Failure}
    (h : Ends (writeFile path content) world (.error failure) after) : after = world := by
  rcases ends_bind_iff.mp h with ⟨failure, hlook, -⟩ | ⟨changed, between, -, hmodify⟩
  · exact (ends_ofExcept_iff.mp (ends_look_iff.mp hlook)).2
  · cases (ends_modify_iff.mp hmodify).1

/-- A file is written at the place of its path or nowhere. -/
theorem acts_of_writeFile {path : Path} {content : ByteArray} {outcome : Except Failure Unit}
    (h : Ends (writeFile path content) world outcome after) :
    Acts {world.files.placeOf path} world after := by
  cases outcome with
  | error failure =>
    rw [eq_of_writeFile_error h]
    exact (lasting_acts _).refl world
  | ok value =>
    obtain ⟨changed, hwrite, rfl⟩ := ends_writeFile_ok_iff.mp h
    exact ⟨(grows_of_write hwrite).1, rfl, List.suffix_rfl⟩

/-- Making the directories of a file does not change where its path leads. -/
theorem acts_of_writeText {path : Path} {text : String} {outcome : Except Failure Path}
    (h : Ends (writeText path text) world outcome after) :
    Acts {world.files.placeOf path} world after := by
  rcases ends_bind_iff.mp h with ⟨failure, hfails, -⟩ | ⟨_, made, hmade, hrest⟩
  · exact (leaves_ensureDirectories path.parent hfails).mono (Set.empty_subset _)
  · apply (leaves_ensureDirectories path.parent hmade).trans_at
    rcases ends_bind_iff.mp hrest with ⟨failure, hfails, -⟩ | ⟨_, last, hwritten, hrest⟩
    · exact acts_of_writeFile hfails
    · obtain ⟨-, rfl⟩ := ends_pure_iff.mp hrest
      exact acts_of_writeFile hwritten

end Acts

end ApiClientGen.RunEffect
