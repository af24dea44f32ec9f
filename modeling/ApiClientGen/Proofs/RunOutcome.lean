import ApiClientGen.World

/-!
How a computation ends: with which outcome and in which world. A computation of two steps ends
well exactly when both do, the second in the world that the first left behind; each single step is
described by one equivalence.
-/
namespace ApiClientGen.Run

variable {α β : Type} {world after : World}

/-- A computation that starts in a world ends with an outcome, in the world that it leaves. -/
def Ends (action : Run α) (world : World) (outcome : Except Failure α) (after : World) : Prop :=
  action.run.run world = (outcome, after)

/-- A computation ends in one way only. -/
theorem Ends.unique {action : Run α} {outcome other : Except Failure α} {last : World}
    (h : Ends action world outcome after) (hother : Ends action world other last) :
    outcome = other ∧ after = last := by
  have heq : (outcome, after) = (other, last) := h.symm.trans hother
  exact Prod.mk.inj heq

theorem ends_pure_iff {value : α} {outcome : Except Failure α} :
    Ends (pure value) world outcome after ↔ outcome = .ok value ∧ after = world := by
  constructor
  · intro h
    exact Ends.unique h rfl
  · rintro ⟨rfl, rfl⟩
    rfl

theorem ends_throw_iff {failure : Failure} {outcome : Except Failure α} :
    Ends (throw failure : Run α) world outcome after ↔
      outcome = .error failure ∧ after = world := by
  constructor
  · intro h
    exact Ends.unique h rfl
  · rintro ⟨rfl, rfl⟩
    rfl

theorem Ends.bind {action : Run α} {next : α → Run β} {first : α} {between : World}
    {outcome : Except Failure β} (h : Ends action world (.ok first) between)
    (hnext : Ends (next first) between outcome after) :
    Ends (action >>= next) world outcome after := by
  have hrun : (action >>= next).run.run world =
      (ExceptT.bindCont next (action.run.run world).1).run (action.run.run world).2 := rfl
  rw [Ends, hrun, h]
  exact hnext

/-- A failure ends all that would follow. -/
theorem Ends.bind_error {action : Run α} {next : α → Run β} {failure : Failure}
    (h : Ends action world (.error failure) after) :
    Ends (action >>= next) world (.error failure) after := by
  have hrun : (action >>= next).run.run world =
      (ExceptT.bindCont next (action.run.run world).1).run (action.run.run world).2 := rfl
  rw [Ends, hrun, h]
  rfl

/-- A computation of two steps fails where the first one does, or ends as the second one does. -/
theorem ends_bind_iff {action : Run α} {next : α → Run β} {outcome : Except Failure β} :
    Ends (action >>= next) world outcome after ↔
      (∃ failure, Ends action world (.error failure) after ∧ outcome = .error failure) ∨
        ∃ first between,
          Ends action world (.ok first) between ∧ Ends (next first) between outcome after := by
  constructor
  · intro h
    cases houtcome : (action.run.run world).1 with
    | error failure =>
      have hfails : Ends action world (.error failure) (action.run.run world).2 :=
        Prod.ext houtcome rfl
      obtain ⟨rfl, rfl⟩ := Ends.unique h hfails.bind_error
      exact Or.inl ⟨failure, hfails, rfl⟩
    | ok first =>
      have hfirst : Ends action world (.ok first) (action.run.run world).2 :=
        Prod.ext houtcome rfl
      obtain ⟨rfl, rfl⟩ := Ends.unique h (hfirst.bind rfl)
      exact Or.inr ⟨first, _, hfirst, rfl⟩
  · rintro (⟨failure, hfails, rfl⟩ | ⟨first, between, hfirst, hnext⟩)
    · exact hfails.bind_error
    · exact hfirst.bind hnext

theorem ends_bind_ok_iff {action : Run α} {next : α → Run β} {value : β} :
    Ends (action >>= next) world (.ok value) after ↔ ∃ first between,
      Ends action world (.ok first) between ∧ Ends (next first) between (.ok value) after := by
  rw [ends_bind_iff]
  constructor
  · rintro (⟨failure, -, hends⟩ | h)
    · cases hends
    · exact h
  · exact Or.inr

theorem ends_ofExcept_iff {ε : Type} {failure : ε → Failure} {result : Except ε α}
    {outcome : Except Failure α} : Ends (ofExcept failure result) world outcome after ↔
      outcome = result.mapError failure ∧ after = world := by
  cases result with
  | error error => exact ends_throw_iff
  | ok found => exact ends_pure_iff

theorem ends_ofExcept_ok_iff {ε : Type} {failure : ε → Failure} {result : Except ε α}
    {value : α} : Ends (ofExcept failure result) world (.ok value) after ↔
      result = .ok value ∧ after = world := by
  cases result with
  | error error => simp [ofExcept, ends_throw_iff]
  | ok found => simp [ofExcept, ends_pure_iff, eq_comm]

/-- What is seen of the files, or why it cannot be seen. -/
theorem ends_look_iff {see : FileTree → Except FileError α} {outcome : Except Failure α} :
    Ends (look see) world outcome after ↔
      Ends (ofExcept .file (see world.files)) world outcome after :=
  Iff.rfl

theorem ends_look_ok_iff {see : FileTree → Except FileError α} {value : α} :
    Ends (look see) world (.ok value) after ↔ see world.files = .ok value ∧ after = world := by
  rw [ends_look_iff, ends_ofExcept_ok_iff]

theorem ends_modify_iff {change : World → World} {outcome : Except Failure Unit} :
    Ends (modify change) world outcome after ↔ outcome = .ok () ∧ after = change world := by
  constructor
  · intro h
    exact Ends.unique h rfl
  · rintro ⟨rfl, rfl⟩
    rfl

theorem ends_printLine_iff {line : String} {outcome : Except Failure Unit} :
    Ends (printLine line) world outcome after ↔ outcome = .ok () ∧
      after = { world with stdout := world.stdout ++ line ++ "\n" } :=
  ends_modify_iff

theorem ends_warn_iff {line : String} {outcome : Except Failure Unit} :
    Ends (warn line) world outcome after ↔ outcome = .ok () ∧
      after = { world with stderr := world.stderr ++ line ++ "\n" } :=
  ends_modify_iff

theorem ends_writeFile_ok_iff {path : Path} {content : ByteArray} {value : Unit} :
    Ends (writeFile path content) world (.ok value) after ↔ ∃ changed,
      world.files.write path content = .ok changed ∧ after = { world with files := changed } := by
  rw [writeFile, changeFiles, ends_bind_ok_iff]
  constructor
  · rintro ⟨changed, between, hlook, hmodify⟩
    obtain ⟨hwrite, rfl⟩ := ends_look_ok_iff.mp hlook
    exact ⟨changed, hwrite, (ends_modify_iff.mp hmodify).2⟩
  · rintro ⟨changed, hwrite, rfl⟩
    exact ⟨changed, world, ends_look_ok_iff.mpr ⟨hwrite, rfl⟩, ends_modify_iff.mpr ⟨rfl, rfl⟩⟩

/-- Directories are made as far as they can be, and the files are as they are left then. -/
theorem ends_ensureDirectories_iff {path : Path} {outcome : Except Failure Unit} :
    Ends (ensureDirectories path) world outcome after ↔
      Ends (ofExcept .file (world.files.ensureDirectories path).1)
        { world with files := (world.files.ensureDirectories path).2 } outcome after :=
  Iff.rfl

theorem ends_ensureDirectories_ok_iff {path : Path} {value : Unit} :
    Ends (ensureDirectories path) world (.ok value) after ↔ ∃ changed,
      world.files.ensureDirectories path = (.ok (), changed) ∧
        after = { world with files := changed } := by
  rw [ends_ensureDirectories_iff, ends_ofExcept_ok_iff]
  constructor
  · rintro ⟨hmade, rfl⟩
    exact ⟨_, Prod.ext hmade rfl, rfl⟩
  · rintro ⟨changed, hmade, rfl⟩
    rw [hmade]
    exact ⟨rfl, rfl⟩

/-- A request is sent before its reply is looked at. -/
theorem ends_request_iff {url : String} {outcome : Except Failure Web.Response} :
    Ends (request url) world outcome after ↔
      Ends (ofReply (world.server world.requests url))
        { world with requests := url :: world.requests } outcome after :=
  Iff.rfl

theorem ends_request_ok_iff {url : String} {response : Web.Response} :
    Ends (request url) world (.ok response) after ↔
      world.server world.requests url = .response response ∧
        after = { world with requests := url :: world.requests } := by
  rw [ends_request_iff]
  cases world.server world.requests url with
  | response found => simp [ofReply, ends_pure_iff, eq_comm]
  | failed fault message => simp [ofReply, ends_throw_iff]

end ApiClientGen.Run
