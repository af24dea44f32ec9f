import ApiClientGen.CommandLine.Parse
import ApiClientGen.Proofs.NormalPaths
import Mathlib.Data.List.Nodup
import Mathlib.Data.List.Perm.Basic

/-!
Every choice of settings can be asked for on the command line. A value that stands behind its
switch and an equals sign may be any text: it is cut off at the first equals sign, and none of the
switches is spelled with one. Words with different switches may change places, as each of them
sets a field of its own. The paths of the settings are in normal form, so that what was read can
be asked for once more.
-/
namespace ApiClientGen.SettingWords

open CommandLine

/-- One thing to ask for on the command line. -/
inductive Wish
  | url (text : String)
  | groupClass (text : String)
  | dest (text : String)
  | cacheDir (text : String)
  | splitInterfaces
  | noDocs
  | strictRefs

def Wish.word : Wish → String
  | .url text => "--url=" ++ text
  | .groupClass text => "--groupClass=" ++ text
  | .dest text => "--dest=" ++ text
  | .cacheDir text => "--cache-dir=" ++ text
  | .splitInterfaces => "--splitInterfaces"
  | .noDocs => "--no-docs"
  | .strictRefs => "--strict-refs"

def Wish.switch : Wish → Switch
  | .url _ => .url
  | .groupClass _ => .groupClass
  | .dest _ => .dest
  | .cacheDir _ => .cacheDir
  | .splitInterfaces => .splitInterfaces
  | .noDocs => .noDocs
  | .strictRefs => .strictRefs

def Wish.attached : Wish → Attached
  | .url text | .groupClass text | .dest text | .cacheDir text => .assigned text
  | .splitInterfaces | .noDocs | .strictRefs => .nothing

def Wish.read (wish : Wish) : Word := .switch wish.switch wish.attached

def grant (given : Given) : Wish → Given
  | .url text => { given with url := some text }
  | .groupClass text => { given with groupClass := text }
  | .dest text => { given with dest := text }
  | .cacheDir text => { given with cacheDir := text }
  | .splitInterfaces => { given with splitInterfaces := true }
  | .noDocs => { given with docs := false }
  | .strictRefs => { given with strictRefs := true }

structure Choice where
  url : String
  groupClass : String
  dest : String
  cacheDir : String
  splitInterfaces : Bool
  noDocs : Bool
  strictRefs : Bool

/-- The wishes of a choice: all four texts, and the flags that are chosen. -/
def Choice.wishes (choice : Choice) : List Wish :=
  [.url choice.url, .groupClass choice.groupClass, .dest choice.dest,
    .cacheDir choice.cacheDir] ++ (if choice.splitInterfaces then [.splitInterfaces] else []) ++
    (if choice.noDocs then [.noDocs] else []) ++
    (if choice.strictRefs then [.strictRefs] else [])

def Choice.words (choice : Choice) : List String := choice.wishes.map Wish.word

def Choice.settings (choice : Choice) : Settings where
  url := choice.url
  groupClass := choice.groupClass
  dest := Path.ofString choice.dest
  cacheDir := Path.ofString choice.cacheDir
  splitInterfaces := choice.splitInterfaces
  docs := !choice.noDocs
  strictRefs := choice.strictRefs

def choiceOf (settings : Settings) : Choice where
  url := settings.url
  groupClass := settings.groupClass
  dest := settings.dest.text
  cacheDir := settings.cacheDir.text
  splitInterfaces := settings.splitInterfaces
  noDocs := !settings.docs
  strictRefs := settings.strictRefs

section Words

variable {name : List Char} {switch : Switch}

theorem mem_spellings_of_spelled (h : spelled? name = some switch) :
    ∃ entry ∈ spellings, entry.1.toList = name := by
  obtain ⟨entry, hentry, -⟩ := Option.map_eq_some_iff.mp h
  exact ⟨entry, List.mem_of_find?_eq_some hentry, by simpa using List.find?_some hentry⟩

/-- No switch is spelled with an equals sign. -/
theorem equals_not_mem_of_spelled (h : spelled? name = some switch) : '=' ∉ name := by
  have hnone : ∀ entry ∈ spellings, '=' ∉ entry.1.toList := by decide
  obtain ⟨entry, hentry, rfl⟩ := mem_spellings_of_spelled h
  exact hnone entry hentry

theorem spelled_eq_none_of_mem (h : '=' ∈ name) : spelled? name = none := by
  rw [Option.eq_none_iff_forall_ne_some]
  exact fun switch hspelled => equals_not_mem_of_spelled hspelled h

/-- A switch is spelled with a minus sign and another character at least. -/
theorem exists_eq_of_spelled (h : spelled? name = some switch) :
    ∃ c rest, name = '-' :: c :: rest := by
  have hlong : ∀ entry ∈ spellings, entry.1.toList.head? = some '-' ∧
      entry.1.toList.tail ≠ [] := by decide
  obtain ⟨entry, hentry, rfl⟩ := mem_spellings_of_spelled h
  obtain ⟨hminus, htail⟩ := hlong entry hentry
  obtain ⟨rest, hrest⟩ := List.head?_eq_some_iff.mp hminus
  rw [hrest] at htail
  obtain ⟨c, rest, rfl⟩ := List.exists_cons_of_ne_nil htail
  exact ⟨c, rest, hrest⟩

/-- A text is cut at its first equals sign, whatever stands behind it. -/
theorem cutValue_append (h : '=' ∉ name) (value : List Char) :
    cutValue (name ++ '=' :: value) = (name, .assigned (String.ofList value)) := by
  have hother : ∀ c ∈ name, decide (c ≠ '=') = true := by
    intro c hc
    rw [decide_eq_true_eq]
    exact fun heq => h (heq ▸ hc)
  have hfront : (name ++ '=' :: value).takeWhile (· ≠ '=') = name := by
    rw [List.takeWhile_append_of_pos hother]
    exact List.append_nil name
  have hback : (name ++ '=' :: value).dropWhile (· ≠ '=') = '=' :: value := by
    rw [List.dropWhile_append_of_pos hother]
    rfl
  rw [cutValue, hback, hfront]

theorem readWord_of_spelled {word : String} (h : spelled? word.toList = some switch) :
    readWord word = .ok (.switch switch .nothing) := by
  obtain ⟨c, rest, hword⟩ := exists_eq_of_spelled h
  rw [hword] at h
  rw [readWord, hword]
  simp only [h]

/-- A switch is told apart from any value behind its equals sign. -/
theorem readWord_assigned (spelling : String) (h : spelled? spelling.toList = some switch)
    (value : String) :
    readWord (spelling ++ "=" ++ value) = .ok (.switch switch (.assigned value)) := by
  have hword : (spelling ++ "=" ++ value).toList = spelling.toList ++ '=' :: value.toList := by
    rw [String.toList_append, String.toList_append, List.append_assoc]
    rfl
  have hcut := cutValue_append (equals_not_mem_of_spelled h) value.toList
  have hwhole : spelled? (spelling.toList ++ '=' :: value.toList) = none :=
    spelled_eq_none_of_mem List.mem_append_cons_self
  obtain ⟨c, rest, hspelling⟩ := exists_eq_of_spelled h
  rw [hspelling, List.cons_append, List.cons_append] at hword hcut hwhole
  rw [hspelling] at h
  rw [readWord, hword]
  simp only [hwhole, readSwitch, hcut, h, String.ofList_toList]

/-- The words of wishes are read as what they ask for. -/
theorem readWord_word (wish : Wish) : readWord wish.word = .ok wish.read := by
  cases wish with
  | url text => exact readWord_assigned "--url" rfl text
  | groupClass text => exact readWord_assigned "--groupClass" rfl text
  | dest text => exact readWord_assigned "--dest" rfl text
  | cacheDir text => exact readWord_assigned "--cache-dir" rfl text
  | splitInterfaces => exact readWord_of_spelled rfl
  | noDocs => exact readWord_of_spelled rfl
  | strictRefs => exact readWord_of_spelled rfl

theorem word_ne_separator (wish : Wish) : wish.word ≠ "--" := by
  cases wish <;> simp [Wish.word, ← String.toList_inj]

theorem readWords_words (wishes : List Wish) :
    readWords (wishes.map Wish.word) = .ok (wishes.map Wish.read) := by
  induction wishes with
  | nil => rfl
  | cons wish rest ih =>
    rw [List.map_cons, readWords, if_neg (word_ne_separator wish), readWord_word, ih]
    rfl

end Words

section Grants

variable {first second : Wish} {wishes others : List Wish} (given : Given)

theorem take_read (wish : Wish) (rest : List Word) :
    take given (wish.read :: rest) = take (grant given wish) rest := by
  cases wish with
  | url _ | groupClass _ | dest _ | cacheDir _ => rfl
  | splitInterfaces | noDocs | strictRefs =>
    -- `take` looks at the next word before it knows whether the switch needs a value
    cases rest with
    | nil => rfl
    | cons next rest => cases next <;> rfl

theorem take_wishes (wishes : List Wish) :
    take given (wishes.map Wish.read) = .ok (wishes.foldl grant given) := by
  induction wishes generalizing given with
  | nil => rfl
  | cons wish rest ih => rw [List.map_cons, take_read, ih, List.foldl_cons]

/-- Words that ask for wishes are taken one after the other. -/
theorem parse_words (wishes : List Wish) :
    parse (wishes.map Wish.word) = (wishes.foldl grant {}).settings := by
  rw [parse, readWords_words]
  simp only [take_wishes]

/-- Wishes with different switches set different fields. -/
theorem grant_comm (h : first.switch ≠ second.switch) :
    grant (grant given first) second = grant (grant given second) first := by
  cases first <;> cases second <;> first | rfl | exact absurd rfl h

/-- Wishes of which no two share a switch may be granted in any order. -/
theorem foldl_grant_of_perm (h : others.Perm wishes)
    (hswitches : (wishes.map Wish.switch).Nodup) :
    others.foldl grant given = wishes.foldl grant given := by
  refine (h.symm.foldl_eq' (fun first hfirst second hsecond between => ?_) given).symm
  by_cases hsame : first.switch = second.switch
  · rw [List.inj_on_of_nodup_map hswitches hfirst hsecond hsame]
  · exact grant_comm between hsame

end Grants

section Choices

variable (choice : Choice)

theorem nodup_switches : (choice.wishes.map Wish.switch).Nodup := by
  obtain ⟨url, groupClass, dest, cacheDir, splitInterfaces, noDocs, strictRefs⟩ := choice
  cases splitInterfaces <;> cases noDocs <;> cases strictRefs <;>
    simp [Choice.wishes, Wish.switch]

theorem settings_wishes : (choice.wishes.foldl grant {}).settings = .ok choice.settings := by
  obtain ⟨url, groupClass, dest, cacheDir, splitInterfaces, noDocs, strictRefs⟩ := choice
  cases splitInterfaces <;> cases noDocs <;> cases strictRefs <;> rfl

/-- Texts in another order are those of things in another order. -/
theorem exists_map_of_perm {α β : Type} {f : α → β} {items : List α} {texts : List β}
    (h : texts.Perm (items.map f)) :
    ∃ others : List α, others.Perm items ∧ texts = others.map f := by
  have hcomp : Relation.Comp (· = List.map f ·) List.Perm texts items := by
    rw [List.eq_map_comp_perm]
    exact h
  obtain ⟨others, htexts, hothers⟩ := hcomp
  exact ⟨others, hothers, htexts⟩

/-- The words of a choice ask for it in any order. -/
theorem parse_of_perm {words : List String} (h : words.Perm choice.words) :
    parse words = .ok choice.settings := by
  obtain ⟨others, hothers, rfl⟩ := exists_map_of_perm h
  rw [parse_words, foldl_grant_of_perm {} hothers (nodup_switches choice), settings_wishes]

end Choices

section Again

variable {words : List String} {settings : Settings}

/-- The paths that a command line gives are spelled by texts. -/
theorem exists_of_parse (h : parse words = .ok settings) :
    ∃ dest cacheDir, settings.dest = Path.ofString dest ∧
      settings.cacheDir = Path.ofString cacheDir := by
  rw [parse] at h
  split at h
  · cases h
  · split at h
    · rename_i given _
      rw [Given.settings] at h
      split at h
      · cases h
      · split at h
        · cases h
          exact ⟨given.dest, given.cacheDir, rfl, rfl⟩
        · cases h
    · cases h

/-- What was read is what the choice that it comes from means. -/
theorem settings_choiceOf (h : parse words = .ok settings)
    (htimeout : settings.timeout = Binary64.ofDecimal false 30 0) :
    (choiceOf settings).settings = settings := by
  obtain ⟨dest, cacheDir, hdest, hcache⟩ := exists_of_parse h
  obtain ⟨url, _, splitInterfaces, groupClass, _, docs, strictRefs, timeout⟩ := settings
  simp only at hdest hcache htimeout
  rw [hdest, hcache, htimeout]
  simp only [choiceOf, Choice.settings, Path.ofString_text_ofString, Bool.not_not]

end Again

/-- The command line can express every choice of settings: whatever the texts are, the words of a
choice are read as that choice in any order, with the timeout that stands when none is given. Its
paths are in normal form, and putting them into normal form once more changes nothing, so that
settings with that timeout which were read from a command line are read again from the words of
the choice they come from. -/
theorem every_choice_is_expressible :
    (∀ (choice : Choice) (words : List String), words.Perm choice.words →
      parse words = .ok choice.settings) ∧
    (∀ text, (Path.ofString text).IsNormal ∧
      Path.ofString (Path.ofString text).text = Path.ofString text) ∧
    ∀ words settings, parse words = .ok settings →
      settings.timeout = Binary64.ofDecimal false 30 0 →
      ∀ again : List String, again.Perm (choiceOf settings).words →
      parse again = .ok settings := by
  refine ⟨fun choice words h => parse_of_perm choice h, fun text =>
    ⟨Path.ofString_isNormal text, Path.ofString_text_ofString text⟩, ?_⟩
  intro words settings h htimeout again hagain
  rw [parse_of_perm _ hagain, settings_choiceOf h htimeout]

/-- A choice whose texts look like other words. -/
def riddle : Choice where
  url := "--help"
  groupClass := "a b=--dest=c"
  dest := "//x/./y//"
  cacheDir := ""
  splitInterfaces := false
  noDocs := true
  strictRefs := true

/-- The words of the riddle are read in another order, and its settings once more from their own
words. -/
theorem riddle_is_read_and_read_again :
    parse ["--strict-refs", "--cache-dir=", "--url=--help", "--no-docs", "--dest=//x/./y//",
        "--groupClass=a b=--dest=c"] =
      .ok {
        url := "--help"
        dest := ⟨.doubleRoot, ["x", "y"]⟩
        groupClass := "a b=--dest=c"
        cacheDir := ⟨.here, []⟩
        docs := false
        strictRefs := true } ∧
    parse ["--no-docs", "--dest=//x/y", "--url=--help", "--cache-dir=.",
        "--groupClass=a b=--dest=c", "--strict-refs"] = .ok riddle.settings := by
  have hread := every_choice_is_expressible.1 riddle
    ["--strict-refs", "--cache-dir=", "--url=--help", "--no-docs", "--dest=//x/./y//",
      "--groupClass=a b=--dest=c"] (by decide)
  refine ⟨hread.trans (by decide), ?_⟩
  exact every_choice_is_expressible.2.2 _ _ hread rfl _ (by decide)

end ApiClientGen.SettingWords
