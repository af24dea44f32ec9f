import ApiClientGen.CommandLine.Word
import ApiClientGen.Generate.Settings
import ApiClientGen.Number.Reading

/-!
The settings that a command line asks for. A later switch overrides an earlier one; operands are
refused, but only after everything else was looked at.
-/
namespace ApiClientGen.CommandLine

inductive Stop
  | help
  | misuse (misuse : Misuse)
  deriving DecidableEq, Repr

structure Given where
  url : Option String := none
  dest : String := "./generated"
  splitInterfaces : Bool := false
  groupClass : String := ""
  cacheDir : String := "cache"
  docs : Bool := true
  strictRefs : Bool := false
  timeout : Binary64 := Binary64.ofDecimal false 30 0
  unrecognized : List String := []
  deriving DecidableEq, Repr

def Given.refuse (given : Given) (word : String) : Given :=
  { given with unrecognized := given.unrecognized ++ [word] }

def Given.setValue (given : Given) (switch : Switch) (value : String) : Except Stop Given :=
  match switch with
  | .url => .ok { given with url := some value }
  | .groupClass => .ok { given with groupClass := value }
  | .dest => .ok { given with dest := value }
  | .cacheDir => .ok { given with cacheDir := value }
  | .timeout =>
    match Number.ofText? value with
    | some timeout => .ok { given with timeout := timeout }
    | none => .error (.misuse (.notNumber .timeout value))
  | _ => .ok given

def Given.setFlag (given : Given) (switch : Switch) : Except Stop Given :=
  match switch with
  | .help => .error .help
  | .splitInterfaces => .ok { given with splitInterfaces := true }
  | .noDocs => .ok { given with docs := false }
  | .strictRefs => .ok { given with strictRefs := true }
  | _ => .ok given

/-- What a text directly behind a switch of one letter means: further such switches, of which help
is the only one. -/
def stopAtGlued : List Char → Stop
  | [] => .help
  | 'h' :: '=' :: value => .misuse (.valueIgnored .help (String.ofList value))
  | 'h' :: rest => stopAtGlued rest
  | '-' :: rest => .misuse (.valueIgnored .help (String.ofList ('-' :: rest)))
  | _ => .help

def Given.setAttached (given : Given) (switch : Switch) : Attached → Except Stop Given
  | .nothing => given.setFlag switch
  | .assigned value =>
    if switch.takesValue then given.setValue switch value
    else .error (.misuse (.valueIgnored switch value))
  | .glued text => .error (stopAtGlued text.toList)

/-- What some words give. A switch that needs a value takes the operand that follows its word. -/
def take (given : Given) : List Word → Except Stop Given
  | [] => .ok given
  | .operand text :: rest => take (given.refuse text) rest
  | .separator :: rest => take (given.refuse "--") rest
  | .stray text :: rest => take (given.refuse text) rest
  | .switch switch .nothing :: rest =>
    if switch.takesValue then
      match rest with
      | .operand value :: rest =>
        match given.setValue switch value with
        | .ok given => take given rest
        | .error stop => .error stop
      | _ => .error (.misuse (.valueExpected switch))
    else
      match given.setFlag switch with
      | .ok given => take given rest
      | .error stop => .error stop
  | .switch switch attached :: rest =>
    match given.setAttached switch attached with
    | .ok given => take given rest
    | .error stop => .error stop

def Given.settings (given : Given) : Except Stop Settings :=
  match given.url with
  | none => .error (.misuse .urlMissing)
  | some url =>
    if given.unrecognized.isEmpty then
      .ok {
        url := url
        dest := Path.ofString given.dest
        splitInterfaces := given.splitInterfaces
        groupClass := given.groupClass
        cacheDir := Path.ofString given.cacheDir
        docs := given.docs
        strictRefs := given.strictRefs
        timeout := given.timeout }
    else .error (.misuse (.unrecognized given.unrecognized))

def parse (words : List String) : Except Stop Settings :=
  match readWords words with
  | .error misuse => .error (.misuse misuse)
  | .ok words =>
    match take {} words with
    | .ok given => given.settings
    | .error stop => .error stop

end ApiClientGen.CommandLine
