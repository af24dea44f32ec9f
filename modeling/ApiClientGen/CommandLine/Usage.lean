import ApiClientGen.CommandLine.Switch
import ApiClientGen.Text.Lines
import ApiClientGen.Text.Quoted

/-!
The texts of the command line: how it is used, and what may be wrong with it.
-/
namespace ApiClientGen.CommandLine

def programName : String := "swaggerts"

def usageLines : List String := [
  "usage: swaggerts [-h] --url URL [--splitInterfaces] [--groupClass GROUP_CLASS]",
  "                 [--dest DEST] [--cache-dir CACHE_DIR] [--no-docs]",
  "                 [--strict-refs] [--timeout TIMEOUT]"]

def helpLines : List String := usageLines ++ [
  "",
  "Generate TypeScript API clients from a Swagger 1.2 schema.",
  "",
  "options:",
  "  -h, --help            show this help message and exit",
  "  --url URL             Api url",
  "  --splitInterfaces     Split interfaces into separate files",
  "  --groupClass GROUP_CLASS",
  "                        Group apis in single class",
  "  --dest DEST           Destination path",
  "  --cache-dir CACHE_DIR",
  "                        Directory for cached schema documents",
  "  --no-docs             Omit JSDoc blocks on generated methods",
  "  --strict-refs         Fail when a model reference does not resolve",
  "  --timeout TIMEOUT     HTTP timeout in seconds"]

def helpText : String := Text.unlines helpLines

inductive Misuse
  | ambiguous (word : String) (candidates : List String)
  | valueExpected (switch : Switch)
  | valueIgnored (switch : Switch) (value : String)
  | notNumber (switch : Switch) (value : String)
  | urlMissing
  | unrecognized (words : List String)
  deriving DecidableEq, Repr

def Misuse.message : Misuse → String
  | .ambiguous word candidates =>
    "ambiguous option: " ++ word ++ " could match " ++ String.intercalate ", " candidates
  | .valueExpected switch => "argument " ++ switch.name ++ ": expected one argument"
  | .valueIgnored switch value =>
    "argument " ++ switch.name ++ ": ignored explicit argument " ++ Text.quoted value
  | .notNumber switch value =>
    "argument " ++ switch.name ++ ": invalid float value: " ++ Text.quoted value
  | .urlMissing => "the following arguments are required: " ++ Switch.url.name
  | .unrecognized words => "unrecognized arguments: " ++ String.intercalate " " words

def Misuse.report (misuse : Misuse) : String :=
  Text.unlines (usageLines ++ [programName ++ ": error: " ++ misuse.message])

end ApiClientGen.CommandLine
