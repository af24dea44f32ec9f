import ApiClientGen.Files.Path
import ApiClientGen.Number.Binary64

/-!
What a run is asked to do.
-/
namespace ApiClientGen

structure Settings where
  url : String
  dest : Path := ⟨.here, ["generated"]⟩
  splitInterfaces : Bool := false
  groupClass : String := ""
  cacheDir : Path := ⟨.here, ["cache"]⟩
  docs : Bool := true
  strictRefs : Bool := false
  timeout : Binary64 := Binary64.ofDecimal false 30 0
  deriving DecidableEq, Repr

end ApiClientGen
