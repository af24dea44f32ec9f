import ApiClientGen.Schema.Record

/-!
Several resources as one: their apis one after the other, their models in one map in which the
last model of an id counts. All other fields are those of the first.
-/
namespace ApiClientGen

def Resource.absorb (resource further : Resource) : Resource :=
  { resource with
    apis := resource.apis ++ further.apis
    models := resource.models.putAll further.models.entries }

/-- Several resources as one; none when there is nothing to merge. -/
def Resource.merge? : List Resource → Option Resource
  | [] => none
  | first :: rest => some (rest.foldl Resource.absorb first)

end ApiClientGen
