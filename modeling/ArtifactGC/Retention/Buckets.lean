import ArtifactGC.Retention.Groups
import Std.Data.TreeMap

/-!
# Buckets in an ordered map

A group of artifacts can be partitioned in one walk: an ordered map holds a bucket for each value
that was met, and every artifact goes to the end of the bucket of its value. The map sees values
through their comparison alone.
-/

namespace ArtifactGC

/-- A bucket of items for each value that one of them has. -/
abbrev Buckets (α : Type) := Std.TreeMap PropertyValue (List α)

/-- The artifacts of a group that have a property, each behind its value. -/
def valued (property : String) (group : List Artifact) : List (PropertyValue × Artifact) :=
  group.filterMap fun a => (a.property? property).map (·, a)

namespace Buckets

variable {α : Type}

/-- The buckets after an item goes to the end of the bucket of its value, which is made if there
is none. -/
def push (buckets : Buckets α) (value : PropertyValue) (item : α) : Buckets α :=
  buckets.alter value fun bucket => some (bucket.getD [] ++ [item])

/-- The buckets of some items, each behind its value. -/
def ofList (items : List (PropertyValue × α)) : Buckets α :=
  items.foldl (fun buckets item => buckets.push item.1 item.2) ∅

/-- The buckets of the artifacts of a group that have a property. -/
def ofGroup (property : String) (group : List Artifact) : Buckets Artifact :=
  ofList (valued property group)

end Buckets

end ArtifactGC
