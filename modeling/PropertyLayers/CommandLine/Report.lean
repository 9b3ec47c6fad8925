import PropertyLayers.CommandLine.Command
import PropertyLayers.CommandLine.Json
import PropertyLayers.Declaration.Merged
import PropertyLayers.Environment.Effective

/-!
# Reports

What is shown of a class: its merged sources and, if they were resolved, the effective properties.
-/

namespace PropertyLayers

structure Report where
  name : Text
  merged : MergedSources
  effective? : Option (List EffectiveProperty)

namespace Report

/-- A heading and its lines, indented; `(none)` where there are none. -/
def part (heading : Text) (lines : List Text) : List Text :=
  heading :: (if lines.isEmpty then [Text.ofString "(none)"] else lines).map fun line =>
    "  " ++ line

def effectiveLine (p : EffectiveProperty) : Text :=
  p.key ++ "=" ++ p.value ++ "  [" ++ p.source ++ "]"

def toText (r : Report) : Text :=
  let parts : List (List Text) :=
    [["Unit: " ++ r.name], part "Locations:" r.merged.locations,
      part "Inlined Properties:" r.merged.properties]
      ++ (r.effective?.map fun ps => part "Effective Properties:" (ps.map effectiveLine)).toList
  Text.join "\n" (parts.intersperse [[]]).flatten

def toJson (r : Report) : Json :=
  .object [("unit", .text r.name),
    ("locations", .list (r.merged.locations.map .text)),
    ("properties", .list (r.merged.properties.map .text)),
    ("effective", match r.effective? with
      | none => .null
      | some ps => .object (ps.map fun p =>
        (p.key, .object [("value", .text p.value), ("source", .text p.source)])))]

/-- The report in a format, if it can be written. -/
def write? (r : Report) : Format → Option Text
  | .text => some r.toText
  | .json => r.toJson.write?

end Report

end PropertyLayers
