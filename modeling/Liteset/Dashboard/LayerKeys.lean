import Liteset.Lib.JsObject

/-!
# Keys of layers

A filter scope names a layer of a chart by the key `chart-<chart id>-layer-<index>`.
-/

set_option autoImplicit false

namespace Liteset.Dashboard

open Lib.JsObject (Record)

def afterPrefix : List Char → List Char → Option (List Char)
  | [], text => some text
  | _ :: _, [] => none
  | c :: cs, d :: ds => if c = d then afterPrefix cs ds else none

/-- `/^chart-(\d+)-layer-(\d+)$/` and `parseInt` of its groups. -/
def matchLayerKey (layerKey : String) : Option (Int × Int) := do
  let rest ← afterPrefix "chart-".toList layerKey.toList
  let chart := rest.takeWhile Char.isDigit
  let layer ← afterPrefix "-layer-".toList (rest.dropWhile Char.isDigit)
  if chart ≠ [] ∧ layer ≠ [] ∧ layer.all Char.isDigit then
    some (Record.decimal chart, Record.decimal layer)
  else none

end Liteset.Dashboard
