import EdgeDevice.Bytes

set_option autoImplicit false
set_option relaxedAutoImplicit false

/-!
# Resource paths

A path is a row of segments with a slash between neighbours. Written by hand it may have slashes at
both ends and several in a row; the segments are what stands between them and is not empty.

## Main definitions

* `EdgeDevice.Coap.Path.segments` — the segments of a path.
* `EdgeDevice.Coap.Path.join` — segments with one slash between neighbours.
* `EdgeDevice.Coap.Path.extend?` — one more segment, if there is room for it.
* `EdgeDevice.Coap.Path.extendAll` — as many segments as there is room for.
-/

namespace EdgeDevice.Coap.Path

/-- Cuts at every slash; there is always at least one piece. -/
def cut : List Char → List (List Char)
  | [] => [[]]
  | c :: cs =>
    if c = '/' then [] :: cut cs
    else
      match cut cs with
      | [] => [[c]]
      | piece :: pieces => (c :: piece) :: pieces

/-- The segments of a path. -/
def segments (path : String) : List String :=
  ((cut path.toList).filter fun piece => !piece.isEmpty).map String.ofList

/-- Segments with one slash between neighbours. -/
def join (segments : List String) : String := "/".intercalate segments

variable {capacity : Nat}

/-- The slash in front of a further segment. -/
def slash (path : String) : String := if path = "" then "" else "/"

/-- The path with one more segment behind it, if there is room. -/
def extend? (path : Text capacity) (segment : String) : Option (Text capacity) :=
  (path.append? (slash path.string)).bind fun path => path.append? segment

/-- The path with more segments behind it, and whether there was room for all of them. What found
no room is missing: the last segments, and perhaps not the slash in front of them. -/
def extendAll (path : Text capacity) : List String → Text capacity × Bool
  | [] => (path, true)
  | segment :: segments =>
    match path.append? (slash path.string) with
    | none => (path, false)
    | some opened =>
      match opened.append? segment with
      | none => (opened, false)
      | some longer => extendAll longer segments

end EdgeDevice.Coap.Path
