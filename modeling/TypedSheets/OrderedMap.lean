/-!
# Ordered maps

A map from names that shows the order in which its names first came: a list of
pairs in which no name stands twice. Writing to a name it holds keeps the place
of that name; writing to a new one puts it last.

## Main definitions

* `OrderedMap.get?`, `OrderedMap.insert` — reading and writing one name.
* `OrderedMap.insertNew` — writing that leaves a name it holds alone.
* `OrderedMap.ofList` — the map of a list of pairs, the last of each name winning.
-/

namespace TypedSheets
namespace OrderedMap

variable {α : Type}

/-- What a map holds under a name. -/
def get? : List (String × α) → String → Option α
  | [], _ => none
  | (key, value) :: rest, name => if key = name then some value else get? rest name

/-- Whether a map holds a name. -/
def contains (map : List (String × α)) (name : String) : Bool :=
  map.any fun entry => entry.1 == name

/-- A map with a name set to a value. -/
def insert : List (String × α) → String → α → List (String × α)
  | [], name, value => [(name, value)]
  | (key, old) :: rest, name, value =>
    if key = name then (key, value) :: rest else (key, old) :: insert rest name value

/-- A map with a name set to a value unless it holds the name already. -/
def insertNew (map : List (String × α)) (name : String) (value : α) : List (String × α) :=
  if contains map name then map else map ++ [(name, value)]

/-- The map of a list of pairs: each name at its first place with its last value. -/
def ofList (pairs : List (String × α)) : List (String × α) :=
  pairs.foldl (fun map pair => insert map pair.1 pair.2) []

end OrderedMap
end TypedSheets
