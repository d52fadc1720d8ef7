/-!
Named values in the order in which their names first came up.

Putting a value under a name that is there already keeps the name's place, so the order of a list of
pairs is the order of first mention. A name stands for its value in the pair that `get?` finds
first; lists built by `put` hold each name once.

Main exports: `Pairs`, `Pairs.get?`, `Pairs.put`, `Pairs.ofList`.
-/

namespace Ascent

/-- Named values in order. -/
abbrev Pairs (α : Type) := List (String × α)

namespace Pairs

variable {α : Type}

/-- The value under a name. -/
def get? : Pairs α → String → Option α
  | [], _ => none
  | (n, v) :: rest, name => if n = name then some v else get? rest name

/-- The value in the last pair with a name. -/
def last? (ps : Pairs α) (name : String) : Option α := get? ps.reverse name

/-- The pairs with a value put under a name: in the name's place, or at the end if it is new. -/
def put : Pairs α → String → α → Pairs α
  | [], name, value => [(name, value)]
  | (n, v) :: rest, name, value =>
    if n = name then (n, value) :: rest else (n, v) :: put rest name value

/-- The pairs put one after another: each name in the place of its first mention, with the value of
its last. -/
def ofList (ps : List (String × α)) : Pairs α := ps.foldl (fun acc (n, v) => put acc n v) []

theorem get?_put (ps : Pairs α) (n m : String) (v : α) :
    (ps.put n v).get? m = if m = n then some v else ps.get? m := by
  induction ps with
  | nil => grind [put, get?]
  | cons p rest ih => grind [put, get?]

end Pairs
end Ascent
