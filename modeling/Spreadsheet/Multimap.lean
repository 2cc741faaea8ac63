/-!
Maps from keys to lists of values. Operations on one key keep every list free of repeats, and a key
whose list would become empty is dropped.
-/

namespace Spreadsheet

abbrev Multimap (α β : Type) := List (α × List β)

namespace Multimap

variable {α β : Type} [DecidableEq α] [DecidableEq β]

/-- The values under a key. -/
def get (m : Multimap α β) (k : α) : List β := (m.lookup k).getD []

/-- Adds a value under a key, unless it is there. -/
def insert (m : Multimap α β) (k : α) (v : β) : Multimap α β :=
  match m with
  | [] => [(k, [v])]
  | (l, vs) :: rest =>
    if l = k then (l, if v ∈ vs then vs else vs ++ [v]) :: rest else (l, vs) :: insert rest k v

/-- Takes a key away. -/
def eraseKey (m : Multimap α β) (k : α) : Multimap α β := m.filter fun (l, _) => l != k

/-- Takes a value away from a key. -/
def erase (m : Multimap α β) (k : α) (v : β) : Multimap α β :=
  m.filterMap fun (l, vs) =>
    if l = k then
      match vs.erase v with
      | [] => none
      | ws => some (l, ws)
    else some (l, vs)

/-- The number of values under all keys. -/
def size (m : Multimap α β) : Nat := m.foldr (fun (_, vs) n => vs.length + n) 0

end Multimap

end Spreadsheet
