/-! Values under names, in the order in which the names came up. -/
namespace Synopsis

variable {α : Type}

/-- The entries with a value put under a name: a known name keeps its place. -/
def entered (entries : List (String × α)) (name : String) (v : α) : List (String × α) :=
  if entries.any (·.1 == name) then
    entries.map fun e => if e.1 == name then (name, v) else e
  else entries ++ [(name, v)]

/-- The entries with those of the second list put in, one after the other. -/
def overlay (old new : List (String × α)) : List (String × α) :=
  new.foldl (fun entries e => entered entries e.1 e.2) old

end Synopsis
