/-! Leaving out repeated items of a list. -/
namespace MarkerGen

/-- Keeps the first of items that are the same; `seen` are items that came before. -/
def firstOfEach {α : Type} (same : α → α → Bool) (seen : List α) : List α → List α
  | [] => []
  | item :: rest =>
    if seen.any (same item) then firstOfEach same seen rest
    else item :: firstOfEach same (item :: seen) rest

end MarkerGen
