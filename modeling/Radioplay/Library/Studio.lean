import Radioplay.Library
import Radioplay.Timeline.Generate

/-! Studios that take their clips from a library. -/

namespace Radioplay.Library

variable {α : Type} [Quantity α]

/-- A studio whose clips are found by `resolve` and read from files. -/
def studio [Sound.Kit] (files : FileTree)
    (resolve : (character : Option String) → (state : String) → Act (Shelf α) (Option String)) :
    Studio (Shelf α) α where
  resolve := resolve
  preload paths := do
    note (.debug "fsl_previewer.timeline"
      ("Preloading " ++ toString paths.length ++ " audio resources"))
    preload files paths
  duration path := do
    let shelf ← get
    Act.ofExcept (shelf.duration path)
  points path := do
    let shelf ← get
    return shelf.points path

end Radioplay.Library
