import Radioplay.Library

/-! Several libraries over one file tree that may change between any two steps. Each library is
served by one of the caches, and one cache may serve several. -/

namespace Radioplay

structure Shelves (α : Type) where
  files : FileTree
  /-- Each library with the number of its cache. -/
  libraries : List (Library × Nat)
  caches : List (Energy.Cache (List α))
  deriving Inhabited

namespace Shelves

variable {α β : Type}

/-- A library with its cache. -/
def shelf (s : Shelves α) (i : Nat) : Shelf α :=
  let (library, j) := s.libraries[i]?.getD default
  { library := library, cache := s.caches[j]?.getD default }

/-- Takes back a library and its cache. -/
def replace (s : Shelves α) (i : Nat) (shelf : Shelf α) : Shelves α :=
  let (_, j) := s.libraries[i]?.getD default
  { s with libraries := s.libraries.set i (shelf.library, j), caches := s.caches.set j shelf.cache }

/-- A step on one library. -/
def on (s : Shelves α) (i : Nat) (a : Act (Shelf α) β) : Except Fault β × Shelves α :=
  let (outcome, shelf) := a.perform (s.shelf i)
  (outcome, s.replace i shelf)

def withFiles (s : Shelves α) (files : FileTree) : Shelves α := { s with files := files }

/-- What can happen to libraries and files. -/
inductive Step where
  | load (library : Nat) (path : String)
  | preload (library : Nat) (paths : List String)
  | change (files : FileTree)

/-- The shelves after a step, and how the step came out. -/
def step [Sound.Kit] [Quantity α] (s : Shelves α) : Step → Except Fault Unit × Shelves α
  | .load i path =>
    let (outcome, s) := s.on i (Library.load s.files path)
    (outcome.map fun _ => (), s)
  | .preload i paths => s.on i (Library.preload s.files paths)
  | .change files => (.ok (), s.withFiles files)

/-- The shelves after steps in a row, whether they failed or not. -/
def after [Sound.Kit] [Quantity α] (s : Shelves α) (steps : List Step) : Shelves α :=
  steps.foldl (fun s t => (s.step t).2) s

end Shelves

end Radioplay
