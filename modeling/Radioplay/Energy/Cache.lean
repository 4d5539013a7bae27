import Radioplay.Table
import Radioplay.Fault

/-! Quiet points that are found once. The cache computes a profile for a name that has none, keeps
it if the computation succeeds, and answers from what it keeps ever after. -/

namespace Radioplay.Energy

structure Cache (β : Type) where
  profiles : Table β
  deriving Inhabited

namespace Cache

variable {β : Type}

def empty : Cache β := ⟨[]⟩

def get? (c : Cache β) (name : String) : Option β := c.profiles.get? name

def contains (c : Cache β) (name : String) : Bool := (c.get? name).isSome

def size (c : Cache β) : Nat := c.profiles.length

/-- The profile kept for a name, else the computed one, which is kept unless it failed. The number
says how often the computation ran. -/
def getOrCompute (c : Cache β) (name : String) (compute : Except Fault β) :
    Except Fault β × Cache β × Nat :=
  match c.get? name with
  | some p => (.ok p, c, 0)
  | none =>
    match compute with
    | .ok p => (.ok p, ⟨c.profiles.put name p⟩, 1)
    | .error fault => (.error fault, c, 1)

/-- `n` callers in turn, as they end up when they ask at once. -/
def callers (name : String) (compute : Except Fault β) :
    (n : Nat) → Cache β → List (Except Fault β) × Cache β × Nat
  | 0, c => ([], c, 0)
  | n + 1, c =>
    let (answer, c, k) := c.getOrCompute name compute
    let (answers, c, k') := callers name compute n c
    (answer :: answers, c, k + k')

end Cache

end Radioplay.Energy
