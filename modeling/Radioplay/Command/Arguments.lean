import Radioplay.Text.Digit
import Radioplay.Text.Quoted

/-! Command lines. A grammar has switches, which start with dashes and may be shortened as long as
they stay unambiguous, and one operand. Two dashes alone end the switches. What fits nothing is put
aside, so that a caller can pass it on or refuse it. -/

namespace Radioplay.Command

/-- What a switch does. -/
inductive Effect where
  | help
  | version
  | verbose
  /-- Takes an argument and keeps it under a name. -/
  | keep (name : String)
  deriving DecidableEq, Repr

structure Switch where
  names : List String
  effect : Effect
  deriving DecidableEq, Repr

namespace Switch

def takesArgument (s : Switch) : Bool :=
  match s.effect with
  | .keep _ => true
  | _ => false

/-- The name of a switch in messages. -/
def title (s : Switch) : String := String.intercalate "/" s.names

end Switch

/-- How many arguments the operand of a grammar takes. -/
inductive Arity where
  | one
  | atMostOne
  /-- One, and all that follows it whatever it looks like. -/
  | oneAndRest
  deriving DecidableEq, Repr

structure Grammar where
  program : String
  usage : String
  help : String
  switches : List Switch
  operand : String
  arity : Arity

/-- Why a command line is not carried out. -/
inductive Stop where
  | help (text : String)
  | version
  | refused (program usage problem : String)
  deriving DecidableEq, Repr

/-- A switch found in an argument, under the name it was given by. -/
structure Found where
  switch : Switch
  name : String
  /-- What the same word goes on with, without an equals sign in between. -/
  attached : Option (List Char)
  deriving DecidableEq, Repr

/-- What a word on the command line is. -/
inductive Mark where
  /-- Two dashes alone, the first time. -/
  | dashes
  | argument
  | switch (found : Found)
  | unknown
  deriving DecidableEq, Repr

namespace Grammar

variable (g : Grammar)

def refuse {α : Type} (problem : String) : Except Stop α :=
  .error (.refused g.program g.usage problem)

/-- All names of switches, in order. -/
def switchNames : List (String × Switch) := g.switches.flatMap fun s => s.names.map fun n => (n, s)

def switch? (name : String) : Option Switch := g.switchNames.lookup name

/-- The part before the first equals sign, and the part after it if there is one. -/
def splitEquals (w : List Char) : List Char × Option (List Char) :=
  match w.dropWhile (· != '=') with
  | [] => (w, none)
  | _ :: value => (w.takeWhile (· != '='), some value)

/-- The switches that a word of two dashes and more may be short for. -/
def longCandidates (w : List Char) : List Found :=
  let (name, value) := splitEquals w
  (g.switchNames.filter fun n => name.isPrefixOf n.1.toList).map fun (n, s) =>
    ⟨s, n, value⟩

/-- The switches that a word of one dash may stand for: its first letter with the rest attached, or
the whole word cut short. -/
def shortCandidates (w : List Char) : List Found :=
  g.switchNames.filterMap fun (n, s) =>
    if n.toList = w.take 2 then some ⟨s, n, some (w.drop 2)⟩
    else if w.isPrefixOf n.toList then some ⟨s, n, none⟩
    else none

/-- A dash and a decimal number, which a newline may follow. -/
def isNegativeNumber (w : List Char) : Bool :=
  let w := if w.getLast? = some '\n' then w.dropLast else w
  match w with
  | '-' :: rest =>
    let whole := rest.takeWhile Text.isDecimal
    match rest.dropWhile Text.isDecimal with
    | [] => !whole.isEmpty
    | '.' :: part => !part.isEmpty && part.all Text.isDecimal
    | _ => false
  | _ => false

/-- What a word before the two dashes is. -/
def mark (word : String) : Except Stop Mark :=
  let w := word.toList
  if w.head? ≠ some '-' ∨ w.length = 1 then
    match g.switch? word with
    | some s => .ok (.switch ⟨s, word, none⟩)
    | none => .ok .argument
  else
    match g.switch? word with
    | some s => .ok (.switch ⟨s, word, none⟩)
    | none =>
      let (name, value) := splitEquals w
      match value, g.switch? (String.ofList name) with
      | some v, some s => .ok (.switch ⟨s, String.ofList name, some v⟩)
      | _, _ =>
        let candidates :=
          if (w.drop 1).head? = some '-' then g.longCandidates w else g.shortCandidates w
        match candidates with
        | [f] => .ok (.switch f)
        | [] => .ok (if isNegativeNumber w || w.contains ' ' then .argument else .unknown)
        | several =>
          g.refuse ("ambiguous option: " ++ word ++ " could match " ++
            String.intercalate ", " (several.map (·.name)))

/-- What each word is; after two dashes alone all are arguments. -/
def marks : List String → Except Stop (List (String × Mark))
  | [] => .ok []
  | word :: rest =>
    if word = "--" then .ok ((word, .dashes) :: rest.map fun w => (w, .argument))
    else do
      let m ← g.mark word
      let ms ← marks rest
      return (word, m) :: ms

/-- What has been taken from the command line. -/
structure Taken where
  verbose : Bool := false
  /-- Arguments by name, the last first; none where two dashes alone were attached to a switch. -/
  kept : List (String × Option String) := []
  /-- The words of the operand, once it has been met. -/
  operand : Option (List String) := none
  /-- Words that fit nothing. -/
  aside : List String := []

/-- The argument that words stand for: the first two dashes among them do not count. -/
def argumentOf (words : List String) : Option String := (words.erase "--").head?

/-- Carries out a switch with the words of its argument. -/
def carryOut (t : Taken) (s : Switch) (words : List String) : Except Stop Taken :=
  match s.effect with
  | .help => .error (.help g.help)
  | .version => .error .version
  | .verbose => .ok { t with verbose := true }
  | .keep name => .ok { t with kept := (name, argumentOf words) :: t.kept }

def carryOutAll (t : Taken) : List (Switch × List String) → Except Stop Taken
  | [] => .ok t
  | (s, words) :: rest =>
    match g.carryOut t s words with
    | .error e => .error e
    | .ok t => carryOutAll t rest

/-- What one word gives: switches with the words of their arguments, and whether the word that
follows was taken. -/
abbrev Cluster := List (Switch × List String) × Bool

/-- A switch with nothing attached. The word that follows is given if it is an argument. -/
def alone (next : Option String) (s : Switch) : Except Stop Cluster :=
  if s.takesArgument then
    match next with
    | some w => .ok ([(s, [w])], true)
    | none => g.refuse ("argument " ++ s.title ++ ": expected one argument")
  else .ok ([(s, [])], false)

def refuseAttached (s : Switch) (v : List Char) : Except Stop Cluster :=
  g.refuse ("argument " ++ s.title ++ ": ignored explicit argument " ++
    Text.quoted (String.ofList v))

/-- A switch of one dash and one letter with what is attached to it: its argument if it takes one,
else the letters of further switches. -/
def cluster (next : Option String) (s : Switch) : List Char → Except Stop Cluster
  | [] => g.alone next s
  | c :: rest =>
    if s.takesArgument then .ok ([(s, [String.ofList (c :: rest)])], false)
    else
      match g.switch? (String.ofList ['-', c]) with
      | none => g.refuseAttached s (c :: rest)
      | some s' => do
        let (switches, tookNext) ← cluster next s' rest
        return ((s, []) :: switches, tookNext)

/-- The switches in one word. A switch of two dashes has no letters attached. -/
def switchesOf (next : Option String) (f : Found) : Except Stop Cluster :=
  match f.attached with
  | none => g.alone next f.switch
  | some v =>
    if f.switch.takesArgument then .ok ([(f.switch, [String.ofList v])], false)
    else if v.isEmpty ∨ (f.name.toList.drop 1).head? = some '-' then g.refuseAttached f.switch v
    else g.cluster next f.switch v

/-- How many words the operand takes from the front, if it can. -/
def operandLength (words : List (String × Mark)) : Option Nat :=
  let before := (words.takeWhile fun w => w.2 = .dashes).length
  let rest := words.drop before
  match g.arity, rest with
  | .oneAndRest, (_, .argument) :: _ => some words.length
  | .oneAndRest, _ => none
  | .one, (_, .argument) :: rest | .atMostOne, (_, .argument) :: rest =>
    some (before + 1 + (rest.takeWhile fun w => w.2 = .dashes).length)
  | .one, _ => none
  | .atMostOne, _ => some before

def isSwitchMark : Mark → Bool
  | .switch _ | .unknown => true
  | _ => false

/-- Takes words until none is left, with the words of the operand as soon as they are met. -/
def takeWords : (fuel : Nat) → Taken → List (String × Mark) → Except Stop Taken
  | 0, t, _ => .ok t
  | fuel + 1, t, words =>
    let operand := if t.operand.isNone then g.operandLength words else none
    match words with
    | (word, .unknown) :: rest => takeWords fuel { t with aside := t.aside ++ [word] } rest
    | (_, .switch f) :: rest =>
      let next :=
        match rest with
        | (w, .argument) :: _ => some w
        | _ => none
      match g.switchesOf next f with
      | .error e => .error e
      | .ok (switches, tookNext) =>
        match g.carryOutAll t switches with
        | .error e => .error e
        | .ok t => takeWords fuel t (if tookNext then rest.drop 1 else rest)
    | words =>
      match operand with
      | some n =>
        let t := { t with operand := some ((words.take n).map (·.1)) }
        if n = 0 then .ok { t with aside := t.aside ++ words.map (·.1) }
        else takeWords fuel t (words.drop n)
      | none =>
        let extra := words.takeWhile fun w => !isSwitchMark w.2
        let t := { t with aside := t.aside ++ extra.map (·.1) }
        if extra.length = words.length then .ok t else takeWords fuel t (words.drop extra.length)

/-- What a command line gives. -/
def take (words : List String) : Except Stop Taken := do
  let marked ← g.marks words
  let t ← g.takeWords (2 * words.length + 2) {} marked
  if t.operand.isNone ∧ g.arity = .one then
    g.refuse ("the following arguments are required: " ++ g.operand)
  else return t

end Grammar

end Radioplay.Command
