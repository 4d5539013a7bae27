/-! Blank characters, the words between them and the lines of a text. -/

namespace Radioplay.Text

/-- The white space of Unicode, to which the four information separators belong; the zero-width
space and the byte-order mark do not. -/
def isBlank (c : Char) : Bool :=
  let n := c.toNat
  (9 ≤ n && n ≤ 13) || (28 ≤ n && n ≤ 32) || n == 0x85 || n == 0xA0 || n == 0x1680 ||
    (0x2000 ≤ n && n ≤ 0x200A) || n == 0x2028 || n == 0x2029 || n == 0x202F || n == 0x205F ||
    n == 0x3000

/-- The white space of ASCII, the only one that separates a key from its value. -/
def isSpace (c : Char) : Bool :=
  c == ' ' || (9 ≤ c.toNat && c.toNat ≤ 13)

/-- Letters, digits and the underscore of ASCII. -/
def isWordChar (c : Char) : Bool := c.isAlphanum || c == '_'

/-- Drops the characters of a class from both ends. -/
def stripEnds (p : Char → Bool) (s : List Char) : List Char :=
  ((s.dropWhile p).reverse.dropWhile p).reverse

def trim (s : List Char) : List Char := stripEnds isBlank s

/-- The byte-order mark, which is no white space. -/
def byteOrderMark : Char := '\uFEFF'

/-- Drops white space from both ends, then byte-order marks, then white space again. -/
def cleaned (s : List Char) : List Char := trim (stripEnds (· == byteOrderMark) (trim s))

/-- The number of words, which white space separates: one for each word's last character. -/
def wordCount (s : List Char) : Nat :=
  (s.foldr
    (fun c (n, atEnd) => if isBlank c then (n, true) else (if atEnd then n + 1 else n, false))
    (0, true)).1

/-- The pieces between newlines, of which there is one more than there are newlines. -/
def lines (s : List Char) : List (List Char) :=
  s.foldr
    (fun c ls =>
      if c = '\n' then [] :: ls
      else
        match ls with
        | [] => [[c]]
        | l :: ls => (c :: l) :: ls)
    [[]]

/-- Lines joined by newlines. -/
def unlines : List (List Char) → List Char
  | [] => []
  | [l] => l
  | l :: ls => l ++ '\n' :: unlines ls

theorem lines_nil : lines [] = [[]] := rfl

theorem lines_ne_nil (s : List Char) : lines s ≠ [] := by
  cases s with
  | nil => simp [lines]
  | cons c cs =>
    simp only [lines, List.foldr_cons]
    split
    · simp
    · split <;> simp

end Radioplay.Text
