/-! Tables from names to values that keep the order in which names were first put in. -/

namespace Radioplay

abbrev Table (α : Type) := List (String × α)

namespace Table

variable {α : Type}

/-- Gives a name a value: in the name's place if the table has it, else at the end. -/
def put (k : String) (v : α) : Table α → Table α
  | [] => [(k, v)]
  | (k', v') :: rest => if k' = k then (k, v) :: rest else (k', v') :: put k v rest

def get? (t : Table α) (k : String) : Option α := t.lookup k

/-- The table without a name. -/
def erase (k : String) (t : Table α) : Table α := t.filter fun e => e.1 ≠ k

/-- The table of a list of pairs, of which a later one wins over an earlier one of its name. -/
def ofList (pairs : List (String × α)) : Table α := pairs.foldl (fun t (k, v) => put k v t) []

theorem get?_cons (k : String) (v : α) (t : Table α) (k' : String) :
    get? ((k, v) :: t) k' = if k' = k then some v else get? t k' := by
  rw [get?, List.lookup_cons]
  by_cases h : k' = k
  · simp [h]
  · have hb : (k' == k) = false := by simpa using h
    simp [h, hb, get?]

theorem get?_put (k : String) (v : α) (t : Table α) (k' : String) :
    get? (put k v t) k' = if k' = k then some v else get? t k' := by
  induction t with
  | nil => rw [put, get?_cons]
  | cons e rest ih =>
    obtain ⟨a, b⟩ := e
    rw [put]
    by_cases ha : a = k
    · subst ha
      rw [if_pos rfl, get?_cons, get?_cons]
      by_cases h : k' = a
      · rw [if_pos h, if_pos h]
      · rw [if_neg h, if_neg h, if_neg h]
    · rw [if_neg ha, get?_cons, get?_cons, ih]
      by_cases h : k' = a
      · have hk : ¬k' = k := fun e => ha (h ▸ e)
        rw [if_pos h, if_neg hk, if_pos h]
      · rw [if_neg h, if_neg h]

theorem put_put (k : String) (v w : α) (t : Table α) :
    put k v (put k w t) = put k v t := by
  induction t with
  | nil => simp [put]
  | cons e rest ih =>
    obtain ⟨k', v'⟩ := e
    by_cases hk : k' = k
    · simp [put, hk]
    · simp [put, hk, ih]

theorem get?_erase (k : String) (t : Table α) (k' : String) :
    get? (erase k t) k' = if k' = k then none else get? t k' := by
  induction t with
  | nil => simp [erase, get?]
  | cons e rest ih =>
    obtain ⟨a, b⟩ := e
    rw [erase] at ih ⊢
    by_cases ha : a = k
    · rw [List.filter_cons_of_neg (by simpa using ha), ih, get?_cons]
      by_cases h : k' = k
      · rw [if_pos h, if_pos h]
      · rw [if_neg h, if_neg h, if_neg (ha ▸ h)]
    · rw [List.filter_cons_of_pos (by simpa using ha), get?_cons, ih, get?_cons]
      by_cases h : k' = a
      · rw [if_pos h, if_pos h, if_neg (h ▸ ha)]
      · rw [if_neg h, if_neg h]

end Table

end Radioplay
