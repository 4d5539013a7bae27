import Mathlib.Data.List.Basic
import Radioplay.Proofs.Json.Strings

/-! The text of a value. An exact value holds no doubles, no whole number with too many digits and
no object that names a field twice; it is written whole, in printed ASCII characters and
newlines. -/

namespace Radioplay

/-- Is a value written and read exactly, with no more than `room` arrays and objects inside each
other? -/
inductive Value.IsExact : (room : ℕ) → Value → Prop
  | null {room : ℕ} : IsExact room .null
  | bool {room : ℕ} (b : Bool) : IsExact room (.bool b)
  | int {room : ℕ} {n : Int} (hDigits : exceedsDigitLimit n = false) : IsExact room (.int n)
  | str {room : ℕ} (s : String) : IsExact room (.str s)
  | arr {room : ℕ} {items : List Value} (hItems : ∀ v ∈ items, IsExact room v) :
    IsExact (room + 1) (.arr items)
  | obj {room : ℕ} {fields : List (String × Value)} (hKeys : (fields.map Prod.fst).Nodup)
    (hFields : ∀ f ∈ fields, IsExact room f.2) : IsExact (room + 1) (.obj fields)

namespace Json

mutual

/-- The text of a value at a level. -/
def valueText (level : ℕ) : Value → List Char
  | .null => "null".toList
  | .bool b => (if b then "true" else "false").toList
  | .int n => (toString n).toList
  | .float x => floatText x
  | .str s => stringText s
  | .arr [] => ['[', ']']
  | .arr (v :: vs) =>
    '[' :: newline (level + 1) ++ valueText (level + 1) v ++ itemsText level vs
  | .obj [] => ['\x7b', '\x7d']
  | .obj ((k, v) :: fields) =>
    '\x7b' :: newline (level + 1) ++ stringText k ++ [':', ' '] ++ valueText (level + 1) v ++
      fieldsText level fields

/-- The text of the items that follow in an array, and its end. -/
def itemsText (level : ℕ) : List Value → List Char
  | [] => newline level ++ [']']
  | v :: vs => ',' :: newline (level + 1) ++ valueText (level + 1) v ++ itemsText level vs

/-- The text of the fields that follow in an object, and its end. -/
def fieldsText (level : ℕ) : List (String × Value) → List Char
  | [] => newline level ++ ['\x7d']
  | (k, v) :: fields =>
    ',' :: newline (level + 1) ++ stringText k ++ [':', ' '] ++ valueText (level + 1) v ++
      fieldsText level fields

end

variable {v : Value} {room level : ℕ}

/-! ### Pieces put together -/

@[simp] theorem written_ok (text : List Char) (rest : List Piece) :
    written (.ok text :: rest) = (text ++ (written rest).1, (written rest).2) := rfl

/-- Do the pieces of a value make up its text, whatever comes before and after? -/
def IsWhole (v : Value) : Prop :=
  ∀ level lead rest, written (pieces level lead v ++ rest) =
    (lead ++ valueText level v ++ (written rest).1, (written rest).2)

theorem written_itemPieces {items : List Value} (h : ∀ v ∈ items, IsWhole v) (level : ℕ)
    (rest : List Piece) :
    written (itemPieces level items ++ rest) =
      (itemsText level items ++ (written rest).1, (written rest).2) := by
  induction items with
  | nil => simp [itemPieces, itemsText]
  | cons v vs ih =>
    rw [itemPieces, itemsText, List.append_assoc, h v List.mem_cons_self,
      ih fun w hw => h w (List.mem_cons_of_mem v hw)]
    simp only [List.append_assoc]

theorem written_fieldPieces {fields : List (String × Value)} (h : ∀ f ∈ fields, IsWhole f.2)
    (level : ℕ) (rest : List Piece) :
    written (fieldPieces level fields ++ rest) =
      (fieldsText level fields ++ (written rest).1, (written rest).2) := by
  induction fields with
  | nil => simp [fieldPieces, fieldsText]
  | cons f fields ih =>
    obtain ⟨k, v⟩ := f
    have hValue : IsWhole v := h (k, v) List.mem_cons_self
    rw [fieldPieces, fieldsText, List.cons_append, written_ok,
      List.append_assoc (pieces (level + 1) [] v), hValue,
      ih fun g hg => h g (List.mem_cons_of_mem _ hg)]
    simp only [List.append_assoc, List.nil_append]

theorem isWhole (h : v.IsExact room) : IsWhole v := by
  induction h with
  | null => intro level lead rest; simp [pieces, valueText]
  | bool b => intro level lead rest; simp [pieces, valueText]
  | int hDigits =>
    intro level lead rest
    simp [pieces, valueText, intText, hDigits, Piece.after, Except.map]
  | str s => intro level lead rest; simp [pieces, valueText]
  | @arr room items hItems ih =>
    intro level lead rest
    cases items with
    | nil => simp [pieces, valueText]
    | cons v vs =>
      rw [pieces, valueText, List.cons_append, written_ok, List.append_assoc,
        ih v List.mem_cons_self, written_itemPieces fun w hw => ih w (List.mem_cons_of_mem v hw)]
      simp only [List.append_assoc]
  | @obj room fields hKeys hFields ih =>
    intro level lead rest
    cases fields with
    | nil => simp [pieces, valueText]
    | cons f fields =>
      obtain ⟨k, v⟩ := f
      have hValue : IsWhole v := ih (k, v) List.mem_cons_self
      rw [pieces, valueText, List.cons_append, written_ok,
        List.append_assoc (pieces (level + 1) [] v), hValue,
        written_fieldPieces fun g hg => ih g (List.mem_cons_of_mem _ hg)]
      simp only [List.append_assoc, List.nil_append]

theorem write_exact (h : v.IsExact room) : write v = (valueText 0 v, none) := by
  have hWritten := isWhole h 0 [] []
  rw [List.append_nil] at hWritten
  rw [write, hWritten]
  simp [written]

/-! ### Characters of the text -/

/-- A list of characters is checked along the list, not over all characters. -/
theorem isTyped_of_all {s : List Char} (h : s.all (fun c => decide (IsTyped c)) = true) :
    ∀ c ∈ s, IsTyped c := fun c hc => of_decide_eq_true (List.all_eq_true.mp h c hc)

theorem isTyped_newline (level : ℕ) : ∀ c ∈ newline level, IsTyped c := by
  intro c hc
  rcases List.mem_cons.mp hc with rfl | hc
  · exact .inl rfl
  · rw [(List.mem_replicate.mp hc).2]
    decide

theorem isTyped_digits (n : ℕ) : ∀ c ∈ Nat.toDigits 10 n, IsTyped c := by
  intro c hc
  have hDigit := Nat.isDigit_of_mem_toDigits (by decide) (by decide) hc
  simp only [Char.isDigit, Bool.and_eq_true, decide_eq_true_eq, ge_iff_le, UInt32.le_iff_toNat_le]
    at hDigit
  have hLow : 48 ≤ c.toNat := hDigit.1
  have hHigh : c.toNat ≤ 57 := hDigit.2
  exact .inr ⟨by omega, by omega⟩

/-- A whole number is written as its digits, after a minus where it is negative. -/
theorem toList_toString_int (n : Int) :
    (toString n).toList = (if n < 0 then ['-'] else []) ++ Nat.toDigits 10 n.natAbs := by
  cases n with
  | ofNat n =>
    have hText : toString (Int.ofNat n) = toString n := rfl
    rw [hText, Nat.toString_eq_ofList_toDigits, if_neg (by simp)]
    simp
  | negSucc n =>
    have hText : toString (Int.negSucc n) = "-" ++ toString (n + 1) := rfl
    rw [hText, Nat.toString_eq_ofList_toDigits, if_pos (by simp)]
    simp

theorem isTyped_int (n : Int) : ∀ c ∈ (toString n).toList, IsTyped c := by
  rw [toList_toString_int]
  refine List.forall_mem_append.mpr ⟨?_, isTyped_digits _⟩
  split <;> exact isTyped_of_all (by decide)

theorem isTyped_zeros (n : Int) : ∀ c ∈ Decimal.zeros n, IsTyped c := by
  intro c hc
  rw [(List.mem_replicate.mp hc).2]
  decide

theorem isTyped_digitsOf (n : ℕ) (e : Int) : ∀ c ∈ (Decimal.digitsOf n e).digits, IsTyped c := by
  intro c hc
  have hKept : c ∈ (Nat.toDigits 10 n).reverse :=
    (List.dropWhile_sublist _).subset (List.mem_reverse.mp hc)
  exact isTyped_digits n c (List.mem_reverse.mp hKept)

theorem isTyped_shortestFrom (x : Float) (n d : ℕ) (k : Int) (fuel count : ℕ) :
    ∀ c ∈ (Decimal.shortestFrom x n d k fuel count).digits, IsTyped c := by
  induction fuel generalizing count with
  | zero => exact isTyped_digitsOf _ _
  | succ fuel ih =>
    rw [Decimal.shortestFrom]
    simp only
    -- The digits tried are those near, then those far, which lie on one side or the other.
    repeat' split
    all_goals first | exact isTyped_digitsOf _ _ | exact ih _

theorem isTyped_exponentText (l : Decimal.Layout) (e : Int) :
    ∀ c ∈ Decimal.exponentText l e, IsTyped c := by
  rw [Decimal.exponentText]
  simp only [List.forall_mem_cons, List.forall_mem_append]
  exact ⟨by decide, by split <;> decide, isTyped_zeros _, isTyped_digits _⟩

theorem isTyped_layOut (l : Decimal.Layout) {t : Decimal.Digits}
    (h : ∀ c ∈ t.digits, IsTyped c) : ∀ c ∈ t.layOut l, IsTyped c := by
  have hPoint : IsTyped '.' := by decide
  have hZero : IsTyped '0' := by decide
  rw [Decimal.Digits.layOut]
  split
  · split
    · exact List.forall_mem_cons.mpr ⟨hZero, List.forall_mem_cons.mpr
        ⟨hPoint, List.forall_mem_append.mpr ⟨isTyped_zeros _, h⟩⟩⟩
    split
    · exact List.forall_mem_append.mpr ⟨List.forall_mem_append.mpr ⟨h, isTyped_zeros _⟩,
        isTyped_of_all (by decide)⟩
    · refine List.forall_mem_append.mpr ⟨fun c hc => h c (List.mem_of_mem_take hc),
        List.forall_mem_cons.mpr ⟨hPoint, fun c hc => h c (List.mem_of_mem_drop hc)⟩⟩
  · split
    · exact isTyped_exponentText _ _
    · rename_i c hDigits
      rw [hDigits] at h
      exact List.forall_mem_cons.mpr ⟨h c List.mem_cons_self, isTyped_exponentText _ _⟩
    · rename_i c cs _ hDigits
      rw [hDigits] at h
      exact List.forall_mem_cons.mpr ⟨h c List.mem_cons_self, List.forall_mem_cons.mpr
        ⟨hPoint, List.forall_mem_append.mpr
          ⟨fun d hd => h d (List.mem_cons_of_mem c hd), isTyped_exponentText _ _⟩⟩⟩

theorem isTyped_floatText (x : Float) : ∀ c ∈ floatText x, IsTyped c := by
  rw [floatText, Decimal.text]
  split
  · rename_i p _
    have hBody : ∀ c ∈ (if p.significand = 0 then ['0', '.', '0']
        else (Decimal.shortest x.abs p).layOut Decimal.layout), IsTyped c := by
      split
      · exact isTyped_of_all (by decide)
      · exact isTyped_layOut _ (isTyped_shortestFrom _ _ _ _ _ _)
    rw [Decimal.finiteText, String.toList_ofList]
    split
    · exact List.forall_mem_cons.mpr ⟨by decide, hBody⟩
    · exact hBody
  · split
    · exact isTyped_of_all (by decide)
    split
    · exact isTyped_of_all (by decide)
    · exact isTyped_of_all (by decide)

/-- Are all characters in the pieces of a text printed ones or newlines? -/
def AreTyped (ps : List Piece) : Prop := ∀ text, .ok text ∈ ps → ∀ c ∈ text, IsTyped c

theorem areTyped_append {ps qs : List Piece} : AreTyped (ps ++ qs) ↔ AreTyped ps ∧ AreTyped qs := by
  simp only [AreTyped, List.mem_append, or_imp, forall_and]

theorem areTyped_cons {text : List Char} {ps : List Piece} :
    AreTyped (.ok text :: ps) ↔ (∀ c ∈ text, IsTyped c) ∧ AreTyped ps := by
  simp only [AreTyped, List.mem_cons, Except.ok.injEq, or_imp, forall_and, forall_eq]

theorem areTyped_single {text : List Char} : AreTyped [.ok text] ↔ ∀ c ∈ text, IsTyped c := by
  simp [AreTyped]

theorem areTyped_intText {lead : List Char} (hLead : ∀ c ∈ lead, IsTyped c) (n : Int) :
    AreTyped [Piece.after lead (intText n)] := by
  rw [intText]
  split
  · intro text hText
    cases List.mem_singleton.mp hText
  · exact areTyped_single.mpr (List.forall_mem_append.mpr ⟨hLead, isTyped_int n⟩)

theorem isTyped_key (level : ℕ) (k : String) :
    ∀ c ∈ newline level ++ stringText k ++ [':', ' '], IsTyped c :=
  List.forall_mem_append.mpr ⟨List.forall_mem_append.mpr
    ⟨isTyped_newline level, isTyped_stringText k⟩, isTyped_of_all (by decide)⟩

mutual

/-- The pieces of any value are typed, after a lead that is. -/
theorem areTyped_pieces (level : ℕ) {lead : List Char} (hLead : ∀ c ∈ lead, IsTyped c) :
    ∀ v : Value, AreTyped (pieces level lead v)
  | .null => areTyped_single.mpr (List.forall_mem_append.mpr ⟨hLead, isTyped_of_all (by decide)⟩)
  | .bool b => by
    refine areTyped_single.mpr (List.forall_mem_append.mpr ⟨hLead, ?_⟩)
    cases b <;> exact isTyped_of_all (by decide)
  | .int n => areTyped_intText hLead n
  | .float x => areTyped_single.mpr (List.forall_mem_append.mpr ⟨hLead, isTyped_floatText x⟩)
  | .str s => areTyped_single.mpr (List.forall_mem_append.mpr ⟨hLead, isTyped_stringText s⟩)
  | .arr [] =>
    areTyped_single.mpr (List.forall_mem_append.mpr ⟨hLead, isTyped_of_all (by decide)⟩)
  | .arr (v :: vs) => by
    have hOpen : ∀ c ∈ '[' :: newline (level + 1), IsTyped c :=
      List.forall_mem_cons.mpr ⟨by decide, isTyped_newline _⟩
    rw [pieces]
    exact areTyped_cons.mpr
      ⟨hLead, areTyped_append.mpr ⟨areTyped_pieces _ hOpen v, areTyped_itemPieces level vs⟩⟩
  | .obj [] =>
    areTyped_single.mpr (List.forall_mem_append.mpr ⟨hLead, isTyped_of_all (by decide)⟩)
  | .obj ((k, v) :: fields) => by
    have hName := isTyped_key (level + 1) k
    have hOpen : ∀ c ∈ lead ++ '\x7b' :: newline (level + 1) ++ stringText k ++ [':', ' '],
        IsTyped c := by
      simp only [List.append_assoc, List.cons_append] at hName ⊢
      exact List.forall_mem_append.mpr ⟨hLead, List.forall_mem_cons.mpr ⟨by decide, hName⟩⟩
    rw [pieces]
    exact areTyped_cons.mpr ⟨hOpen, areTyped_append.mpr
      ⟨areTyped_pieces _ (List.forall_mem_nil _) v, areTyped_fieldPieces level fields⟩⟩

theorem areTyped_itemPieces (level : ℕ) : ∀ vs : List Value, AreTyped (itemPieces level vs)
  | [] => areTyped_single.mpr
      (List.forall_mem_append.mpr ⟨isTyped_newline level, isTyped_of_all (by decide)⟩)
  | v :: vs => by
    have hComma : ∀ c ∈ ',' :: newline (level + 1), IsTyped c :=
      List.forall_mem_cons.mpr ⟨by decide, isTyped_newline _⟩
    rw [itemPieces]
    exact areTyped_append.mpr ⟨areTyped_pieces _ hComma v, areTyped_itemPieces level vs⟩

theorem areTyped_fieldPieces (level : ℕ) :
    ∀ fields : List (String × Value), AreTyped (fieldPieces level fields)
  | [] => areTyped_single.mpr
      (List.forall_mem_append.mpr ⟨isTyped_newline level, isTyped_of_all (by decide)⟩)
  | (k, v) :: fields => by
    rw [fieldPieces]
    exact areTyped_cons.mpr ⟨List.forall_mem_cons.mpr ⟨by decide, isTyped_key (level + 1) k⟩,
      areTyped_append.mpr
        ⟨areTyped_pieces _ (List.forall_mem_nil _) v, areTyped_fieldPieces level fields⟩⟩

end

theorem isTyped_written {ps : List Piece} (h : AreTyped ps) :
    ∀ c ∈ (written ps).1, IsTyped c := by
  induction ps with
  | nil => exact fun c hc => nomatch hc
  | cons p ps ih =>
    cases p with
    | error fault => exact fun c hc => nomatch hc
    | ok text =>
      obtain ⟨hText, hRest⟩ := areTyped_cons.mp h
      exact List.forall_mem_append.mpr ⟨hText, ih hRest⟩

/-- Whatever is written of a value is written in printed characters and newlines. -/
theorem isTyped_write (v : Value) : ∀ c ∈ (write v).1, IsTyped c :=
  isTyped_written (areTyped_pieces 0 (List.forall_mem_nil _) v)

theorem isTyped_valueText (h : v.IsExact room) : ∀ c ∈ valueText 0 v, IsTyped c := by
  have hTyped := isTyped_write v
  rwa [write_exact h] at hTyped

theorem isTyped_of_print {text : List Char} (h : print v = .ok text) :
    ∀ c ∈ text, IsTyped c := by
  have hTyped := isTyped_write v
  rw [print] at h
  generalize write v = done at h hTyped
  obtain ⟨done, _ | fault⟩ := done
  · cases h
    exact hTyped
  · cases h

end Json

end Radioplay
