import Mathlib.Data.List.DropRight
import Mathlib.Data.Nat.Notation

/-! Python's `str` as lists of characters. -/

namespace PyText

abbrev Text := List Char

/-- `str.isspace` of one character, and the whitespace of `re`. -/
def isSpace (c : Char) : Bool :=
  0x09 ≤ c.toNat ∧ c.toNat ≤ 0x0D ∨ 0x1C ≤ c.toNat ∧ c.toNat ≤ 0x20 ∨ c.toNat = 0x85 ∨
    c.toNat = 0xA0 ∨ c.toNat = 0x1680 ∨ 0x2000 ≤ c.toNat ∧ c.toNat ≤ 0x200A ∨
    c.toNat = 0x2028 ∨ c.toNat = 0x2029 ∨ c.toNat = 0x202F ∨ c.toNat = 0x205F ∨ c.toNat = 0x3000

def strip (s : Text) : Text := (s.dropWhile isSpace).rdropWhile isSpace

/-- The characters that end a line. -/
def isLineEnd (c : Char) : Bool :=
  0x0A ≤ c.toNat ∧ c.toNat ≤ 0x0D ∨ 0x1C ≤ c.toNat ∧ c.toNat ≤ 0x1E ∨ c.toNat = 0x85 ∨
    c.toNat = 0x2028 ∨ c.toNat = 0x2029

/-- The lines of a text, with `line` in front of it. -/
def splitlinesFrom (line : Text) : Text → List Text
  | [] => if line = [] then [] else [line]
  | '\r' :: '\n' :: s => line :: splitlinesFrom [] s
  | c :: s => if isLineEnd c then line :: splitlinesFrom [] s else splitlinesFrom (line ++ [c]) s

def splitlines (s : Text) : List Text := splitlinesFrom [] s

def startsWith (s p : Text) : Bool := p.isPrefixOf s

@[simp] theorem startsWith_nil (s : Text) : startsWith s [] = true := by
  cases s <;> rfl

@[simp] theorem startsWith_cons (c d : Char) (s p : Text) :
    startsWith (c :: s) (d :: p) = (d == c && startsWith s p) := rfl

theorem startsWith_head {c : Char} {s : Text} (h : ∀ d ∈ s.head?, d ≠ c) (p : Text) :
    startsWith s (c :: p) = false := by
  cases s with
  | nil => rfl
  | cons d s => rw [startsWith_cons, beq_false_of_ne (h d rfl).symm, Bool.false_and]

/-- What `re.IGNORECASE` takes for the lower-case letter `d`. -/
def sameLetter (c d : Char) : Bool :=
  c.toLower = d ∨ d = 'i' ∧ (c.toNat = 0x130 ∨ c.toNat = 0x131) ∨ d = 's' ∧ c.toNat = 0x17F ∨
    d = 'k' ∧ c.toNat = 0x212A

/-- `s.split(sep, 1)[1]`, if `sep` is in `s`. -/
def splitOnce (sep : Text) : Text → Option Text
  | [] => if sep = [] then some [] else none
  | c :: s => if sep.isPrefixOf (c :: s) then some ((c :: s).drop sep.length) else splitOnce sep s

/-- What `re` and `int` take from the Unicode database. -/
structure Unicode where
  decimal : Char → Option ℕ
  isWord : Char → Bool
  lower : Text → Text
  decimal_ascii : ∀ c, c.toNat < 128 → decimal c = if c.isDigit then some (c.toNat - 48) else none
  isWord_ascii : ∀ c, c.toNat < 128 → isWord c = (c.isAlphanum || c = '_')
  lower_ascii : ∀ s, (∀ c ∈ s, c.toNat < 128) → lower s = s.map Char.toLower

namespace Unicode

variable (u : Unicode)

def isDecimal (c : Char) : Bool := (u.decimal c).isSome

/-- `int(ds)` of decimal digits. -/
def int (ds : Text) : ℕ := ds.foldl (fun n c => 10 * n + (u.decimal c).getD 0) 0

theorem ascii_of_isDigit {c : Char} (h : c.isDigit) : c.toNat < 128 := by
  have hle : c.val ≤ '9'.val := by
    simp only [Char.isDigit, Bool.and_eq_true, decide_eq_true_eq] at h
    exact h.2
  have hnat : c.toNat ≤ 57 := UInt32.le_iff_toNat_le.mp hle
  omega

theorem decimal_of_isDigit {c : Char} (h : c.isDigit) : u.decimal c = some (c.toNat - 48) := by
  rw [u.decimal_ascii c (ascii_of_isDigit h), if_pos h]

theorem int_toDigits (n : ℕ) : u.int (Nat.toDigits 10 n) = n := by
  have hdigits : ∀ c ∈ Nat.toDigits 10 n, c.isDigit := fun c hc =>
    Nat.isDigit_of_mem_toDigits (by decide) (by decide) hc
  have hfold (ds : Text) (hds : ∀ c ∈ ds, c.isDigit) (m : ℕ) :
      ds.foldl (fun n c => 10 * n + (u.decimal c).getD 0) m = Nat.ofDigitChars 10 ds m := by
    induction ds generalizing m with
    | nil => rw [List.foldl_nil, Nat.ofDigitChars_nil]
    | cons c ds ih =>
      rw [List.forall_mem_cons] at hds
      rw [List.foldl_cons, ih hds.2, Nat.ofDigitChars_cons, u.decimal_of_isDigit hds.1]
      rfl
  rw [int, hfold _ hdigits, Nat.ofDigitChars_toDigits (by decide) (by decide)]

end Unicode

/-- The database of the ASCII characters alone. -/
def asciiOnly : Unicode where
  decimal c := if c.isDigit then some (c.toNat - 48) else none
  isWord c := c.isAlphanum || c = '_'
  lower s := s.map Char.toLower
  decimal_ascii _ _ := rfl
  isWord_ascii _ _ := rfl
  lower_ascii _ _ := rfl

end PyText
