import Mathlib.Data.List.Basic
import Mathlib.Data.Nat.Notation

/-! Unified diffs: their text, and where the added lines stand in the new version. Start
lines are not data of a hunk but counted, so that every header is right. -/

namespace UnifiedDiff

structure Line where
  text : List Char
  noNewline : '\n' ∉ text

/-- An empty line of context may be left empty altogether. A remark is about a missing
newline at the end of the file. -/
inductive HunkLine where
  | context (l : Line)
  | blank
  | added (l : Line)
  | removed (l : Line)
  | remark (l : Line)

namespace HunkLine

def text : HunkLine → List Char
  | context l => ' ' :: l.text
  | blank => []
  | added l => '+' :: l.text
  | removed l => '-' :: l.text
  | remark l => '\\' :: l.text

def isOld : HunkLine → Bool
  | context _ | blank | removed _ => true
  | added _ | remark _ => false

def isNew : HunkLine → Bool
  | context _ | blank | added _ => true
  | removed _ | remark _ => false

theorem cases_of_not_isNew {l : HunkLine} (h : l.isNew = false) :
    (∃ line, l = removed line) ∨ ∃ line, l = remark line := by
  cases l with
  | removed line => exact .inl ⟨line, rfl⟩
  | remark line => exact .inr ⟨line, rfl⟩
  | context line => cases h
  | blank => cases h
  | added line => cases h

end HunkLine

/-- So many unchanged lines lie before the hunk, behind the last one. -/
structure Hunk where
  gap : ℕ
  lines : List HunkLine
  heading : Line
  shortOld : Bool
  shortNew : Bool

def Hunk.oldCount (h : Hunk) : ℕ := h.lines.countP HunkLine.isOld

def Hunk.newCount (h : Hunk) : ℕ := h.lines.countP HunkLine.isNew

/-- The first line of a range with so many lines before it, or the last of these for an
empty range. -/
def startLine (before count : ℕ) : ℕ := if count = 0 then before else before + 1

/-- A count of 1 may be left out. -/
def range (short : Bool) (before count : ℕ) : List Char :=
  Nat.toDigits 10 (startLine before count) ++
    if short ∧ count = 1 then [] else ',' :: Nat.toDigits 10 count

def Hunk.header (h : Hunk) (oldBefore newBefore : ℕ) : List Char :=
  ['@', '@', ' ', '-'] ++ range h.shortOld oldBefore h.oldCount ++ ([' ', '+'] ++
    range h.shortNew newBefore h.newCount ++ ([' ', '@', '@'] ++ h.heading.text))

/-- Lines outside the hunks, such as those that say what happens to a file's mode. -/
structure Preamble where
  lines : List Line
  outside : ∀ l ∈ lines, ∀ c ∈ l.text.head?, c ≠ '+' ∧ c ≠ ' ' ∧ c ≠ '@'

/-- A byte as three octal digits. -/
def octalByte (b : UInt8) : List Char :=
  '\\' :: [b.toNat / 64, b.toNat / 8 % 8, b.toNat % 8].map Nat.digitChar

/-- A character of a path in quotes. -/
def quoteChar (c : Char) : List Char :=
  if c = '"' ∨ c = '\\' then ['\\', c]
  else match [(7, 'a'), (8, 'b'), (9, 't'), (10, 'n'), (11, 'v'), (12, 'f'), (13, 'r')].lookup
      c.toNat with
    | some letter => ['\\', letter]
    | none =>
      if 0x20 ≤ c.toNat ∧ c.toNat < 0x7F then [c] else (String.utf8EncodeChar c).flatMap octalByte

/-- How a diff writes the path of a file: with a prefix or none, in quotes or not, and with
something behind a TAB or not. -/
structure PathLabel where
  pre : List Char
  path : List Char
  quoted : Bool
  stamp : Option (List Char)

def PathLabel.text (l : PathLabel) : List Char :=
  (if l.quoted then '"' :: (l.pre ++ l.path).flatMap quoteChar ++ ['"'] else l.pre ++ l.path) ++
    l.stamp.elim [] ('\t' :: ·)

structure FilePatch where
  preamble : Preamble
  oldLabel : Line
  newLabel : PathLabel
  noNewline : '\n' ∉ newLabel.text
  hunks : List Hunk

/-- The text of hunks that lie behind so many lines of either version. -/
def hunkTexts : ℕ → ℕ → List Hunk → List (List Char)
  | _, _, [] => []
  | old, new, h :: hs =>
    h.header (old + h.gap) (new + h.gap) :: h.lines.map HunkLine.text ++
      hunkTexts (old + h.gap + h.oldCount) (new + h.gap + h.newCount) hs

def FilePatch.path (p : FilePatch) : List Char := p.newLabel.path

def FilePatch.texts (p : FilePatch) : List (List Char) :=
  p.preamble.lines.map Line.text ++ (['-', '-', '-', ' '] ++ p.oldLabel.text) ::
    (['+', '+', '+', ' '] ++ p.newLabel.text) :: hunkTexts 0 0 p.hunks

structure Diff where
  files : List FilePatch
  trailer : Preamble

def Diff.texts (d : Diff) : List (List Char) :=
  d.files.flatMap FilePatch.texts ++ d.trailer.lines.map Line.text

/-- Every line ends with a newline. -/
def Diff.text (d : Diff) : List Char := ['\n'].intercalate (d.texts ++ [[]])

/-- An added line: behind the hunks with the lines `earlier`, in a hunk with `newBefore`
lines of the new version before it, and behind the hunk's lines `before`. -/
structure Added where
  patch : FilePatch
  earlier : List HunkLine
  newBefore : ℕ
  before : List HunkLine
  line : Line

/-- The line number in the new version. -/
def Added.number (a : Added) : ℕ := a.newBefore + a.before.countP HunkLine.isNew + 1

def addedIn (patch : FilePatch) (earlier : List HunkLine) (newBefore : ℕ) :
    List HunkLine → List HunkLine → List Added
  | _, [] => []
  | before, .added l :: ls =>
    ⟨patch, earlier, newBefore, before, l⟩ ::
      addedIn patch earlier newBefore (before ++ [.added l]) ls
  | before, l :: ls => addedIn patch earlier newBefore (before ++ [l]) ls

def addedFrom (patch : FilePatch) : List HunkLine → ℕ → List Hunk → List Added
  | _, _, [] => []
  | earlier, new, h :: hs =>
    addedIn patch earlier (new + h.gap) [] h.lines ++
      addedFrom patch (earlier ++ h.lines) (new + h.gap + h.newCount) hs

def FilePatch.added (p : FilePatch) : List Added := addedFrom p [] 0 p.hunks

def Diff.added (d : Diff) : List Added := d.files.flatMap FilePatch.added

/-! ### The lines of the text -/

theorem newline_not_mem_toDigits (n : ℕ) : '\n' ∉ Nat.toDigits 10 n := by
  intro h
  exact absurd (Nat.isDigit_of_mem_toDigits (by decide) (by decide) h) (by decide)

theorem newline_not_mem_range (short : Bool) (before count : ℕ) :
    '\n' ∉ range short before count := by
  rw [range, List.mem_append]
  rintro (h | h)
  · exact newline_not_mem_toDigits _ h
  · split at h
    · exact List.not_mem_nil h
    · exact (List.mem_cons.mp h).elim (by decide) (newline_not_mem_toDigits _)

theorem HunkLine.newline_not_mem (l : HunkLine) : '\n' ∉ l.text := by
  have hcons {c : Char} (hc : '\n' ≠ c) (l : Line) : '\n' ∉ c :: l.text := by
    rw [List.mem_cons]
    exact not_or.mpr ⟨hc, l.noNewline⟩
  cases l with
  | blank => exact List.not_mem_nil
  | context l => exact hcons (by decide) l
  | added l => exact hcons (by decide) l
  | removed l => exact hcons (by decide) l
  | remark l => exact hcons (by decide) l

theorem Hunk.newline_not_mem_header (h : Hunk) (oldBefore newBefore : ℕ) :
    '\n' ∉ h.header oldBefore newBefore := by
  have hold := newline_not_mem_range h.shortOld oldBefore h.oldCount
  have hnew := newline_not_mem_range h.shortNew newBefore h.newCount
  simp [Hunk.header, hold, hnew, h.heading.noNewline]

theorem newline_not_mem_hunkTexts (old new : ℕ) (hs : List Hunk) :
    ∀ s ∈ hunkTexts old new hs, '\n' ∉ s := by
  induction hs generalizing old new with
  | nil => exact nofun
  | cons h hs ih =>
    intro s hs'
    rw [hunkTexts, List.mem_append, List.mem_cons, List.mem_map] at hs'
    rcases hs' with (rfl | ⟨l, -, rfl⟩) | hrest
    · exact h.newline_not_mem_header _ _
    · exact l.newline_not_mem
    · exact ih _ _ s hrest

theorem Diff.newline_not_mem (d : Diff) : ∀ s ∈ d.texts, '\n' ∉ s := by
  intro s hs
  rw [Diff.texts, List.mem_append, List.mem_flatMap, List.mem_map] at hs
  rcases hs with ⟨p, -, hp⟩ | ⟨l, -, rfl⟩
  · rw [FilePatch.texts, List.mem_append, List.mem_cons, List.mem_cons, List.mem_map] at hp
    rcases hp with ⟨l, -, rfl⟩ | rfl | rfl | hp
    · exact l.noNewline
    · simp [p.oldLabel.noNewline]
    · simp [p.noNewline]
    · exact newline_not_mem_hunkTexts _ _ _ s hp
  · exact l.noNewline

/-- Splitting the text at newlines gives the lines back, and an empty one. -/
theorem Diff.splitOn_text (d : Diff) : d.text.splitOn '\n' = d.texts ++ [[]] := by
  apply List.splitOn_intercalate
  · intro s hs
    rcases List.mem_append.mp hs with hs | hs
    · exact d.newline_not_mem s hs
    · rw [List.mem_singleton.mp hs]
      exact List.not_mem_nil
  · simp

end UnifiedDiff
