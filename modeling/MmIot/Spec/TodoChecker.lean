import Mathlib.Data.Int.Notation
import MmIot.Lib.PyText
import MmIot.Lib.Regex

/-! `todo-checker.py`: the lines of a diff, one after the other. -/

namespace MmIot

open PyText

section TodoChecker

variable (u : Unicode)

/-- A keyword, in any case. -/
def keyword (s : Text) : Regex := .literal sameLetter s

/-- `(todo|to-do|to_do)\s*:\s*(.+)`, in any case -/
def TODO_PATTERN : Regex :=
  .seq (.group (.alt (keyword ['t', 'o', 'd', 'o']) (.alt (keyword ['t', 'o', '-', 'd', 'o'])
    (keyword ['t', 'o', '_', 'd', 'o'])))) <|
  .seq (.many 0 PyText.isSpace) <| .seq (.char (· = ':')) <| .seq (.many 0 PyText.isSpace) <|
  .group (.many 1 (· ≠ '\n'))

/-- `^OSP-\d+\s*-\s*.+` -/
def VALID_FORMAT : Regex :=
  .seq .start <| .seq (.exactly ['O', 'S', 'P', '-']) <| .seq (.many 1 u.isDecimal) <|
  .seq (.many 0 PyText.isSpace) <| .seq (.char (· = '-')) <| .seq (.many 0 PyText.isSpace) <|
  .many 1 (· ≠ '\n')

/-- `\+(\d+)` -/
def NEW_START : Regex := .seq (.char (· = '+')) (.group (.many 1 u.isDecimal))

def TODO_REASON : String := "Invalid format. Expected: TODO: OSP-<TICKET> - Description"

structure TodoViolation where
  file : Option Text
  line : ℤ
  content : Text
  reason : String

structure TodoChecker where
  currentFile : Option Text
  lineNum : ℤ
  violations : List TodoViolation

/-- What is behind the first ` b/`, or else behind `+++ `. -/
def fileName (line : Text) : Text := (splitOnce [' ', 'b', '/'] line).getD (line.drop 4)

/-- The check of an added line's text. -/
def TodoChecker.checkContent (t : TodoChecker) (content : Text) : TodoChecker :=
  match TODO_PATTERN.search content with
  | some groups =>
    let todoContent := strip (groups.getD 1 [])
    if ((VALID_FORMAT u).matchAt todoContent).isNone then
      { t with violations := t.violations ++ [⟨t.currentFile, t.lineNum, content, TODO_REASON⟩] }
    else t
  | none => t

def TodoChecker.checkLine (t : TodoChecker) (line : Text) : TodoChecker :=
  if startsWith line ['+', '+', '+'] then
    { t with currentFile := some (fileName line), lineNum := 0 }
  else if startsWith line ['@', '@'] then
    match (NEW_START u).search line with
    | some groups => { t with lineNum := u.int (groups.getD 0 []) - 1 }
    | none => t
  else if startsWith line ['+'] ∧ ¬ startsWith line ['+', '+', '+'] then
    let t := { t with lineNum := t.lineNum + 1 }
    t.checkContent u (line.drop 1)
  else if startsWith line [' '] ∧ ¬ startsWith line [' ', ' '] then
    { t with lineNum := t.lineNum + 1 }
  else t

/-- `check_diff` of a new checker. -/
def checkDiff (diffText : Text) : List TodoViolation :=
  ((diffText.splitOn '\n').foldl (TodoChecker.checkLine u) ⟨none, 0, []⟩).violations

end TodoChecker

end MmIot
