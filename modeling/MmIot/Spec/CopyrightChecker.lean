import Mathlib.Data.Int.Notation
import MmIot.Lib.Fnmatch
import MmIot.Lib.PyText
import MmIot.Lib.Regex

/-! `copyright-checker.py`: the headers of the touched files, on a file system as Python
sees it. -/

namespace MmIot

open PyText

/-! ### Paths -/

/-- The parts of a `PurePosixPath`. -/
def pathParts (path : Text) : List Text := (path.splitOn '/').filter (· ∉ [[], ['.']])

/-- Two slashes in front are kept, one or three are one. -/
def pathRoot (path : Text) : Text :=
  if startsWith path ['/', '/'] ∧ ¬ startsWith path ['/', '/', '/'] then ['/', '/']
  else if startsWith path ['/'] then ['/']
  else []

/-- `PurePosixPath(path).as_posix()` -/
def asPosix (path : Text) : Text :=
  if pathRoot path = [] ∧ pathParts path = [] then ['.']
  else pathRoot path ++ ['/'].intercalate (pathParts path)

/-- `Path(path).name` -/
def pathName (path : Text) : Text := (pathParts path).getLastD []

/-- `suffix` of a name: neither the first nor the last character is its dot. -/
def pathSuffix (name : Text) : Text :=
  let ending := (name.reverse.takeWhile (· ≠ '.')).reverse
  let stem := (name.reverse.dropWhile (· ≠ '.')).drop 1
  if ending = [] ∨ stem = [] then [] else '.' :: ending

def CHECKED_SUFFIXES : List Text :=
  [['.', 'c'], ['.', 'h'], ['.', 'd', 't', 's'], ['.', 'd', 't', 's', 'i'],
    ['.', 'o', 'v', 'e', 'r', 'l', 'a', 'y'], ['.', 'c', 'o', 'n', 'f'], ['.', 'p', 'y'],
    ['.', 's', 'h']]

def HEADER_SCAN_LINES : ℕ := 40

def KCONFIG : Text := ['K', 'c', 'o', 'n', 'f', 'i', 'g']

def CMAKE_LISTS : Text :=
  ['C', 'M', 'a', 'k', 'e', 'L', 'i', 's', 't', 's', '.', 't', 'x', 't']

def isCheckedFile (path : Text) : Bool :=
  let name := pathName path
  if name = CMAKE_LISTS ∨ startsWith name KCONFIG then true
  else pathSuffix name ∈ CHECKED_SUFFIXES

def isBlocklisted (path : Text) (patterns : List Text) : Bool :=
  let posixPath := asPosix path
  patterns.any fun pattern =>
    let stripped := pattern.rdropWhile (· = '/')
    posixPath = stripped || startsWith posixPath (stripped ++ ['/']) ||
      Fnmatch.fnmatch posixPath pattern

/-! ### Lines -/

section Lines

variable (u : Unicode)

/-- `copyright\b(?:\s*\(c\))?\s*(.*)`, in any case -/
def COPYRIGHT_RE : Regex :=
  .seq (.literal sameLetter ['c', 'o', 'p', 'y', 'r', 'i', 'g', 'h', 't']) <|
  .seq (.edge u.isWord) <|
  .seq (.opt (.seq (.many 0 PyText.isSpace) (.literal sameLetter ['(', 'c', ')']))) <|
  .seq (.many 0 PyText.isSpace) <| .group (.many 0 (· ≠ '\n'))

/-- `\d{4}` -/
def YEAR_RE : Regex := .times 4 (.char u.isDecimal)

/-- `^\s*rsource\b` -/
def RSOURCE_ONLY_RE : Regex :=
  .seq .start <| .seq (.many 0 PyText.isSpace) <|
  .seq (.exactly ['r', 's', 'o', 'u', 'r', 'c', 'e']) <| .edge u.isWord

def isRsourceOnly (lines : List Text) : Bool :=
  let nonBlank := lines.filter fun line => strip line ≠ []
  nonBlank ≠ [] && nonBlank.all fun line => ((RSOURCE_ONLY_RE u).matchAt line).isSome

def MORSE_MICRO : Text := ['m', 'o', 'r', 's', 'e', ' ', 'm', 'i', 'c', 'r', 'o']

/-- The lines from which the year is taken. -/
def copyrightLines (headerLines : List Text) : List Text :=
  headerLines.filter fun line => ((COPYRIGHT_RE u).search line).isSome

def mmLines (copyrightLines : List Text) : List Text :=
  copyrightLines.filter fun line => (splitOnce MORSE_MICRO (u.lower line)).isSome

def years (line : Text) : List ℕ := ((YEAR_RE u).findall line).map u.int

end Lines

/-! ### Files -/

/-- What `is_file` and `read_text` make of a path. -/
inductive FileEntry where
  /-- `is_file` raises, as it does for a directory that may not be searched. -/
  | noAccess
  | noFile
  | unreadable
  | text (t : Text)

inductive PyError where
  | osError | valueError
  deriving DecidableEq

structure CopyrightViolation where
  path : Text
  reason : String

structure CopyrightChecker where
  currentYear : ℤ
  blocklistPatterns : List Text
  violations : List CopyrightViolation

def CopyrightChecker.add (c : CopyrightChecker) (path : Text) (reason : String) :
    CopyrightChecker :=
  { c with violations := c.violations ++ [⟨path, reason⟩] }

section Files

variable (u : Unicode) (fs : Text → FileEntry)

/-- `check_file` from the lines on. `max` of no numbers raises. -/
def CopyrightChecker.checkLines (c : CopyrightChecker) (path : Text) (lines : List Text) :
    Except PyError CopyrightChecker :=
  if startsWith (pathName path) KCONFIG ∧ isRsourceOnly u lines then .ok c
  else
    let headerLines := lines.take HEADER_SCAN_LINES
    let copyrightLines := copyrightLines u headerLines
    if copyrightLines = [] then .ok (c.add path "missing a copyright header entirely")
    else
      let mmLines := mmLines u copyrightLines
      if mmLines = [] then
        .ok (c.add path "has a copyright header but no 'Morse Micro' copyright line")
      else
        match (mmLines.flatMap (years u)).max? with
        | none => .error .valueError
        | some maxYear =>
          if maxYear < c.currentYear then
            .ok (c.add path (s!"Morse Micro copyright year ({maxYear}) does not cover " ++
              s!"the current year ({c.currentYear})"))
          else .ok c

def CopyrightChecker.checkFile (c : CopyrightChecker) (path : Text) :
    Except PyError CopyrightChecker :=
  match fs (asPosix path) with
  | .noAccess => .error .osError
  | .noFile => .ok c
  | .unreadable => .ok c
  | .text t =>
    if ¬ isCheckedFile path then .ok c
    else if isBlocklisted path c.blocklistPatterns then .ok c
    else c.checkLines u path (splitlines t)

/-- The loop of `main` over the paths. -/
def checkFiles (currentYear : ℤ) (blocklistPatterns : List Text) (paths : List Text) :
    Except PyError CopyrightChecker :=
  paths.foldlM (CopyrightChecker.checkFile u fs) ⟨currentYear, blocklistPatterns, []⟩

end Files

end MmIot
