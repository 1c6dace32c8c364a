import Mathlib.Data.Nat.Notation
import Mathlib.Data.List.Basic

/-! The patterns of Python's `fnmatch`, where a star matches slashes as well. -/

namespace Fnmatch

inductive Glob where
  | star
  | any
  | one (c : Char)
  | set (negated : Bool) (ranges : List (Char × Char))

/-- Single characters and ranges; an empty range has no characters. -/
def ranges : List Char → List (Char × Char)
  | [] => []
  | lo :: '-' :: hi :: s => (lo, hi) :: ranges s
  | c :: s => (c, c) :: ranges s

/-- What a bracket encloses, and what is behind the closing one. A bracket in front is no
closing one. -/
def enclosed (s : List Char) : Option (List Char × List Char) :=
  let negation := if s.head? = some '!' then ['!'] else []
  let first := if s[negation.length]? = some ']' then [']'] else []
  let rest := s.drop (negation.length + first.length)
  match rest.dropWhile (· ≠ ']') with
  | [] => none
  | _ :: behind => some (negation ++ first ++ rest.takeWhile (· ≠ ']'), behind)

def toSet (body : List Char) : Glob :=
  if body.head? = some '!' then .set true (ranges (body.drop 1)) else .set false (ranges body)

/-- With fuel for the characters. An open bracket stands for itself. -/
def parse : ℕ → List Char → List Glob
  | 0, _ => []
  | _, [] => []
  | fuel + 1, c :: s =>
    if c = '*' then .star :: parse fuel s
    else if c = '?' then .any :: parse fuel s
    else if c = '[' then
      match enclosed s with
      | some (body, behind) => toSet body :: parse fuel behind
      | none => .one '[' :: parse fuel s
    else .one c :: parse fuel s

def Glob.accepts (c : Char) : Glob → Bool
  | star | any => true
  | one d => c = d
  | set negated ranges => negated != ranges.any fun r => r.1 ≤ c ∧ c ≤ r.2

def run : List Glob → List Char → Bool
  | [], s => s.isEmpty
  | .star :: gs, s => s.tails.any (run gs)
  | g :: gs, s =>
    match s with
    | [] => false
    | c :: s => g.accepts c && run gs s

def fnmatch (name pattern : List Char) : Bool := run (parse pattern.length pattern) name

end Fnmatch
