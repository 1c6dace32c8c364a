import MmIot.Lib.UnifiedDiff
import MmIot.Spec.TodoChecker

/-! The findings of the TODO gate against the added lines of a diff. Lines are told apart by
their first characters, which the text of a line can imitate. -/

namespace MmIot

open PyText UnifiedDiff

section TodoChecker

variable (u : Unicode)

/-- The text matches `TODO_PATTERN`, with a remainder that does not match `VALID_FORMAT`. -/
def isBadTodo (content : Text) : Bool :=
  match TODO_PATTERN.search content with
  | some groups => ((VALID_FORMAT u).matchAt (strip (groups.getD 1 []))).isNone
  | none => false

theorem checkContent_eq (t : TodoChecker) (content : Text) :
    t.checkContent u content =
      if isBadTodo u content then
        { t with violations := t.violations ++ [⟨t.currentFile, t.lineNum, content, TODO_REASON⟩] }
      else t := by
  unfold TodoChecker.checkContent isBadTodo
  cases TODO_PATTERN.search content <;> rfl

/-! ### One line -/

/-- An added line with a text that begins with `++`. -/
def imitatesHeader (text : Text) : Bool := startsWith text ['+', '+']

/-- The last line beginning with `+++`, after a line of a hunk. -/
def headerAfter (header : Text) : HunkLine → Text
  | .added l => if imitatesHeader l.text then '+' :: l.text else header
  | _ => header

/-- `line_num` after a line of a hunk. -/
def lineNumAfter (lineNum : ℤ) : HunkLine → ℤ
  | .added l => if imitatesHeader l.text then 0 else lineNum + 1
  | .context l => if startsWith l.text [' '] then lineNum else lineNum + 1
  | .blank | .removed _ | .remark _ => lineNum

def lineViolations (header : Text) (lineNum : ℤ) : HunkLine → List TodoViolation
  | .added l =>
    if imitatesHeader l.text then []
    else if isBadTodo u l.text then
      [⟨some (fileName header), lineNum + 1, l.text, TODO_REASON⟩]
    else []
  | _ => []

theorem checkLine_other {line : Text} (h : ∀ c ∈ line.head?, c ≠ '+' ∧ c ≠ ' ' ∧ c ≠ '@')
    (t : TodoChecker) : t.checkLine u line = t := by
  have hplus := startsWith_head fun c hc => (h c hc).1
  have hspace := startsWith_head fun c hc => (h c hc).2.1
  have hat := startsWith_head fun c hc => (h c hc).2.2
  unfold TodoChecker.checkLine
  simp only [hplus, hspace, hat, Bool.false_eq_true, false_and, if_false]

theorem checkLine_hunkLine (header : Text) (lineNum : ℤ) (violations : List TodoViolation)
    (l : HunkLine) :
    TodoChecker.checkLine u ⟨some (fileName header), lineNum, violations⟩ l.text =
      ⟨some (fileName (headerAfter header l)), lineNumAfter lineNum l,
        violations ++ lineViolations u header lineNum l⟩ := by
  have hother {l : HunkLine} (h : ∀ c ∈ l.text.head?, c ≠ '+' ∧ c ≠ ' ' ∧ c ≠ '@') :=
    checkLine_other u h ⟨some (fileName header), lineNum, violations⟩
  cases l with
  | added l =>
    have hheader : startsWith ('+' :: l.text) ['+', '+', '+'] = imitatesHeader l.text := rfl
    have hat : startsWith ('+' :: l.text) ['@', '@'] = false := rfl
    have hplus : startsWith ('+' :: l.text) ['+'] = true := by simp
    simp only [HunkLine.text, TodoChecker.checkLine, headerAfter, lineNumAfter,
      lineViolations, hplus, hheader, hat, checkContent_eq, List.drop_one, List.tail_cons]
    cases imitatesHeader l.text with
    | true => simp
    | false => cases isBadTodo u l.text <;> simp
  | context l =>
    have hplus (p : Text) : startsWith (' ' :: l.text) ('+' :: p) = false := rfl
    have hat : startsWith (' ' :: l.text) ['@', '@'] = false := rfl
    have hspace : startsWith (' ' :: l.text) [' '] = true := by simp
    have hindent : startsWith (' ' :: l.text) [' ', ' '] = startsWith l.text [' '] := rfl
    simp only [HunkLine.text, TodoChecker.checkLine, headerAfter, lineNumAfter,
      lineViolations, hplus, hat, hspace, hindent]
    cases startsWith l.text [' '] <;> simp
  | blank =>
    rw [hother (by simp [HunkLine.text])]
    simp [headerAfter, lineNumAfter, lineViolations]
  | removed l =>
    rw [hother (by simp [HunkLine.text])]
    simp [headerAfter, lineNumAfter, lineViolations]
  | remark l =>
    rw [hother (by simp [HunkLine.text])]
    simp [headerAfter, lineNumAfter, lineViolations]

/-! ### One hunk -/

/-- The last line beginning with `+++`, after lines of the hunks of a file. -/
def headerOf (patch : FilePatch) (ls : List HunkLine) : Text :=
  ls.foldl headerAfter ('+' :: '+' :: '+' :: ' ' :: patch.newLabel.text)

/-- `line_num` after lines of a hunk, from `n` on. -/
def lineNumOf (n : ℤ) (ls : List HunkLine) : ℤ := ls.foldl lineNumAfter n

/-- What is found for a bad added line, if it is not taken for a header. -/
def reported (a : Added) : Option TodoViolation :=
  if imitatesHeader a.line.text then none
  else some ⟨some (fileName (headerOf a.patch (a.earlier ++ a.before))),
    lineNumOf a.newBefore a.before + 1, a.line.text, TODO_REASON⟩

def isBadAdded (a : Added) : Bool := isBadTodo u a.line.text

/-- What is found for added lines. -/
def findings (as : List Added) : List TodoViolation :=
  (as.filter (isBadAdded u)).filterMap reported

theorem findings_append (as as' : List Added) :
    findings u (as ++ as') = findings u as ++ findings u as' := by
  rw [findings, List.filter_append, List.filterMap_append]
  rfl

theorem findings_addedIn_cons (patch : FilePatch) (earlier : List HunkLine) (n : ℕ)
    (before : List HunkLine) (l : HunkLine) (ls : List HunkLine) :
    findings u (addedIn patch earlier n before (l :: ls)) =
      lineViolations u (headerOf patch (earlier ++ before)) (lineNumOf n before) l ++
        findings u (addedIn patch earlier n (before ++ [l]) ls) := by
  cases l with
  | added l =>
    rw [addedIn, ← List.singleton_append, findings_append, lineViolations]
    congr 1
    unfold findings
    cases hbad : isBadTodo u l.text with
    | false => simp [isBadAdded, hbad]
    | true => cases hheader : imitatesHeader l.text <;> simp [isBadAdded, reported, hbad, hheader]
  | context l => rfl
  | blank => rfl
  | removed l => rfl
  | remark l => rfl

/-- The lines of a hunk, of which those in `before` are read already. -/
theorem foldl_hunkLines (patch : FilePatch) (earlier : List HunkLine) (n : ℕ)
    (before ls : List HunkLine) (violations : List TodoViolation) :
    (ls.map HunkLine.text).foldl (TodoChecker.checkLine u)
        ⟨some (fileName (headerOf patch (earlier ++ before))), lineNumOf n before, violations⟩ =
      ⟨some (fileName (headerOf patch (earlier ++ (before ++ ls)))), lineNumOf n (before ++ ls),
        violations ++ findings u (addedIn patch earlier n before ls)⟩ := by
  induction ls generalizing before violations with
  | nil => simp [addedIn, findings]
  | cons l ls ih =>
    have hheader : headerAfter (headerOf patch (earlier ++ before)) l =
        headerOf patch (earlier ++ (before ++ [l])) := by
      simp only [headerOf, List.foldl_append, List.foldl_cons, List.foldl_nil]
    have hlineNum : lineNumAfter (lineNumOf n before) l = lineNumOf n (before ++ [l]) := by
      simp only [lineNumOf, List.foldl_append, List.foldl_cons, List.foldl_nil]
    rw [List.map_cons, List.foldl_cons, checkLine_hunkLine, hheader, hlineNum, ih,
      findings_addedIn_cons, List.append_assoc, List.append_assoc, List.singleton_append]

/-- A hunk without lines of the new version finds nothing. -/
theorem foldl_hunkLines_old {ls : List HunkLine} (h : ∀ l ∈ ls, l.isNew = false)
    (t : TodoChecker) : (ls.map HunkLine.text).foldl (TodoChecker.checkLine u) t = t := by
  induction ls with
  | nil => rfl
  | cons l ls ih =>
    rw [List.forall_mem_cons] at h
    have hline : t.checkLine u l.text = t := by
      apply checkLine_other
      rcases HunkLine.cases_of_not_isNew h.1 with ⟨line, rfl⟩ | ⟨line, rfl⟩
      · simp [HunkLine.text]
      · simp [HunkLine.text]
    rw [List.map_cons, List.foldl_cons, hline, ih h.2]

theorem addedIn_old (patch : FilePatch) (earlier : List HunkLine) (n : ℕ)
    (before : List HunkLine) {ls : List HunkLine} (h : ∀ l ∈ ls, l.isNew = false) :
    addedIn patch earlier n before ls = [] ∧
      ∀ header, ls.foldl headerAfter header = header := by
  induction ls generalizing before with
  | nil => exact ⟨rfl, fun _ => rfl⟩
  | cons l ls ih =>
    rw [List.forall_mem_cons] at h
    rcases HunkLine.cases_of_not_isNew h.1 with ⟨line, rfl⟩ | ⟨line, rfl⟩
    · exact ih _ h.2
    · exact ih _ h.2

/-! ### Hunk headers -/

theorem isDecimal_toDigits (n : ℕ) : ∀ c ∈ Nat.toDigits 10 n, u.isDecimal c := by
  intro c hc
  have hdigit := Nat.isDigit_of_mem_toDigits (by decide) (by decide) hc
  rw [Unicode.isDecimal, u.decimal_of_isDigit hdigit, Option.isSome_some]

theorem not_isDecimal {c : Char} (hascii : c.toNat < 128) (h : c.isDigit = false) :
    ¬ u.isDecimal c := by
  simp [Unicode.isDecimal, u.decimal_ascii c hascii, h]

theorem mem_range {short : Bool} {before count : ℕ} {c : Char}
    (hc : c ∈ UnifiedDiff.range short before count) : c.isDigit ∨ c = ',' := by
  have hdigits {n : ℕ} (h : c ∈ Nat.toDigits 10 n) : c.isDigit :=
    Nat.isDigit_of_mem_toDigits (by decide) (by decide) h
  rw [UnifiedDiff.range, List.mem_append] at hc
  rcases hc with hc | hc
  · exact .inl (hdigits hc)
  · split at hc
    · exact absurd hc List.not_mem_nil
    · exact (List.mem_cons.mp hc).elim .inr fun h => .inl (hdigits h)

/-- A hunk header sets the line number in front of the hunk's first line. -/
theorem checkLine_hunkHeader (h : Hunk) (oldBefore newBefore : ℕ) (t : TodoChecker) :
    t.checkLine u (h.header oldBefore newBefore) =
      { t with lineNum := startLine newBefore h.newCount - 1 } := by
  have hsearch : (NEW_START u).search (h.header oldBefore newBefore) =
      some [Nat.toDigits 10 (startLine newBefore h.newCount)] := by
    have hold : ∀ c ∈ ['@', '@', ' ', '-'] ++ range h.shortOld oldBefore h.oldCount ++ [' '],
        ¬ decide (c = '+') := by
      intro c hc
      simp only [List.mem_append, List.mem_cons, List.not_mem_nil, or_false] at hc
      rw [decide_eq_true_eq]
      rintro rfl
      rcases hc with (hc | hc) | hc
      · exact absurd hc (by decide)
      · exact absurd (mem_range hc) (by decide)
      · exact absurd hc (by decide)
    have hrest (rest : Text) : ∀ c ∈ ((if h.shortNew ∧ h.newCount = 1 then []
        else ',' :: Nat.toDigits 10 h.newCount) ++ ' ' :: rest).head?, ¬ u.isDecimal c := by
      intro c hc
      split at hc
      · obtain rfl := Option.some.inj hc
        exact not_isDecimal u (by decide) rfl
      · obtain rfl := Option.some.inj hc
        exact not_isDecimal u (by decide) rfl
    have hfind := Regex.search_char_many (q := (· = '+')) (d := '+') hold (by decide)
      (isDecimal_toDigits u (startLine newBefore h.newCount)) Nat.toDigits_ne_nil
      (hrest ('@' :: '@' :: h.heading.text))
    rw [NEW_START, ← hfind, Hunk.header]
    simp [UnifiedDiff.range]
  have hplus (p : Text) : startsWith (h.header oldBefore newBefore) ('+' :: p) = false := rfl
  have hat : startsWith (h.header oldBefore newBefore) ['@', '@'] = true := rfl
  unfold TodoChecker.checkLine
  rw [hplus, hat, hsearch]
  simp [u.int_toDigits]

/-! ### A diff -/

/-- The hunks of a file, behind the hunks with the lines `earlier`. -/
theorem foldl_hunkTexts (patch : FilePatch) (earlier : List HunkLine) (old new : ℕ)
    (hs : List Hunk) (t : TodoChecker)
    (ht : t.currentFile = some (fileName (headerOf patch earlier))) :
    ((hunkTexts old new hs).foldl (TodoChecker.checkLine u) t).violations =
      t.violations ++ findings u (addedFrom patch earlier new hs) := by
  induction hs generalizing earlier old new t with
  | nil => simp [hunkTexts, addedFrom, findings]
  | cons h hs ih =>
    rw [hunkTexts, List.foldl_append, List.foldl_cons, checkLine_hunkHeader, addedFrom,
      findings_append]
    rcases Nat.eq_zero_or_pos h.newCount with hzero | hpos
    · have hlines : ∀ l ∈ h.lines, l.isNew = false := fun l hl =>
        Bool.eq_false_iff.mpr (List.countP_eq_zero.mp hzero l hl)
      obtain ⟨hadded, hheader⟩ := addedIn_old patch earlier (new + h.gap) [] hlines
      rw [foldl_hunkLines_old u hlines, hadded]
      apply ih
      rw [ht, headerOf, headerOf, List.foldl_append, hheader]
    · have hstart : ((startLine (new + h.gap) h.newCount : ℕ) : ℤ) - 1 =
          lineNumOf ((new + h.gap : ℕ) : ℤ) [] := by
        rw [startLine, if_neg (Nat.ne_of_gt hpos), lineNumOf, List.foldl_nil]
        omega
      have hlines := foldl_hunkLines u patch earlier (new + h.gap) [] h.lines t.violations
      rw [List.append_nil, List.nil_append] at hlines
      rw [hstart, ht, hlines, ih _ _ _ _ rfl, List.append_assoc]

theorem foldl_preamble (p : Preamble) (t : TodoChecker) :
    (p.lines.map Line.text).foldl (TodoChecker.checkLine u) t = t := by
  obtain ⟨lines, houtside⟩ := p
  dsimp only
  induction lines with
  | nil => rfl
  | cons l lines ih =>
    rw [List.forall_mem_cons] at houtside
    rw [List.map_cons, List.foldl_cons, checkLine_other u houtside.1, ih houtside.2]

theorem foldl_patch (patch : FilePatch) (t : TodoChecker) :
    (patch.texts.foldl (TodoChecker.checkLine u) t).violations =
      t.violations ++ findings u patch.added := by
  have hold : t.checkLine u (['-', '-', '-', ' '] ++ patch.oldLabel.text) = t :=
    checkLine_other u (by simp) t
  rw [FilePatch.texts, List.foldl_append, foldl_preamble, List.foldl_cons, hold, List.foldl_cons]
  exact foldl_hunkTexts u patch [] 0 0 patch.hunks _ rfl

theorem foldl_patches (patches : List FilePatch) (t : TodoChecker) :
    ((patches.flatMap FilePatch.texts).foldl (TodoChecker.checkLine u) t).violations =
      t.violations ++ findings u (patches.flatMap FilePatch.added) := by
  induction patches generalizing t with
  | nil => simp [findings]
  | cons patch patches ih =>
    rw [List.flatMap_cons, List.flatMap_cons, List.foldl_append, ih, foldl_patch,
      findings_append, List.append_assoc]

theorem checkDiff_text (d : Diff) : checkDiff u d.text = findings u d.added := by
  have hend (t : TodoChecker) : t.checkLine u [] = t := checkLine_other u (by simp) t
  rw [checkDiff, d.splitOn_text, List.foldl_append, List.foldl_cons, List.foldl_nil, hend,
    Diff.texts, List.foldl_append, foldl_preamble, foldl_patches, List.nil_append]
  rfl

/-! ### What is read right -/

/-- The line is counted if it is in the new version, and not taken for a header. -/
def isReadRight : HunkLine → Bool
  | .added l => !imitatesHeader l.text
  | .context l => !startsWith l.text [' ']
  | .blank => false
  | .removed _ | .remark _ => true

theorem countP_isNew_cons (l : HunkLine) (ls : List HunkLine) :
    ((l :: ls).countP HunkLine.isNew : ℤ) =
      (if l.isNew then 1 else 0) + ls.countP HunkLine.isNew := by
  rw [List.countP_cons]
  split <;> push_cast <;> omega

theorem lineNumAfter_le {n m : ℤ} (hle : n ≤ m) (hm : 0 ≤ m) (l : HunkLine) :
    lineNumAfter n l ≤ m + (if l.isNew then 1 else 0) ∧
      (lineNumAfter n l = m + (if l.isNew then 1 else 0) → n = m ∧ isReadRight l) := by
  cases l with
  | added l =>
    cases h : imitatesHeader l.text <;> simp [lineNumAfter, HunkLine.isNew, isReadRight, h] <;> omega
  | context l =>
    cases h : startsWith l.text [' '] <;>
      simp [lineNumAfter, HunkLine.isNew, isReadRight, h] <;> omega
  | blank =>
    simp only [lineNumAfter, HunkLine.isNew, if_true]
    omega
  | removed l => simpa [lineNumAfter, HunkLine.isNew, isReadRight] using hle
  | remark l => simpa [lineNumAfter, HunkLine.isNew, isReadRight] using hle

/-- Lines that are not counted stay missing, and a header starts over. -/
theorem lineNumOf_le {n m : ℤ} (hle : n ≤ m) (hm : 0 ≤ m) (ls : List HunkLine) :
    lineNumOf n ls ≤ m + ls.countP HunkLine.isNew ∧
      (lineNumOf n ls = m + ls.countP HunkLine.isNew → n = m ∧ ∀ l ∈ ls, isReadRight l) := by
  induction ls generalizing n m with
  | nil =>
    rw [lineNumOf, List.foldl_nil, List.countP_nil]
    exact ⟨by omega, fun h => ⟨by omega, nofun⟩⟩
  | cons l ls ih =>
    have hstep : lineNumOf n (l :: ls) = lineNumOf (lineNumAfter n l) ls := rfl
    obtain ⟨hline, hlineExact⟩ := lineNumAfter_le hle hm l
    obtain ⟨hrest, hrestExact⟩ := ih hline (by split <;> omega)
    rw [hstep, countP_isNew_cons]
    refine ⟨by omega, fun heq => ?_⟩
    obtain ⟨hn, hls⟩ := hrestExact (by omega)
    obtain ⟨hnm, hl⟩ := hlineExact hn
    exact ⟨hnm, List.forall_mem_cons.mpr ⟨hl, hls⟩⟩

/-- A line that is read right is counted and leaves the path alone. -/
theorem lineNumAfter_of_readRight {l : HunkLine} (h : isReadRight l) (n : ℤ) :
    lineNumAfter n l = n + (if l.isNew then 1 else 0) ∧
      ∀ header, headerAfter header l = header := by
  cases l with
  | added l =>
    have hnot : imitatesHeader l.text = false := by simpa [isReadRight] using h
    simp [lineNumAfter, headerAfter, HunkLine.isNew, hnot]
  | context l =>
    have hnot : startsWith l.text [' '] = false := by simpa [isReadRight] using h
    simp [lineNumAfter, headerAfter, HunkLine.isNew, hnot]
  | blank => exact absurd h nofun
  | removed l => simp [lineNumAfter, headerAfter, HunkLine.isNew]
  | remark l => simp [lineNumAfter, headerAfter, HunkLine.isNew]

theorem lineNumOf_of_readRight {ls : List HunkLine} (h : ∀ l ∈ ls, isReadRight l) (n : ℤ) :
    lineNumOf n ls = n + ls.countP HunkLine.isNew ∧
      ∀ header, ls.foldl headerAfter header = header := by
  induction ls generalizing n with
  | nil => exact ⟨by simp [lineNumOf], fun _ => rfl⟩
  | cons l ls ih =>
    rw [List.forall_mem_cons] at h
    obtain ⟨hline, hlineHeader⟩ := lineNumAfter_of_readRight h.1 n
    obtain ⟨hlineNum, hheader⟩ := ih h.2 (lineNumAfter n l)
    have hstep : lineNumOf n (l :: ls) = lineNumOf (lineNumAfter n l) ls := rfl
    refine ⟨?_, fun header => ?_⟩
    · rw [hstep, hlineNum, hline, countP_isNew_cons, Int.add_assoc]
    · rw [List.foldl_cons, hlineHeader, hheader]

/-- What should be found for a bad added line. -/
def expected (a : Added) : TodoViolation :=
  ⟨some a.patch.path, a.number, a.line.text, TODO_REASON⟩

/-- An added line that is not taken for a header, behind lines of its hunk that are read right,
while the last line beginning with `+++` before its hunk reads as the file's path. -/
structure FoundRight (a : Added) : Prop where
  line : ¬ imitatesHeader a.line.text
  before : ∀ l ∈ a.before, isReadRight l
  path : fileName (headerOf a.patch a.earlier) = a.patch.path

theorem reported_eq_expected_iff (a : Added) :
    reported a = some (expected a) ↔ FoundRight a := by
  unfold reported expected
  refine ⟨fun h => ?_, fun h => ?_⟩
  · split at h
    next => exact absurd h nofun
    next hline =>
      simp only [Option.some.injEq, TodoViolation.mk.injEq] at h
      obtain ⟨hpath, hnumber, -, -⟩ := h
      have hexact := (lineNumOf_le (Int.le_refl a.newBefore) (Int.natCast_nonneg _) a.before).2
      obtain ⟨-, hbefore⟩ := hexact (by rw [Added.number] at hnumber; push_cast at hnumber; omega)
      refine ⟨hline, hbefore, ?_⟩
      rw [headerOf, List.foldl_append, (lineNumOf_of_readRight hbefore 0).2] at hpath
      exact hpath
  · obtain ⟨hlineNum, hheader⟩ := lineNumOf_of_readRight h.before a.newBefore
    have hpath := h.path
    rw [headerOf] at hpath
    rw [if_neg h.line, hlineNum, headerOf, List.foldl_append, hheader, hpath, Added.number]
    push_cast
    rfl

/-- The gate finds every bad added line where it is, and nothing else, if and only if each of
them is found right. -/
theorem todoGate_iff (d : Diff) :
    checkDiff u d.text = (d.added.filter (isBadAdded u)).map expected ↔
      ∀ a ∈ d.added, isBadAdded u a → FoundRight a := by
  rw [checkDiff_text, findings, List.filterMap_eq_map_iff_forall_eq_some]
  simp only [List.mem_filter, reported_eq_expected_iff, and_imp]

end TodoChecker

/-- With the prefix `b/` and no quotes, a path is read right just if nothing is behind it. -/
theorem fileName_label {l : PathLabel} (hpre : l.pre = ['b', '/']) (hquoted : l.quoted = false) :
    fileName (['+', '+', '+', ' '] ++ l.text) = l.path ↔ l.stamp = none := by
  have hname : fileName (['+', '+', '+', ' '] ++ l.text) =
      l.path ++ l.stamp.elim [] ('\t' :: ·) := by
    simp [PathLabel.text, hpre, hquoted, fileName, splitOnce]
  rw [hname, List.append_right_eq_self]
  cases l.stamp <;> simp

def indentedLine : Line := ⟨[' ', ' ', 'x', ';'], by decide⟩

def badTodoLine : Line := ⟨['T', 'O', 'D', 'O', ':', ' ', 'y'], by decide⟩

/-- One file `a`, in which a line is added behind an indented one. -/
def indentedDiff : Diff where
  files := [{
    preamble := ⟨[], nofun⟩
    oldLabel := ⟨['a', '/', 'a'], by decide⟩
    newLabel := ⟨['b', '/'], ['a'], false, none⟩
    noNewline := by decide
    hunks := [⟨0, [.context indentedLine, .added badTodoLine], ⟨[], by decide⟩, false, false⟩] }]
  trailer := ⟨[], nofun⟩

/-- The TODO of line 2 is found in line 1. -/
theorem indentedContext_shifts :
    indentedDiff.added.map Added.number = [2] ∧
      (checkDiff asciiOnly indentedDiff.text).map TodoViolation.line = [1] ∧
      checkDiff asciiOnly indentedDiff.text ≠
        (indentedDiff.added.filter (isBadAdded asciiOnly)).map expected := by
  have hline : (checkDiff asciiOnly indentedDiff.text).map TodoViolation.line = [1] := by
    rw [checkDiff_text]
    decide
  have hnumber : ((indentedDiff.added.filter (isBadAdded asciiOnly)).map expected).map
      TodoViolation.line = [2] := by decide
  refine ⟨rfl, hline, fun h => ?_⟩
  rw [h, hnumber] at hline
  exact absurd hline (by decide)

end MmIot
