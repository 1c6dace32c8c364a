import MmIot.Lib.Loops
import MmIot.Spec.CopyrightChecker

/-! The findings of the copyright gate. A path is listed for its own file alone, and the gate
ends early at the first file whose Morse Micro lines have no year to take the maximum of. It
cuts its years out of longer numbers too. -/

namespace MmIot

open PyText

section CopyrightChecker

variable (u : Unicode) (fs : Text → FileEntry)

/-! ### One file -/

/-- The Morse Micro copyright lines among the first forty. -/
def headerMmLines (t : Text) : List Text :=
  mmLines u (copyrightLines u ((splitlines t).take HEADER_SCAN_LINES))

def isRsourceKconfig (path t : Text) : Bool :=
  startsWith (pathName path) KCONFIG && isRsourceOnly u (splitlines t)

/-- The text of a file whose header is looked at: of a checked kind, not blocklisted and no
rsource-only Kconfig. -/
def headerText (patterns : List Text) (path : Text) : Option Text :=
  match fs (asPosix path) with
  | .text t =>
    if isCheckedFile path && !isBlocklisted path patterns && !isRsourceKconfig u path t then some t
    else none
  | _ => none

/-! ### The numbers of a line -/

/-- The decimal numbers of a line, and empty texts between other characters. -/
def digitRuns (line : Text) : List Text := line.splitOnP fun c => !u.isDecimal c

def fourDigitNumbers (line : Text) : List ℕ :=
  ((digitRuns u line).filter fun run => run.length = 4).map u.int

/-- Four digits of a longer number, counted off from its first one. -/
def cutFromLonger (line : Text) : List ℕ :=
  (((digitRuns u line).filter fun run => 4 < run.length).flatMap (Regex.groupsOf 4)).map u.int

variable {u} in
theorem years_eq (line : Text) :
    years u line = ((digitRuns u line).flatMap (Regex.groupsOf 4)).map u.int :=
  congrArg (List.map u.int) (Regex.findall_times (by decide) line)

variable {u} in
theorem groupsOf_four {run : Text} (h : run.length = 4) : Regex.groupsOf 4 run = [run] := by
  have happend := Regex.groupsOf_append (by decide) h []
  rwa [List.append_nil] at happend

/-- A year is a four-digit number, or cut from a longer one. -/
theorem mem_years_iff {line : Text} {year : ℕ} :
    year ∈ years u line ↔ year ∈ fourDigitNumbers u line ∨ year ∈ cutFromLonger u line := by
  rw [years_eq, fourDigitNumbers, cutFromLonger, List.mem_map, List.mem_map, List.mem_map]
  constructor
  · rintro ⟨group, hgroup, rfl⟩
    obtain ⟨run, hrun, hgroup⟩ := List.mem_flatMap.mp hgroup
    rcases Nat.lt_trichotomy run.length 4 with hlt | heq | hgt
    · rw [Regex.groupsOf_of_lt hlt] at hgroup
      exact absurd hgroup List.not_mem_nil
    · rw [groupsOf_four heq] at hgroup
      obtain rfl := List.mem_singleton.mp hgroup
      exact .inl ⟨group, List.mem_filter.mpr ⟨hrun, decide_eq_true heq⟩, rfl⟩
    · exact .inr ⟨group, List.mem_flatMap.mpr
        ⟨run, List.mem_filter.mpr ⟨hrun, decide_eq_true hgt⟩, hgroup⟩, rfl⟩
  · rintro (⟨run, hrun, rfl⟩ | ⟨group, hgroup, rfl⟩)
    · obtain ⟨hrun, hlen⟩ := List.mem_filter.mp hrun
      refine ⟨run, List.mem_flatMap.mpr ⟨run, hrun, ?_⟩, rfl⟩
      rw [groupsOf_four (of_decide_eq_true hlen)]
      exact List.mem_singleton_self run
    · obtain ⟨run, hrun, hgroup⟩ := List.mem_flatMap.mp hgroup
      exact ⟨group, List.mem_flatMap.mpr ⟨run, (List.mem_filter.mp hrun).1, hgroup⟩, rfl⟩

theorem years_ne_nil_iff {line : Text} :
    years u line ≠ [] ↔ ∃ run ∈ digitRuns u line, 4 ≤ run.length := by
  rw [years_eq, Ne, List.map_eq_nil_iff, List.flatMap_eq_nil_iff]
  push Not
  refine exists_congr fun run => and_congr_right fun _ => ?_
  rw [Regex.groupsOf, Ne, List.map_eq_nil_iff, List.range_eq_nil]
  omega

/-! ### The verdicts -/

/-- No Morse Micro copyright line has a four-digit number from the required year on. -/
def lacksYear (currentYear : ℤ) (t : Text) : Prop :=
  ¬ ∃ line ∈ headerMmLines u t, ∃ year ∈ fourDigitNumbers u line, currentYear ≤ (year : ℤ)

/-- Nor has one four digits of a longer number that reach it. -/
def lacksDigits (currentYear : ℤ) (t : Text) : Prop :=
  ¬ ∃ line ∈ headerMmLines u t, ∃ year ∈ years u line, currentYear ≤ (year : ℤ)

instance (currentYear : ℤ) (t : Text) : Decidable (lacksYear u currentYear t) :=
  inferInstanceAs (Decidable ¬ _)

instance (currentYear : ℤ) (t : Text) : Decidable (lacksDigits u currentYear t) :=
  inferInstanceAs (Decidable ¬ _)

def isOffending (currentYear : ℤ) (patterns : List Text) (path : Text) : Bool :=
  (headerText u fs patterns path).any fun t => lacksYear u currentYear t

/-- What the gate takes for offending. -/
def isFound (currentYear : ℤ) (patterns : List Text) (path : Text) : Bool :=
  (headerText u fs patterns path).any fun t => lacksDigits u currentYear t

/-- The path can be asked for its file, and Morse Micro copyright lines, if there are any,
have four digits in a row in one of them. -/
structure HasVerdict (patterns : List Text) (path : Text) : Prop where
  access : fs (asPosix path) ≠ .noAccess
  year : ∀ t, headerText u fs patterns path = some t → headerMmLines u t ≠ [] →
    ∃ line ∈ headerMmLines u t, ∃ run ∈ digitRuns u line, 4 ≤ run.length

/-- And if four digits of a longer number reach the required year, a four-digit number does. -/
structure HasRightVerdict (currentYear : ℤ) (patterns : List Text) (path : Text) : Prop
    extends HasVerdict u fs patterns path where
  number : ∀ t, headerText u fs patterns path = some t → ∀ line ∈ headerMmLines u t,
    ∀ year ∈ cutFromLonger u line, currentYear ≤ (year : ℤ) → ∃ line ∈ headerMmLines u t,
      ∃ year ∈ fourDigitNumbers u line, currentYear ≤ (year : ℤ)

/-- A checker with the same settings that lists `paths`. -/
structure Lists (c : CopyrightChecker) (paths : List Text) (c' : CopyrightChecker) : Prop where
  currentYear : c'.currentYear = c.currentYear
  patterns : c'.blocklistPatterns = c.blocklistPatterns
  violations : c'.violations.map CopyrightViolation.path =
    c.violations.map CopyrightViolation.path ++ paths

theorem Lists.add (c : CopyrightChecker) (path : Text) (reason : String) :
    Lists c [path] (c.add path reason) := by
  refine ⟨rfl, rfl, ?_⟩
  rw [CopyrightChecker.add, List.map_append]
  rfl

theorem Lists.refl (c : CopyrightChecker) : Lists c [] c := ⟨rfl, rfl, (List.append_nil _).symm⟩

theorem Lists.trans {c c' c'' : CopyrightChecker} {ps ps' : List Text} (h : Lists c ps c')
    (h' : Lists c' ps' c'') : Lists c (ps ++ ps') c'' := by
  refine ⟨h'.currentYear.trans h.currentYear, h'.patterns.trans h.patterns, ?_⟩
  rw [h'.violations, h.violations, List.append_assoc]

variable {u} in
/-- The verdict on the Morse Micro lines, whose years have a maximum. -/
theorem lacksDigits_iff_max {currentYear : ℤ} {t : Text} {maxYear : ℕ}
    (h : ((headerMmLines u t).flatMap (years u)).max? = some maxYear) :
    lacksDigits u currentYear t ↔ maxYear < currentYear := by
  obtain ⟨hmem, hmax⟩ := List.max?_eq_some_iff.mp h
  rw [List.mem_flatMap] at hmem
  refine ⟨fun hlacks => ?_, fun hlt hyear => ?_⟩
  · obtain ⟨line, hline, hyear⟩ := hmem
    exact Int.lt_of_not_ge fun hge => hlacks ⟨line, hline, maxYear, hyear, hge⟩
  · obtain ⟨line, hline, year, hyear, hge⟩ := hyear
    have hle := hmax year (List.mem_flatMap.mpr ⟨line, hline, hyear⟩)
    omega

variable {u} in
theorem lacksDigits_of_nil {currentYear : ℤ} {t : Text} (h : headerMmLines u t = []) :
    lacksDigits u currentYear t := by
  rintro ⟨line, hline, -⟩
  rw [h] at hline
  exact List.not_mem_nil hline

variable {u} in
theorem not_rsource {path t : Text} (h : isRsourceKconfig u path t = false) :
    ¬(startsWith (pathName path) KCONFIG ∧ isRsourceOnly u (splitlines t)) := by
  rw [← Bool.and_eq_true, ← isRsourceKconfig, h]
  exact Bool.false_ne_true

/-- Without Morse Micro lines the file is listed, for one reason or another. -/
theorem checkLines_of_nil (c : CopyrightChecker) (path : Text) {t : Text}
    (hkconfig : isRsourceKconfig u path t = false) (hnil : headerMmLines u t = []) :
    ∃ reason, c.checkLines u path (splitlines t) = .ok (c.add path reason) := by
  have hmm : mmLines u (copyrightLines u ((splitlines t).take HEADER_SCAN_LINES)) = [] := hnil
  unfold CopyrightChecker.checkLines
  rw [if_neg (not_rsource hkconfig)]
  dsimp only
  rw [if_pos hmm]
  split
  · exact ⟨_, rfl⟩
  · exact ⟨_, rfl⟩

/-- With such lines, the maximum of their years decides, if there is one. -/
theorem checkLines_of_ne_nil (c : CopyrightChecker) (path : Text) {t : Text}
    (hkconfig : isRsourceKconfig u path t = false) (hne : headerMmLines u t ≠ []) :
    (((headerMmLines u t).flatMap (years u)).max? = none →
      c.checkLines u path (splitlines t) = .error .valueError) ∧
    ∀ maxYear, ((headerMmLines u t).flatMap (years u)).max? = some maxYear → ∃ reason,
      c.checkLines u path (splitlines t) =
        .ok (if maxYear < c.currentYear then c.add path reason else c) := by
  have hmm : mmLines u (copyrightLines u ((splitlines t).take HEADER_SCAN_LINES)) =
      headerMmLines u t := rfl
  have hlines : copyrightLines u ((splitlines t).take HEADER_SCAN_LINES) ≠ [] := by
    intro h
    rw [headerMmLines, h, mmLines, List.filter_nil] at hne
    exact hne rfl
  unfold CopyrightChecker.checkLines
  rw [if_neg (not_rsource hkconfig)]
  dsimp only
  rw [hmm, if_neg hlines, if_neg hne]
  refine ⟨fun hnone => by rw [hnone], fun maxYear hmax => ?_⟩
  rw [hmax]
  dsimp only
  split
  · exact ⟨_, rfl⟩
  · exact ⟨"", rfl⟩

/-- The lines of a file whose header is looked at. -/
theorem checkLines_ok (c : CopyrightChecker) (path : Text) {t : Text}
    (hkconfig : isRsourceKconfig u path t = false)
    (hyear : headerMmLines u t ≠ [] →
      ∃ line ∈ headerMmLines u t, ∃ run ∈ digitRuns u line, 4 ≤ run.length) :
    ∃ c', c.checkLines u path (splitlines t) = .ok c' ∧
      Lists c (if lacksDigits u c.currentYear t then [path] else []) c' := by
  by_cases hnil : headerMmLines u t = []
  · obtain ⟨reason, hlisted⟩ := checkLines_of_nil u c path hkconfig hnil
    rw [if_pos (lacksDigits_of_nil hnil)]
    exact ⟨_, hlisted, .add c path reason⟩
  cases hmax : ((headerMmLines u t).flatMap (years u)).max? with
  | none =>
    obtain ⟨line, hline, hne⟩ := hyear hnil
    rw [List.max?_eq_none_iff, List.flatMap_eq_nil_iff] at hmax
    exact absurd (hmax line hline) ((years_ne_nil_iff u).mpr hne)
  | some maxYear =>
    obtain ⟨reason, hlines⟩ := (checkLines_of_ne_nil u c path hkconfig hnil).2 maxYear hmax
    refine ⟨_, hlines, ?_⟩
    by_cases hlt : (maxYear : ℤ) < c.currentYear
    · rw [if_pos hlt, if_pos ((lacksDigits_iff_max hmax).mpr hlt)]
      exact .add c path reason
    · rw [if_neg hlt, if_neg ((lacksDigits_iff_max hmax).not.mpr hlt)]
      exact .refl c

/-- There is no maximum of no years. -/
theorem checkLines_error (c : CopyrightChecker) (path : Text) {t : Text}
    (hkconfig : isRsourceKconfig u path t = false) (hne : headerMmLines u t ≠ [])
    (hyear : ∀ line ∈ headerMmLines u t, years u line = []) :
    c.checkLines u path (splitlines t) = .error .valueError := by
  apply (checkLines_of_ne_nil u c path hkconfig hne).1
  exact List.max?_eq_none_iff.mpr (List.flatMap_eq_nil_iff.mpr hyear)

/-- A file is looked at as `headerText` says. -/
theorem checkFile_eq (c : CopyrightChecker) {path : Text} (h : fs (asPosix path) ≠ .noAccess) :
    c.checkFile u fs path =
      match headerText u fs c.blocklistPatterns path with
      | some t => c.checkLines u path (splitlines t)
      | none => .ok c := by
  unfold CopyrightChecker.checkFile headerText
  cases hfile : fs (asPosix path) with
  | noAccess => exact absurd hfile h
  | noFile => rfl
  | unreadable => rfl
  | text t =>
    dsimp only
    cases isCheckedFile path with
    | false => simp
    | true =>
      cases isBlocklisted path c.blocklistPatterns with
      | true => simp
      | false =>
        cases hk : isRsourceKconfig u path t with
        | false => simp
        | true =>
          have hand := hk
          rw [isRsourceKconfig, Bool.and_eq_true] at hand
          simp [CopyrightChecker.checkLines, hand]

theorem headerText_kconfig {patterns : List Text} {path t : Text}
    (h : headerText u fs patterns path = some t) : isRsourceKconfig u path t = false := by
  unfold headerText at h
  split at h
  next t' _ =>
    split at h
    next hall =>
      obtain rfl := Option.some.inj h
      simp only [Bool.and_eq_true, Bool.not_eq_true'] at hall
      exact hall.2
    next => exact absurd h nofun
  next => exact absurd h nofun

theorem checkFile_ok (c : CopyrightChecker) {path : Text}
    (h : HasVerdict u fs c.blocklistPatterns path) :
    ∃ c', c.checkFile u fs path = .ok c' ∧
      Lists c (if isFound u fs c.currentYear c.blocklistPatterns path then [path] else []) c' := by
  rw [checkFile_eq u fs c h.access, isFound]
  cases htext : headerText u fs c.blocklistPatterns path with
  | none => exact ⟨c, rfl, .refl c⟩
  | some t =>
    have hlines := checkLines_ok u c path (headerText_kconfig u fs htext) (h.year t htext)
    simpa using hlines

theorem checkFile_error (c : CopyrightChecker) {path : Text}
    (h : ¬ HasVerdict u fs c.blocklistPatterns path) :
    ∃ e, c.checkFile u fs path = .error e := by
  by_cases haccess : fs (asPosix path) = .noAccess
  · rw [CopyrightChecker.checkFile, haccess]
    exact ⟨_, rfl⟩
  · have hyear : ¬ ∀ t, headerText u fs c.blocklistPatterns path = some t →
        headerMmLines u t ≠ [] →
          ∃ line ∈ headerMmLines u t, ∃ run ∈ digitRuns u line, 4 ≤ run.length :=
      fun hall => h ⟨haccess, hall⟩
    push Not at hyear
    obtain ⟨t, htext, hnil, hno⟩ := hyear
    have hnone : ∀ line ∈ headerMmLines u t, years u line = [] := by
      intro line hline
      by_contra hne
      obtain ⟨run, hrun, hlen⟩ := (years_ne_nil_iff u).mp hne
      exact Nat.not_le_of_lt (hno line hline run hrun) hlen
    rw [checkFile_eq u fs c haccess, htext]
    exact ⟨_, checkLines_error u c path (headerText_kconfig u fs htext) hnil hnone⟩

/-! ### All files -/

theorem foldlM_checkFile_ok (paths : List Text) (c : CopyrightChecker)
    (h : ∀ path ∈ paths, HasVerdict u fs c.blocklistPatterns path) :
    ∃ c', paths.foldlM (CopyrightChecker.checkFile u fs) c = .ok c' ∧
      Lists c (paths.filter (isFound u fs c.currentYear c.blocklistPatterns)) c' := by
  induction paths generalizing c with
  | nil => exact ⟨c, rfl, .refl c⟩
  | cons path paths ih =>
    rw [List.forall_mem_cons] at h
    obtain ⟨c', hfile, hlists⟩ := checkFile_ok u fs c h.1
    obtain ⟨c'', hrest, hlists'⟩ := ih c' (hlists.patterns ▸ h.2)
    rw [hlists.currentYear, hlists.patterns] at hlists'
    refine ⟨c'', ?_, ?_⟩
    · rw [List.foldlM_cons, hfile]
      exact hrest
    · have hboth := hlists.trans hlists'
      rw [List.filter_cons]
      split at hboth
      next hfound => rwa [if_pos hfound]
      next hnot => rwa [if_neg hnot]

theorem foldlM_checkFile_ok_verdict {paths : List Text} {c c' : CopyrightChecker}
    (h : paths.foldlM (CopyrightChecker.checkFile u fs) c = .ok c') :
    ∀ path ∈ paths, HasVerdict u fs c.blocklistPatterns path := by
  induction paths generalizing c with
  | nil => exact nofun
  | cons path paths ih =>
    rw [List.foldlM_cons, Loops.bind_eq_ok] at h
    obtain ⟨c'', hfile, hrest⟩ := h
    have hverdict : HasVerdict u fs c.blocklistPatterns path := by
      by_contra hno
      obtain ⟨e, he⟩ := checkFile_error u fs c hno
      rw [he] at hfile
      cases hfile
    obtain ⟨d, hd, hlists⟩ := checkFile_ok u fs c hverdict
    rw [hfile] at hd
    cases hd
    exact List.forall_mem_cons.mpr ⟨hverdict, hlists.patterns ▸ ih hrest⟩

/-- The gate finds exactly the offending paths where no longer number reaches the year alone. -/
theorem isFound_eq_iff {currentYear : ℤ} {patterns : List Text} {path : Text} :
    isFound u fs currentYear patterns path = isOffending u fs currentYear patterns path ↔
      ∀ t, headerText u fs patterns path = some t → ∀ line ∈ headerMmLines u t,
        ∀ year ∈ cutFromLonger u line, currentYear ≤ (year : ℤ) → ∃ line ∈ headerMmLines u t,
          ∃ year ∈ fourDigitNumbers u line, currentYear ≤ (year : ℤ) := by
  rw [isFound, isOffending]
  cases headerText u fs patterns path with
  | none => simp
  | some t =>
    rw [Option.any_some, Option.any_some, decide_eq_decide, lacksDigits, lacksYear, not_iff_not]
    simp only [Option.some.injEq, forall_eq']
    constructor
    · intro h line hline year hyear hge
      exact h.mp ⟨line, hline, year, (mem_years_iff u).mpr (.inr hyear), hge⟩
    · intro h
      refine ⟨?_, ?_⟩
      · rintro ⟨line, hline, year, hyear, hge⟩
        rcases (mem_years_iff u).mp hyear with hyear | hyear
        · exact ⟨line, hline, year, hyear, hge⟩
        · exact h line hline year hyear hge
      · rintro ⟨line, hline, year, hyear, hge⟩
        exact ⟨line, hline, year, (mem_years_iff u).mpr (.inl hyear), hge⟩

/-- The gate finishes, and lists the offending paths in their order. -/
def GateReports (currentYear : ℤ) (patterns paths : List Text) : Prop :=
  ∃ c, checkFiles u fs currentYear patterns paths = .ok c ∧
    c.violations.map CopyrightViolation.path =
      paths.filter (isOffending u fs currentYear patterns)

/-- The gate reports if and only if every path has a verdict, and the right one. -/
theorem copyrightGate_iff (currentYear : ℤ) (patterns paths : List Text) :
    GateReports u fs currentYear patterns paths ↔
      ∀ path ∈ paths, HasRightVerdict u fs currentYear patterns path := by
  have hlisted : ∀ c, checkFiles u fs currentYear patterns paths = .ok c →
      c.violations.map CopyrightViolation.path =
        paths.filter (isFound u fs currentYear patterns) := by
    intro c hrun
    obtain ⟨c', hrun', hlists⟩ := foldlM_checkFile_ok u fs paths ⟨currentYear, patterns, []⟩
      (foldlM_checkFile_ok_verdict u fs hrun)
    cases hrun.symm.trans hrun'
    exact hlists.violations
  constructor
  · rintro ⟨c, hrun, hpaths⟩ path hpath
    refine ⟨foldlM_checkFile_ok_verdict u fs hrun path hpath, (isFound_eq_iff u fs).mp ?_⟩
    rw [hlisted c hrun] at hpaths
    have hmem := congrArg (path ∈ ·) hpaths
    simpa only [List.mem_filter, hpath, true_and, eq_iff_iff, Bool.coe_iff_coe] using hmem
  · intro h
    obtain ⟨c, hrun, -⟩ := foldlM_checkFile_ok u fs paths ⟨currentYear, patterns, []⟩
      fun path hpath => (h path hpath).toHasVerdict
    refine ⟨c, hrun, ?_⟩
    rw [hlisted c hrun]
    exact List.filter_congr fun path hpath => (isFound_eq_iff u fs).mpr (h path hpath).number

end CopyrightChecker

/-- The one file there is says this in its only line. -/
def oneFile (line path : Text) : FileEntry :=
  if path = ['a', '.', 'c'] then .text (line ++ ['\n']) else .noFile

def yearlessLine : Text :=
  ['C', 'o', 'p', 'y', 'r', 'i', 'g', 'h', 't', ' ', 'M', 'o', 'r', 's', 'e', ' ', 'M', 'i', 'c',
    'r', 'o']

/-- Copyright 2019 Morse Micro (612345678) -/
def longNumberLine : Text :=
  ['C', 'o', 'p', 'y', 'r', 'i', 'g', 'h', 't', ' ', '2', '0', '1', '9', ' ', 'M', 'o', 'r', 's',
    'e', ' ', 'M', 'i', 'c', 'r', 'o', ' ', '(', '6', '1', '2', '3', '4', '5', '6', '7', '8', ')']

/-- A line without a year ends the gate, which says nothing of the paths, and a longer number
passes for a year to come. -/
theorem gate_misreports :
    checkFiles asciiOnly (oneFile yearlessLine) 2026 [] [['a', '.', 'c']] = .error .valueError ∧
      ¬ GateReports asciiOnly (oneFile yearlessLine) 2026 [] [['a', '.', 'c']] ∧
      checkFiles asciiOnly (oneFile longNumberLine) 2026 [] [['a', '.', 'c']] =
        .ok ⟨2026, [], []⟩ ∧
      fourDigitNumbers asciiOnly longNumberLine = [2019] ∧
      ¬ GateReports asciiOnly (oneFile longNumberLine) 2026 [] [['a', '.', 'c']] := by
  have hyearless : checkFiles asciiOnly (oneFile yearlessLine) 2026 [] [['a', '.', 'c']] =
      .error .valueError := by
    rfl
  have hlong : checkFiles asciiOnly (oneFile longNumberLine) 2026 [] [['a', '.', 'c']] =
      .ok ⟨2026, [], []⟩ := by
    rfl
  refine ⟨hyearless, ?_, hlong, by decide, ?_⟩
  · rintro ⟨c, hok, -⟩
    rw [hyearless] at hok
    cases hok
  · rintro ⟨c, hok, hlisted⟩
    rw [hlong] at hok
    cases hok
    have hoffending : isOffending asciiOnly (oneFile longNumberLine) 2026 [] ['a', '.', 'c'] =
        true := by
      decide
    rw [List.filter_cons_of_pos hoffending] at hlisted
    cases hlisted

end MmIot
