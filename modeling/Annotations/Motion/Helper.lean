import Annotations.Js.Json
import Annotations.Motion.TopTwo

/-! The helper as a process. The extension writes the sizes and the paths of two images on the command
line, and the helper prints its report as a line of JSON, with decimal fractions. -/

namespace Annotations.Motion

open Text Js

/-- A path, or another string of the command line. -/
abbrev Path := List Char

/-! ### The process -/

/-- `isspace`. -/
def isSpace (c : Char) : Bool := c.toNat ∈ [0x9, 0xa, 0xb, 0xc, 0xd, 0x20]

/-- `strtol`, before it is clamped. -/
def strtol (chars : List Char) : ℤ :=
  match chars.dropWhile isSpace with
  | '-' :: rest => -((leadingNumeral rest).getD 0 : ℤ)
  | '+' :: rest => (leadingNumeral rest).getD 0
  | rest => (leadingNumeral rest).getD 0

/-- `atoi`: a `long`, cut down to an `int`. -/
def atoi (chars : List Char) : ℤ := (max (-2 ^ 63) (min (strtol chars) (2 ^ 63 - 1))).bmod (2 ^ 32)

/-- The line that `main` prints. -/
def Report.line (r : Report) : List Char :=
  '{' :: ("\"dx\":".toList ++ (printInt r.dx ++ (",\"dy\":".toList ++ (printInt r.dy ++ (",\"c\":".toList ++
    (printFixed 6 r.c ++ (",\"mse\":".toList ++ (printFixed 8 r.mse ++ ['}', '\n']))))))))

variable (fl : DoubleRounding)

/-- `main` with its arguments: what it prints, or its exit code when it fails. -/
def helperMain (files : Path → Option (Array UInt8)) : List (List Char) → Except ℕ (List Char)
  | [_, width, height, prevPath, curPath] =>
    (main fl (atoi width) (atoi height) (files prevPath) (files curPath)).map Report.line
  | _ => .error 2

/-! ### The client -/

/-- What the native calls of the client throw. -/
inductive Thrown where
  | spawn | cancelled | syntaxError | typeError
  deriving DecidableEq

inductive MatchError where
  | error (message : String)
  | thrown (exception : Thrown)
  deriving DecidableEq

/-- The result of the callback. A property that is missing is `none`. -/
structure MatchResult where
  dx : Option (Json ℚ)
  dy : Option (Json ℚ)
  c : Option (Json ℚ)
  mse : Option (Json ℚ)

/-- The arguments that `runMotionMatchAsync` makes. -/
def motionArgv (helperPath : Path) (w h : ℤ) (prevPath curPath : Path) : List (List Char) :=
  [helperPath, printInt w, printInt h, prevPath, curPath]

/-- `trim`. -/
def trim (chars : List Char) : List Char := (chars.dropWhile isStrWhiteSpace).rdropWhile isStrWhiteSpace

/-- What is read of the output: its last line that is not empty. -/
def readOutput (stdout : List Char) : Except MatchError MatchResult :=
  match (((trim stdout).splitOn '\n').filter fun line => !line.isEmpty).getLast? with
  | none => .error (.error "empty output")
  | some line =>
    match jsonParse fl.round line with
    | none => .error (.thrown .syntaxError)
    | some j =>
      match j.get ['d', 'x'], j.get ['d', 'y'], j.get ['c'], j.get ['m', 's', 'e'] with
      | some dx, some dy, some c, some mse => .ok ⟨dx, dy, c, mse⟩
      | _, _, _, _ => .error (.thrown .typeError)

/-- How a process that was started ended: what it printed, or its exit code when it failed, if it has ended. -/
structure Ended where
  exited : Option (Except ℕ (List Char))
  cancelled : Bool

/-- What the callback gets of a process. One that has not ended was not successful, and the output of one that has is not
read after the cancellation. -/
def communicated (ended : Ended) : Except MatchError MatchResult :=
  match ended.exited with
  | some (.ok stdout) => if ended.cancelled then .error (.thrown .cancelled) else readOutput fl stdout
  | _ => .error (.error "anno-motion failed")

/-- `runMotionMatchAsync`, where processes are started by `spawn`: what the callback gets. -/
def runMotionMatchAsync (spawn : List (List Char) → Option Ended) (helperPath : Path) (w h : ℤ) (prevPath curPath : Path) :
    Except MatchError MatchResult :=
  match spawn (motionArgv helperPath w h prevPath curPath) with
  | none => .error (.thrown .spawn)
  | some ended => communicated fl ended

/-! ### The arguments arrive -/

theorem isSpace_of_isDigit {c : Char} (h : c.isDigit) : isSpace c = false := by
  have hspaces : ∀ n ∈ [0x9, 0xa, 0xb, 0xc, 0xd, 0x20], n < 48 := by decide
  rw [Char.isDigit, Bool.and_eq_true, decide_eq_true_eq, ge_iff_le, UInt32.le_iff_toNat_le] at h
  rw [isSpace, decide_eq_false_iff_not]
  intro hmem
  exact absurd h.1 (not_le.mpr (hspaces _ hmem))

theorem strtol_toDigits (n : ℕ) : strtol (Nat.toDigits 10 n) = n := by
  obtain ⟨c, digits, hdigits⟩ := List.exists_cons_of_ne_nil (Nat.toDigits_ne_nil (n := n) (b := 10))
  have hc : c.isDigit := isDigit_toDigits (n := n) (by simp [hdigits])
  have hnumeral : leadingNumeral (Nat.toDigits 10 n ++ []) = some n := leadingNumeral_toDigits (by simp)
  rw [List.append_nil] at hnumeral
  rw [hdigits] at hnumeral ⊢
  unfold strtol
  rw [List.dropWhile_cons_of_neg (by simp [isSpace_of_isDigit hc])]
  split
  next heq =>
    obtain ⟨rfl, -⟩ := List.cons.inj heq
    exact absurd hc (by decide)
  next heq =>
    obtain ⟨rfl, -⟩ := List.cons.inj heq
    exact absurd hc (by decide)
  · rw [hnumeral]
    rfl

theorem strtol_printInt (n : ℤ) : strtol (printInt n) = n := by
  cases n with
  | ofNat n => exact strtol_toDigits n
  | negSucc n =>
    have hnumeral : leadingNumeral (Nat.toDigits 10 (n + 1) ++ []) = some (n + 1) := leadingNumeral_toDigits (by simp)
    rw [List.append_nil] at hnumeral
    unfold printInt strtol
    rw [List.dropWhile_cons_of_neg (by decide)]
    change -(((leadingNumeral (Nat.toDigits 10 (n + 1))).getD 0 : ℕ) : ℤ) = _
    rw [hnumeral, Option.getD_some, Int.negSucc_eq]
    push_cast
    rfl

theorem atoi_printInt {n : ℤ} (hlow : -2 ^ 31 ≤ n) (hhigh : n < 2 ^ 31) : atoi (printInt n) = n := by
  have hclamp : max (-2 ^ 63) (min n (2 ^ 63 - 1)) = n := by omega
  rw [atoi, strtol_printInt, hclamp]
  exact Int.bmod_eq_of_le (by omega) (by omega)

/-- The helper matches the images of the paths, at the sizes that the client has. -/
theorem helperMain_motionArgv (files : Path → Option (Array UInt8)) (helperPath : Path) {w h : ℤ}
    (hw : -2 ^ 31 ≤ w ∧ w < 2 ^ 31) (hh : -2 ^ 31 ≤ h ∧ h < 2 ^ 31) (prevPath curPath : Path) :
    helperMain fl files (motionArgv helperPath w h prevPath curPath) =
      (main fl w h (files prevPath) (files curPath)).map Report.line := by
  simp only [motionArgv, helperMain, atoi_printInt hw.1 hw.2, atoi_printInt hh.1 hh.2]

/-! ### The report arrives -/

/-- The text between the braces of an object on a line. -/
theorem trim_braced (text : List Char) : trim ('{' :: (text ++ ['}', '\n'])) = '{' :: (text ++ ['}']) := by
  have hline : '{' :: (text ++ ['}', '\n']) = ('{' :: (text ++ ['}'])) ++ ['\n'] := by simp
  unfold trim
  rw [List.dropWhile_cons_of_neg (by decide), hline, List.rdropWhile_concat_pos _ _ _ (by decide), ← List.cons_append,
    List.rdropWhile_concat_neg _ _ _ (by decide)]

namespace Report

variable {r : Report}

/-! The members of the line. -/

def dxMember (r : Report) : NumberMember := ⟨['d', 'x'], printInt r.dx, r.dx, by simp, numeral_printInt r.dx⟩

def dyMember (r : Report) : NumberMember := ⟨['d', 'y'], printInt r.dy, r.dy, by simp, numeral_printInt r.dy⟩

def cMember (hc : 0 ≤ r.c) : NumberMember :=
  ⟨['c'], printFixed 6 r.c, toPlaces 6 r.c, by simp, numeral_printFixed (by decide) hc⟩

def mseMember (hmse : 0 ≤ r.mse) : NumberMember :=
  ⟨['m', 's', 'e'], printFixed 8 r.mse, toPlaces 8 r.mse, by simp, numeral_printFixed (by decide) hmse⟩

/-- What the line has between its braces. -/
def members (r : Report) : List Char :=
  "\"dx\":".toList ++ (printInt r.dx ++ (",\"dy\":".toList ++ (printInt r.dy ++ (",\"c\":".toList ++
    (printFixed 6 r.c ++ (",\"mse\":".toList ++ printFixed 8 r.mse))))))

theorem line_eq : r.line = '{' :: (r.members ++ ['}', '\n']) := by
  simp [line, members]

theorem printObject_members (hc : 0 ≤ r.c) (hmse : 0 ≤ r.mse) :
    '{' :: (r.members ++ ['}']) = NumberMember.printObject r.dxMember [r.dyMember, cMember hc, mseMember hmse] := by
  simp [members, NumberMember.printObject, NumberMember.print, NumberMember.printRest, dxMember, dyMember, cMember, mseMember]

theorem newline_notMem_members : '\n' ∉ r.members := by
  have hint : ∀ n, '\n' ∉ printInt n := fun n => notMem_printInt rfl (by decide)
  have hfixed : ∀ places x, '\n' ∉ printFixed places x := fun places x => notMem_printFixed rfl (by decide)
  simp [members, hint, hfixed]

/-- The client reads the line as the numbers that it shows. -/
theorem readOutput_line (hc : 0 ≤ r.c) (hmse : 0 ≤ r.mse) : readOutput fl r.line =
    .ok ⟨some (.number (fl.round r.dx)), some (.number (fl.round r.dy)), some (.number (fl.round (toPlaces 6 r.c))),
      some (.number (fl.round (toPlaces 8 r.mse)))⟩ := by
  have hsplit : ('{' :: (r.members ++ ['}'])).splitOn '\n' = ['{' :: (r.members ++ ['}'])] :=
    List.splitOnP_eq_singleton fun c hc => by
      rw [beq_eq_false_iff_ne]
      rintro rfl
      simp [newline_notMem_members] at hc
  have hparse : jsonParse fl.round _ = _ := jsonParse_printObject r.dxMember [r.dyMember, cMember hc, mseMember hmse]
  rw [← printObject_members hc hmse] at hparse
  unfold readOutput
  rw [line_eq, trim_braced, hsplit]
  simp only [List.filter_cons, List.isEmpty_cons, Bool.not_false, if_true, List.filter_nil, List.getLast?_singleton, hparse]
  rfl

end Report

/-- A report of the helper has small shifts, and neither a confidence nor an error below zero. -/
theorem report_bounds {w h : ℤ} {prevFile curFile : Option (Array UInt8)} {r : Report}
    (hmain : main fl w h prevFile curFile = .ok r) : |r.dx| ≤ 48 ∧ |r.dy| ≤ 48 ∧ 0 ≤ r.c ∧ 0 ≤ r.mse := by
  unfold main at hmain
  split_ifs at hmain with hdims
  split at hmain
  next prev cur _ _ =>
    obtain rfl := Except.ok.inj hmain
    have hfound := search_firstAndRunnerUp fl (w := w.toNat) (h := h.toNat) (by omega) (by omega) (by omega) (by omega) prev cur
    have hradius : searchRadius w.toNat h.toNat ≤ 48 := by
      unfold searchRadius
      dsimp only
      split_ifs <;> omega
    obtain ⟨hdx, hdy⟩ := mem_shifts.mp (mem_window.mp hfound.searched)
    have hle : ((searchRadius w.toNat h.toNat : ℕ) : ℤ) ≤ 48 := by exact_mod_cast hradius
    refine ⟨hdx.trans hle, hdy.trans hle, (confidence_mem_unit fl _ _).1, ?_⟩
    change 0 ≤ (search fl prev cur).best
    rw [← hfound.attained]
    exact ssdShift_nonneg fl prev cur _ _
  next => cases hmain

/-- The helper rounds to decimals as the digits that are printed say. -/
theorem toPlaces_eq_printed (places : ℕ) (x : ℚ) : toPlaces places x = printed places x / 10 ^ places := rfl

/-- A client whose helper is run to its end, for sizes that are an `int`, gets the report for the images that the paths name:
the shift as it is, and confidence and error to so many decimals. It gets an error just if there is no report. -/
theorem runMotionMatchAsync_eq (files : Path → Option (Array UInt8)) (helperPath : Path) {w h : ℤ}
    (hw : -2 ^ 31 ≤ w ∧ w < 2 ^ 31) (hh : -2 ^ 31 ≤ h ∧ h < 2 ^ 31) (prevPath curPath : Path) :
    runMotionMatchAsync fl (fun argv => some ⟨some (helperMain fl files argv), false⟩) helperPath w h prevPath curPath =
      match main fl w h (files prevPath) (files curPath) with
      | .error _ => .error (.error "anno-motion failed")
      | .ok r => .ok ⟨some (.number r.dx), some (.number r.dy), some (.number (fl.round (printed 6 r.c / 10 ^ 6))),
          some (.number (fl.round (printed 8 r.mse / 10 ^ 8)))⟩ := by
  unfold runMotionMatchAsync
  dsimp only
  rw [helperMain_motionArgv fl files helperPath hw hh]
  cases hmain : main fl w h (files prevPath) (files curPath) with
  | error code => rfl
  | ok r =>
    obtain ⟨hdx, hdy, hc, hmse⟩ := report_bounds fl hmain
    change readOutput fl r.line = _
    rw [Report.readOutput_line fl hc hmse, fl.round_intCast r.dx (hdx.trans (by norm_num)),
      fl.round_intCast r.dy (hdy.trans (by norm_num)), toPlaces_eq_printed, toPlaces_eq_printed]

/-- The client gets the shift of a small pair. -/
theorem runMotionMatchAsync_eq_shifted :
    let pair := buildSyntheticGreyPair 9 9 2 (-1)
    let files : Path → Option (Array UInt8) := fun path => some (if path = ['p'] then pair.1.toArray else pair.2.toArray)
    ∃ r, main .exact 9 9 (some pair.1.toArray) (some pair.2.toArray) = .ok r ∧
      runMotionMatchAsync .exact (fun argv => some ⟨some (helperMain .exact files argv), false⟩) ['m'] 9 9 ['p'] ['c'] =
        .ok ⟨some (.number 2), some (.number (-1)), some (.number (printed 6 r.c / 10 ^ 6)), some (.number 0)⟩ := by
  -- the images are named, so that they are not computed again
  suffices hnamed : ∀ prev cur : Grey8 9 9, (search .exact prev cur).best = 0 ∧ (search .exact prev cur).bestSx = 2 ∧
      (search .exact prev cur).bestSy = -1 →
      let files : Path → Option (Array UInt8) := fun path => some (if path = ['p'] then prev.toArray else cur.toArray)
      ∃ r, main .exact 9 9 (some prev.toArray) (some cur.toArray) = .ok r ∧
        runMotionMatchAsync .exact (fun argv => some ⟨some (helperMain .exact files argv), false⟩) ['m'] 9 9 ['p'] ['c'] =
          .ok ⟨some (.number 2), some (.number (-1)), some (.number (printed 6 r.c / 10 ^ 6)), some (.number 0)⟩ from
    hnamed _ _ (search_buildSyntheticGreyPair .exact)
  rintro prev cur ⟨hbest, hdx, hdy⟩ files
  have hmain : main .exact 9 9 (some prev.toArray) (some cur.toArray) = .ok ((search .exact prev cur).report .exact) :=
    main_files (w := 9) (h := 9) (by decide) (by decide) (by decide) (by decide)
  have hclient := runMotionMatchAsync_eq .exact files ['m'] (w := 9) (h := 9) (by decide) (by decide) ['p'] ['c']
  have hpaths : files ['p'] = some prev.toArray ∧ files ['c'] = some cur.toArray :=
    ⟨congrArg some (if_pos rfl), congrArg some (if_neg (by decide))⟩
  have hshift : ((search .exact prev cur).report .exact).dx = 2 ∧ ((search .exact prev cur).report .exact).dy = -1 :=
    ⟨hdx, hdy⟩
  have hmse : ((search .exact prev cur).report .exact).mse = 0 := hbest
  simp only [hpaths, hmain, hshift, hmse, printed_zero] at hclient
  exact ⟨_, hmain, by simpa using hclient⟩

end Annotations.Motion
