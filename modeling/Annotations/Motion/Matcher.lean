import Annotations.Motion.Rounding
import Mathlib.Data.List.Basic

/-! The shift matcher of the native helper: the mean squared difference of two grey images
at a shift, the search over a square of shifts, and the confidence that it reports. The
arithmetic is that of doubles, over a rounding. -/

namespace Annotations.Motion

/-- `w * h` grey bytes, row by row. -/
abbrev Grey8 (w h : ℕ) := Vector UInt8 (w * h)

/-- `buf[i]`. -/
def Grey8.read {w h : ℕ} (buf : Grey8 w h) (i : ℤ) : UInt8 := buf.toArray.getD i.toNat 0

/-- The running `sum` and `count` of `ssd_shift`. -/
structure Ssd where
  sum : ℚ
  count : ℤ
  deriving DecidableEq, Repr

variable (fl : DoubleRounding) {w h : ℕ}

/-- One pass of the inner loop. -/
def Ssd.pixel (prev cur : Grey8 w h) (sx sy : ℤ) (y : ℕ) (acc : Ssd) (x : ℕ) : Ssd :=
  let yy := (y : ℤ) + sy
  let xx := (x : ℤ) + sx
  if xx < 0 ∨ (w : ℤ) ≤ xx then acc
  else
    let d : ℤ := ((prev.read (y * w + x)).toNat : ℤ) - ((cur.read (yy * w + xx)).toNat : ℤ)
    ⟨fl.round (acc.sum + fl.round ((d : ℚ) * d)), acc.count + 1⟩

/-- One pass of the outer loop. -/
def Ssd.row (prev cur : Grey8 w h) (sx sy : ℤ) (acc : Ssd) (y : ℕ) : Ssd :=
  let yy := (y : ℤ) + sy
  if yy < 0 ∨ (h : ℤ) ≤ yy then acc
  else (List.range w).foldl (Ssd.pixel fl prev cur sx sy y) acc

/-- `ssd_shift`. -/
def ssdShift (prev cur : Grey8 w h) (sx sy : ℤ) : ℚ :=
  let acc := (List.range h).foldl (Ssd.row fl prev cur sx sy) ⟨0, 0⟩
  if acc.count ≤ 0 then fl.round (10 ^ 30) else fl.round (acc.sum / acc.count)

/-- The search radius `m`. -/
def searchRadius (w h : ℕ) : ℕ :=
  let m := if w < h then w / 8 else h / 8
  let m := if 48 < m then 48 else m
  if m < 4 then 4 else m

/-- The integers from `-m` to `m`, in increasing order. -/
def span (m : ℕ) : List ℤ := (List.range (2 * m + 1)).map fun i : ℕ => (i : ℤ) - m

/-- The shifts `(sx, sy)` in the order of the two loops, `sy` outside. -/
def shifts (m : ℕ) : List (ℤ × ℤ) := (span m).flatMap fun sy => (span m).map fun sx => (sx, sy)

/-- What the search knows: the least error so far with its shift, and the next. -/
structure Search where
  best : ℚ
  second : ℚ
  bestSx : ℤ
  bestSy : ℤ
  deriving DecidableEq, Repr

def Search.start : Search := ⟨fl.round (10 ^ 300), fl.round (10 ^ 300), 0, 0⟩

def Search.consider (s : Search) (shift : ℤ × ℤ) (err : ℚ) : Search :=
  if err < s.best then ⟨err, s.best, shift.1, shift.2⟩
  else if err < s.second then { s with second := err }
  else s

def Search.visit (err : ℤ × ℤ → ℚ) (s : Search) (visited : List (ℤ × ℤ)) : Search :=
  visited.foldl (fun s shift => s.consider shift (err shift)) s

/-- The two loops of `main`. -/
def search (prev cur : Grey8 w h) : Search :=
  (Search.start fl).visit (fun shift => ssdShift fl prev cur shift.1 shift.2)
    (shifts (searchRadius w h))

/-- The confidence that `main` computes. -/
def confidence (best second : ℚ) : ℚ :=
  let c := if fl.round (best * fl.round 1.0000001) < second ∧ second < fl.round (10 ^ 290) then
      fl.round (1 - fl.round (best / second))
    else 0
  let c := if c < 0 then 0 else c
  let c := if 1 < c then 1 else c
  if best < fl.round 1e-6 then fl.round (c * 0.25) else c

/-- The line that `main` prints. -/
structure Report where
  dx : ℤ
  dy : ℤ
  c : ℚ
  mse : ℚ
  deriving DecidableEq, Repr

def Search.report (s : Search) : Report := ⟨s.bestSx, s.bestSy, confidence fl s.best s.second, s.best⟩

/-- `read_raw`: the first bytes of the file, if it can be opened and has so many. -/
def readRaw (file : Option (Array UInt8)) (len : ℕ) : Option (Vector UInt8 len) :=
  match file with
  | none => none
  | some bytes =>
    if hlen : len ≤ bytes.size then some ⟨bytes.take len, by simp [hlen]⟩ else none

/-- `main`, with its exit code when it fails. -/
def main (w h : ℤ) (prevFile curFile : Option (Array UInt8)) : Except ℕ Report :=
  if w ≤ 8 ∨ h ≤ 8 ∨ 4096 < w ∨ 4096 < h then .error 2
  else
    match readRaw prevFile (w.toNat * h.toNat), readRaw curFile (w.toNat * h.toNat) with
    | some prev, some cur => .ok ((search fl (w := w.toNat) (h := h.toNat) prev cur).report fl)
    | _, _ => .error 1

end Annotations.Motion
