import Ditg.Library.Format

/-!
# Numbers and lines in texts

`strtol`, `strtoul` and `atoi` of `stdlib.h`, with 64 bits in a `long` and 32 in an `int`, `fgets`
of `stdio.h`, and `strcasecmp` of `strings.h`. Texts do not have their NUL.
-/

namespace Stdlib

open Text

/-! ## Numbers -/

/-- The value of a character as a digit, or 36. -/
def digitValue (c : UInt8) : ℕ :=
  if 48 ≤ c ∧ c ≤ 57 then c.toNat - 48
  else if 97 ≤ c ∧ c ≤ 122 then c.toNat - 87
  else if 65 ≤ c ∧ c ≤ 90 then c.toNat - 55
  else 36

/-- The base of a number in a program, which begins with `0x`, with `0`, or with another digit. -/
def literalBase : List UInt8 → ℕ × List UInt8
  | 48 :: x :: d :: s =>
    if (x = 120 ∨ x = 88) ∧ digitValue d < 16 then (16, d :: s) else (8, 48 :: x :: d :: s)
  | 48 :: s => (8, 48 :: s)
  | s => (10, s)

/-- The base 0 stands for that of a number in a program. -/
def chooseBase (base : ℕ) (s : List UInt8) : ℕ × List UInt8 :=
  if base = 0 then literalBase s else (base, s)

/-- A sign, and the number that digits behind it stand for. It is `none` if there are no digits, and
    the functions leave the position in the text where it was. -/
def scanNumber (base : ℕ) (s : List UInt8) : Option (Bool × ℕ) :=
  let (negative, s) := sign (s.dropWhile isSpace)
  let (base, s) := chooseBase base s
  let digits := s.takeWhile fun c => digitValue c < base
  if digits = [] then none
  else some (negative, digits.foldl (fun n c => base * n + digitValue c) 0)

/-- A number that a `long` does not hold becomes the last one that it does. -/
def strtol (base : ℕ) (s : List UInt8) : Option ℤ :=
  (scanNumber base s).map fun (negative, n) =>
    if negative then max (-2 ^ 63) (-n) else min (2 ^ 63 - 1) (n : ℤ)

/-- A number with a minus is subtracted from `2 ^ 64`. -/
def strtoul (base : ℕ) (s : List UInt8) : Option UInt64 :=
  (scanNumber base s).map fun (negative, n) =>
    if n < 2 ^ 64 then if negative then -UInt64.ofNat n else UInt64.ofNat n
    else 0xFFFFFFFFFFFFFFFF

/-- The `long` is converted to an `int`. Without digits it is 0. -/
def atoi (s : List UInt8) : ℤ := ((strtol 10 s).getD 0).bmod (2 ^ 32)

/-! ## Lines -/

/-- At most `n` characters, up to the end of a line, and what follows them. -/
def takeLine : ℕ → List UInt8 → List UInt8 × List UInt8
  | 0, s => ([], s)
  | _, [] => ([], [])
  | n + 1, c :: s =>
    if c = 10 then ([c], s)
    else
      let (line, rest) := takeLine n s
      (c :: line, rest)

/-- The lines that `count` calls of `fgets` read, into an array of `size` characters, up to the end
    of the file. -/
def fgets (size : ℕ) : ℕ → List UInt8 → List (List UInt8)
  | 0, _ => []
  | _, [] => []
  | count + 1, s =>
    let (line, rest) := takeLine (size - 1) s
    line :: fgets size count rest

/-- The lines of a file. With room for a character, each of them has one. -/
def lines (size : ℕ) (file : List UInt8) : List (List UInt8) := fgets size file.length file

/-! ## Cases -/

def tolower (c : UInt8) : UInt8 := if 65 ≤ c ∧ c ≤ 90 then c + 32 else c

/-- Whether `strcasecmp` finds two texts to be the same. -/
def sameText (s t : List UInt8) : Bool := s.map tolower = t.map tolower

end Stdlib
