/-
The string functions of the C library that the server uses.

Memory is a list of bytes that starts at the address given to the function. A
string ends before the first NUL; behind the end of the list NULs are read.
-/

import Aesd.Driver.Device

namespace Aesd.Server

open Driver

/-- The bytes up to the terminator. -/
def cstr (memory : Bytes) : Bytes := memory.takeWhile (fun byte => byte ≠ 0)

def strchr (memory : Bytes) (byte : UInt8) : Option Nat := (cstr memory).idxOf? byte

def strncmpZero : Bytes → Bytes → Nat → Bool
  | _, _, 0 => true
  | left, right, count + 1 =>
      if left.headD 0 ≠ right.headD 0 then false
      else if left.headD 0 = 0 then true
      else strncmpZero left.tail right.tail count

/-! ### sscanf -/

/-- The directives of a format: an ordinary character, or `%d`. -/
inductive Directive where
  | literal (byte : UInt8)
  | decimal
  deriving DecidableEq, Repr

def isSpace (byte : UInt8) : Bool := byte = 32 || (9 ≤ byte && byte ≤ 13)

def isDigit (byte : UInt8) : Bool := 48 ≤ byte && byte ≤ 57

def digitsValue (digits : Bytes) : Nat :=
  digits.foldl (fun value digit => 10 * value + (digit.toNat - 48)) 0

def scanSign : Bytes → Int × Bytes
  | 45 :: later => (-1, later)
  | 43 :: later => (1, later)
  | input => (1, input)

/-- `%d`: white space is skipped, newlines included; the value is converted as
by `strtol`, so it is clamped to the range of `long`. -/
def scanDecimal (input : Bytes) : Option (Int × Bytes) :=
  let (sign, unsigned) := scanSign (input.dropWhile isSpace)
  let digits := unsigned.takeWhile isDigit
  if digits = [] then none
  else
    some (max (-2 ^ 63) (min (2 ^ 63 - 1) (sign * digitsValue digits)),
      unsigned.dropWhile isDigit)

/-- The values converted before the first directive that fails; their number is
the return value. -/
def sscanf : List Directive → Bytes → List Int
  | [], _ => []
  | .literal byte :: later, input =>
      match input with
      | [] => []
      | head :: tail => if head = byte then sscanf later tail else []
  | .decimal :: later, input =>
      match scanDecimal input with
      | none => []
      | some (value, tail) => value :: sscanf later tail

/-! ### Strings in a buffer -/

theorem cstr_of_terminated {text behind : Bytes} (clean : 0 ∉ text) :
    cstr (text ++ 0 :: behind) = text := by
  unfold cstr
  rw [List.takeWhile_append_of_pos]
  · simp
  · intro byte member
    simp only [decide_eq_true_eq]
    intro zero
    rw [zero] at member
    exact clean member

theorem zero_not_mem_cstr (memory : Bytes) : 0 ∉ cstr memory := by
  intro member
  have nonzero := List.mem_takeWhile_imp member
  simp at nonzero

/-- Comparing the first bytes of a string with a literal of which they are not
yet the end asks whether the literal's first bytes start the memory. -/
theorem strncmpZero_iff {memory literal : Bytes} (clean : 0 ∉ literal) {count : Nat}
    (bound : count ≤ literal.length) :
    strncmpZero memory literal count = true ↔ literal.take count <+: memory := by
  induction count generalizing memory literal with
  | zero => simp [strncmpZero]
  | succ count ih =>
      cases literal with
      | nil => simp at bound
      | cons expected later =>
          have nonzero : expected ≠ 0 := fun zero => clean (by rw [zero]; exact List.mem_cons_self)
          have cleanLater : 0 ∉ later := fun member => clean (List.mem_cons_of_mem _ member)
          have boundLater : count ≤ later.length := Nat.le_of_succ_le_succ bound
          cases memory with
          | nil =>
              have differs : (0 : UInt8) ≠ expected := fun zero => nonzero zero.symm
              simp [strncmpZero, differs]
          | cons head tail =>
              rw [List.take_succ_cons, List.cons_prefix_cons]
              by_cases same : head = expected
              · subst same
                simp [strncmpZero, nonzero, ih cleanLater boundLater]
              · have reversed : expected ≠ head := fun equal => same equal.symm
                simp [strncmpZero, same, reversed]

/-! ### What stands behind the terminator -/

theorem cstr_cons_of_ne {head : UInt8} (nonzero : head ≠ 0) (tail : Bytes) :
    cstr (head :: tail) = head :: cstr tail := by
  simp [cstr, nonzero]

theorem cstr_cons_zero (tail : Bytes) : cstr (0 :: tail) = [] := by
  simp [cstr]

theorem takeWhile_cstr {accepts : UInt8 → Bool} (stops : accepts 0 = false) (memory : Bytes) :
    (cstr memory).takeWhile accepts = memory.takeWhile accepts := by
  induction memory with
  | nil => rfl
  | cons head tail ih =>
      by_cases zero : head = 0
      · subst zero
        rw [cstr_cons_zero, List.takeWhile_nil, List.takeWhile_cons, stops]
        rfl
      · rw [cstr_cons_of_ne zero, List.takeWhile_cons, List.takeWhile_cons, ih]

theorem dropWhile_cstr {accepts : UInt8 → Bool} (stops : accepts 0 = false) (memory : Bytes) :
    (cstr memory).dropWhile accepts = cstr (memory.dropWhile accepts) := by
  induction memory with
  | nil => rfl
  | cons head tail ih =>
      by_cases zero : head = 0
      · subst zero
        rw [cstr_cons_zero, List.dropWhile_nil, List.dropWhile_cons, stops]
        exact (cstr_cons_zero tail).symm
      · rw [cstr_cons_of_ne zero, List.dropWhile_cons, List.dropWhile_cons, ih]
        split
        · rfl
        · exact (cstr_cons_of_ne zero tail).symm

theorem scanSign_cstr (memory : Bytes) :
    scanSign (cstr memory) = ((scanSign memory).1, cstr (scanSign memory).2) := by
  cases memory with
  | nil => rfl
  | cons head tail =>
      by_cases minus : head = 45
      · subst minus
        rw [cstr_cons_of_ne (by decide)]
        rfl
      · by_cases plus : head = 43
        · subst plus
          rw [cstr_cons_of_ne (by decide)]
          rfl
        · have unsigned : scanSign (head :: tail) = (1, head :: tail) := by
            simp [scanSign, minus, plus]
          rw [unsigned]
          by_cases zero : head = 0
          · subst zero
            rw [cstr_cons_zero]
            rfl
          · rw [cstr_cons_of_ne zero]
            simp [scanSign, minus, plus]

theorem scanDecimal_cstr (memory : Bytes) :
    scanDecimal (cstr memory) = (scanDecimal memory).map fun found => (found.1, cstr found.2) := by
  have spaces : isSpace 0 = false := by decide
  have digits : isDigit 0 = false := by decide
  unfold scanDecimal
  rw [dropWhile_cstr spaces, scanSign_cstr]
  simp only [takeWhile_cstr digits, dropWhile_cstr digits]
  split
  · rfl
  · rfl

/-- `sscanf` stops at the terminator, whatever follows it. -/
theorem sscanf_cstr {format : List Directive} (printable : .literal 0 ∉ format) (memory : Bytes) :
    sscanf format (cstr memory) = sscanf format memory := by
  induction format generalizing memory with
  | nil => rfl
  | cons directive later ih =>
      have laterPrintable : .literal 0 ∉ later := fun member =>
        printable (List.mem_cons_of_mem directive member)
      cases directive with
      | literal byte =>
          have nonzero : (0 : UInt8) ≠ byte := by
            intro zero
            subst zero
            exact printable List.mem_cons_self
          cases memory with
          | nil => rfl
          | cons head tail =>
              by_cases zero : head = 0
              · subst zero
                rw [cstr_cons_zero, sscanf, sscanf, if_neg nonzero]
              · rw [cstr_cons_of_ne zero, sscanf, sscanf, ih laterPrintable]
      | decimal =>
          rw [sscanf, sscanf, scanDecimal_cstr]
          cases scanDecimal memory with
          | none => rfl
          | some found =>
              obtain ⟨value, tail⟩ := found
              simp only [Option.map_some, ih laterPrintable]

end Aesd.Server
