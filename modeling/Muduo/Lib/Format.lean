import Mathlib.Algebra.Group.Nat.Defs
import Mathlib.Tactic.Common

/-!
# Numbers as text and bounded buffers

The conversions `%u`, `%d` and `%s` of the `printf` family, `snprintf` into a buffer of fixed size, and the
numbers that C reads in base 8, 10 and 16.

* `unsigned_injective`: different numbers have different texts.
* `length_unsigned_le`: how long a text can be.
* `snprintf_of_length_lt`: a text that is short enough is not truncated.
* `number_unsigned`: a number is read back from its text.
-/

namespace Format

/-- `%u`. -/
def unsigned (n : Nat) : List Char := Nat.toDigits 10 n

/-- `%d`. -/
def signed (i : Int) : List Char := if i < 0 then '-' :: unsigned i.natAbs else unsigned i.natAbs

/-- `%s` of a `c_str()`: up to the first null character. -/
def cString (s : List Char) : List Char := s.takeWhile (· ≠ Char.ofNat 0)

/-- `isspace` in the C locale. -/
def isspace (c : Char) : Bool := c == ' ' || (9 ≤ c.toNat && c.toNat ≤ 13)

theorem isDigit_of_isspace {c : Char} (h : isspace c = true) : c.isDigit = false := by
  simp only [isspace, Bool.or_eq_true, beq_iff_eq, Bool.and_eq_true, decide_eq_true_eq] at h
  rcases h with rfl | ⟨-, hle⟩
  · decide
  · have hzero : '0'.toNat = 48 := rfl
    rw [← Bool.not_eq_true, Char.isDigit_iff_toNat]
    omega

/-- The string in a buffer of `size` bytes after `snprintf`. -/
def snprintf (size : Nat) (text : List Char) : List Char := text.take (size - 1)

theorem snprintf_of_length_lt {size : Nat} {text : List Char} (h : text.length < size) :
    snprintf size text = text := by
  apply List.take_of_length_le
  omega

theorem unsigned_injective : Function.Injective unsigned := by
  intro m n h
  have := congrArg (Nat.ofDigitChars 10 · 0) h
  simpa only [unsigned, Nat.ofDigitChars_ten_toDigits] using this

theorem length_unsigned_le {n k : Nat} (hk : 0 < k) (h : n < 10 ^ k) : (unsigned n).length ≤ k :=
  (Nat.length_toDigits_le_iff (by omega) hk).mpr h

theorem signed_natCast (n : Nat) : signed n = unsigned n := by
  rw [signed, if_neg (by omega), Int.natAbs_natCast]

/-! ## Reading numbers -/

/-- The value of a digit; letters count from ten. -/
def digit (c : Char) : Option Nat :=
  if '0' ≤ c ∧ c ≤ '9' then some (c.toNat - '0'.toNat)
  else if 'a' ≤ c ∧ c ≤ 'f' then some (c.toNat - 'a'.toNat + 10)
  else if 'A' ≤ c ∧ c ≤ 'F' then some (c.toNat - 'A'.toNat + 10)
  else none

/-- One or more digits. -/
def digits (base : Nat) (cs : List Char) : Option Nat :=
  if cs = [] then none
  else cs.foldlM (fun n c => (digit c).bind fun d => if d < base then some (base * n + d) else none) 0

/-- A decimal number, an octal one with a leading 0, or a hexadecimal one with a leading 0x. -/
def number : List Char → Option Nat
  | '0' :: 'x' :: cs | '0' :: 'X' :: cs => digits 16 cs
  | '0' :: cs => digits 8 ('0' :: cs)
  | cs => digits 10 cs

theorem number_of_head {cs : List Char} (h : cs.head? ≠ some '0') : number cs = digits 10 cs := by
  unfold number
  split
  · simp at h
  · simp at h
  · simp at h
  · rfl

theorem digit_digitChar {d : Nat} (h : d < 10) : digit d.digitChar = some d := by
  revert d
  decide

theorem unsigned_ne_nil (n : Nat) : unsigned n ≠ [] := Nat.toDigits_ne_nil

/-- The last digit is split off. -/
theorem unsigned_eq (n : Nat) :
    unsigned n = if n < 10 then [n.digitChar] else unsigned (n / 10) ++ [(n % 10).digitChar] :=
  Nat.toDigits_eq_if (by decide)

theorem digits_unsigned (n : Nat) : digits 10 (unsigned n) = some n := by
  rw [digits, if_neg (unsigned_ne_nil n)]
  induction n using Nat.strongRecOn with
  | ind n ih =>
    rw [unsigned_eq]
    by_cases hn : n < 10
    · rw [if_pos hn]
      simp [digit_digitChar hn, hn]
    · have hmod : n % 10 < 10 := Nat.mod_lt n (by decide)
      rw [if_neg hn, List.foldlM_append, ih (n / 10) (by omega)]
      simp only [Option.bind_eq_bind, Option.bind_some, List.foldlM_cons, digit_digitChar hmod,
        if_pos hmod, List.foldlM_nil]
      have := Nat.div_add_mod n 10
      simpa using this

theorem digitChar_ne_zero {d : Nat} (h : d < 10) (hpos : 0 < d) : d.digitChar ≠ '0' := by
  revert d
  decide

/-- No number but 0 begins with a 0. -/
theorem head?_unsigned {n : Nat} (h : 0 < n) : (unsigned n).head? ≠ some '0' := by
  induction n using Nat.strongRecOn with
  | ind n ih =>
    rw [unsigned_eq]
    by_cases hn : n < 10
    · rw [if_pos hn]
      simpa using digitChar_ne_zero hn h
    · have hhead := ih (n / 10) (by omega) (by omega)
      obtain ⟨c, cs, hcs⟩ := List.exists_cons_of_ne_nil (unsigned_ne_nil (n / 10))
      rw [hcs] at hhead
      rw [if_neg hn, hcs]
      exact hhead

/-- **A number is read back from its text.** -/
theorem number_unsigned (n : Nat) : number (unsigned n) = some n := by
  by_cases hn : n = 0
  · subst hn
    decide
  · rw [number_of_head (head?_unsigned (Nat.pos_of_ne_zero hn)), digits_unsigned]

theorem not_mem_unsigned {c : Char} (hc : c.isDigit = false) (n : Nat) : c ∉ unsigned n := by
  intro hmem
  have hdigit : c.isDigit = true := Nat.isDigit_of_mem_toDigits (by decide) (by decide) hmem
  rw [hc] at hdigit
  cases hdigit

end Format
