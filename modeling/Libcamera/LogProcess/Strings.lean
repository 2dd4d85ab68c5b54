import Mathlib.Data.List.Infix
import Mathlib.Data.Nat.Digits
import Mathlib.Algebra.Group.Int

/-!
Contract: the C and C++ library functions through which `test/log/log_process.cpp` passes
numbers to its child on the command line, and reads its log file back.

Owns: `std::to_string` of an `int`, `std::stoi`, the `std::string` built from a `char`
array, and `std::string::find`, as the C and C++ standards define them; that `stoi` reads
back every `int` that `to_string` prints; when the string built from an array is defined;
and what `find` finds.

Does not own: the test itself (`LogProcessTest`); locales other than "C", and bases other
than 10.

The numbers passed on the command line are lists of characters, all of them ASCII; a
`char` array read from a file, and the `std::string` built from it, are lists of bytes.
`stoi` and the string built from an array return `none` where the code they run throws or
has undefined behaviour.
-/

set_option autoImplicit false

namespace Libcamera.LogProcess

/-- The NUL byte that ends a C string. -/
def NUL : UInt8 := 0

/-! ## Printing and reading an `int` -/

/-- `std::to_string(value)` for an `int`: what `%d` prints, a minus sign for a negative
value, then the decimal digits of its magnitude with no leading zero. -/
def to_string (value : Int) : List Char :=
  if value < 0 then '-' :: Nat.toDigits 10 value.natAbs else Nat.toDigits 10 value.toNat

/-- `isspace` in the "C" locale: the space, and tab through carriage return. -/
def isspace (c : Char) : Bool :=
  c == ' ' || (9 ≤ c.toNat && c.toNat ≤ 13)

/-- The value of decimal digits, most significant first, as `strtol` accumulates it. -/
def digitsValue (digits : List Char) : Nat :=
  digits.foldl (fun value digit => 10 * value + (digit.toNat - '0'.toNat)) 0

/-- The sign that `strtol` takes at the start of `str`: whether it is a minus, and what
follows it. -/
def sign : List Char → Bool × List Char
  | '-' :: rest => (true, rest)
  | '+' :: rest => (false, rest)
  | rest => (false, rest)

/-- `std::stoi(str)`, through `strtol(str, &end, 10)`: skip white space, take an optional
sign, then the longest run of decimal digits. `stoi` throws `std::invalid_argument` when no
digit follows, and `std::out_of_range` when the value is not an `int` (also when `strtol`
overflows a `long`, whose clamped result is not an `int` either). -/
def stoi (str : List Char) : Option Int :=
  let (negative, unsigned) := sign (str.dropWhile isspace)
  let digits := unsigned.takeWhile Char.isDigit
  if digits = [] then none
  else
    let value : Int := if negative then -(digitsValue digits : Int) else digitsValue digits
    if -2 ^ 31 ≤ value ∧ value < 2 ^ 31 then some value else none

theorem digitChar_digit : ∀ digit < 10,
    (Nat.digitChar digit).isDigit = true ∧ (Nat.digitChar digit).toNat - '0'.toNat = digit := by
  decide

theorem toNat_of_isDigit {c : Char} (digit : c.isDigit = true) : 48 ≤ c.toNat ∧ c.toNat ≤ 57 := by
  simp only [Char.isDigit, Bool.and_eq_true, decide_eq_true_eq] at digit
  exact ⟨digit.1, digit.2⟩

theorem isspace_of_isDigit {c : Char} (digit : c.isDigit = true) : isspace c = false := by
  have bounds := toNat_of_isDigit digit
  simp only [isspace, Bool.or_eq_false_iff, beq_eq_false_iff_ne, Bool.and_eq_false_iff,
    decide_eq_false_iff_not]
  exact ⟨fun same => absurd (same ▸ bounds.1) (by decide), .inr (by omega)⟩

theorem sign_of_isDigit {c : Char} (digit : c.isDigit = true) (rest : List Char) :
    sign (c :: rest) = (false, c :: rest) := by
  have bounds := toNat_of_isDigit digit
  unfold sign
  split
  · rename_i minus
    obtain ⟨rfl, -⟩ := List.cons.inj minus
    exact absurd bounds.1 (by decide)
  · rename_i plus
    obtain ⟨rfl, -⟩ := List.cons.inj plus
    exact absurd bounds.1 (by decide)
  · rfl

/-- Core's printing loop, given more passes than `n`, puts the decimal digits of `n` before
`ds`: at least one, each a digit, whose value is `n`. -/
theorem toDigitsCore_ten (fuel : Nat) : ∀ (n : Nat) (ds : List Char), n < fuel →
    ∃ digits, Nat.toDigitsCore 10 fuel n ds = digits ++ ds ∧ digits ≠ [] ∧
      (∀ c ∈ digits, c.isDigit = true) ∧ digitsValue digits = n := by
  induction fuel with
  | zero => intro n _ enough; exact absurd enough (Nat.not_lt_zero n)
  | succ fuel inductionHypothesis =>
      intro n ds enough
      have last := digitChar_digit (n % 10) (Nat.mod_lt _ (by decide))
      rw [Nat.toDigitsCore]
      split_ifs with small
      · refine ⟨[Nat.digitChar (n % 10)], rfl, List.cons_ne_nil _ _, by simpa using last.1, ?_⟩
        simp only [digitsValue, List.foldl_cons, List.foldl_nil, last.2]
        omega
      · obtain ⟨digits, core, nonempty, allDigits, value⟩ :=
          inductionHypothesis (n / 10) (Nat.digitChar (n % 10) :: ds) (by omega)
        refine ⟨digits ++ [Nat.digitChar (n % 10)], by rw [core, List.append_assoc]; rfl,
          by simp, fun c member => ?_, ?_⟩
        · rcases List.mem_append.1 member with early | final
          · exact allDigits c early
          · rw [List.mem_singleton.1 final]
            exact last.1
        · rw [digitsValue, List.foldl_append, ← digitsValue, value, List.foldl_cons, List.foldl_nil,
            last.2]
          omega

/-- What `to_string` prints: a minus sign for a negative value, then at least one digit,
whose value is the magnitude. -/
theorem to_string_digits (value : Int) :
    ∃ digits, to_string value = (if value < 0 then ['-'] else []) ++ digits ∧ digits ≠ [] ∧
      (∀ c ∈ digits, c.isDigit = true) ∧ digitsValue digits = value.natAbs := by
  have printed : ∀ n : Nat, ∃ digits, Nat.toDigits 10 n = digits ∧ digits ≠ [] ∧
      (∀ c ∈ digits, c.isDigit = true) ∧ digitsValue digits = n := fun n => by
    obtain ⟨digits, core, rest⟩ := toDigitsCore_ten (n + 1) n [] (Nat.lt_succ_self n)
    exact ⟨digits, by rw [Nat.toDigits, core, List.append_nil], rest⟩
  by_cases negative : value < 0
  · obtain ⟨digits, printedEq, rest⟩ := printed value.natAbs
    exact ⟨digits, by rw [to_string, if_pos negative, if_pos negative, printedEq]; rfl, rest⟩
  · obtain ⟨digits, printedEq, nonempty, allDigits, digitsEq⟩ := printed value.toNat
    refine ⟨digits, by rw [to_string, if_neg negative, if_neg negative, printedEq]; rfl, nonempty,
      allDigits, by omega⟩

/-- `stoi` reads back every `int` that `to_string` prints. -/
theorem stoi_to_string {value : Int} (fits : -2 ^ 31 ≤ value ∧ value < 2 ^ 31) :
    stoi (to_string value) = some value := by
  obtain ⟨digits, printed, nonempty, allDigits, digitsEq⟩ := to_string_digits value
  obtain ⟨first, rest, rfl⟩ := List.exists_cons_of_ne_nil nonempty
  have digit := allDigits first (List.mem_cons_self _ _)
  have notSpace : ¬isspace first = true := by rw [isspace_of_isDigit digit]; decide
  have taken := List.takeWhile_eq_self_iff.2 allDigits
  by_cases negative : value < 0
  · have minusNotSpace : ¬isspace '-' = true := by decide
    have magnitude : (value.natAbs : Int) = -value := Int.ofNat_natAbs_of_nonpos (by omega)
    rw [if_pos negative] at printed
    simp only [stoi, printed, List.singleton_append, List.dropWhile_cons_of_neg minusNotSpace,
      sign, taken, List.cons_ne_nil, if_false, digitsEq, if_true, magnitude, Int.neg_neg]
    rw [if_pos fits]
  · have magnitude : (value.natAbs : Int) = value := Int.natAbs_of_nonneg (by omega)
    rw [if_neg negative, List.nil_append] at printed
    simp only [stoi, printed, List.dropWhile_cons_of_neg notSpace, sign_of_isDigit digit, taken,
      List.cons_ne_nil, if_false, Bool.false_eq_true, digitsEq, magnitude]
    rw [if_pos fits]

/-! ## C strings and `find` -/

/-- `std::string(buf)` for a `char` array `buf`: the bytes before the first NUL; `none`
where `buf` holds no NUL, and the constructor reads past the array. -/
def cString (buf : List UInt8) : Option (List UInt8) :=
  if NUL ∈ buf then some (buf.takeWhile (· != NUL)) else none

/-- `str.find(pattern)`: the first position at which `pattern` occurs in `str`; `none` for
`std::string::npos`. -/
def find (str pattern : List UInt8) : Option Nat :=
  (List.range (str.length + 1)).find? fun position => pattern.isPrefixOf (str.drop position)

theorem cString_of_nul {text rest : List UInt8} (noNul : NUL ∉ text) :
    cString (text ++ NUL :: rest) = some text := by
  have taken : (text ++ NUL :: rest).takeWhile (· != NUL) = text := by
    rw [List.takeWhile_append_of_pos fun byte member =>
      bne_iff_ne.2 fun same : byte = NUL => noNul (same ▸ member)]
    simp [List.takeWhile_cons]
  simp [cString, taken]

/-- `find` finds `pattern` exactly where it occurs in `str`. -/
theorem find_isSome (str pattern : List UInt8) : (find str pattern).isSome ↔ pattern <:+: str := by
  rw [find, List.find?_isSome]
  constructor
  · rintro ⟨position, -, prefixed⟩
    exact ((List.isPrefixOf_iff_prefix.1 prefixed).isInfix).trans (List.drop_suffix _ _).isInfix
  · rintro ⟨before, after, whole⟩
    refine ⟨before.length, List.mem_range.2 ?_, List.isPrefixOf_iff_prefix.2 ⟨after, ?_⟩⟩
    · rw [← whole]
      simp only [List.length_append]
      omega
    · rw [← whole, List.append_assoc, List.drop_left]

end Libcamera.LogProcess
