import Mathlib.Data.List.Basic
import Mathlib.Data.Nat.Digits.Defs
import GridCopy.Toml.Value

/-!
# Numerals in documents

A number in plain decimal is read back. The readers of a value try everything else that starts with
a digit before they try an integer: dates, times, fractions, numbers in other bases. None of them
takes a part of a decimal numeral when a value may end after it, so the integer is what is read, or
nothing when it has no signed 64 bits.

Results:
1. `Toml.readInteger_decimal`, `Toml.readFraction_decimal`, `Toml.readMoment_decimal`: what each
   reader makes of a decimal numeral.
2. `Toml.readValue_decimal`: the value read.
-/

namespace GridCopy

namespace Toml

/-- What may follow a number. -/
inductive EndsNumber : List Char → Prop
  | textEnd : EndsNumber []
  | blank {rest : List Char} : EndsNumber (' ' :: rest)
  | comma {rest : List Char} : EndsNumber (',' :: rest)
  | lineEnd {rest : List Char} : EndsNumber ('\n' :: rest)

variable {digits rest after : List Char} {c d : Char} {n count number : Nat}

/-- A character of a class is none of the others. -/
theorem ne_of_class {isMember : Char → Bool} (member : isMember c = true)
    (other : isMember d = false) : c ≠ d := by
  rintro rfl
  exact Bool.noConfusion (member.symm.trans other)

theorem isDigit_of_mem_decimal (member : c ∈ Nat.toDigits 10 n) : isDigit c = true := by
  have digit := Nat.isDigit_of_mem_toDigits (by decide) (by decide) member
  exact digit

/-- The first digit of a number that is not zero is not zero. -/
theorem exists_decimal_cons (positive : 0 < n) :
    ∃ c digits, Nat.toDigits 10 n = c :: digits ∧ c ≠ '0' := by
  induction n using Nat.strongRecOn with
  | ind n ih =>
      by_cases small : n < 10
      · refine ⟨_, _, Nat.toDigits_of_lt_base small, ?_⟩
        intro zero
        have value := congrArg Char.toNat zero
        rw [Nat.toNat_digitChar_of_lt_ten small] at value
        exact Nat.ne_of_gt positive (Nat.add_left_cancel value)
      · have large : 10 ≤ n := Nat.not_lt.mp small
        obtain ⟨c, digits, split, nonzero⟩ :=
          ih (n / 10) (Nat.div_lt_self positive (by decide)) (Nat.div_pos large (by decide))
        refine ⟨c, digits ++ [(n % 10).digitChar], ?_, nonzero⟩
        rw [Nat.toDigits_of_base_le (by decide) large, split, List.cons_append]

/-- A decimal numeral is a zero alone, or digits of which the first is not zero. -/
theorem decimal_cases (n : Nat) :
    Nat.toDigits 10 n = ['0'] ∨
      ∃ c digits, Nat.toDigits 10 n = c :: digits ∧ c ≠ '0' ∧ isDigit c = true ∧
        ∀ d ∈ digits, isDigit d = true := by
  rcases Nat.eq_zero_or_pos n with rfl | positive
  · exact .inl rfl
  · obtain ⟨c, digits, split, nonzero⟩ := exists_decimal_cons positive
    have decimal : ∀ d ∈ c :: digits, isDigit d = true := by
      intro d member
      exact isDigit_of_mem_decimal (split ▸ member)
    exact .inr ⟨c, digits, split, nonzero, List.forall_mem_cons.mp decimal⟩

theorem numeral_decimal : numeral 10 (Nat.toDigits 10 n) = n := by
  calc
    numeral 10 (Nat.toDigits 10 n) = Nat.ofDigitChars 10 (Nat.toDigits 10 n) 0 := by
      refine List.foldl_ext _ _ _ fun number digit member => ?_
      rw [digitValue, if_pos (isDigit_of_mem_decimal member), Nat.mul_comm]
    _ = n := Nat.ofDigitChars_ten_toDigits

theorem digitRun_append (decimal : ∀ c ∈ digits, isDigit c = true) (ends : EndsNumber rest) :
    digitRun isDigit (digits ++ rest) = (digits, rest) := by
  induction digits with
  | nil => cases ends <;> rfl
  | cons c digits ih =>
      obtain ⟨first, others⟩ := List.forall_mem_cons.mp decimal
      have plain : c ≠ '_' := ne_of_class first rfl
      rw [List.cons_append, digitRun]
      · simp [first, ih others]
      · simp [plain]

theorem readWhole_decimal (ends : EndsNumber rest) :
    readWhole (Nat.toDigits 10 n ++ rest) = some (Nat.toDigits 10 n, rest) := by
  rcases decimal_cases n with zero | ⟨c, digits, split, nonzero, first, others⟩
  · rw [zero]
    rfl
  · rw [split, List.cons_append, readWhole]
    · simp [readDigits, first, digitRun_append others ends]
    · simp [nonzero]

theorem readSign_decimal :
    readSign (Nat.toDigits 10 n ++ rest) = (false, Nat.toDigits 10 n ++ rest) := by
  rcases decimal_cases n with zero | ⟨c, digits, split, -, first, -⟩
  · rw [zero]
    rfl
  · have minus : c ≠ '-' := ne_of_class first rfl
    have plus : c ≠ '+' := ne_of_class first rfl
    rw [split, List.cons_append, readSign]
    · simp [minus]
    · simp [plus]

theorem readFraction_decimal (ends : EndsNumber rest) :
    readFraction (Nat.toDigits 10 n ++ rest) = none := by
  simp only [readFraction, readSign_decimal, readWhole_decimal ends]
  cases ends <;> rfl

theorem readSpecial_decimal : readSpecial (Nat.toDigits 10 n ++ rest) = none := by
  rw [readSpecial, readSign_decimal]
  rcases decimal_cases n with zero | ⟨c, digits, split, -, first, -⟩
  · rw [zero]
    rfl
  · have infinity : c ≠ 'i' := ne_of_class first rfl
    have notNumber : c ≠ 'n' := ne_of_class first rfl
    simp [split, infinity, notNumber]

/-- A zero at the front of a number in plain decimal is the whole number, and names no base. -/
theorem decimal_ne_based (ends : EndsNumber rest) (letter : isLetter c = true) :
    Nat.toDigits 10 n ++ rest ≠ '0' :: c :: after := by
  intro based
  rcases decimal_cases n with zero | ⟨d, digits, split, nonzero, -, -⟩
  · rw [zero] at based
    cases ends <;> cases based <;> cases letter
  · rw [split] at based
    exact nonzero (List.cons.inj based).1

theorem readInteger_decimal (ends : EndsNumber rest) :
    readInteger (Nat.toDigits 10 n ++ rest) = (integer? false n).map (·, rest) := by
  unfold readInteger
  split
  · next based => exact absurd based (decimal_ne_based ends rfl)
  · next based => exact absurd based (decimal_ne_based ends rfl)
  · next based => exact absurd based (decimal_ne_based ends rfl)
  · simp only [readSign_decimal, readWhole_decimal ends, numeral_decimal, Option.bind_eq_bind,
      Option.bind_some]
    cases integer? false n with
    | none => rfl
    | some => rfl

theorem readNumber_decimal (ends : EndsNumber rest) :
    readNumber (Nat.toDigits 10 n ++ rest) = (integer? false n).map (·, rest) := by
  rw [readNumber, readFraction_decimal ends, readSpecial_decimal, readInteger_decimal ends]
  rfl

/-! ## Dates and times -/

/-- A number is followed by no sign that would continue a date or a time. -/
theorem expect_append (decimal : ∀ d ∈ digits, isDigit d = true) (ends : EndsNumber rest)
    (sign : c = '-' ∨ c = ':') : expect c (digits ++ rest) = none := by
  have unsigned {d : Char} (digit : isDigit d = true) : d ≠ c := by
    rcases sign with rfl | rfl
    · exact ne_of_class digit rfl
    · exact ne_of_class digit rfl
  cases digits with
  | nil => cases ends <;> rcases sign with rfl | rfl <;> rfl
  | cons d digits => exact if_neg (unsigned (decimal d List.mem_cons_self))

/-- Reading a fixed number of digits stops within the number. -/
theorem readFixed_append (decimal : ∀ d ∈ digits, isDigit d = true) (ends : EndsNumber rest)
    (read : readFixed count (digits ++ rest) = some (number, after)) :
    ∃ left, (∀ d ∈ left, isDigit d = true) ∧ after = left ++ rest := by
  simp only [readFixed, Option.ite_none_right_eq_some, Bool.and_eq_true, decide_eq_true_eq,
    List.all_eq_true] at read
  obtain ⟨⟨long, taken⟩, last⟩ := read
  cases last
  have inside : count ≤ digits.length := by
    by_contra beyond
    obtain ⟨more, rfl⟩ := Nat.exists_eq_add_of_lt (Nat.not_le.mp beyond)
    rw [Nat.add_assoc, List.take_length_add_append] at long taken
    cases ends with
    | textEnd => simp at long
    | blank => cases taken ' ' (List.mem_append_right _ List.mem_cons_self)
    | comma => cases taken ',' (List.mem_append_right _ List.mem_cons_self)
    | lineEnd => cases taken '\n' (List.mem_append_right _ List.mem_cons_self)
  refine ⟨digits.drop count, fun d member => decimal d (List.mem_of_mem_drop member), ?_⟩
  rw [List.drop_append_of_le_length inside]

theorem readMoment_decimal (ends : EndsNumber rest) :
    readMoment (Nat.toDigits 10 n ++ rest) = none := by
  have decimal : ∀ d ∈ Nat.toDigits 10 n, isDigit d = true := fun d => isDigit_of_mem_decimal
  have date : skipDate (Nat.toDigits 10 n ++ rest) = none := by
    unfold skipDate
    cases read : readFixed 4 (Nat.toDigits 10 n ++ rest) with
    | none => rfl
    | some fixed =>
        obtain ⟨left, digits, after⟩ := readFixed_append decimal ends read
        simp [after, expect_append digits ends (.inl rfl)]
  have time : skipTime (Nat.toDigits 10 n ++ rest) = none := by
    unfold skipTime skipMinutes
    cases read : readFixed 2 (Nat.toDigits 10 n ++ rest) with
    | none => rfl
    | some fixed =>
        obtain ⟨left, digits, after⟩ := readFixed_append decimal ends read
        simp [after, expect_append digits ends (.inr rfl)]
  simp [readMoment, date, time]

/-! ## Values -/

theorem readValue_eq_readScalar (depth : Nat) (array : c ≠ '[') (table : c ≠ '\x7b') :
    readValue depth (c :: rest) = readScalar (c :: rest) := by
  cases depth with
  | zero => simp [readValue, array, table]
  | succ depth => simp [readValue, array, table]

theorem readScalar_digit (first : isDigit c = true) :
    readScalar (c :: rest) = (readMoment (c :: rest)).or (readNumber (c :: rest)) := by
  have double : c ≠ '"' := ne_of_class first rfl
  have single : c ≠ '\'' := ne_of_class first rfl
  have yes : c ≠ 't' := ne_of_class first rfl
  have no : c ≠ 'f' := ne_of_class first rfl
  simp [readScalar, double, single, yes, no]

theorem integer?_eq : integer? false n = if n ≤ 2 ^ 63 - 1 then some (.integer n) else none := by
  have bounds : Int64.minValue.toInt ≤ (n : Int) ∧ (n : Int) ≤ Int64.maxValue.toInt ↔
      n ≤ 2 ^ 63 - 1 := by
    have least : Int64.minValue.toInt = - 2 ^ 63 := rfl
    have greatest : Int64.maxValue.toInt = 2 ^ 63 - 1 := rfl
    omega
  exact if_congr bounds rfl rfl

theorem readValue_decimal (depth : Nat) (ends : EndsNumber rest) :
    readValue depth (Nat.toDigits 10 n ++ rest) =
      if n ≤ 2 ^ 63 - 1 then some (.integer n, rest) else none := by
  obtain ⟨c, digits, split, first⟩ :
      ∃ c digits, Nat.toDigits 10 n = c :: digits ∧ isDigit c = true := by
    rcases decimal_cases n with zero | ⟨c, digits, split, -, first, -⟩
    · exact ⟨_, _, zero, rfl⟩
    · exact ⟨c, digits, split, first⟩
  have array : c ≠ '[' := ne_of_class first rfl
  have table : c ≠ '\x7b' := ne_of_class first rfl
  have scalar : readValue depth (Nat.toDigits 10 n ++ rest) =
      (readMoment (Nat.toDigits 10 n ++ rest)).or (readNumber (Nat.toDigits 10 n ++ rest)) := by
    rw [split, List.cons_append, readValue_eq_readScalar depth array table, readScalar_digit first]
  rw [scalar, readMoment_decimal ends, readNumber_decimal ends, Option.none_or, integer?_eq]
  split
  · rfl
  · rfl

end Toml

end GridCopy
