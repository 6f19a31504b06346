/-!
# Sizes and faults

Sizes, offsets and counts are naturals below `2 ^ 64`. An operation whose exact result leaves that
range, or that divides by zero, is a fault: it ends the whole computation, and the first one met
in reading order is the one reported.
-/

namespace GridCopy

/-- Why a computation on sizes or buffers cannot go on. -/
inductive Fault
  | sumTooLarge
  | productTooLarge
  | divisionByZero
  | remainderByZero
  | readOutsideBuffer
  | writeOutsideBuffer
  /-- A buffer is cut into pieces of no elements. -/
  | emptyPieces
deriving DecidableEq, Repr

/-- The text of a fault; an access outside a buffer has none. -/
def Fault.message? : Fault → Option String
  | .sumTooLarge => some "attempt to add with overflow"
  | .productTooLarge => some "attempt to multiply with overflow"
  | .divisionByZero => some "attempt to divide by zero"
  | .remainderByZero => some "attempt to calculate the remainder with a divisor of zero"
  | .readOutsideBuffer => none
  | .writeOutsideBuffer => none
  | .emptyPieces => some "chunk size must be non-zero"

/-- A computation that ends in a value or in its first fault. -/
abbrev Checked := Except Fault

/-- When every part of a list of computations succeeds, so does the whole list. -/
theorem mapM_ok {ε α β : Type} {part : α → Except ε β} {value : α → β} {items : List α}
    (parts : ∀ item ∈ items, part item = .ok (value item)) :
    items.mapM part = .ok (items.map value) := by
  induction items with
  | nil => rfl
  | cons item rest ih =>
      have first := parts item List.mem_cons_self
      have others := ih fun other member => parts other (List.mem_cons_of_mem _ member)
      simp [first, others, bind, Except.bind, pure, Except.pure]

/-- When success of a part means that it has its value and is good, a whole list succeeds if and
only if all its items are good. -/
theorem mapM_eq_ok_iff {ε α β : Type} {part : α → Except ε β} {value : α → β} {good : α → Prop}
    (succeeds : ∀ item result, part item = .ok result ↔ result = value item ∧ good item)
    {items : List α} {results : List β} :
    items.mapM part = .ok results ↔ results = items.map value ∧ ∀ item ∈ items, good item := by
  constructor
  · intro ran
    induction items generalizing results with
    | nil =>
        cases ran
        exact ⟨rfl, fun _ member => absurd member List.not_mem_nil⟩
    | cons item rest ih =>
        rw [List.mapM_cons] at ran
        cases first : part item with
        | error error => simp [first, bind, Except.bind] at ran
        | ok result =>
            cases others : rest.mapM part with
            | error error => simp [first, others, bind, Except.bind] at ran
            | ok tail =>
                simp only [first, others, bind, Except.bind, pure, Except.pure,
                  Except.ok.injEq] at ran
                obtain ⟨rfl, itemGood⟩ := (succeeds item result).mp first
                obtain ⟨rfl, restGood⟩ := ih others
                exact ⟨ran.symm, List.forall_mem_cons.mpr ⟨itemGood, restGood⟩⟩
  · rintro ⟨rfl, allGood⟩
    exact mapM_ok fun item member => (succeeds item _).mpr ⟨rfl, allGood item member⟩

/-- When a list of computations fails, one of its parts fails in the same way. -/
theorem mapM_error {ε α β : Type} {part : α → Except ε β} {items : List α} {error : ε}
    (failed : items.mapM part = .error error) : ∃ item ∈ items, part item = .error error := by
  induction items with
  | nil => contradiction
  | cons item rest ih =>
      rw [List.mapM_cons] at failed
      cases first : part item with
      | error reason =>
          simp only [first, bind, Except.bind, Except.error.injEq] at failed
          exact ⟨item, List.mem_cons_self, failed ▸ first⟩
      | ok result =>
          cases others : rest.mapM part with
          | error reason =>
              simp only [first, others, bind, Except.bind, Except.error.injEq] at failed
              obtain ⟨other, member, found⟩ := ih (failed ▸ others)
              exact ⟨other, List.mem_cons_of_mem _ member, found⟩
          | ok tail => simp [first, others, bind, Except.bind, pure, Except.pure] at failed

namespace Size

/-- Sizes lie strictly below this bound. -/
def bound : Nat := UInt64.size

/-- The largest size. -/
def largest : Nat := UInt64.size - 1

def add (a b : Nat) : Checked Nat :=
  if a + b < bound then .ok (a + b) else .error .sumTooLarge

def mul (a b : Nat) : Checked Nat :=
  if a * b < bound then .ok (a * b) else .error .productTooLarge

/-- The product, when it is a size. -/
def mul? (a b : Nat) : Option Nat :=
  if a * b < bound then some (a * b) else none

def div (a b : Nat) : Checked Nat :=
  if b = 0 then .error .divisionByZero else .ok (a / b)

def rem (a b : Nat) : Checked Nat :=
  if b = 0 then .error .remainderByZero else .ok (a % b)

/-- The quotient rounded up. -/
def divUp (a b : Nat) : Checked Nat :=
  if b = 0 then .error .divisionByZero
  else .ok (if a % b = 0 then a / b else a / b + 1)

theorem add_of_lt {a b : Nat} (fits : a + b < bound) : add a b = .ok (a + b) := if_pos fits

theorem mul_of_lt {a b : Nat} (fits : a * b < bound) : mul a b = .ok (a * b) := if_pos fits

theorem mul?_of_lt {a b : Nat} (fits : a * b < bound) : mul? a b = some (a * b) := if_pos fits

theorem mul?_of_ge {a b : Nat} (large : bound ≤ a * b) : mul? a b = none :=
  if_neg (Nat.not_lt.mpr large)

theorem div_of_pos {a b : Nat} (positive : 0 < b) : div a b = .ok (a / b) :=
  if_neg (Nat.ne_of_gt positive)

theorem rem_of_pos {a b : Nat} (positive : 0 < b) : rem a b = .ok (a % b) :=
  if_neg (Nat.ne_of_gt positive)

/-- On multiples, rounding up is exact division. -/
theorem divUp_of_dvd {a b : Nat} (positive : 0 < b) (divides : b ∣ a) :
    divUp a b = .ok (a / b) := by
  simp [divUp, Nat.ne_of_gt positive, Nat.mod_eq_zero_of_dvd divides]

end Size

end GridCopy
