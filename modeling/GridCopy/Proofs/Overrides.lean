import Mathlib.Data.Nat.Digits.Defs
import GridCopy.Proofs.Loading

/-!
# Overriding settings from the environment

Three variables override a setting each. `Variable` describes one of them by its name and by the
texts that it can have; for the limit these are the numerals of `Decimal`, of any length. What a
variable makes of its setting, and what it logs, is then the relation `Variable.Overrides`.

Results:
1. `Settings.size?_eq_some_iff`: which texts are sizes, and of which value.
2. `Variable.overrides`: a variable replaces its setting, or keeps it with at most one warning.
3. `Settings.foldrM_overrideFrom`: of several environments, the last that gives a value counts.
4. `Settings.overrideFrom_exact`: all of this for the three variables together.
-/

namespace GridCopy

/-! ## The texts of the settings -/

/-- The names of the selections. -/
def Selection.spellings : List (String × Selection) :=
  [("striped", .striped), ("vectorized", .vectorized), ("both", .both)]

/-- The names of the orders, each with its short form. -/
def MajorOrder.spellings : List (String × MajorOrder) :=
  [("column_major", .columnMajor), ("column", .columnMajor), ("row_major", .rowMajor),
    ("row", .rowMajor)]

theorem Selection.ofName?_eq_some_iff {text : String} {selection : Selection} :
    Selection.ofName? text = some selection ↔ (text, selection) ∈ Selection.spellings := by
  unfold Selection.ofName? Selection.spellings
  split <;> simp_all [eq_comm]

theorem MajorOrder.ofName?_eq_some_iff {text : String} {order : MajorOrder} :
    MajorOrder.ofName? text = some order ↔ (text, order) ∈ MajorOrder.spellings := by
  unfold MajorOrder.ofName? MajorOrder.spellings
  split <;> simp_all [eq_comm]

namespace Settings

/-- The characters are decimal digits, at least one of them, and stand for the value. -/
def Numeral (chars : List Char) (value : Nat) : Prop :=
  ∃ digits : List Nat, digits ≠ [] ∧ (∀ digit ∈ digits, digit < 10) ∧
    chars = digits.map Nat.digitChar ∧ value = Nat.ofDigits 10 digits.reverse

/-- The text is a numeral, with or without one plus sign before it, of a value below `2 ^ 64`. -/
def Decimal (text : String) (value : Nat) : Prop :=
  ∃ chars, (text.toList = chars ∨ text.toList = '+' :: chars) ∧ Numeral chars value ∧
    value ≤ 2 ^ 64 - 1

theorem isDecimalDigit_iff {c : Char} :
    isDecimalDigit c = true ↔ ∃ digit < 10, Nat.digitChar digit = c := by
  change c.isDigit = true ↔ _
  constructor
  · intro isDigit
    obtain ⟨low, high⟩ := Char.isDigit_iff_toNat.mp isDigit
    change 48 ≤ c.toNat at low
    change c.toNat ≤ 57 at high
    have small : c.toNat - 48 < 10 := by omega
    refine ⟨c.toNat - 48, small, Char.toNat_inj.mp ?_⟩
    rw [Nat.toNat_digitChar_of_lt_ten small, Nat.add_sub_cancel' low]
  · rintro ⟨digit, small, rfl⟩
    rw [Nat.isDigit_digitChar, decide_eq_true small]

/-- Reading digits from the left gives their positional value. -/
theorem foldl_digitChar {digits : List Nat} (small : ∀ digit ∈ digits, digit < 10) (value : Nat) :
    (digits.map Nat.digitChar).foldl
        (fun value digit => value * 10 + (digit.toNat - '0'.toNat)) value =
      value * 10 ^ digits.length + Nat.ofDigits 10 digits.reverse := by
  induction digits generalizing value with
  | nil => exact (Nat.mul_one value).symm
  | cons digit digits ih =>
      obtain ⟨first, rest⟩ := List.forall_mem_cons.mp small
      have read : (Nat.digitChar digit).toNat - '0'.toNat = digit := by
        rw [Nat.toNat_digitChar_of_lt_ten first]
        exact Nat.add_sub_cancel_left 48 digit
      rw [List.map_cons, List.foldl_cons, ih rest, read, List.reverse_cons, Nat.ofDigits_append,
        Nat.ofDigits_singleton, List.length_reverse, List.length_cons, pow_succ]
      ring

theorem exists_digits {chars : List Char} (decimal : ∀ c ∈ chars, isDecimalDigit c = true) :
    ∃ digits : List Nat, (∀ digit ∈ digits, digit < 10) ∧ digits.map Nat.digitChar = chars := by
  induction chars with
  | nil => exact ⟨[], List.forall_mem_nil _, rfl⟩
  | cons c chars ih =>
      obtain ⟨first, rest⟩ := List.forall_mem_cons.mp decimal
      obtain ⟨digit, small, rfl⟩ := isDecimalDigit_iff.mp first
      obtain ⟨digits, others, rfl⟩ := ih rest
      exact ⟨digit :: digits, List.forall_mem_cons.mpr ⟨small, others⟩, rfl⟩

theorem numeral_iff {chars : List Char} {value : Nat} :
    Numeral chars value ↔ chars ≠ [] ∧ (∀ c ∈ chars, isDecimalDigit c = true) ∧
      chars.foldl (fun value digit => value * 10 + (digit.toNat - '0'.toNat)) 0 = value := by
  constructor
  · rintro ⟨digits, some, small, rfl, rfl⟩
    refine ⟨List.map_eq_nil_iff.not.mpr some, ?_, ?_⟩
    · intro c member
      obtain ⟨digit, listed, rfl⟩ := List.mem_map.mp member
      exact isDecimalDigit_iff.mpr ⟨digit, small digit listed, rfl⟩
    · rw [foldl_digitChar small, Nat.zero_mul, Nat.zero_add]
  · rintro ⟨some, decimal, rfl⟩
    obtain ⟨digits, small, rfl⟩ := exists_digits decimal
    refine ⟨digits, List.map_eq_nil_iff.not.mp some, small, rfl, ?_⟩
    rw [foldl_digitChar small, Nat.zero_mul, Nat.zero_add]

/-- A sign is no digit. -/
theorem Numeral.unsigned {chars : List Char} {value : Nat} : ¬ Numeral ('+' :: chars) value := by
  intro numeral
  have digit := (numeral_iff.mp numeral).2.1 '+' List.mem_cons_self
  cases digit

/-- What is read after the sign, or from a text without one. -/
theorem bounded_numeral_iff {chars : List Char} {value : Nat} :
    (let value := chars.foldl (fun value digit => value * 10 + (digit.toNat - '0'.toNat)) 0
      if !chars.isEmpty && chars.all isDecimalDigit && value < Size.bound then some value
      else none) = some value ↔ Numeral chars value ∧ value ≤ 2 ^ 64 - 1 := by
  simp only [numeral_iff, Option.ite_none_right_eq_some, Option.some.injEq, Bool.and_eq_true,
    Bool.not_eq_true', List.isEmpty_eq_false_iff, List.all_eq_true, decide_eq_true_eq]
  constructor
  · rintro ⟨⟨⟨some, decimal⟩, bounded⟩, rfl⟩
    exact ⟨⟨some, decimal, rfl⟩, Nat.le_sub_one_of_lt bounded⟩
  · rintro ⟨⟨some, decimal, rfl⟩, bounded⟩
    exact ⟨⟨⟨some, decimal⟩, Nat.lt_of_le_sub_one (by decide) bounded⟩, rfl⟩

theorem size?_eq_some_iff {text : String} {value : Nat} :
    size? text = some value ↔ Decimal text value := by
  unfold size?
  split
  · next rest signed =>
      rw [bounded_numeral_iff]
      constructor
      · intro numeral
        exact ⟨rest, .inr signed, numeral⟩
      · rintro ⟨chars, rfl | spelled, numeral⟩
        · rw [signed] at numeral
          exact absurd numeral.1 Numeral.unsigned
        · rw [signed] at spelled
          cases spelled
          exact numeral
  · next unsigned =>
      rw [bounded_numeral_iff]
      constructor
      · intro numeral
        exact ⟨text.toList, .inl rfl, numeral⟩
      · rintro ⟨chars, rfl | spelled, numeral⟩
        · exact numeral
        · exact absurd spelled (unsigned chars)

end Settings

/-! ## One variable -/

/-- A variable that overrides a setting: how it is read, and how a text that it cannot have is
called. Its texts are also given by a relation, which the reader follows. -/
structure Variable (α : Type) where
  name : String
  complaint : String
  read? : String → Option α
  Means : String → α → Prop
  read?_iff : ∀ {text : String} {value : α}, read? text = some value ↔ Means text value

namespace Variable

def policy : Variable Selection where
  name := "TILED_COPY_POLICY"
  complaint := "unknown"
  read? := Selection.ofName?
  Means text value := (text, value) ∈ Selection.spellings
  read?_iff := Selection.ofName?_eq_some_iff

def layout : Variable MajorOrder where
  name := "TILED_COPY_LAYOUT"
  complaint := "unknown"
  read? := MajorOrder.ofName?
  Means text value := (text, value) ∈ MajorOrder.spellings
  read?_iff := MajorOrder.ofName?_eq_some_iff

def errorLimit : Variable Nat where
  name := "TILED_COPY_ERROR_LIMIT"
  complaint := "non-numeric"
  read? := Settings.size?
  Means := Settings.Decimal
  read?_iff := Settings.size?_eq_some_iff

variable {α : Type} {v : Variable α} {lookup : String → Option String} {old value : α}

/-- The variable is set to a text that stands for the value. -/
def Gives (v : Variable α) (lookup : String → Option String) (value : α) : Prop :=
  ∃ text, lookup v.name = some text ∧ v.Means text value

/-- What becomes of the old value, and what is logged. -/
inductive Overrides (v : Variable α) (lookup : String → Option String) (old : α) :
    α → List Event → Prop
  | unset (absent : lookup v.name = none) : Overrides v lookup old old []
  | accepted {value : α} (given : v.Gives lookup value) : Overrides v lookup old value []
  | refused {text : String} (present : lookup v.name = some text)
      (senseless : ∀ value, ¬ v.Means text value) :
      Overrides v lookup old old [.log .warn s!"Ignoring {v.complaint} {v.name}={text}"]

/-- Of several environments, newest first, the first that gives a value counts; if none does, the
old value stays. -/
inductive Latest (v : Variable α) (old : α) : List (String → Option String) → α → Prop
  | untouched : Latest v old [] old
  | newest {lookup : String → Option String} {earlier : List (String → Option String)} {value : α}
      (given : v.Gives lookup value) : Latest v old (lookup :: earlier) value
  | earlier {lookup : String → Option String} {earlier : List (String → Option String)} {value : α}
      (silent : ∀ other, ¬ v.Gives lookup other) (rest : Latest v old earlier value) :
      Latest v old (lookup :: earlier) value

def valueFrom (v : Variable α) (lookup : String → Option String) (old : α) : α :=
  Settings.valueFrom lookup v.name v.read? old

def warnings (v : Variable α) (lookup : String → Option String) : List Event :=
  Settings.warnings lookup v.name v.read? v.complaint

theorem overrides (v : Variable α) (lookup : String → Option String) (old : α) :
    v.Overrides lookup old (v.valueFrom lookup old) (v.warnings lookup) := by
  unfold valueFrom warnings Settings.valueFrom Settings.warnings
  cases present : lookup v.name with
  | none => exact .unset present
  | some text =>
      cases read : v.read? text with
      | some value =>
          simp only [read, Option.bind_some, Option.getD_some]
          exact .accepted ⟨text, present, v.read?_iff.mp read⟩
      | none =>
          simp only [read, Option.bind_some, Option.getD_none]
          refine .refused present fun value means => ?_
          cases read.symm.trans (v.read?_iff.mpr means)

theorem Overrides.latest {events : List Event} {new : α}
    {earlier : List (String → Option String)} (overrides : v.Overrides lookup value new events)
    (latest : v.Latest old earlier value) : v.Latest old (lookup :: earlier) new := by
  cases overrides with
  | unset absent =>
      refine .earlier ?_ latest
      rintro other ⟨text, present, -⟩
      cases absent.symm.trans present
  | accepted given => exact .newest given
  | refused present senseless =>
      refine .earlier ?_ latest
      rintro other ⟨text, again, means⟩
      cases present.symm.trans again
      exact senseless other means

theorem valueFrom_congr {other : String → Option String} (agree : lookup v.name = other v.name) :
    v.valueFrom lookup old = v.valueFrom other old := by
  unfold valueFrom Settings.valueFrom
  rw [agree]

theorem valueFrom_valueFrom :
    v.valueFrom lookup (v.valueFrom lookup old) = v.valueFrom lookup old := by
  unfold valueFrom Settings.valueFrom
  cases (lookup v.name).bind v.read? with
  | none => rfl
  | some value => rfl

end Variable

namespace Settings

/-! ## All three variables -/

/-- The warnings of the three variables, in the order in which they are read. -/
def refusals (lookup : String → Option String) : List Event :=
  Variable.policy.warnings lookup ++ Variable.layout.warnings lookup ++
    Variable.errorLimit.warnings lookup

theorem overrideFrom_refusals (lookup : String → Option String) (settings : Settings) :
    overrideFrom lookup settings =
      ⟨refusals lookup,
        .ok { settings with
          policy := Variable.policy.valueFrom lookup settings.policy
          layout := Variable.layout.valueFrom lookup settings.layout
          errorLimit := Variable.errorLimit.valueFrom lookup settings.errorLimit }⟩ := by
  rw [overrideFrom_eq, ← List.append_assoc]
  rfl

/-- Overriding from several environments, the newest of which is the first in the list. -/
theorem foldrM_overrideFrom (environments : List (String → Option String)) (settings : Settings) :
    ∃ policy layout errorLimit,
      environments.foldrM overrideFrom settings =
          ⟨environments.reverse.flatMap refusals,
            .ok { settings with policy, layout, errorLimit }⟩ ∧
        Variable.policy.Latest settings.policy environments policy ∧
        Variable.layout.Latest settings.layout environments layout ∧
        Variable.errorLimit.Latest settings.errorLimit environments errorLimit := by
  induction environments with
  | nil => exact ⟨_, _, _, rfl, .untouched, .untouched, .untouched⟩
  | cons lookup environments ih =>
      obtain ⟨policy, layout, errorLimit, run, policies, layouts, limits⟩ := ih
      refine ⟨_, _, _, ?_, (Variable.policy.overrides lookup policy).latest policies,
        (Variable.layout.overrides lookup layout).latest layouts,
        (Variable.errorLimit.overrides lookup errorLimit).latest limits⟩
      rw [List.foldrM_cons, run, Recorded.ok_bind, overrideFrom_refusals, List.reverse_cons,
        List.flatMap_append, List.flatMap_singleton]

/-- Overriding always succeeds. It changes the policy, the layout and the error limit at most, each
by its own variable, and logs one warning for each variable that is set to a text it cannot have,
in this order. A setting depends only on its variable and its old value. Of two environments the
second counts where it gives a value, else the first, so the same one twice does no more than once.
-/
theorem overrideFrom_exact :
    (∀ lookup settings, ∃ policy layout errorLimit ofPolicy ofLayout ofLimit,
      overrideFrom lookup settings =
          ⟨ofPolicy ++ ofLayout ++ ofLimit, .ok { settings with policy, layout, errorLimit }⟩ ∧
        Variable.policy.Overrides lookup settings.policy policy ofPolicy ∧
        Variable.layout.Overrides lookup settings.layout layout ofLayout ∧
        Variable.errorLimit.Overrides lookup settings.errorLimit errorLimit ofLimit) ∧
      (∀ lookup other settings rest,
        let here := (overrideFrom lookup settings).result
        let there := (overrideFrom other rest).result
        (lookup Variable.policy.name = other Variable.policy.name →
          settings.policy = rest.policy → here.map (·.policy) = there.map (·.policy)) ∧
        (lookup Variable.layout.name = other Variable.layout.name →
          settings.layout = rest.layout → here.map (·.layout) = there.map (·.layout)) ∧
        (lookup Variable.errorLimit.name = other Variable.errorLimit.name →
          settings.errorLimit = rest.errorLimit →
            here.map (·.errorLimit) = there.map (·.errorLimit))) ∧
      (∀ first second settings, ∃ policy layout errorLimit,
        (overrideFrom first settings >>= overrideFrom second).result =
            .ok { settings with policy, layout, errorLimit } ∧
          Variable.policy.Latest settings.policy [second, first] policy ∧
          Variable.layout.Latest settings.layout [second, first] layout ∧
          Variable.errorLimit.Latest settings.errorLimit [second, first] errorLimit) ∧
      ∀ lookup settings,
        (overrideFrom lookup settings >>= overrideFrom lookup).result =
          (overrideFrom lookup settings).result := by
  refine ⟨?_, ?_, ?_, ?_⟩
  · intro lookup settings
    exact ⟨_, _, _, _, _, _, overrideFrom_refusals lookup settings,
      Variable.policy.overrides lookup settings.policy,
      Variable.layout.overrides lookup settings.layout,
      Variable.errorLimit.overrides lookup settings.errorLimit⟩
  · intro lookup other settings rest here there
    simp only [here, there, overrideFrom_refusals, Except.map]
    refine ⟨?_, ?_, ?_⟩
    · intro agree same
      rw [same, Variable.valueFrom_congr agree]
    · intro agree same
      rw [same, Variable.valueFrom_congr agree]
    · intro agree same
      rw [same, Variable.valueFrom_congr agree]
  · intro first second settings
    obtain ⟨policy, layout, errorLimit, run, latest⟩ :=
      foldrM_overrideFrom [second, first] settings
    refine ⟨policy, layout, errorLimit, ?_, latest⟩
    rw [List.foldrM_cons, List.foldrM_cons, List.foldrM_nil, pure_bind] at run
    rw [run]
  · intro lookup settings
    simp only [overrideFrom_refusals, Recorded.ok_bind, Variable.valueFrom_valueFrom]

end Settings

end GridCopy
