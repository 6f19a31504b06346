import GridCopy.Proofs.Decoding
import GridCopy.Proofs.Entries

/-!
# Settings written down and read back

A listing is a text with one line for each of some keys, in any order: shapes as inline tables,
numbers in plain decimal, names in quotes and in any spelling. Reading it gives back the settings of
its keys and leaves the others standard, unless one of its numbers has no signed 64 bits.

Results:
1. `Settings.exists_listing`: all settings can be written down, any keys in any order.
2. `Settings.Key.Prints.reads`: a value that is written down is read back, or is too large.
3. `Settings.Listing.read`: what a whole listing adds to a document, line by line.
4. `Settings.ofToml_listing`: the settings that a listing gives.
-/

namespace GridCopy

/-- The inline table of a shape, with numbers in plain decimal. -/
def Shape.inlineTable (shape : Shape) : String :=
  "\x7b rows = " ++ toString shape.rows ++ ", cols = " ++ toString shape.cols ++ " \x7d"

/-- A spelling of the value, in quotes of either kind. -/
inductive QuotesName {α : Type} (spellings : List (String × α)) (value : α) : String → Prop
  | double {name : String} (listed : (name, value) ∈ spellings) :
      QuotesName spellings value ("\"" ++ name ++ "\"")
  | single {name : String} (listed : (name, value) ∈ spellings) :
      QuotesName spellings value ("'" ++ name ++ "'")

namespace Settings

namespace Key

/-- How the value of a key is written down. -/
def Prints : (key : Key) → key.Value → String → Prop
  | shape, value, text => text = Shape.inlineTable value
  | tile, value, text => text = Shape.inlineTable value
  | threads, value, text => text = Shape.inlineTable value
  | vector, value, text => text = Shape.inlineTable value
  | layout, value, text => QuotesName MajorOrder.spellings value text
  | policy, value, text => QuotesName Selection.spellings value text
  | errorLimit, value, text => text = Nat.repr value

/-- The numbers that are written down for a key. -/
def numbers : (key : Key) → key.Value → List Nat
  | shape, value => [Shape.rows value, Shape.cols value]
  | tile, value => [Shape.rows value, Shape.cols value]
  | threads, value => [Shape.rows value, Shape.cols value]
  | vector, value => [Shape.rows value, Shape.cols value]
  | layout, _ => []
  | policy, _ => []
  | errorLimit, value => [value]

end Key

/-- A text with one line for each of the keys, in their order; the last line may lack its end. -/
inductive Listing (settings : Settings) : List Key → String → Prop
  | nil : Listing settings [] ""
  | last {key : Key} {text : String} (prints : key.Prints (key.get settings) text) :
      Listing settings [key] (key.name ++ " = " ++ text)
  | line {key : Key} {keys : List Key} {text rest : String}
      (prints : key.Prints (key.get settings) text) (others : Listing settings keys rest) :
      Listing settings (key :: keys) (key.name ++ " = " ++ text ++ "\n" ++ rest)

/-- Every value can be written down. -/
theorem Key.exists_prints (key : Key) (value : key.Value) : ∃ text, key.Prints value text := by
  have order (value : MajorOrder) : ∃ name, (name, value) ∈ MajorOrder.spellings := by
    cases value with
    | columnMajor => exact ⟨"column_major", by decide⟩
    | rowMajor => exact ⟨"row_major", by decide⟩
  have selection (value : Selection) : ∃ name, (name, value) ∈ Selection.spellings := by
    cases value with
    | striped => exact ⟨"striped", by decide⟩
    | vectorized => exact ⟨"vectorized", by decide⟩
    | both => exact ⟨"both", by decide⟩
  cases key with
  | shape => exact ⟨_, rfl⟩
  | tile => exact ⟨_, rfl⟩
  | threads => exact ⟨_, rfl⟩
  | vector => exact ⟨_, rfl⟩
  | layout =>
      obtain ⟨name, listed⟩ := order value
      exact ⟨_, .double listed⟩
  | policy =>
      obtain ⟨name, listed⟩ := selection value
      exact ⟨_, .double listed⟩
  | errorLimit => exact ⟨_, rfl⟩

/-- All settings have a listing of any keys in any order. -/
theorem exists_listing (settings : Settings) (keys : List Key) :
    ∃ text, Listing settings keys text := by
  induction keys with
  | nil => exact ⟨_, .nil⟩
  | cons key keys ih =>
      obtain ⟨rest, others⟩ := ih
      obtain ⟨text, prints⟩ := key.exists_prints (key.get settings)
      exact ⟨_, .line prints others⟩

end Settings

/-! ## Values read back -/

namespace Toml

theorem reads_decimal (n : Nat) :
    Reads n.repr.toList (if n ≤ 2 ^ 63 - 1 then some (.integer n) else none) := by
  rw [Nat.toList_repr]
  refine ⟨fun rest => (IsBare.decimal n).skipBlanks_append, ?_⟩
  intro rest ends
  rw [readValue_decimal depthLimit ends]
  split
  · rfl
  · rfl

theorem reads_inlineTable (shape : Shape) :
    Reads shape.inlineTable.toList
      (if shape.rows ≤ 2 ^ 63 - 1 ∧ shape.cols ≤ 2 ^ 63 - 1 then
        some (.record [("rows", .integer shape.rows), ("cols", .integer shape.cols)])
      else none) := by
  have spelled (rest : List Char) :
      shape.inlineTable.toList ++ rest = '\x7b' :: ' ' :: ("rows".toList ++ ' ' :: '=' :: ' ' ::
        (Nat.toDigits 10 shape.rows ++ ',' :: ' ' :: ("cols".toList ++ ' ' :: '=' :: ' ' ::
          (Nat.toDigits 10 shape.cols ++ ' ' :: '\x7d' :: rest)))) := by
    simp only [Shape.inlineTable, Nat.toString_eq_repr, String.toList_append, Nat.toList_repr,
      List.append_assoc]
    rfl
  refine ⟨?_, ?_⟩
  · intro rest
    rw [spelled]
    rfl
  · intro rest _
    rw [spelled, depthLimit, readValue_shape]
    split
    · rfl
    · rfl

theorem reads_quoted {name : List Char} {quote : Char} (bare : IsBare name)
    (either : quote = '"' ∨ quote = '\'') :
    Reads (quote :: (name ++ [quote])) (some (.text (String.ofList name))) := by
  have spelled (rest : List Char) :
      quote :: (name ++ [quote]) ++ rest = quote :: (name ++ quote :: rest) := by
    rw [List.cons_append, List.append_assoc, List.singleton_append]
  refine ⟨?_, ?_⟩
  · intro rest
    rcases either with rfl | rfl
    · rfl
    · rfl
  · intro rest _
    rw [spelled, readValue_quoted depthLimit bare either]
    rfl

end Toml

theorem QuotesName.reads {α : Type} {spellings : List (String × α)} {value : α} {text : String}
    (bare : ∀ spelling ∈ spellings, Toml.IsBare spelling.1.toList)
    (quotes : QuotesName spellings value text) :
    ∃ name, (name, value) ∈ spellings ∧ Toml.Reads text.toList (some (.text name)) := by
  cases quotes with
  | @double name listed =>
      have spelled : ("\"" ++ name ++ "\"").toList = '"' :: (name.toList ++ ['"']) := by
        rw [String.toList_append, String.toList_append]
        rfl
      have read := Toml.reads_quoted (bare _ listed) (.inl rfl)
      rw [String.ofList_toList] at read
      exact ⟨name, listed, spelled ▸ read⟩
  | @single name listed =>
      have spelled : ("'" ++ name ++ "'").toList = '\'' :: (name.toList ++ ['\'']) := by
        rw [String.toList_append, String.toList_append]
        rfl
      have read := Toml.reads_quoted (bare _ listed) (.inr rfl)
      rw [String.ofList_toList] at read
      exact ⟨name, listed, spelled ▸ read⟩

namespace Datum

variable {datum : Datum}

theorem WritesSize.le {size : Nat} (writes : datum.WritesSize size) : size ≤ 2 ^ 63 - 1 := by
  obtain ⟨bounded⟩ := writes
  exact bounded

theorem WritesShape.le {shape : Shape} (writes : datum.WritesShape shape) :
    ∀ n ∈ [shape.rows, shape.cols], n ≤ 2 ^ 63 - 1 := by
  rw [List.forall_mem_cons, List.forall_mem_singleton]
  cases writes with
  | table _ _ down across => exact ⟨down.le, across.le⟩
  | array down across => exact ⟨down.le, across.le⟩

end Datum

namespace Toml

/-- The inline table of a shape is read as one, or one of its numbers is too large. -/
theorem reads_shape (shape : Shape) :
    (∃ datum : Datum, datum.WritesShape shape ∧ Reads shape.inlineTable.toList (some datum)) ∨
      (∃ n ∈ [shape.rows, shape.cols], 2 ^ 63 - 1 < n) ∧
        Reads shape.inlineTable.toList none := by
  have reads := reads_inlineTable shape
  by_cases down : shape.rows ≤ 2 ^ 63 - 1
  · by_cases across : shape.cols ≤ 2 ^ 63 - 1
    · rw [if_pos ⟨down, across⟩] at reads
      refine .inl ⟨_, ?_, reads⟩
      exact .table List.mem_cons_self (List.mem_cons_of_mem _ List.mem_cons_self)
        (.integer down) (.integer across)
    · rw [if_neg fun both => across both.2] at reads
      exact .inr ⟨⟨_, List.mem_cons_of_mem _ List.mem_cons_self, Nat.not_le.mp across⟩, reads⟩
  · rw [if_neg fun both => down both.1] at reads
    exact .inr ⟨⟨_, List.mem_cons_self, Nat.not_le.mp down⟩, reads⟩

theorem reads_size (n : Nat) :
    (∃ datum : Datum, datum.WritesSize n ∧ Reads n.repr.toList (some datum)) ∨
      (∃ m ∈ [n], 2 ^ 63 - 1 < m) ∧ Reads n.repr.toList none := by
  have reads := reads_decimal n
  by_cases fits : n ≤ 2 ^ 63 - 1
  · rw [if_pos fits] at reads
    exact .inl ⟨_, .integer fits, reads⟩
  · rw [if_neg fits] at reads
    exact .inr ⟨⟨_, List.mem_singleton_self _, Nat.not_le.mp fits⟩, reads⟩

end Toml

namespace Settings

open Toml (IsBare Reads EndsLine readLines)

variable {settings : Settings} {key : Key} {keys : List Key} {text : String}

namespace Key

theorem bareName (key : Key) : IsBare key.name.toList := by
  cases key <;> decide

theorem name_injective {first second : Key} (same : first.name = second.name) :
    first = second := by
  cases first <;> cases second <;> first | rfl | exact absurd same (by decide)

variable {value : key.Value} {datum : Datum}

/-- Numbers that may be written for a key have signed 64 bits. -/
theorem Writes.le (writes : key.Writes datum value) :
    ∀ n ∈ key.numbers value, n ≤ 2 ^ 63 - 1 := by
  cases key with
  | shape => exact Datum.WritesShape.le writes
  | tile => exact Datum.WritesShape.le writes
  | threads => exact Datum.WritesShape.le writes
  | vector => exact Datum.WritesShape.le writes
  | layout => exact List.forall_mem_nil _
  | policy => exact List.forall_mem_nil _
  | errorLimit => exact List.forall_mem_singleton.mpr (Datum.WritesSize.le writes)

/-- What is written down for a key is read as something that may be written for it, or refused for
one of its numbers. -/
theorem Prints.reads (prints : key.Prints value text) :
    (∃ datum, key.Writes datum value ∧ Reads text.toList (some datum)) ∨
      (∃ n ∈ key.numbers value, 2 ^ 63 - 1 < n) ∧ Reads text.toList none := by
  cases key with
  | shape =>
      cases prints
      exact Toml.reads_shape value
  | tile =>
      cases prints
      exact Toml.reads_shape value
  | threads =>
      cases prints
      exact Toml.reads_shape value
  | vector =>
      cases prints
      exact Toml.reads_shape value
  | layout =>
      obtain ⟨name, listed, reads⟩ := QuotesName.reads (by decide) prints
      exact .inl ⟨_, .text listed, reads⟩
  | policy =>
      obtain ⟨name, listed, reads⟩ := QuotesName.reads (by decide) prints
      exact .inl ⟨_, .text listed, reads⟩
  | errorLimit =>
      cases prints
      exact Toml.reads_size value

end Key

/-! ## Listings read back -/

/-- The fields of the keys, in their order, each with something that may be written for it. -/
def Holds (settings : Settings) : List Key → Datum.Fields → Prop :=
  List.Forall₂ fun key field => field.1 = key.name ∧ key.Writes field.2 (key.get settings)

/-- One line of a listing adds its field, or it is refused for one of its numbers. -/
theorem readLines_printed {bound : Nat} {chars rest : List Char} {fields : Datum.Fields}
    (prints : key.Prints (key.get settings) text) (ends : EndsLine chars rest)
    (fresh : key.name ∉ fields.map Prod.fst) :
    (∃ datum, key.Writes datum (key.get settings) ∧
        readLines (bound + 1) (.flat fields) ((key.name ++ " = " ++ text).toList ++ chars) =
          readLines bound (.flat (fields ++ [(key.name, datum)])) rest) ∨
      (∃ n ∈ key.numbers (key.get settings), 2 ^ 63 - 1 < n) ∧
        readLines (bound + 1) (.flat fields) ((key.name ++ " = " ++ text).toList ++ chars) =
          none := by
  have spelled : (key.name ++ " = " ++ text).toList ++ chars =
      key.name.toList ++ ' ' :: '=' :: ' ' :: (text.toList ++ chars) := by
    simp only [String.toList_append, List.append_assoc]
    rfl
  rw [spelled]
  rcases prints.reads with ⟨datum, writes, reads⟩ | ⟨large, refused⟩
  · have named : String.ofList key.name.toList = key.name := String.ofList_toList
    refine .inl ⟨datum, writes, ?_⟩
    rw [Toml.readLines_line key.bareName reads ends (named.symm ▸ fresh), named]
  · exact .inr ⟨large, Toml.readLines_refused key.bareName refused ends⟩

/-- A whole listing adds its fields to those before it, or it is refused for one of its numbers. -/
theorem Listing.read (listing : Listing settings keys text) {bound : Nat}
    {fields : Datum.Fields} (distinct : keys.Nodup)
    (fresh : ∀ key ∈ keys, key.name ∉ fields.map Prod.fst) (room : text.toList.length < bound) :
    (∃ added, Holds settings keys added ∧
        readLines bound (.flat fields) text.toList = some (.flat (fields ++ added))) ∨
      (∃ key ∈ keys, ∃ n ∈ key.numbers (key.get settings), 2 ^ 63 - 1 < n) ∧
        readLines bound (.flat fields) text.toList = none := by
  have ended {bound : Nat} (draft : Toml.Draft) (room : 0 < bound) :
      readLines bound draft [] = some draft := by
    obtain ⟨less, rfl⟩ := Nat.exists_eq_add_of_lt room
    rfl
  induction listing generalizing bound fields with
  | nil =>
      refine .inl ⟨[], .nil, ?_⟩
      rw [List.append_nil]
      exact ended _ room
  | @last key text prints =>
      obtain ⟨less, rfl⟩ := Nat.exists_eq_succ_of_ne_zero (Nat.ne_zero_of_lt room)
      have written : 0 < (key.name ++ " = " ++ text).toList.length := by
        rw [String.toList_append, String.toList_append, List.append_assoc, List.length_append]
        exact Nat.add_pos_left (List.length_pos_of_ne_nil key.bareName.nonempty) _
      have first := fresh key List.mem_cons_self
      rcases readLines_printed prints .textEnd first with ⟨datum, writes, line⟩ | ⟨large, line⟩
      · rw [List.append_nil] at line
        refine .inl ⟨[(key.name, datum)], .cons ⟨rfl, writes⟩ .nil, ?_⟩
        exact line.trans (ended _ (written.trans_le (Nat.le_of_lt_succ room)))
      · rw [List.append_nil] at line
        exact .inr ⟨⟨key, List.mem_cons_self, large⟩, line⟩
  | @line key keys text rest prints others ih =>
      obtain ⟨less, rfl⟩ := Nat.exists_eq_succ_of_ne_zero (Nat.ne_zero_of_lt room)
      obtain ⟨new, distinct⟩ := List.nodup_cons.mp distinct
      obtain ⟨first, later⟩ := List.forall_mem_cons.mp fresh
      have spelled : (key.name ++ " = " ++ text ++ "\n" ++ rest).toList =
          (key.name ++ " = " ++ text).toList ++ '\n' :: rest.toList := by
        rw [String.toList_append, String.toList_append, List.append_assoc]
        rfl
      rw [spelled] at room ⊢
      rcases readLines_printed prints .lineEnd first with ⟨datum, writes, line⟩ | ⟨large, line⟩
      · have unused :
            ∀ other ∈ keys, other.name ∉ (fields ++ [(key.name, datum)]).map Prod.fst := by
          intro other listed
          rw [List.map_append, List.mem_append, not_or]
          refine ⟨later other listed, ?_⟩
          intro again
          cases Key.name_injective (List.mem_singleton.mp again)
          exact new listed
        have inside : rest.toList.length < less := by
          rw [List.length_append, List.length_cons] at room
          omega
        rcases ih distinct unused inside with
          ⟨added, holds, read⟩ | ⟨⟨other, listed, large⟩, read⟩
        · refine .inl ⟨(key.name, datum) :: added, .cons ⟨rfl, writes⟩ holds, ?_⟩
          rw [line, read, List.append_assoc]
          rfl
        · exact .inr ⟨⟨other, List.mem_cons_of_mem _ listed, large⟩, line.trans read⟩
      · exact .inr ⟨⟨key, List.mem_cons_self, large⟩, line⟩

theorem Listing.skipMark (listing : Listing settings keys text) :
    Toml.skipMark text.toList = text.toList := by
  have named (key : Key) (chars : List Char) :
      Toml.skipMark (key.name.toList ++ chars) = key.name.toList ++ chars := by
    cases key <;> rfl
  cases listing with
  | nil => rfl
  | last =>
      simp only [String.toList_append, List.append_assoc]
      exact named _ _
  | line =>
      simp only [String.toList_append, List.append_assoc]
      exact named _ _

/-- The fields of a document that is a listing; it is refused for one of its numbers only. -/
theorem Listing.fields (distinct : keys.Nodup) (listing : Listing settings keys text) :
    (∃ fields, Holds settings keys fields ∧ Toml.read? text = some fields) ∨
      (∃ key ∈ keys, ∃ n ∈ key.numbers (key.get settings), 2 ^ 63 - 1 < n) ∧
        Toml.read? text = none := by
  have document : Toml.read? text =
      (readLines (text.toList.length + 1) (.flat []) text.toList).map fun draft =>
        Toml.Fields.data draft.root := by
    unfold Toml.read?
    rw [listing.skipMark, Option.map_eq_bind]
    rfl
  have unused (key : Key) : key.name ∉ List.map Prod.fst ([] : Datum.Fields) := List.not_mem_nil
  rcases listing.read distinct (fun key _ => unused key) (Nat.lt_succ_self _) with
    ⟨fields, holds, read⟩ | ⟨large, read⟩
  · refine .inl ⟨fields, holds, ?_⟩
    rw [document, read]
    exact congrArg some (Toml.Draft.data_flat fields)
  · refine .inr ⟨large, ?_⟩
    rw [document, read]
    rfl

namespace Holds

variable {fields : Datum.Fields}

theorem written (holds : Holds settings keys fields) (listed : key ∈ keys) :
    ∃ datum, (key.name, datum) ∈ fields ∧ key.Writes datum (key.get settings) := by
  induction holds with
  | nil => cases listed
  | @cons first field keys fields holds others ih =>
      obtain ⟨named, writes⟩ := holds
      rcases List.mem_cons.mp listed with rfl | later
      · exact ⟨field.2, named ▸ List.mem_cons_self, writes⟩
      · obtain ⟨datum, member, writes⟩ := ih later
        exact ⟨datum, List.mem_cons_of_mem _ member, writes⟩

theorem missing (holds : Holds settings keys fields) (unlisted : key ∉ keys) (datum : Datum) :
    (key.name, datum) ∉ fields := by
  induction holds with
  | nil => exact List.not_mem_nil
  | @cons first field keys fields holds others ih =>
      rw [List.mem_cons, not_or] at unlisted ⊢
      refine ⟨?_, ih unlisted.2⟩
      rintro rfl
      exact unlisted.1 (Key.name_injective holds.1)

end Holds

theorem Key.get_ext {first second : Settings}
    (same : ∀ key : Key, key.get first = key.get second) : first = second := by
  cases first
  cases second
  rw [mk.injEq]
  exact ⟨same .shape, same .tile, same .threads, same .vector, same .layout, same .policy,
    same .errorLimit⟩

/-- Reading a listing of some keys gives their settings, with the standard ones for other keys, if
each number in it has signed 64 bits; otherwise the text is refused. With all keys, the settings
are the ones that were written down. -/
theorem ofToml_listing (explain : String → String) (distinct : keys.Nodup)
    (listing : Listing settings keys text) :
    ((∀ key ∈ keys, ∀ n ∈ key.numbers (key.get settings), n ≤ 2 ^ 63 - 1) →
      ∃ read, ofToml explain text = .ok read ∧
        (∀ key ∈ keys, key.get read = key.get settings) ∧
        (∀ key ∉ keys, key.get read = key.get standard) ∧
        ((∀ key, key ∈ keys) → read = settings)) ∧
    ((∃ key ∈ keys, ∃ n ∈ key.numbers (key.get settings), 2 ^ 63 - 1 < n) →
      ofToml explain text = .error (.config (explain text))) := by
  refine ⟨?_, ?_⟩
  · intro fits
    rcases listing.fields distinct with
      ⟨fields, holds, document⟩ | ⟨⟨key, listed, n, number, large⟩, -⟩
    · have each (key : Key) : ∃ value, key.Gives fields value ∧
          (key ∈ keys → value = key.get settings) ∧ (key ∉ keys → value = key.get standard) := by
        by_cases listed : key ∈ keys
        · obtain ⟨datum, written, writes⟩ := holds.written listed
          exact ⟨_, .present written writes, fun _ => rfl, fun unlisted => absurd listed unlisted⟩
        · exact ⟨_, .absent (holds.missing listed), fun again => absurd again listed, fun _ => rfl⟩
      obtain ⟨read, given⟩ := Key.exists_settings.mpr each
      refine ⟨read, (ofToml_eq_ok_iff document).mpr fun key => (given key).1, ?_, ?_, ?_⟩
      · intro key listed
        exact (given key).2.1 listed
      · intro key unlisted
        exact (given key).2.2 unlisted
      · intro all
        exact Key.get_ext fun key => (given key).2.1 (all key)
    · exact absurd (fits key listed n number) (Nat.not_le.mpr large)
  · rintro ⟨key, listed, n, number, large⟩
    rcases listing.fields distinct with ⟨fields, holds, -⟩ | ⟨-, document⟩
    · obtain ⟨datum, -, writes⟩ := holds.written listed
      exact absurd (writes.le n number) (Nat.not_le.mpr large)
    · exact ofToml_unread document

/-- Two of the keys with the largest number and a short name, and one key with a number that is
larger by one. -/
theorem ofToml_listing_largest_number :
    let settings : Settings :=
      ⟨⟨2 ^ 63 - 1, 2⟩, ⟨4, 2⟩, ⟨32, 8⟩, ⟨2, 1⟩, .rowMajor, .both, 2 ^ 63⟩
    let explain (_ : String) := "number too large to fit in target type"
    (∃ read,
        ofToml explain "layout = 'row'\nshape = \x7b rows = 9223372036854775807, cols = 2 \x7d" =
          .ok read ∧
        read.shape = settings.shape ∧ read.layout = .rowMajor ∧ read.errorLimit = 10) ∧
      ofToml explain "error_limit = 9223372036854775808\n" =
        .error (.config "number too large to fit in target type") := by
  intro settings explain
  have two : Listing settings [.layout, .shape]
      "layout = 'row'\nshape = \x7b rows = 9223372036854775807, cols = 2 \x7d" := by
    have spelling : ("row", MajorOrder.rowMajor) ∈ MajorOrder.spellings := by decide
    have short : Key.layout.Prints (Key.layout.get settings) "'row'" := QuotesName.single spelling
    have shape : Key.shape.Prints (Key.shape.get settings)
        "\x7b rows = 9223372036854775807, cols = 2 \x7d" := by
      change _ = _
      decide +kernel
    exact .line short (.last shape)
  have one : Listing settings [.errorLimit] "error_limit = 9223372036854775808\n" := by
    have large : Key.errorLimit.Prints (Key.errorLimit.get settings) "9223372036854775808" := by
      change _ = _
      decide +kernel
    exact .line large .nil
  refine ⟨?_, ?_⟩
  · have fits : ∀ key ∈ [Key.layout, .shape], ∀ n ∈ key.numbers (key.get settings),
        n ≤ 2 ^ 63 - 1 := by
      rw [List.forall_mem_cons, List.forall_mem_singleton]
      exact ⟨List.forall_mem_nil _, by decide⟩
    obtain ⟨read, accepted, listed, unlisted, -⟩ := (ofToml_listing explain (by simp) two).1 fits
    refine ⟨read, accepted, listed .shape (by simp), listed .layout (by simp), ?_⟩
    exact unlisted .errorLimit (by simp)
  · refine (ofToml_listing explain (by simp) one).2 ?_
    exact ⟨.errorLimit, List.mem_cons_self, 2 ^ 63, List.mem_cons_self, by decide⟩

end Settings

end GridCopy
