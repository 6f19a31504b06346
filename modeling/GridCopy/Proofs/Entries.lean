import GridCopy.Proofs.Documents
import GridCopy.Proofs.Numerals

/-!
# Entries of a document

A line that holds a bare key, an equals sign between blanks and a value. Values are numbers, names
in quotes, and inline tables of two numbers; each is read back from its text, and what follows it
is left. A document of such lines has no tables of its own, so every line adds a field or refuses
the document.

Results:
1. `Toml.readValue_quoted`, `Toml.readValue_shape`: names in quotes and inline tables.
2. `Toml.readEntry_append`: a key with its value, whatever reads the value.
3. `Toml.readLines_line`, `Toml.readLines_refused`: what one line does to a document.
-/

namespace GridCopy

namespace Toml

/-- A name that may stand without quotes. -/
structure IsBare (name : List Char) : Prop where
  nonempty : name ≠ []
  each : ∀ c ∈ name, isBareKeyChar c = true

theorem isBare_iff {name : List Char} :
    IsBare name ↔ (!name.isEmpty && name.all isBareKeyChar) = true := by
  rw [Bool.and_eq_true, Bool.not_eq_true', List.isEmpty_eq_false_iff, List.all_eq_true]
  constructor
  · rintro ⟨nonempty, each⟩
    exact ⟨nonempty, each⟩
  · rintro ⟨nonempty, each⟩
    exact ⟨nonempty, each⟩

instance {name : List Char} : Decidable (IsBare name) := decidable_of_iff _ isBare_iff.symm

variable {name text chars rest : List Char} {c quote : Char} {bound : Nat}

theorem IsBare.exists_cons (bare : IsBare name) :
    ∃ c rest, name = c :: rest ∧ isBareKeyChar c = true := by
  obtain ⟨c, rest, rfl⟩ := List.exists_cons_of_ne_nil bare.nonempty
  exact ⟨c, rest, rfl, bare.each c List.mem_cons_self⟩

theorem isPlain_of_isBareKeyChar (bare : isBareKeyChar c = true) : isPlain c = true := by
  have printed : c ≠ '\x7f' := ne_of_class bare rfl
  have visible : ' ' ≤ c := by
    simp only [isBareKeyChar, isDigit, isLetter, Bool.or_eq_true, Bool.and_eq_true,
      decide_eq_true_eq, beq_iff_eq] at bare
    rcases bare with ((⟨digit, -⟩ | ⟨letter, -⟩ | ⟨letter, -⟩) | rfl) | rfl
    · exact Char.le_trans (by decide) digit
    · exact Char.le_trans (by decide) letter
    · exact Char.le_trans (by decide) letter
    · decide
    · decide
  simp [isPlain, visible, printed]

theorem readEscaped_append (bare : ∀ c ∈ name, isBareKeyChar c = true)
    (room : name.length < bound) : readEscaped bound (name ++ '"' :: rest) = some (name, rest) := by
  induction name generalizing bound with
  | nil =>
      cases bound with
      | zero => cases room
      | succ bound => rfl
  | cons c name ih =>
      obtain ⟨first, others⟩ := List.forall_mem_cons.mp bare
      cases bound with
      | zero => cases room
      | succ bound =>
          have quote : c ≠ '"' := ne_of_class first rfl
          have escape : c ≠ '\\' := ne_of_class first rfl
          rw [List.cons_append, readEscaped]
          · simp [isPlain_of_isBareKeyChar first, ih others (Nat.lt_of_succ_lt_succ room)]
          · simp [quote]
          · simp [escape]

theorem readRaw_append (bare : ∀ c ∈ name, isBareKeyChar c = true) :
    readRaw (name ++ '\'' :: rest) = some (name, rest) := by
  induction name with
  | nil => rfl
  | cons c name ih =>
      obtain ⟨first, others⟩ := List.forall_mem_cons.mp bare
      have quote : c ≠ '\'' := ne_of_class first rfl
      rw [List.cons_append, readRaw]
      · simp [isPlain_of_isBareKeyChar first, ih others]
      · simp [quote]

theorem readShortString_quoted (bare : IsBare name) (either : quote = '"' ∨ quote = '\'') :
    readShortString (quote :: (name ++ quote :: rest)) = some (String.ofList name, rest) := by
  rcases either with rfl | rfl
  · have room : name.length < (name ++ '"' :: rest).length + 1 := by
      rw [List.length_append]
      exact Nat.lt_succ_of_le (Nat.le_add_right _ _)
    rw [readShortString, readEscaped_append bare.each room]
    rfl
  · rw [readShortString, readRaw_append bare.each]
    rfl

/-- A name in quotes is read back; it does not begin with the quotes of a longer string. -/
theorem readString_quoted (bare : IsBare name) (either : quote = '"' ∨ quote = '\'') :
    readString (quote :: (name ++ quote :: rest)) = some (String.ofList name, rest) := by
  rw [← readShortString_quoted bare either]
  obtain ⟨c, name, rfl, first⟩ := bare.exists_cons
  have double : c ≠ '"' := ne_of_class first rfl
  have single : c ≠ '\'' := ne_of_class first rfl
  rw [List.cons_append, readString]
  · simp [double]
  · simp [single]

theorem readValue_quoted (depth : Nat) (bare : IsBare name) (either : quote = '"' ∨ quote = '\'') :
    readValue depth (quote :: (name ++ quote :: rest)) =
      some (.text (String.ofList name), rest) := by
  rcases either with rfl | rfl
  · rw [readValue_eq_readScalar depth (by decide) (by decide), readScalar,
      readString_quoted bare (.inl rfl)]
    rfl
  · rw [readValue_eq_readScalar depth (by decide) (by decide), readScalar,
      readString_quoted bare (.inr rfl)]
    rfl

theorem readKeyPart_append (bare : IsBare name) :
    readKeyPart (name ++ ' ' :: rest) = some (String.ofList name, ' ' :: rest) := by
  have taken : (name ++ ' ' :: rest).takeWhile isBareKeyChar = name := by
    rw [List.takeWhile_append_of_pos bare.each, List.takeWhile_cons_of_neg Bool.noConfusion,
      List.append_nil]
  have left : (name ++ ' ' :: rest).dropWhile isBareKeyChar = ' ' :: rest := by
    rw [List.dropWhile_append_of_pos bare.each, List.dropWhile_cons_of_neg Bool.noConfusion]
  obtain ⟨c, name, rfl, first⟩ := bare.exists_cons
  have double : c ≠ '"' := ne_of_class first rfl
  have single : c ≠ '\'' := ne_of_class first rfl
  rw [List.cons_append] at taken left ⊢
  rw [readKeyPart]
  · simp only [taken, left]
    rfl
  · simp [double]
  · simp [single]

theorem IsBare.skipBlanks_append (bare : IsBare name) :
    skipBlanks (name ++ rest) = name ++ rest := by
  obtain ⟨c, name, rfl, first⟩ := bare.exists_cons
  have space : c ≠ ' ' := ne_of_class first rfl
  have tab : c ≠ '\t' := ne_of_class first rfl
  exact List.dropWhile_cons_of_neg (by simp [isBlank, space, tab])

theorem readKey_append (bare : IsBare name) :
    readKey depthLimit (name ++ ' ' :: '=' :: rest) =
      some (([], String.ofList name), '=' :: rest) := by
  rw [depthLimit, readKey, bare.skipBlanks_append, readKeyPart_append bare]
  rfl

/-- A key, an equals sign between blanks, and a value. -/
theorem readEntry_append {value : Reader Datum} (bare : IsBare name)
    (begins : skipBlanks text = text) :
    readEntry value (name ++ ' ' :: '=' :: ' ' :: text) =
      (value text).map fun (datum, rest) => (⟨[], String.ofList name, datum⟩, rest) := by
  have blank : skipBlanks (' ' :: text) = text := begins
  simp only [readEntry, readKey_append bare, expect, if_true, blank, Option.bind_eq_bind,
    Option.bind_some]
  cases value text with
  | none => rfl
  | some read => rfl

theorem IsBare.decimal (n : Nat) : IsBare (Nat.toDigits 10 n) := by
  refine ⟨Nat.toDigits_ne_nil, ?_⟩
  intro c member
  simp [isBareKeyChar, isDigit_of_mem_decimal member]

theorem readEntry_decimal (depth n : Nat) (bare : IsBare name) (ends : EndsNumber rest) :
    readEntry (readValue depth) (name ++ ' ' :: '=' :: ' ' :: (Nat.toDigits 10 n ++ rest)) =
      if n ≤ 2 ^ 63 - 1 then some (⟨[], String.ofList name, .integer n⟩, rest) else none := by
  rw [readEntry_append bare (IsBare.decimal n).skipBlanks_append, readValue_decimal depth ends]
  split
  · rfl
  · rfl

theorem readEntries_blank {value : Reader Datum} :
    readEntries value (bound + 1) (' ' :: chars) = readEntries value (bound + 1) chars := rfl

theorem readEntries_last (depth n : Nat) (bare : IsBare name) :
    readEntries (readValue depth) (bound + 1)
        (name ++ ' ' :: '=' :: ' ' :: (Nat.toDigits 10 n ++ ' ' :: '\x7d' :: rest)) =
      if n ≤ 2 ^ 63 - 1 then some ([⟨[], String.ofList name, .integer n⟩], rest) else none := by
  rw [readEntries, readEntry_decimal depth n bare .blank]
  split
  · rfl
  · rfl

theorem readEntries_comma (depth n : Nat) (bare : IsBare name) :
    readEntries (readValue depth) (bound + 1)
        (name ++ ' ' :: '=' :: ' ' :: (Nat.toDigits 10 n ++ ',' :: rest)) =
      if n ≤ 2 ^ 63 - 1 then
        (readEntries (readValue depth) bound rest).map fun (entries, rest) =>
          (⟨[], String.ofList name, .integer n⟩ :: entries, rest)
      else none := by
  rw [readEntries, readEntry_decimal depth n bare .comma]
  split
  · simp only [Option.bind_eq_bind, Option.bind_some]
    change (readEntries (readValue depth) bound rest).bind _ = _
    cases readEntries (readValue depth) bound rest with
    | none => rfl
    | some read => rfl
  · rfl

/-- An inline table that is not empty. -/
theorem readValue_table (depth : Nat) (bare : IsBare name) :
    readValue (depth + 1) ('\x7b' :: ' ' :: (name ++ rest)) = (do
      let (entries, rest) ←
        readEntries (readValue depth) ((name ++ rest).length + 1) (name ++ rest)
      let table ← inlineTable? entries
      return (table, rest)) := by
  have begins : skipBlanks (' ' :: (name ++ rest)) = name ++ rest := bare.skipBlanks_append
  obtain ⟨c, name, rfl, first⟩ := bare.exists_cons
  have brace : c ≠ '\x7d' := ne_of_class first rfl
  simp only [readValue, begins]
  split
  · next closed => exact absurd (List.cons.inj closed).1 brace
  · rfl

/-- The inline table of a shape. -/
theorem readValue_shape (depth rows cols : Nat) :
    readValue (depth + 1) ('\x7b' :: ' ' :: ("rows".toList ++ ' ' :: '=' :: ' ' ::
        (Nat.toDigits 10 rows ++ ',' :: ' ' :: ("cols".toList ++ ' ' :: '=' :: ' ' ::
          (Nat.toDigits 10 cols ++ ' ' :: '\x7d' :: rest))))) =
      if rows ≤ 2 ^ 63 - 1 ∧ cols ≤ 2 ^ 63 - 1 then
        some (.record [("rows", .integer rows), ("cols", .integer cols)], rest)
      else none := by
  have rowsBare : IsBare "rows".toList := by decide
  have colsBare : IsBare "cols".toList := by decide
  rw [readValue_table depth rowsBare, readEntries_comma depth rows rowsBare, List.length_append]
  change (if _ then (readEntries (readValue depth) (4 + _) (' ' :: _)).map _ else none).bind _ = _
  rw [Nat.add_comm 4, readEntries_blank, readEntries_last depth cols colsBare]
  by_cases down : rows ≤ 2 ^ 63 - 1
  · by_cases across : cols ≤ 2 ^ 63 - 1
    · rw [if_pos down, if_pos across, if_pos ⟨down, across⟩]
      rfl
    · rw [if_pos down, if_neg across, if_neg fun both => across both.2]
      rfl
  · rw [if_neg down, if_neg fun both => down both.1]
    rfl

/-! ## Lines -/

/-- The text is read as a value wherever a value may end after it, and if there is none, it is
refused. -/
structure Reads (text : List Char) (datum? : Option Datum) : Prop where
  begins (rest : List Char) : skipBlanks (text ++ rest) = text ++ rest
  read {rest : List Char} (ends : EndsNumber rest) :
    readValue depthLimit (text ++ rest) = datum?.map (·, rest)

/-- The end of a line, and what follows it. -/
inductive EndsLine : List Char → List Char → Prop
  | textEnd : EndsLine [] []
  | lineEnd {rest : List Char} : EndsLine ('\n' :: rest) rest

variable {after : List Char} {fields : Datum.Fields} {datum : Datum} {draft : Draft}

theorem EndsLine.endsNumber (ends : EndsLine rest after) : EndsNumber rest := by
  cases ends with
  | textEnd => exact .textEnd
  | lineEnd => exact .lineEnd

theorem EndsLine.lineRest (ends : EndsLine rest after) : lineRest? rest = some after := by
  cases ends with
  | textEnd => rfl
  | lineEnd => rfl

theorem readLine_append (bare : IsBare name) (begins : skipBlanks text = text) :
    readLine draft (name ++ ' ' :: '=' :: ' ' :: text) = (do
      let (datum, rest) ← readValue depthLimit text
      let rest ← lineRest? rest
      let draft ← draft.addEntry ⟨[], String.ofList name, datum⟩
      return (draft, rest)) := by
  have entry : readEntry (readValue depthLimit) (name ++ ' ' :: '=' :: ' ' :: text) = _ :=
    readEntry_append bare begins
  obtain ⟨c, name, rfl, first⟩ := bare.exists_cons
  have comment : c ≠ '#' := ne_of_class first rfl
  have header : c ≠ '[' := ne_of_class first rfl
  have newline : newline? (c :: name ++ ' ' :: '=' :: ' ' :: text) = none := by
    have lineFeed : c ≠ '\n' := ne_of_class first rfl
    have carriage : c ≠ '\r' := ne_of_class first rfl
    simp [newline?, lineFeed, carriage]
  rw [List.cons_append] at entry newline ⊢
  rw [readLine]
  · simp only [newline, entry]
    cases readValue depthLimit text with
    | none => rfl
    | some read => rfl
  · simp [comment]
  · simp [header]
  · simp [header]

namespace Draft

/-- A document of entries alone. -/
def flat (fields : Datum.Fields) : Draft :=
  ⟨fields.map fun field => (field.1, .leaf field.2), []⟩

theorem data_flat (fields : Datum.Fields) : Fields.data (flat fields).root = fields := by
  rw [Fields.data_eq, flat, List.map_map]
  exact List.map_id fields

theorem addEntry_flat {key : String} (fresh : key ∉ fields.map Prod.fst) :
    (flat fields).addEntry ⟨[], key, datum⟩ = some (flat (fields ++ [(key, datum)])) := by
  have absent : (flat fields).root.lookup key = none := by
    refine List.lookup_eq_none_iff.mpr ?_
    intro field member
    obtain ⟨plain, listed, rfl⟩ := List.mem_map.mp member
    exact bne_iff_ne.mpr fun same => fresh (List.mem_map.mpr ⟨plain, listed, same.symm⟩)
  have added : Fields.insert [] key datum .header (flat fields).root =
      some ((flat fields).root ++ [(key, .leaf datum)]) := by
    simp [Fields.insert, Fields.edit, Fields.add, absent]
  change (Fields.insert [] key datum .header (flat fields).root).bind _ = _
  rw [added, flat, flat, List.map_append]
  rfl

end Draft

theorem readLines_append (bare : IsBare name) :
    readLines (bound + 1) draft (name ++ rest) = (do
      let (draft, rest) ← readLine draft (name ++ rest)
      readLines bound draft rest) := by
  have begins : skipBlanks (name ++ rest) = name ++ rest := bare.skipBlanks_append
  obtain ⟨c, name, rfl, -⟩ := bare.exists_cons
  rw [readLines, begins]
  rfl

/-- A line that is read adds its field. -/
theorem readLines_line (bare : IsBare name) (reads : Reads text (some datum))
    (ends : EndsLine rest after) (fresh : String.ofList name ∉ fields.map Prod.fst) :
    readLines (bound + 1) (.flat fields) (name ++ ' ' :: '=' :: ' ' :: (text ++ rest)) =
      readLines bound (.flat (fields ++ [(String.ofList name, datum)])) after := by
  rw [readLines_append bare, readLine_append bare (reads.begins rest), reads.read ends.endsNumber]
  simp [ends.lineRest, Draft.addEntry_flat fresh]

/-- A line whose value is refused refuses the document. -/
theorem readLines_refused (bare : IsBare name) (reads : Reads text none)
    (ends : EndsLine rest after) :
    readLines (bound + 1) draft (name ++ ' ' :: '=' :: ' ' :: (text ++ rest)) = none := by
  rw [readLines_append bare, readLine_append bare (reads.begins rest), reads.read ends.endsNumber]
  rfl

end Toml

end GridCopy
