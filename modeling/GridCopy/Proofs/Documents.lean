import Mathlib.Data.List.Nodup
import GridCopy.Toml.Document

/-!
# The keys of a document

A document is refused when it defines a key twice, by whatever mixture of entries, dotted keys,
inline tables and headers. So no table of the tree that is read, at any depth, has two fields of one
name, and a field can be spoken of by its name alone.

Results:
1. `Toml.Fields.edit_keeps`: an edit at the end of a path keeps keys distinct if the change does.
2. `Toml.readValue_distinct`: the keys within a value are distinct.
3. `Toml.read?_distinct`: the keys of a whole document are.
-/

namespace GridCopy

theorem mem_of_lookup {α : Type} {fields : List (String × α)} {name : String} {value : α}
    (found : fields.lookup name = some value) : (name, value) ∈ fields := by
  obtain ⟨before, after, rfl, -⟩ := List.lookup_eq_some_iff.mp found
  exact List.mem_append_right _ List.mem_cons_self

namespace Datum

/-- Neither a list nor a record. -/
def IsScalar : Datum → Prop
  | .list _ => False
  | .record _ => False
  | _ => True

/-- No record in the tree has two fields of one name. -/
inductive Distinct : Datum → Prop
  | scalar {datum : Datum} (scalar : datum.IsScalar) : Distinct datum
  | list {items : List Datum} (each : ∀ item ∈ items, Distinct item) : Distinct (.list items)
  | record {fields : Fields} (keys : (fields.map Prod.fst).Nodup)
      (each : ∀ field ∈ fields, Distinct field.2) : Distinct (.record fields)

variable {items : List Datum} {fields : Fields} {name : String} {datum : Datum}

theorem distinct_list_iff : (list items).Distinct ↔ ∀ item ∈ items, item.Distinct := by
  constructor
  · intro distinct
    cases distinct with
    | scalar scalar => cases scalar
    | list each => exact each
  · exact .list

theorem distinct_record_iff :
    (record fields).Distinct ↔
      (fields.map Prod.fst).Nodup ∧ ∀ field ∈ fields, field.2.Distinct := by
  constructor
  · intro distinct
    cases distinct with
    | scalar scalar => cases scalar
    | record keys each => exact ⟨keys, each⟩
  · rintro ⟨keys, each⟩
    exact .record keys each

/-- Where names are distinct, the first field of a name is the only one. -/
theorem lookup_eq_some_iff (keys : (fields.map Prod.fst).Nodup) :
    fields.lookup name = some datum ↔ (name, datum) ∈ fields := by
  constructor
  · exact mem_of_lookup
  · intro member
    obtain ⟨before, after, rfl⟩ := List.append_of_mem member
    rw [List.map_append, List.nodup_append] at keys
    refine List.lookup_eq_some_iff.mpr ⟨before, after, rfl, ?_⟩
    intro field earlier
    exact bne_iff_ne.mpr (keys.2.2 _ (List.mem_map_of_mem earlier) _ List.mem_cons_self).symm

theorem field_unique {other : Datum} (keys : (fields.map Prod.fst).Nodup)
    (first : (name, datum) ∈ fields) (second : (name, other) ∈ fields) : datum = other := by
  have found := (lookup_eq_some_iff keys).mpr first
  exact Option.some.inj (found.symm.trans ((lookup_eq_some_iff keys).mpr second))

end Datum

namespace Toml

namespace Fields

/-- No key is defined twice, here or further down. -/
structure Distinct (fields : Fields) : Prop where
  keys : (fields.map Prod.fst).Nodup
  each : ∀ field ∈ fields, field.2.datum.Distinct

theorem data_eq (fields : Fields) :
    Fields.data fields = fields.map fun field => (field.1, field.2.datum) := by
  induction fields with
  | nil => rfl
  | cons field fields ih => rw [Fields.data, ih, List.map_cons]

end Fields

theorem tablesData_eq (tables : List Fields) :
    tablesData tables = tables.map fun fields => .record (Fields.data fields) := by
  induction tables with
  | nil => rfl
  | cons fields tables ih => rw [tablesData, ih, List.map_cons]

namespace Fields

variable {fields inner : Fields} {key : String} {node old : Node} {origin : Origin}

theorem distinct_data_iff : (Datum.record (Fields.data fields)).Distinct ↔ fields.Distinct := by
  have keys : (Fields.data fields).map Prod.fst = fields.map Prod.fst := by
    rw [data_eq, List.map_map]
    rfl
  rw [Datum.distinct_record_iff, keys, data_eq, List.forall_mem_map]
  constructor
  · rintro ⟨keys, each⟩
    exact ⟨keys, each⟩
  · rintro ⟨keys, each⟩
    exact ⟨keys, each⟩

theorem distinct_table_iff : (Node.table origin fields).datum.Distinct ↔ fields.Distinct := by
  rw [Node.datum, distinct_data_iff]

theorem distinct_tables_iff {tables : List Fields} :
    (Node.tables tables).datum.Distinct ↔ ∀ fields ∈ tables, Fields.Distinct fields := by
  rw [Node.datum, Datum.distinct_list_iff, tablesData_eq]
  simp only [List.mem_reverse, List.forall_mem_map, distinct_data_iff]

theorem Distinct.nil : Fields.Distinct [] := ⟨List.nodup_nil, List.forall_mem_nil _⟩

theorem Distinct.of_lookup (distinct : fields.Distinct) (found : fields.lookup key = some node) :
    node.datum.Distinct :=
  distinct.each _ (mem_of_lookup found)

theorem Distinct.append (distinct : fields.Distinct) (fresh : fields.lookup key = none)
    (new : node.datum.Distinct) : Fields.Distinct (fields ++ [(key, node)]) := by
  have others := List.lookup_eq_none_iff.mp fresh
  refine ⟨?_, ?_⟩
  · rw [List.map_append, List.nodup_append]
    refine ⟨distinct.keys, List.nodup_singleton _, ?_⟩
    intro name member other last
    obtain ⟨field, listed, rfl⟩ := List.mem_map.mp member
    cases List.mem_singleton.mp last
    exact (bne_iff_ne.mp (others field listed)).symm
  · intro field member
    rcases List.mem_append.mp member with listed | last
    · exact distinct.each field listed
    · cases List.mem_singleton.mp last
      exact new

theorem keys_replace (found : key ∈ fields.map Prod.fst) :
    (Fields.replace key node fields).map Prod.fst = fields.map Prod.fst := by
  induction fields with
  | nil => cases found
  | cons field fields ih =>
      unfold Fields.replace
      split
      · next same => rw [List.map_cons, List.map_cons, same]
      · next other =>
          have later := (List.mem_cons.mp found).resolve_left (Ne.symm other)
          rw [List.map_cons, List.map_cons, ih later]

theorem mem_replace {field : String × Node} (member : field ∈ Fields.replace key node fields) :
    field = (key, node) ∨ field ∈ fields := by
  induction fields with
  | nil => exact .inl (List.mem_singleton.mp member)
  | cons first fields ih =>
      unfold Fields.replace at member
      split at member
      · rcases List.mem_cons.mp member with new | later
        · exact .inl new
        · exact .inr (List.mem_cons_of_mem _ later)
      · rcases List.mem_cons.mp member with rfl | later
        · exact .inr List.mem_cons_self
        · exact (ih later).imp_right (List.mem_cons_of_mem _)

theorem Distinct.replace (distinct : fields.Distinct) (found : fields.lookup key = some old)
    (new : node.datum.Distinct) : (Fields.replace key node fields).Distinct := by
  have listed : key ∈ fields.map Prod.fst := List.mem_map_of_mem (mem_of_lookup found)
  refine ⟨(keys_replace listed).symm ▸ distinct.keys, ?_⟩
  intro field member
  rcases mem_replace member with rfl | kept
  · exact new
  · exact distinct.each field kept

/-! ## Edits -/

/-- The change leaves keys distinct, if it succeeds. -/
def Keeps (change : Fields → Option Fields) : Prop :=
  ∀ ⦃fields result : Fields⦄, fields.Distinct → change fields = some result → result.Distinct

variable {walk : Walk} {change : Origin → Fields → Option Fields} {datum : Datum}

theorem edit_keeps (kept : ∀ origin, Keeps (change origin)) (path : List String) (origin : Origin) :
    Keeps (Fields.edit walk change path origin) := by
  induction path generalizing origin with
  | nil => exact kept origin
  | cons key path ih =>
      -- The rest of the path is edited in the table under the key, which is then put back there.
      intro fields result distinct edited
      unfold Fields.edit at edited
      cases found : fields.lookup key with
      | none =>
          simp only [found, Option.bind_eq_bind, Option.bind_eq_some_iff] at edited
          obtain ⟨inner, made, last⟩ := edited
          cases last
          exact distinct.append found (distinct_table_iff.mpr (ih _ .nil made))
      | some node =>
          have before := distinct.of_lookup found
          cases node with
          | leaf datum =>
              rw [found] at edited
              cases edited
          | table reached inner =>
              simp only [found] at edited
              split at edited
              · obtain ⟨new, made, last⟩ := Option.bind_eq_some_iff.mp edited
                cases last
                exact distinct.replace found
                  (distinct_table_iff.mpr (ih _ (distinct_table_iff.mp before) made))
              · cases edited
          | tables newestFirst =>
              cases newestFirst with
              | nil =>
                  rw [found] at edited
                  cases edited
              | cons newest older =>
                  rw [found] at edited
                  obtain ⟨new, made, last⟩ := Option.bind_eq_some_iff.mp edited
                  cases last
                  obtain ⟨first, rest⟩ := List.forall_mem_cons.mp (distinct_tables_iff.mp before)
                  exact distinct.replace found
                    (distinct_tables_iff.mpr (List.forall_mem_cons.mpr ⟨ih _ first made, rest⟩))

theorem add_keeps (new : node.datum.Distinct) : Keeps (Fields.add key node) := by
  intro fields result distinct added
  unfold Fields.add at added
  split at added
  · cases added
  · next absent =>
      cases added
      exact distinct.append (Option.not_isSome_iff_eq_none.mp absent) new

theorem insert_keeps (new : datum.Distinct) (path : List String) (origin : Origin) :
    Keeps (Fields.insert path key datum origin) := by
  have leaf : (Node.leaf datum).datum.Distinct := new
  refine edit_keeps ?_ path origin
  intro reached inner result distinct inserted
  split at inserted
  · cases inserted
  · exact add_keeps leaf distinct inserted

theorem openTable_keeps : Keeps (Fields.openTable key) := by
  intro fields result distinct opened
  unfold Fields.openTable at opened
  split at opened
  · next fresh =>
      cases opened
      exact distinct.append fresh (distinct_table_iff.mpr .nil)
  · next inner found =>
      cases opened
      exact distinct.replace found
        (distinct_table_iff.mpr (distinct_table_iff.mp (distinct.of_lookup found)))
  · cases opened

theorem openElement_keeps : Keeps (Fields.openElement key) := by
  intro fields result distinct opened
  unfold Fields.openElement at opened
  split at opened
  · next fresh =>
      cases opened
      exact distinct.append fresh
        (distinct_tables_iff.mpr (List.forall_mem_cons.mpr ⟨.nil, List.forall_mem_nil _⟩))
  · next newestFirst found =>
      cases opened
      have before := distinct_tables_iff.mp (distinct.of_lookup found)
      exact distinct.replace found
        (distinct_tables_iff.mpr (List.forall_mem_cons.mpr ⟨.nil, before⟩))
  · cases opened

end Fields

/-! ## Readers -/

/-- All that the reader reads has the property. -/
def Reader.Yields {α : Type} (reader : Reader α) (property : α → Prop) : Prop :=
  ∀ ⦃chars : List Char⦄ ⦃value : α⦄ ⦃rest : List Char⦄,
    reader chars = some (value, rest) → property value

theorem integer?_scalar {negative : Bool} {magnitude : Nat} {datum : Datum}
    (made : integer? negative magnitude = some datum) : datum.IsScalar := by
  simp only [integer?, Option.ite_none_right_eq_some, Option.some.injEq] at made
  obtain ⟨-, rfl⟩ := made
  trivial

theorem readBased_scalar {base : Nat} {isDigit : Char → Bool} :
    (readBased base isDigit).Yields Datum.IsScalar := by
  intro chars datum rest read
  obtain ⟨⟨digits, after⟩, -, read⟩ := Option.bind_eq_some_iff.mp read
  obtain ⟨value, made, last⟩ := Option.bind_eq_some_iff.mp read
  cases last
  exact integer?_scalar made

theorem readInteger_scalar : readInteger.Yields Datum.IsScalar := by
  intro chars datum rest read
  unfold readInteger at read
  split at read
  · exact readBased_scalar read
  · exact readBased_scalar read
  · exact readBased_scalar read
  · obtain ⟨⟨digits, after⟩, -, read⟩ := Option.bind_eq_some_iff.mp read
    obtain ⟨value, made, last⟩ := Option.bind_eq_some_iff.mp read
    cases last
    exact integer?_scalar made

theorem readFraction_scalar : readFraction.Yields Datum.IsScalar := by
  intro chars datum rest read
  -- What follows is the same for each way to start the part after the whole number.
  have ended (tooLarge : Int × List Char → Bool) (after : List Char)
      (read : ((readExponent after).bind fun exponent =>
        if tooLarge exponent then none else some (Datum.real, exponent.2)) = some (datum, rest)) :
      datum.IsScalar := by
    obtain ⟨exponent, -, read⟩ := Option.bind_eq_some_iff.mp read
    obtain ⟨-, last⟩ := Option.ite_none_left_eq_some.mp read
    cases last
    trivial
  obtain ⟨⟨whole, after⟩, -, read⟩ := Option.bind_eq_some_iff.mp read
  simp only [Option.bind_eq_bind] at read
  split at read
  · obtain ⟨fraction, -, read⟩ := Option.bind_eq_some_iff.mp read
    exact ended _ _ read
  · exact ended _ _ read
  · exact ended _ _ read
  · cases read

theorem readSpecial_scalar : readSpecial.Yields Datum.IsScalar := by
  intro chars datum rest read
  unfold readSpecial at read
  split at read
  · cases read
    trivial
  · cases read
    trivial
  · cases read

theorem readNumber_scalar : readNumber.Yields Datum.IsScalar := by
  intro chars datum rest read
  simp only [readNumber, Option.orElse_eq_or, Option.or_eq_some_iff] at read
  rcases read with fraction | ⟨-, special | ⟨-, integer⟩⟩
  · exact readFraction_scalar fraction
  · exact readSpecial_scalar special
  · exact readInteger_scalar integer

theorem readMoment_scalar : readMoment.Yields Datum.IsScalar := by
  intro chars datum rest read
  unfold readMoment at read
  split at read
  · cases read
    trivial
  · obtain ⟨after, -, last⟩ := Option.map_eq_some_iff.mp read
    cases last
    trivial

theorem readScalar_scalar : readScalar.Yields Datum.IsScalar := by
  intro chars datum rest read
  unfold readScalar at read
  split at read
  · obtain ⟨after, -, last⟩ := Option.map_eq_some_iff.mp read
    cases last
    trivial
  · obtain ⟨after, -, last⟩ := Option.map_eq_some_iff.mp read
    cases last
    trivial
  · cases read
    trivial
  · cases read
    trivial
  · rw [Option.orElse_eq_or, Option.or_eq_some_iff] at read
    rcases read with moment | ⟨-, number⟩
    · exact readMoment_scalar moment
    · exact readNumber_scalar number

variable {value : Reader Datum}

theorem readElements_distinct (each : value.Yields Datum.Distinct) (bound : Nat) :
    (readElements value bound).Yields fun items => ∀ item ∈ items, item.Distinct := by
  induction bound with
  | zero =>
      intro chars items rest read
      cases read
  | succ bound ih =>
      intro chars items rest read
      unfold readElements at read
      split at read
      · cases read
        exact List.forall_mem_nil _
      · obtain ⟨⟨item, after⟩, first, read⟩ := Option.bind_eq_some_iff.mp read
        simp only at read
        split at read
        · cases read
          exact List.forall_mem_singleton.mpr (each first)
        · obtain ⟨⟨items, after⟩, others, last⟩ := Option.bind_eq_some_iff.mp read
          cases last
          exact List.forall_mem_cons.mpr ⟨each first, ih others⟩
        · cases read

theorem readEntry_distinct (each : value.Yields Datum.Distinct) :
    (readEntry value).Yields fun entry => entry.datum.Distinct := by
  intro chars entry rest read
  obtain ⟨⟨⟨path, key⟩, after⟩, -, read⟩ := Option.bind_eq_some_iff.mp read
  obtain ⟨after, -, read⟩ := Option.bind_eq_some_iff.mp read
  obtain ⟨⟨datum, after⟩, right, last⟩ := Option.bind_eq_some_iff.mp read
  cases last
  exact each right

theorem readEntries_distinct (each : value.Yields Datum.Distinct) (bound : Nat) :
    (readEntries value bound).Yields fun entries => ∀ entry ∈ entries, entry.datum.Distinct := by
  induction bound with
  | zero =>
      intro chars entries rest read
      cases read
  | succ bound ih =>
      intro chars entries rest read
      unfold readEntries at read
      obtain ⟨⟨entry, after⟩, first, read⟩ := Option.bind_eq_some_iff.mp read
      simp only at read
      split at read
      · cases read
        exact List.forall_mem_singleton.mpr (readEntry_distinct each first)
      · obtain ⟨⟨entries, after⟩, others, last⟩ := Option.bind_eq_some_iff.mp read
        cases last
        exact List.forall_mem_cons.mpr ⟨readEntry_distinct each first, ih others⟩
      · cases read

theorem inlineTable?_distinct {entries : List Entry} {datum : Datum}
    (each : ∀ entry ∈ entries, entry.datum.Distinct) (made : inlineTable? entries = some datum) :
    datum.Distinct := by
  have step (entries : List Entry) (each : ∀ entry ∈ entries, entry.datum.Distinct) :
      Fields.Keeps fun fields => entries.foldlM (fun fields entry =>
        Fields.insert entry.path entry.key entry.datum .header fields) fields := by
    induction entries with
    | nil =>
        intro fields result distinct last
        cases last
        exact distinct
    | cons entry entries ih =>
        intro fields result distinct run
        obtain ⟨first, others⟩ := List.forall_mem_cons.mp each
        simp only [List.foldlM_cons] at run
        obtain ⟨next, inserted, rest⟩ := Option.bind_eq_some_iff.mp run
        exact ih others (Fields.insert_keeps first _ _ distinct inserted) rest
  obtain ⟨fields, inserted, last⟩ := Option.bind_eq_some_iff.mp made
  cases last
  exact Fields.distinct_data_iff.mpr (step entries each .nil inserted)

theorem readValue_distinct (depth : Nat) : (readValue depth).Yields Datum.Distinct := by
  induction depth with
  | zero =>
      intro chars datum rest read
      unfold readValue at read
      split at read
      · cases read
      · cases read
      · next deeper => cases deeper
      · next deeper => cases deeper
      · exact .scalar (readScalar_scalar read)
  | succ depth ih =>
      intro chars datum rest read
      unfold readValue at read
      split at read
      · cases read
      · cases read
      · next deeper =>
          cases deeper
          obtain ⟨⟨items, after⟩, listed, last⟩ := Option.bind_eq_some_iff.mp read
          cases last
          exact .list (readElements_distinct ih _ listed)
      · next deeper =>
          cases deeper
          split at read
          · cases read
            exact .record List.nodup_nil (List.forall_mem_nil _)
          · obtain ⟨⟨entries, after⟩, listed, read⟩ := Option.bind_eq_some_iff.mp read
            obtain ⟨table, made, last⟩ := Option.bind_eq_some_iff.mp read
            cases last
            exact inlineTable?_distinct (readEntries_distinct ih _ listed) made
      · exact .scalar (readScalar_scalar read)

/-! ## Documents -/

theorem Draft.addEntry_distinct {draft next : Draft} {entry : Entry}
    (distinct : draft.root.Distinct) (right : entry.datum.Distinct)
    (added : draft.addEntry entry = some next) : next.root.Distinct := by
  obtain ⟨root, edited, last⟩ := Option.bind_eq_some_iff.mp added
  cases last
  exact Fields.edit_keeps (fun _ => Fields.insert_keeps right _ _) _ _ distinct edited

theorem Draft.openAt_distinct {draft next : Draft} {path : List String} {key : String}
    {change : String → Fields → Option Fields} (kept : Fields.Keeps (change key))
    (distinct : draft.root.Distinct) (opened : draft.openAt path key change = some next) :
    next.root.Distinct := by
  obtain ⟨root, edited, last⟩ := Option.bind_eq_some_iff.mp opened
  cases last
  exact Fields.edit_keeps (fun _ => kept) _ _ distinct edited

theorem readLine_distinct {draft next : Draft} {chars rest : List Char}
    (distinct : draft.root.Distinct) (read : readLine draft chars = some (next, rest)) :
    next.root.Distinct := by
  unfold readLine at read
  split at read
  · obtain ⟨after, -, last⟩ := Option.map_eq_some_iff.mp read
    cases last
    exact distinct
  · obtain ⟨⟨⟨path, key⟩, after⟩, -, read⟩ := Option.bind_eq_some_iff.mp read
    obtain ⟨after, -, read⟩ := Option.bind_eq_some_iff.mp read
    obtain ⟨after, -, read⟩ := Option.bind_eq_some_iff.mp read
    obtain ⟨after, -, read⟩ := Option.bind_eq_some_iff.mp read
    obtain ⟨later, opened, last⟩ := Option.bind_eq_some_iff.mp read
    cases last
    exact Draft.openAt_distinct Fields.openElement_keeps distinct opened
  · obtain ⟨⟨⟨path, key⟩, after⟩, -, read⟩ := Option.bind_eq_some_iff.mp read
    obtain ⟨after, -, read⟩ := Option.bind_eq_some_iff.mp read
    obtain ⟨after, -, read⟩ := Option.bind_eq_some_iff.mp read
    obtain ⟨later, opened, last⟩ := Option.bind_eq_some_iff.mp read
    cases last
    exact Draft.openAt_distinct Fields.openTable_keeps distinct opened
  · split at read
    · cases read
      exact distinct
    · obtain ⟨⟨entry, after⟩, right, read⟩ := Option.bind_eq_some_iff.mp read
      obtain ⟨after, -, read⟩ := Option.bind_eq_some_iff.mp read
      obtain ⟨later, added, last⟩ := Option.bind_eq_some_iff.mp read
      cases last
      exact Draft.addEntry_distinct distinct
        (readEntry_distinct (readValue_distinct depthLimit) right) added

theorem readLines_distinct {draft next : Draft} {chars : List Char} {bound : Nat}
    (distinct : draft.root.Distinct) (read : readLines bound draft chars = some next) :
    next.root.Distinct := by
  induction bound generalizing draft chars with
  | zero => cases read
  | succ bound ih =>
      unfold readLines at read
      split at read
      · cases read
        exact distinct
      · obtain ⟨⟨later, rest⟩, line, read⟩ := Option.bind_eq_some_iff.mp read
        exact ih (readLine_distinct distinct line) read

theorem read?_distinct {text : String} {fields : Datum.Fields} (read : read? text = some fields) :
    (Datum.record fields).Distinct := by
  obtain ⟨draft, lines, last⟩ := Option.bind_eq_some_iff.mp read
  cases last
  exact Fields.distinct_data_iff.mpr (readLines_distinct .nil lines)

end Toml

end GridCopy
