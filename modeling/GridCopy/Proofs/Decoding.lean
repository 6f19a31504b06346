import GridCopy.Proofs.Documents
import GridCopy.Proofs.Overrides

/-!
# Settings in documents

The settings of a document are decoded key by key. `Settings.Key` lists the keys, and `Key.Writes`
says without decoding what a document may write for each: sizes, shapes as tables or arrays, names
as texts or as tables of one key. A document is accepted when each key that it has is written so.
This holds of every tree without repeated keys, whatever text it comes from and whatever reads it.

Results:
1. `Settings.Key.decode_eq_some_iff`: decoding the value of one key.
2. `Settings.Key.updateFrom?_eq_some_iff`: decoding a whole document is decoding each key.
3. `Settings.updateFrom?_exact`: which trees are accepted, and with which settings.
4. `Settings.ofToml_exact`: which texts are.
-/

namespace GridCopy

namespace Datum

/-- An integer from zero to the largest one of a document. -/
inductive WritesSize : Datum → Nat → Prop
  | integer {n : Nat} (bounded : n ≤ 2 ^ 63 - 1) : WritesSize (.integer n) n

/-- A table of rows and columns, or an array that starts with them. -/
inductive WritesShape : Datum → Shape → Prop
  | table {fields : Fields} {rows cols : Datum} {shape : Shape}
      (rowsField : ("rows", rows) ∈ fields) (colsField : ("cols", cols) ∈ fields)
      (down : WritesSize rows shape.rows) (across : WritesSize cols shape.cols) :
      WritesShape (.record fields) shape
  | array {rows cols : Datum} {rest : List Datum} {shape : Shape}
      (down : WritesSize rows shape.rows) (across : WritesSize cols shape.cols) :
      WritesShape (.list (rows :: cols :: rest)) shape

/-- A name, alone or as the one key of a table that holds an empty table or an empty array. -/
inductive WritesName {α : Type} (spellings : List (String × α)) : Datum → α → Prop
  | text {name : String} {value : α} (listed : (name, value) ∈ spellings) :
      WritesName spellings (.text name) value
  | table {name : String} {value : α} (listed : (name, value) ∈ spellings) :
      WritesName spellings (.record [(name, .record [])]) value
  | array {name : String} {value : α} (listed : (name, value) ∈ spellings) :
      WritesName spellings (.record [(name, .list [])]) value

end Datum

namespace Dialect

variable {datum : Datum}

theorem size?_eq_some_iff {size : Nat} :
    document.size? datum = some size ↔ datum.WritesSize size := by
  constructor
  · intro read
    unfold Dialect.size? at read
    split at read
    · next n =>
        obtain ⟨bounded, last⟩ := Option.ite_none_right_eq_some.mp read
        cases last
        exact .integer bounded
    · cases read
  · rintro ⟨bounded⟩
    exact if_pos bounded

theorem shape?_eq_some_iff {shape : Shape} (distinct : datum.Distinct) :
    document.shape? datum = some shape ↔ datum.WritesShape shape := by
  constructor
  · intro read
    unfold Dialect.shape? at read
    split at read
    · obtain ⟨rows, rowsField, read⟩ := Option.bind_eq_some_iff.mp read
      obtain ⟨down, rowsRead, read⟩ := Option.bind_eq_some_iff.mp read
      obtain ⟨cols, colsField, read⟩ := Option.bind_eq_some_iff.mp read
      obtain ⟨across, colsRead, last⟩ := Option.bind_eq_some_iff.mp read
      cases last
      exact .table (mem_of_lookup rowsField) (mem_of_lookup colsField)
        (size?_eq_some_iff.mp rowsRead) (size?_eq_some_iff.mp colsRead)
    · obtain ⟨-, read⟩ := Option.ite_none_right_eq_some.mp read
      obtain ⟨down, rowsRead, read⟩ := Option.bind_eq_some_iff.mp read
      obtain ⟨across, colsRead, last⟩ := Option.bind_eq_some_iff.mp read
      cases last
      exact .array (size?_eq_some_iff.mp rowsRead) (size?_eq_some_iff.mp colsRead)
    · cases read
  · intro writes
    cases writes with
    | table rowsField colsField down across =>
        obtain ⟨keys, -⟩ := Datum.distinct_record_iff.mp distinct
        simp only [Dialect.shape?, (Datum.lookup_eq_some_iff keys).mpr rowsField,
          (Datum.lookup_eq_some_iff keys).mpr colsField, size?_eq_some_iff.mpr down,
          size?_eq_some_iff.mpr across, Option.bind_eq_bind, Option.bind_some]
        rfl
    | array down across =>
        have long (rest : List Datum) : (rest.isEmpty || document.longShapes) = true :=
          Bool.or_true _
        simp only [Dialect.shape?, long, if_true, size?_eq_some_iff.mpr down,
          size?_eq_some_iff.mpr across, Option.bind_eq_bind, Option.bind_some]
        rfl

theorem isEmptyPayload_iff :
    document.isEmptyPayload datum = true ↔ datum = .record [] ∨ datum = .list [] := by
  constructor
  · intro empty
    simp only [document] at empty
    split at empty
    · exact .inl rfl
    · exact .inr rfl
    · cases empty
  · rintro (rfl | rfl)
    · rfl
    · rfl

theorem named?_eq_some_iff {α : Type} {ofName? : String → Option α}
    {spellings : List (String × α)}
    (listed : ∀ {name : String} {value : α}, ofName? name = some value ↔ (name, value) ∈ spellings)
    {value : α} : document.named? ofName? datum = some value ↔ datum.WritesName spellings value := by
  constructor
  · intro read
    unfold Dialect.named? at read
    split at read
    · exact .text (listed.mp read)
    · obtain ⟨empty, read⟩ := Option.ite_none_right_eq_some.mp read
      rcases isEmptyPayload_iff.mp empty with rfl | rfl
      · exact .table (listed.mp read)
      · exact .array (listed.mp read)
    · cases read
  · intro writes
    cases writes with
    | text member => exact listed.mpr member
    | table member => exact listed.mpr member
    | array member => exact listed.mpr member

end Dialect

namespace Settings

/-- The keys of the settings. -/
inductive Key
  | shape
  | tile
  | threads
  | vector
  | layout
  | policy
  | errorLimit

namespace Key

def name : Key → String
  | shape => "shape"
  | tile => "tile"
  | threads => "threads"
  | vector => "vector"
  | layout => "layout"
  | policy => "policy"
  | errorLimit => "error_limit"

def Value : Key → Type
  | shape => Shape
  | tile => Shape
  | threads => Shape
  | vector => Shape
  | layout => MajorOrder
  | policy => Selection
  | errorLimit => Nat

/-- The setting of a key. -/
def get (settings : Settings) : (key : Key) → key.Value
  | shape => settings.shape
  | tile => settings.tile
  | threads => settings.threads
  | vector => settings.vector
  | layout => settings.layout
  | policy => settings.policy
  | errorLimit => settings.errorLimit

/-- What may be written for a key, and what it stands for. -/
def Writes : (key : Key) → Datum → key.Value → Prop
  | shape => Datum.WritesShape
  | tile => Datum.WritesShape
  | threads => Datum.WritesShape
  | vector => Datum.WritesShape
  | layout => Datum.WritesName MajorOrder.spellings
  | policy => Datum.WritesName Selection.spellings
  | errorLimit => Datum.WritesSize

/-- Each value that the document has for the key may be written for it. -/
def Admissible (key : Key) (fields : Datum.Fields) : Prop :=
  ∀ datum, (key.name, datum) ∈ fields → ∃ value, key.Writes datum value

/-- The document says so, or it leaves the key out and the standard settings say so. -/
inductive Gives (key : Key) (fields : Datum.Fields) : key.Value → Prop
  | present {datum : Datum} {value : key.Value} (written : (key.name, datum) ∈ fields)
      (writes : key.Writes datum value) : Gives key fields value
  | absent (missing : ∀ datum, (key.name, datum) ∉ fields) :
      Gives key fields (key.get standard)

def decode : (key : Key) → Datum → Option key.Value
  | shape => Dialect.document.shape?
  | tile => Dialect.document.shape?
  | threads => Dialect.document.shape?
  | vector => Dialect.document.shape?
  | layout => Dialect.document.named? MajorOrder.ofName?
  | policy => Dialect.document.named? Selection.ofName?
  | errorLimit => Dialect.document.size?

/-- The setting of a key, read from its field alone. -/
def read? (key : Key) (fields : Datum.Fields) : Option key.Value :=
  Dialect.field? fields key.name (key.get standard) key.decode

variable {key : Key} {fields others : Datum.Fields} {value : key.Value} {settings : Settings}

theorem decode_eq_some_iff {datum : Datum} (distinct : datum.Distinct) :
    key.decode datum = some value ↔ key.Writes datum value := by
  cases key with
  | shape => exact Dialect.shape?_eq_some_iff distinct
  | tile => exact Dialect.shape?_eq_some_iff distinct
  | threads => exact Dialect.shape?_eq_some_iff distinct
  | vector => exact Dialect.shape?_eq_some_iff distinct
  | layout => exact Dialect.named?_eq_some_iff MajorOrder.ofName?_eq_some_iff
  | policy => exact Dialect.named?_eq_some_iff Selection.ofName?_eq_some_iff
  | errorLimit => exact Dialect.size?_eq_some_iff

theorem read?_eq_some_iff (distinct : (Datum.record fields).Distinct) :
    key.read? fields = some value ↔ key.Gives fields value := by
  obtain ⟨keys, each⟩ := Datum.distinct_record_iff.mp distinct
  unfold read? Dialect.field?
  cases found : fields.lookup key.name with
  | none =>
      have missing (datum : Datum) : (key.name, datum) ∉ fields := by
        intro written
        cases found.symm.trans ((Datum.lookup_eq_some_iff keys).mpr written)
      constructor
      · intro standard
        cases standard
        exact .absent missing
      · intro gives
        cases gives with
        | present written writes => exact absurd written (missing _)
        | absent => rfl
  | some datum =>
      have written := mem_of_lookup found
      change key.decode datum = some value ↔ _
      rw [decode_eq_some_iff (each _ written)]
      constructor
      · exact .present written
      · intro gives
        cases gives with
        | present again writes =>
            cases Datum.field_unique keys written again
            exact writes
        | absent missing => exact absurd written (missing datum)

/-- Settings are one value for each key. -/
theorem exists_settings {property : (key : Key) → key.Value → Prop} :
    (∃ settings : Settings, ∀ key, property key (key.get settings)) ↔
      ∀ key, ∃ value, property key value := by
  constructor
  · rintro ⟨settings, all⟩ key
    exact ⟨_, all key⟩
  · intro all
    choose value holds using all
    refine ⟨⟨value .shape, value .tile, value .threads, value .vector, value .layout,
      value .policy, value .errorLimit⟩, ?_⟩
    intro key
    cases key with
    | shape => exact holds .shape
    | tile => exact holds .tile
    | threads => exact holds .threads
    | vector => exact holds .vector
    | layout => exact holds .layout
    | policy => exact holds .policy
    | errorLimit => exact holds .errorLimit

theorem updateFrom?_eq_some_iff :
    updateFrom? .document standard fields = some settings ↔
      ∀ key : Key, key.read? fields = some (key.get settings) := by
  -- One step of the decoder for each key, in the order of the fields of the settings.
  constructor
  · intro updated
    obtain ⟨shape, ofShape, updated⟩ := Option.bind_eq_some_iff.mp updated
    obtain ⟨tile, ofTile, updated⟩ := Option.bind_eq_some_iff.mp updated
    obtain ⟨threads, ofThreads, updated⟩ := Option.bind_eq_some_iff.mp updated
    obtain ⟨vector, ofVector, updated⟩ := Option.bind_eq_some_iff.mp updated
    obtain ⟨layout, ofLayout, updated⟩ := Option.bind_eq_some_iff.mp updated
    obtain ⟨policy, ofPolicy, updated⟩ := Option.bind_eq_some_iff.mp updated
    obtain ⟨errorLimit, ofErrorLimit, last⟩ := Option.bind_eq_some_iff.mp updated
    cases last
    intro key
    cases key with
    | shape => exact ofShape
    | tile => exact ofTile
    | threads => exact ofThreads
    | vector => exact ofVector
    | layout => exact ofLayout
    | policy => exact ofPolicy
    | errorLimit => exact ofErrorLimit
  · intro read
    exact Option.bind_eq_some_iff.mpr ⟨_, read .shape, Option.bind_eq_some_iff.mpr ⟨_, read .tile,
      Option.bind_eq_some_iff.mpr ⟨_, read .threads, Option.bind_eq_some_iff.mpr ⟨_, read .vector,
        Option.bind_eq_some_iff.mpr ⟨_, read .layout, Option.bind_eq_some_iff.mpr ⟨_, read .policy,
          Option.bind_eq_some_iff.mpr ⟨_, read .errorLimit, rfl⟩⟩⟩⟩⟩⟩⟩

/-- A key has a value exactly if what the document has for it may be written. -/
theorem exists_gives_iff (distinct : (Datum.record fields).Distinct) :
    (∃ value, key.Gives fields value) ↔ key.Admissible fields := by
  obtain ⟨keys, -⟩ := Datum.distinct_record_iff.mp distinct
  constructor
  · rintro ⟨value, gives⟩ datum written
    cases gives with
    | present first writes =>
        cases Datum.field_unique keys first written
        exact ⟨value, writes⟩
    | absent missing => exact absurd written (missing datum)
  · intro admissible
    by_cases mentioned : ∃ datum, (key.name, datum) ∈ fields
    · obtain ⟨datum, written⟩ := mentioned
      obtain ⟨value, writes⟩ := admissible datum written
      exact ⟨value, .present written writes⟩
    · exact ⟨key.get standard, .absent (not_exists.mp mentioned)⟩

theorem read?_congr (distinct : (Datum.record fields).Distinct)
    (otherDistinct : (Datum.record others).Distinct)
    (agree : ∀ datum, (key.name, datum) ∈ fields ↔ (key.name, datum) ∈ others) :
    key.read? fields = key.read? others := by
  obtain ⟨keys, -⟩ := Datum.distinct_record_iff.mp distinct
  obtain ⟨otherKeys, -⟩ := Datum.distinct_record_iff.mp otherDistinct
  have same : fields.lookup key.name = others.lookup key.name := by
    apply Option.ext
    intro datum
    rw [Datum.lookup_eq_some_iff keys, Datum.lookup_eq_some_iff otherKeys, agree]
  unfold read? Dialect.field?
  rw [same]

end Key

variable {fields others : Datum.Fields} {settings changed : Settings}

/-! ## Trees -/

theorem updateFrom?_iff_gives (distinct : (Datum.record fields).Distinct) :
    updateFrom? .document standard fields = some settings ↔
      ∀ key : Key, key.Gives fields (key.get settings) := by
  rw [Key.updateFrom?_eq_some_iff]
  exact forall_congr' fun key => Key.read?_eq_some_iff distinct

theorem exists_updateFrom?_iff (distinct : (Datum.record fields).Distinct) :
    (∃ settings, updateFrom? .document standard fields = some settings) ↔
      ∀ key : Key, key.Admissible fields :=
  calc (∃ settings, updateFrom? .document standard fields = some settings)
    _ ↔ ∃ settings : Settings, ∀ key : Key, key.Gives fields (key.get settings) :=
        exists_congr fun _ => updateFrom?_iff_gives distinct
    _ ↔ ∀ key : Key, ∃ value, key.Gives fields value := Key.exists_settings
    _ ↔ ∀ key : Key, key.Admissible fields :=
        forall_congr' fun _ => Key.exists_gives_iff distinct

theorem get_eq_of_agree (distinct : (Datum.record fields).Distinct)
    (otherDistinct : (Datum.record others).Distinct)
    (here : updateFrom? .document standard fields = some settings)
    (there : updateFrom? .document standard others = some changed) (key : Key)
    (agree : ∀ datum, (key.name, datum) ∈ fields ↔ (key.name, datum) ∈ others) :
    key.get settings = key.get changed := by
  have first := Key.updateFrom?_eq_some_iff.mp here key
  have second := Key.updateFrom?_eq_some_iff.mp there key
  rw [Key.read?_congr distinct otherDistinct agree, second] at first
  exact (Option.some.inj first).symm

/-- Any tree without repeated keys gives settings exactly if each key that it has is written as this
key may be; the settings are then its values for the keys that it has and the standard ones for the
others. What a setting becomes depends on its own key alone. -/
theorem updateFrom?_exact (distinct : (Datum.record fields).Distinct) :
    (∀ settings, updateFrom? .document standard fields = some settings ↔
        ∀ key : Key, key.Gives fields (key.get settings)) ∧
      ((∃ settings, updateFrom? .document standard fields = some settings) ↔
        ∀ key : Key, key.Admissible fields) ∧
      ∀ others settings changed, (Datum.record others).Distinct →
        updateFrom? .document standard fields = some settings →
          updateFrom? .document standard others = some changed →
            ∀ key : Key, (∀ datum, (key.name, datum) ∈ fields ↔ (key.name, datum) ∈ others) →
              key.get settings = key.get changed :=
  ⟨fun _ => updateFrom?_iff_gives distinct, exists_updateFrom?_iff distinct,
    fun _ _ _ otherDistinct => get_eq_of_agree distinct otherDistinct⟩

/-! ## Texts -/

variable {explain : String → String} {text : String}

theorem ofToml_iff_updateFrom? (read : Toml.read? text = some fields) :
    ofToml explain text = .ok settings ↔
      updateFrom? .document standard fields = some settings := by
  rw [ofToml_ok_iff, ofDocument?, read]
  rfl

theorem ofToml_eq_ok_iff (read : Toml.read? text = some fields) :
    ofToml explain text = .ok settings ↔ ∀ key : Key, key.Gives fields (key.get settings) :=
  (ofToml_iff_updateFrom? read).trans (updateFrom?_iff_gives (Toml.read?_distinct read))

theorem ofToml_unread (unread : Toml.read? text = none) :
    ofToml explain text = .error (.config (explain text)) := by
  rw [ofToml_error_iff, ofDocument?, unread]
  exact ⟨rfl, rfl⟩

/-- A text that is no document is refused. A document gives settings exactly if each key that it
has is written as this key may be; the settings are then its values for the keys that it has and the
standard ones for the others, and otherwise it is refused. What a setting becomes depends on its own
key alone: documents that agree on a key agree on its setting. -/
theorem ofToml_exact (explain : String → String) (text : String) :
    (Toml.read? text = none → ofToml explain text = .error (.config (explain text))) ∧
      ∀ fields, Toml.read? text = some fields →
        (∀ settings, ofToml explain text = .ok settings ↔
          ∀ key : Key, key.Gives fields (key.get settings)) ∧
        ((∃ settings, ofToml explain text = .ok settings) ↔ ∀ key : Key, key.Admissible fields) ∧
        ((¬ ∀ key : Key, key.Admissible fields) →
          ofToml explain text = .error (.config (explain text))) ∧
        ∀ other others settings changed, Toml.read? other = some others →
          ofToml explain text = .ok settings → ofToml explain other = .ok changed →
            ∀ key : Key, (∀ datum, (key.name, datum) ∈ fields ↔ (key.name, datum) ∈ others) →
              key.get settings = key.get changed := by
  refine ⟨ofToml_unread, ?_⟩
  intro fields read
  have distinct := Toml.read?_distinct read
  have accepted : (∃ settings, ofToml explain text = .ok settings) ↔
      ∀ key : Key, key.Admissible fields :=
    (exists_congr fun _ => ofToml_iff_updateFrom? read).trans (exists_updateFrom?_iff distinct)
  refine ⟨fun settings => ofToml_eq_ok_iff read, accepted, ?_, ?_⟩
  · intro inadmissible
    cases result : ofToml explain text with
    | ok settings => exact absurd (accepted.mp ⟨settings, result⟩) inadmissible
    | error error => rw [(ofToml_error_iff.mp result).2]
  · intro other others settings changed readOther here there
    exact get_eq_of_agree distinct (Toml.read?_distinct readOther)
      ((ofToml_iff_updateFrom? read).mp here) ((ofToml_iff_updateFrom? readOther).mp there)

/-- An array that is longer than a shape, names in their long forms, and keys of no setting. -/
theorem ofToml_exact_mixed_forms :
    let text := "a.shape = 1\nshape = [4, 2, 'x']\nvector.cols = 1\nvector.rows = 2\n" ++
      "layout.row = []\n[tile]\nrows = 4\nsize = 0.5\ncols = 2\n[policy.both]"
    let settings : Settings := ⟨⟨4, 2⟩, ⟨4, 2⟩, ⟨32, 8⟩, ⟨2, 1⟩, .rowMajor, .both, 10⟩
    let explain (_ : String) := "refused"
    ofToml explain text = .ok settings ∧
      ∃ fields, Toml.read? text = some fields ∧ fields.map Prod.fst =
        ["a", "shape", "vector", "layout", "tile", "policy"] ∧
          ∀ key : Key, key.Gives fields (key.get settings) := by
  intro text settings explain
  have accepted : ofToml explain text = .ok settings := ofToml_ok_iff.mpr (by decide +kernel)
  have keys : (Toml.read? text).map (List.map Prod.fst) =
      some ["a", "shape", "vector", "layout", "tile", "policy"] := by decide +kernel
  obtain ⟨fields, read, named⟩ := Option.map_eq_some_iff.mp keys
  exact ⟨accepted, fields, read, named,
    (((ofToml_exact explain text).2 fields read).1 settings).mp accepted⟩

end Settings

end GridCopy
