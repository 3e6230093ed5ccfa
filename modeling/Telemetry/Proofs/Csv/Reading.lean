import Mathlib.Data.List.Forall2
import Telemetry.Csv.Row

/-! Tables that are read back.
A table is a text of records, each ended by a line feed, which may be missing behind the
last one. A record has fields parted by commas. A field stands in quotes, with each quote
inside written twice, or is written as it is. The grammar says which records a text has,
and the reader, which goes over the characters once, finds them for the texts of the
grammar and for no others. So a header and rows behind it give the names of the columns
and the texts of the fields back, whatever these hold. -/
namespace Telemetry.Csv

/-- The characters between the quotes of a field, and those that they stand for. -/
inductive Doubled : List Char → List Char → Prop
  | nil : Doubled [] []
  | char {c : Char} {cs value : List Char} (plain : c ≠ '"') (rest : Doubled cs value) :
    Doubled (c :: cs) (c :: value)
  | quote {cs value : List Char} (rest : Doubled cs value) :
    Doubled ('"' :: '"' :: cs) ('"' :: value)

/-- A character that may stand in a field without quotes. -/
def isBare (c : Char) : Bool :=
  c ≠ '"' && c ≠ ',' && c ≠ '\n'

inductive IsField : List Char → String → Prop
  | bare {cs : List Char} (chars : ∀ c ∈ cs, isBare c = true) : IsField cs (.ofList cs)
  | quoted {cs value : List Char} (inside : Doubled cs value) :
    IsField ('"' :: (cs ++ ['"'])) (.ofList value)

inductive IsRecord : List Char → List String → Prop
  | last {cs : List Char} {field : String} (first : IsField cs field) : IsRecord cs [field]
  | more {cs rest : List Char} {field : String} {fields : List String} (first : IsField cs field)
    (others : IsRecord rest fields) : IsRecord (cs ++ ',' :: rest) (field :: fields)

inductive IsTable : List Char → List (List String) → Prop
  | nil : IsTable [] []
  /-- A record without a line feed. It has characters, for else there is no record. -/
  | last {cs : List Char} {record : List String} (first : IsRecord cs record) (filled : cs ≠ []) :
    IsTable cs [record]
  | more {cs rest : List Char} {record : List String} {records : List (List String)}
    (first : IsRecord cs record) (others : IsTable rest records) :
    IsTable (cs ++ '\n' :: rest) (record :: records)

inductive Reader.Place
  | start
  | bare
  | quoted
  /-- Behind a quote that ends the field, unless a second one follows. -/
  | closed
deriving DecidableEq

/-- What was read so far: records, fields of the record under way, and characters of the
field under way. -/
structure Reader where
  place : Reader.Place
  field : List Char
  fields : List String
  records : List (List String)

namespace Reader

def empty : Reader := ⟨.start, [], [], []⟩

def take (r : Reader) (c : Char) : Reader :=
  { r with field := r.field ++ [c] }

def endField (r : Reader) : Reader :=
  ⟨.start, [], r.fields ++ [.ofList r.field], r.records⟩

def endRecord (r : Reader) : Reader :=
  ⟨.start, [], [], r.records ++ [r.fields ++ [.ofList r.field]]⟩

def part? (r : Reader) (c : Char) : Option Reader :=
  if c = ',' then some r.endField
  else if c = '\n' then some r.endRecord
  else none

def step? (r : Reader) (c : Char) : Option Reader :=
  match r.place with
  | .start =>
    if c = '"' then some { r with place := .quoted }
    else if isBare c then some { r.take c with place := .bare }
    else r.part? c
  | .bare => if isBare c then some (r.take c) else r.part? c
  | .quoted => if c = '"' then some { r with place := .closed } else some (r.take c)
  | .closed => if c = '"' then some { r.take c with place := .quoted } else r.part? c

def finish? (r : Reader) : Option (List (List String)) :=
  match r.place with
  | .quoted => none
  | .start => if r.fields = [] then some r.records else some r.endRecord.records
  | .bare | .closed => some r.endRecord.records

end Reader

/-- The records of a text, if it is a table. -/
def read? (s : String) : Option (List (List String)) :=
  (s.toList.foldlM Reader.step? .empty).bind Reader.finish?

example : read? "a,\"b,\"\"\n\"\n,c\n" = some [["a", "b,\"\n"], ["", "c"]] := by decide

section Complete

theorem doubled_doubleQuotes (cs : List Char) : Doubled (doubleQuotes cs) cs := by
  induction cs with
  | nil => exact .nil
  | cons c rest ih =>
    by_cases same : c = '"'
    · subst same
      exact .quote ih
    · have once : doubleQuotes (c :: rest) = c :: doubleQuotes rest := by
        simp [doubleQuotes, same]
      rw [once]
      exact .char same ih

namespace Reader

variable {cs value before : List Char} {fields : List String} {records : List (List String)}

theorem foldlM_doubled (doubled : Doubled cs value) (before : List Char) :
    cs.foldlM step? ⟨.quoted, before, fields, records⟩ =
      some ⟨.quoted, before ++ value, fields, records⟩ := by
  induction doubled generalizing before with
  | nil => simp
  | char plain _ ih => simp [step?, take, plain, ih]
  | quote _ ih => simp [step?, take, ih]

theorem foldlM_bare (chars : ∀ c ∈ cs, isBare c = true) (before : List Char) :
    cs.foldlM step? ⟨.bare, before, fields, records⟩ =
      some ⟨.bare, before ++ cs, fields, records⟩ := by
  induction cs generalizing before with
  | nil => simp
  | cons c rest ih =>
    obtain ⟨first, others⟩ := List.forall_mem_cons.mp chars
    simp [step?, take, first, ih others]

theorem foldlM_field {field : String} (written : IsField cs field) (fields : List String)
    (records : List (List String)) :
    ∃ place, (place = .start → cs = []) ∧ place ≠ .quoted ∧
      cs.foldlM step? ⟨.start, [], fields, records⟩ =
        some ⟨place, field.toList, fields, records⟩ := by
  cases written with
  | bare chars =>
    cases cs with
    | nil => exact ⟨.start, fun _ => rfl, by decide, rfl⟩
    | cons c rest =>
      obtain ⟨first, others⟩ := List.forall_mem_cons.mp chars
      have noQuote : c ≠ '"' := by
        rintro rfl
        cases first
      refine ⟨.bare, nofun, by decide, ?_⟩
      simp [step?, take, noQuote, first, foldlM_bare others]
  | quoted inside =>
    refine ⟨.closed, nofun, by decide, ?_⟩
    simp [List.foldlM_append, step?, foldlM_doubled inside]

theorem step?_comma {r : Reader} (outside : r.place ≠ .quoted) :
    r.step? ',' = some r.endField := by
  unfold step?
  split <;> first | contradiction | rfl

theorem step?_lineFeed {r : Reader} (outside : r.place ≠ .quoted) :
    r.step? '\n' = some r.endRecord := by
  unfold step?
  split <;> first | contradiction | rfl

theorem foldlM_record {record : List String} (written : IsRecord cs record)
    (before : List String) (records : List (List String)) :
    ∃ place front last, record = front ++ [String.ofList last] ∧ place ≠ .quoted ∧
      (place = .start → front = [] → cs = []) ∧
      cs.foldlM step? ⟨.start, [], before, records⟩ =
        some ⟨place, last, before ++ front, records⟩ := by
  induction written generalizing before with
  | @last cs field first =>
    obtain ⟨place, start, outside, read⟩ := foldlM_field first before records
    exact ⟨place, [], field.toList, by simp, outside, fun there _ => start there,
      by simpa using read⟩
  | @more cs rest field fields first _ ih =>
    obtain ⟨_, _, outside, read⟩ := foldlM_field first before records
    obtain ⟨place, front, last, record, outside', _, behind⟩ := ih (before ++ [field])
    refine ⟨place, field :: front, last, by rw [record]; rfl, outside', nofun, ?_⟩
    rw [List.foldlM_append, read, Option.bind_eq_bind, Option.bind_some, List.foldlM_cons,
      step?_comma outside, Option.bind_eq_bind, Option.bind_some]
    simpa [endField] using behind

/-- A table is read to its end. -/
theorem foldlM_table {more : List (List String)} (written : IsTable cs more)
    (records : List (List String)) :
    (cs.foldlM step? ⟨.start, [], [], records⟩).bind finish? = some (records ++ more) := by
  induction written generalizing records with
  | nil => simp [finish?]
  | @last cs record first filled =>
    obtain ⟨place, front, last, rfl, outside, start, read⟩ := foldlM_record first [] records
    rw [read, Option.bind_some]
    cases place with
    | start =>
      have going : front ≠ [] := fun nothing => filled (start rfl nothing)
      simp [finish?, endRecord, going]
    | quoted => exact absurd rfl outside
    | bare => simp [finish?, endRecord]
    | closed => simp [finish?, endRecord]
  | @more cs rest record others first _ ih =>
    obtain ⟨place, front, last, rfl, outside, _, read⟩ := foldlM_record first [] records
    have behind := ih (records ++ [front ++ [String.ofList last]])
    rw [List.foldlM_append, read, Option.bind_eq_bind, Option.bind_some, List.foldlM_cons,
      step?_lineFeed outside, Option.bind_eq_bind, Option.bind_some]
    simpa [endRecord] using behind

end Reader
end Complete

section Sound

theorem Doubled.append {as bs value more : List Char} (first : Doubled as value)
    (second : Doubled bs more) : Doubled (as ++ bs) (value ++ more) := by
  induction first with
  | nil => exact second
  | char plain _ ih => exact .char plain ih
  | quote _ ih => exact .quote ih

theorem isRecord_of_fields {texts : List (List Char)} {fields : List String} {cs : List Char}
    {field : String} (ended : List.Forall₂ IsField texts fields) (last : IsField cs field) :
    IsRecord (texts.flatMap (· ++ [',']) ++ cs) (fields ++ [field]) := by
  induction ended with
  | nil => exact .last last
  | cons first _ ih => simpa using IsRecord.more first ih

theorem isTable_of_records {lines : List (List Char)} {records more : List (List String)}
    {cs : List Char} (ended : List.Forall₂ IsRecord lines records) (behind : IsTable cs more) :
    IsTable (lines.flatMap (· ++ ['\n']) ++ cs) (records ++ more) := by
  induction ended with
  | nil => exact behind
  | cons first _ ih => simpa using IsTable.more first ih

namespace Reader

/-- The text of the field under way, for the characters that it stands for so far. -/
inductive Under : Place → List Char → List Char → Prop
  | start : Under .start [] []
  | bare {cs : List Char} (filled : cs ≠ []) (chars : ∀ c ∈ cs, isBare c = true) :
    Under .bare cs cs
  | quoted {cs value : List Char} (inside : Doubled cs value) : Under .quoted ('"' :: cs) value
  | closed {cs value : List Char} (inside : Doubled cs value) :
    Under .closed ('"' :: (cs ++ ['"'])) value

theorem Under.isField {place : Place} {cs value : List Char} (under : Under place cs value)
    (outside : place ≠ .quoted) : IsField cs (.ofList value) := by
  cases under with
  | start => exact .bare nofun
  | bare _ chars => exact .bare chars
  | quoted _ => exact absurd rfl outside
  | closed inside => exact .quoted inside

/-- The text that a reader has read. -/
structure Consumed (cs : List Char) (r : Reader) : Prop where
  parts : ∃ lines texts field,
    cs = lines.flatMap (· ++ ['\n']) ++ (texts.flatMap (· ++ [',']) ++ field) ∧
      List.Forall₂ IsRecord lines r.records ∧ List.Forall₂ IsField texts r.fields ∧
      Under r.place field r.field

variable {cs : List Char} {c : Char} {r next : Reader}

theorem Consumed.part? (consumed : Consumed cs r) (outside : r.place ≠ .quoted)
    (parted : r.part? c = some next) : Consumed (cs ++ [c]) next := by
  obtain ⟨lines, texts, field, rfl, ended, fields, under⟩ := consumed.parts
  have whole := under.isField outside
  unfold Reader.part? at parted
  split at parted
  · rename_i comma
    cases parted
    refine ⟨lines, texts ++ [field], [], by simp [comma], ended, ?_, .start⟩
    exact List.rel_append fields (.cons whole .nil)
  · split at parted
    · rename_i lineFeed
      cases parted
      refine ⟨lines ++ [texts.flatMap (· ++ [',']) ++ field], [], [], by simp [lineFeed], ?_,
        .nil, .start⟩
      exact List.rel_append ended (.cons (isRecord_of_fields fields whole) .nil)
    · cases parted

theorem Consumed.step? (consumed : Consumed cs r) (stepped : r.step? c = some next) :
    Consumed (cs ++ [c]) next := by
  obtain ⟨place, value, fields, records⟩ := r
  obtain ⟨lines, texts, field, rfl, ended, parted, under⟩ := consumed.parts
  -- A character that does not end the field goes behind the characters of the field.
  have stays {place' : Place} {value' : List Char} (under : Under place' (field ++ [c]) value') :
      Consumed (lines.flatMap (· ++ ['\n']) ++ (texts.flatMap (· ++ [',']) ++ field) ++ [c])
        ⟨place', value', fields, records⟩ :=
    ⟨lines, texts, field ++ [c], by simp, ended, parted, under⟩
  cases under with
  | start =>
    simp only [Reader.step?] at stepped
    split at stepped
    · rename_i quote
      cases stepped
      exact stays (quote ▸ .quoted .nil)
    · split at stepped
      · rename_i bare
        cases stepped
        exact stays (.bare (by simp) (by simpa using bare))
      · exact consumed.part? nofun stepped
  | bare filled chars =>
    simp only [Reader.step?] at stepped
    split at stepped
    · rename_i bare
      cases stepped
      refine stays (.bare (by simp) fun d member => ?_)
      rcases List.mem_append.mp member with old | new
      · exact chars d old
      · exact List.mem_singleton.mp new ▸ bare
    · exact consumed.part? nofun stepped
  | quoted inside =>
    simp only [Reader.step?] at stepped
    split at stepped
    · rename_i quote
      cases stepped
      exact stays (quote ▸ .closed inside)
    · rename_i plain
      cases stepped
      exact stays (.quoted (inside.append (.char plain .nil)))
  | @closed inner _ inside =>
    simp only [Reader.step?] at stepped
    split at stepped
    · rename_i quote
      cases stepped
      have both : Doubled (inner ++ ['"', c]) (value ++ [c]) :=
        inside.append (quote ▸ .quote .nil)
      exact stays (by simpa [Reader.take] using Under.quoted both)
    · exact consumed.part? nofun stepped

theorem Consumed.run (consumed : Consumed cs r) {more : List Char}
    (read : more.foldlM Reader.step? r = some next) : Consumed (cs ++ more) next := by
  induction more generalizing cs r with
  | nil =>
    cases read
    simpa using consumed
  | cons c rest ih =>
    rw [List.foldlM_cons, Option.bind_eq_bind, Option.bind_eq_some_iff] at read
    obtain ⟨between, first, behind⟩ := read
    simpa using ih (consumed.step? first) behind

theorem Consumed.finish? {records : List (List String)} (consumed : Consumed cs r)
    (finished : r.finish? = some records) : IsTable cs records := by
  obtain ⟨place, value, fields, ready⟩ := r
  obtain ⟨lines, texts, field, rfl, ended, parted, under⟩ := consumed.parts
  have whole (outside : place ≠ .quoted)
      (filled : texts.flatMap (· ++ [',']) ++ field ≠ []) :
      IsTable (lines.flatMap (· ++ ['\n']) ++ (texts.flatMap (· ++ [',']) ++ field))
        (ready ++ [fields ++ [.ofList value]]) :=
    isTable_of_records ended (.last (isRecord_of_fields parted (under.isField outside)) filled)
  cases under with
  | start =>
    simp only [Reader.finish?] at finished
    split at finished
    · rename_i empty
      cases finished
      have nothing : fields = [] := empty
      subst nothing
      cases parted
      simpa using isTable_of_records ended .nil
    · rename_i filled
      cases finished
      refine whole nofun ?_
      cases parted with
      | nil => exact absurd rfl filled
      | cons => simp
  | bare filled _ =>
    cases finished
    exact whole nofun (by simp [filled])
  | quoted _ => cases finished
  | closed _ =>
    cases finished
    exact whole nofun (by simp)

end Reader
end Sound

/-- The reader reads the texts of the grammar, each as the records that it has there. -/
theorem read?_eq_some_iff {s : String} {records : List (List String)} :
    read? s = some records ↔ IsTable s.toList records := by
  constructor
  · intro read
    obtain ⟨r, consumed, finished⟩ := Option.bind_eq_some_iff.mp read
    have start : Reader.Consumed [] .empty := ⟨[], [], [], rfl, .nil, .nil, .start⟩
    exact (start.run consumed).finish? finished
  · intro written
    exact Reader.foldlM_table written []

theorem isField_quote (s : String) : IsField (quote s).toList s := by
  have quoted := IsField.quoted (doubled_doubleQuotes s.toList)
  rw [String.ofList_toList] at quoted
  simpa [quote] using quoted

theorem isRecord_line {fields : List String} (filled : fields ≠ []) :
    IsRecord (line fields).toList fields := by
  induction fields with
  | nil => exact absurd rfl filled
  | cons first others ih =>
    cases others with
    | nil => simpa [line] using IsRecord.last (isField_quote first)
    | cons second others =>
      have more := IsRecord.more (isField_quote first) (ih (by simp))
      simpa [line] using more

theorem toList_line_ne_nil {fields : List String} (filled : fields ≠ []) :
    (line fields).toList ≠ [] := by
  cases fields with
  | nil => exact absurd rfl filled
  | cons first others => cases others <;> simp [line, quote]

theorem isTable_lines {first : List String} {others : List (List String)} (filled : first ≠ [])
    (all : ∀ fields ∈ others, fields ≠ []) :
    IsTable (line first ++ String.join (others.map fun fields => "\n" ++ line fields)).toList
      (first :: others) := by
  induction others generalizing first with
  | nil =>
    simpa using IsTable.last (isRecord_line filled) (toList_line_ne_nil filled)
  | cons second others ih =>
    obtain ⟨here, behind⟩ := List.forall_mem_cons.mp all
    simpa using IsTable.more (isRecord_line filled) (ih here behind)

theorem length_fields (machine : String) (now : Instant) (e : Event) :
    (fields machine now e).length = columns.length := by
  simp [fields]

/-- A header with the rows of events behind it is read as the names of the columns and, for
each event in order, the texts of its columns at the moment at which its row was made. These
are 29 fields each time. -/
theorem read?_table (machine : String) (made : List (Instant × Event)) :
    read? (header ++ String.join (made.map fun m => row machine m.1 m.2)) =
        some (columnNames ::
          made.map fun m => columns.map fun column => columnText machine m.1 m.2 column.2) ∧
      ∀ record ∈ columnNames ::
          made.map fun m => columns.map fun column => columnText machine m.1 m.2 column.2,
        record.length = 29 := by
  have rows : made.map (fun m => row machine m.1 m.2) =
      (made.map fun m => fields machine m.1 m.2).map fun fields => "\n" ++ line fields := by
    rw [List.map_map]
    rfl
  constructor
  · rw [read?_eq_some_iff, rows]
    refine isTable_lines (by decide) fun record member => ?_
    obtain ⟨m, _, rfl⟩ := List.mem_map.mp member
    exact List.ne_nil_of_length_pos (by simp [length_fields, columns])
  · intro record member
    rcases List.mem_cons.mp member with rfl | row
    · rfl
    · obtain ⟨m, _, rfl⟩ := List.mem_map.mp row
      simp [columns]

end Telemetry.Csv
