import Telemetry.Config.Check
import Telemetry.Proofs.Json.Fields

/-! Configurations are read back from what is written of them.
The text names every setting. A setting whose member was taken out of the text, at the top or
inside a section, is read with its standard value, and every other one as it was written. -/
namespace Telemetry
open Json (Document Fields)

namespace Dictionary

variable {α : Type}

def without (gone : String → Bool) (d : Dictionary α) : Dictionary α :=
  ⟨d.entries.filter fun e => !gone e.1, d.sorted.filter _⟩

theorem insertEntry_last {key : String} {value : α} {entries : List (String × α)}
    (last : ∀ e ∈ entries, e.1 < key) :
    insertEntry key value entries = entries ++ [(key, value)] := by
  induction entries with
  | nil => rfl
  | cons e rest ih =>
    have before := last e List.mem_cons_self
    have order : ¬ key < e.1 := fun after => String.lt_irrefl _ (String.lt_trans before after)
    rw [insertEntry, if_neg order, if_pos before,
      ih fun e member => last e (List.mem_cons_of_mem _ member)]
    rfl

theorem ofList_entries (d : Dictionary α) : ofList d.entries = d := by
  have behind (later : List (String × α)) (front : Dictionary α)
      (sorted : (front.entries ++ later).Pairwise fun a b => a.1 < b.1) :
      (later.foldl (fun d e => d.insert e.1 e.2) front).entries = front.entries ++ later := by
    induction later generalizing front with
    | nil => exact (List.append_nil _).symm
    | cons e rest ih =>
      have put : (front.insert e.1 e.2).entries = front.entries ++ [e] :=
        insertEntry_last fun other member =>
          (List.pairwise_append.mp sorted).2.2 other member e List.mem_cons_self
      rw [List.foldl_cons, ih (front.insert e.1 e.2), put, List.append_assoc]
      · rfl
      · rwa [put, List.append_assoc]
  have same : (ofList d.entries).entries = d.entries := behind d.entries empty d.sorted
  obtain ⟨entries, sorted⟩ := d
  generalize ofList entries = d' at same
  obtain ⟨entries', sorted'⟩ := d'
  cases same
  rfl

end Dictionary

namespace Config

theorem word?_ofWord (n : UInt64) : word? (ofWord n).document = some n := by
  rw [word?, ofWord, Json.nat?_int n.toNat_lt]
  simp

theorem halfWord?_int (n : UInt32) : halfWord? (Json.int n.toNat).document = some n := by
  rw [halfWord?, Json.nat?_int n.toNat_lt]
  simp

theorem severity?_ofSeverity (s : Severity) : severity? (ofSeverity s).document = some s := by
  cases s <;> decide +kernel

theorem dictionary?_ofDictionary {α : Type} {f : α → Json} {read : Document → Option α}
    (reads : ∀ a, read (f a).document = some a) (d : Dictionary α) :
    dictionary? read (ofDictionary f d).document = some d := by
  rw [dictionary?, ofDictionary, Json.entries?_map reads, Option.map_some, d.ofList_entries]

theorem dictionary?_texts (d : Dictionary String) :
    dictionary? Document.text? (ofDictionary .str d).document = some d :=
  dictionary?_ofDictionary (fun _ => rfl) d

theorem dictionary?_words (d : Dictionary UInt64) :
    dictionary? word? (ofDictionary ofWord d).document = some d :=
  dictionary?_ofDictionary word?_ofWord d

theorem without_ofDictionary {α : Type} (f : α → Json) (d : Dictionary α) (gone : String → Bool) :
    (ofDictionary f d).without gone = ofDictionary f (d.without gone) := by
  simp only [ofDictionary, Json.without, Dictionary.without, List.filter_map]
  rfl

namespace CsvSection

/-- The section with the standard values of some settings. -/
def reset (gone : String → Bool) (s : CsvSection) : CsvSection where
  enabled := if gone "enabled" then standard.enabled else s.enabled
  path := if gone "path" then standard.path else s.path
  maxFileSize := if gone "max_file_size_bytes" then standard.maxFileSize else s.maxFileSize
  flushIntervalMs :=
    if gone "flush_interval_ms" then standard.flushIntervalMs else s.flushIntervalMs
  minSeverity := if gone "min_severity" then standard.minSeverity else s.minSeverity

theorem ofDocument?_without (s : CsvSection) (gone : String → Bool) :
    ofDocument? (s.toJson.without gone).document = some (s.reset gone) := by
  obtain ⟨f, fields, read⟩ := Fields.exists_fields (j := s.toJson)
    ["enabled", "path", "max_file_size_bytes", "flush_interval_ms", "min_severity"]
    rfl rfl (by decide) gone
  have enabled := read 0 rfl (rfl : Document.bool? _ = some s.enabled) standard.enabled
  have path := read 1 rfl (rfl : Document.text? _ = some s.path) standard.path
  have maxFileSize := read 2 rfl (word?_ofWord s.maxFileSize) standard.maxFileSize
  have flushIntervalMs := read 3 rfl (word?_ofWord s.flushIntervalMs) standard.flushIntervalMs
  have minSeverity := read 4 rfl (severity?_ofSeverity s.minSeverity) standard.minSeverity
  refine Option.bind_eq_some_iff.mpr ⟨f, fields, ?_⟩
  simp only [Option.bind_eq_bind, enabled, path, maxFileSize, flushIntervalMs, minSeverity,
    Option.bind_some]
  rfl

end CsvSection

namespace MarkerSection

def reset (gone : String → Bool) (s : MarkerSection) : MarkerSection where
  enabled := if gone "enabled" then standard.enabled else s.enabled
  path := if gone "path" then standard.path else s.path
  overrides := if gone "overrides" then standard.overrides else s.overrides

theorem ofDocument?_without (s : MarkerSection) (gone : String → Bool) :
    ofDocument? (s.toJson.without gone).document = some (s.reset gone) := by
  obtain ⟨f, fields, read⟩ := Fields.exists_fields (j := s.toJson)
    ["enabled", "path", "overrides"] rfl rfl (by decide) gone
  have enabled := read 0 rfl (rfl : Document.bool? _ = some s.enabled) standard.enabled
  have path := read 1 rfl (rfl : Document.text? _ = some s.path) standard.path
  have overrides := read 2 rfl (dictionary?_texts s.overrides) standard.overrides
  refine Option.bind_eq_some_iff.mpr ⟨f, fields, ?_⟩
  simp only [Option.bind_eq_bind, enabled, path, overrides, Option.bind_some]
  rfl

end MarkerSection

namespace SummarySection

def reset (gone : String → Bool) (s : SummarySection) : SummarySection where
  enabled := if gone "enabled" then standard.enabled else s.enabled
  path := if gone "path" then standard.path else s.path
  flushIntervalMs :=
    if gone "flush_interval_ms" then standard.flushIntervalMs else s.flushIntervalMs

theorem ofDocument?_without (s : SummarySection) (gone : String → Bool) :
    ofDocument? (s.toJson.without gone).document = some (s.reset gone) := by
  obtain ⟨f, fields, read⟩ := Fields.exists_fields (j := s.toJson)
    ["enabled", "path", "flush_interval_ms"] rfl rfl (by decide) gone
  have enabled := read 0 rfl (rfl : Document.bool? _ = some s.enabled) standard.enabled
  have path := read 1 rfl (rfl : Document.text? _ = some s.path) standard.path
  have flushIntervalMs := read 2 rfl (word?_ofWord s.flushIntervalMs) standard.flushIntervalMs
  refine Option.bind_eq_some_iff.mpr ⟨f, fields, ?_⟩
  simp only [Option.bind_eq_bind, enabled, path, flushIntervalMs, Option.bind_some]
  rfl

end SummarySection

namespace RealtimeSection

def reset (gone : String → Bool) (s : RealtimeSection) : RealtimeSection where
  enabled := if gone "enabled" then standard.enabled else s.enabled
  minSeverity := if gone "min_severity" then standard.minSeverity else s.minSeverity
  maxEventBytes := if gone "max_event_bytes" then standard.maxEventBytes else s.maxEventBytes

theorem ofDocument?_without (s : RealtimeSection) (gone : String → Bool) :
    ofDocument? (s.toJson.without gone).document = some (s.reset gone) := by
  obtain ⟨f, fields, read⟩ := Fields.exists_fields (j := s.toJson)
    ["enabled", "min_severity", "max_event_bytes"] rfl rfl (by decide) gone
  have enabled := read 0 rfl (rfl : Document.bool? _ = some s.enabled) standard.enabled
  have minSeverity := read 1 rfl (severity?_ofSeverity s.minSeverity) standard.minSeverity
  have maxEventBytes := read 2 rfl (word?_ofWord s.maxEventBytes) standard.maxEventBytes
  refine Option.bind_eq_some_iff.mpr ⟨f, fields, ?_⟩
  simp only [Option.bind_eq_bind, enabled, minSeverity, maxEventBytes, Option.bind_some]
  rfl

end RealtimeSection

namespace StreamSection

def reset (gone : String → Bool) (s : StreamSection) : StreamSection where
  enabled := if gone "enabled" then standard.enabled else s.enabled
  minSeverity := if gone "min_severity" then standard.minSeverity else s.minSeverity
  maxCapacity := if gone "max_capacity" then standard.maxCapacity else s.maxCapacity
  autoFlushIntervalMs :=
    if gone "auto_flush_interval_ms" then standard.autoFlushIntervalMs else s.autoFlushIntervalMs
  diagnostics := if gone "diagnostics" then standard.diagnostics else s.diagnostics

theorem ofDocument?_without (s : StreamSection) (gone : String → Bool) :
    ofDocument? (s.toJson.without gone).document = some (s.reset gone) := by
  obtain ⟨f, fields, read⟩ := Fields.exists_fields (j := s.toJson)
    ["enabled", "min_severity", "max_capacity", "auto_flush_interval_ms", "diagnostics"]
    rfl rfl (by decide) gone
  have enabled := read 0 rfl (rfl : Document.bool? _ = some s.enabled) standard.enabled
  have minSeverity := read 1 rfl (severity?_ofSeverity s.minSeverity) standard.minSeverity
  have maxCapacity := read 2 rfl (word?_ofWord s.maxCapacity) standard.maxCapacity
  have autoFlushIntervalMs :=
    read 3 rfl (word?_ofWord s.autoFlushIntervalMs) standard.autoFlushIntervalMs
  have diagnostics := read 4 rfl (rfl : Document.bool? _ = some s.diagnostics) standard.diagnostics
  refine Option.bind_eq_some_iff.mpr ⟨f, fields, ?_⟩
  simp only [Option.bind_eq_bind, enabled, minSeverity, maxCapacity, autoFlushIntervalMs,
    diagnostics, Option.bind_some]
  rfl

end StreamSection

namespace RetrySection

def reset (gone : String → Bool) (s : RetrySection) : RetrySection where
  maxRetries := if gone "max_retries" then standard.maxRetries else s.maxRetries
  backoffMs := if gone "backoff_ms" then standard.backoffMs else s.backoffMs

theorem ofDocument?_without (s : RetrySection) (gone : String → Bool) :
    ofDocument? (s.toJson.without gone).document = some (s.reset gone) := by
  obtain ⟨f, fields, read⟩ := Fields.exists_fields (j := s.toJson)
    ["max_retries", "backoff_ms"] rfl rfl (by decide) gone
  have maxRetries := read 0 rfl (halfWord?_int s.maxRetries) standard.maxRetries
  have backoffMs := read 1 rfl (word?_ofWord s.backoffMs) standard.backoffMs
  refine Option.bind_eq_some_iff.mpr ⟨f, fields, ?_⟩
  simp only [Option.bind_eq_bind, maxRetries, backoffMs, Option.bind_some]
  rfl

end RetrySection

/-- The configuration with the standard values of some settings, whole sections or settings of
a section. Of the samplings each one is a setting that has no standard value. -/
def reset (top : String → Bool) (inside : String → String → Bool) (c : Config) : Config where
  flushTimeoutMs := if top "flush_timeout_ms" then standard.flushTimeoutMs else c.flushTimeoutMs
  csv := if top "rolling_csv" then standard.csv else c.csv.reset (inside "rolling_csv")
  marker := if top "marker_file" then standard.marker else c.marker.reset (inside "marker_file")
  summary :=
    if top "summary_file" then standard.summary else c.summary.reset (inside "summary_file")
  realtime := if top "realtime" then standard.realtime else c.realtime.reset (inside "realtime")
  stream := if top "streaming" then standard.stream else c.stream.reset (inside "streaming")
  retry := if top "retry" then standard.retry else c.retry.reset (inside "retry")
  sampling := if top "sampling" then standard.sampling else c.sampling.without (inside "sampling")

/-- What is read of a configuration from which members were taken at the top and in sections. -/
theorem ofDocument?_prune (c : Config) (top : String → Bool) (inside : String → String → Bool) :
    ofDocument? (c.toJson.prune top inside).document = some (c.reset top inside) := by
  obtain ⟨f, fields, read⟩ := Fields.exists_fields
    (j := .obj (c.toJson.members.map fun m => (m.1, m.2.without (inside m.1))))
    ["flush_timeout_ms", "rolling_csv", "marker_file", "summary_file", "realtime",
      "streaming", "retry", "sampling"] rfl rfl (by decide) top
  have rates : dictionary? word?
      ((ofDictionary ofWord c.sampling).without (inside "sampling")).document =
        some (c.sampling.without (inside "sampling")) := by
    rw [without_ofDictionary, dictionary?_words]
  have timeout := read 0 rfl (word?_ofWord c.flushTimeoutMs) standard.flushTimeoutMs
  have csv := read 1 rfl (c.csv.ofDocument?_without (inside "rolling_csv")) standard.csv
  have marker := read 2 rfl
    (c.marker.ofDocument?_without (inside "marker_file")) standard.marker
  have summary := read 3 rfl
    (c.summary.ofDocument?_without (inside "summary_file")) standard.summary
  have realtime := read 4 rfl
    (c.realtime.ofDocument?_without (inside "realtime")) standard.realtime
  have stream := read 5 rfl
    (c.stream.ofDocument?_without (inside "streaming")) standard.stream
  have retry := read 6 rfl
    (c.retry.ofDocument?_without (inside "retry")) standard.retry
  have sampling := read 7 rfl rates standard.sampling
  refine Option.bind_eq_some_iff.mpr ⟨f, fields, ?_⟩
  simp only [Option.bind_eq_bind, timeout, csv, marker, summary, realtime, stream, retry, sampling,
    Option.bind_some]
  rfl

theorem reset_nothing (c : Config) : c.reset (fun _ => false) (fun _ _ => false) = c := by
  have all {α : Type} (d : Dictionary α) : d.without (fun _ => false) = d := by
    obtain ⟨entries, sorted⟩ := d
    simp [Dictionary.without]
  simp only [reset, Bool.false_eq_true, if_false, all]
  rfl

theorem prune_nothing (c : Config) :
    c.toJson.prune (fun _ => false) (fun _ _ => false) = c.toJson := by
  have whole (j : Json) : j.without (fun _ => false) = j := by
    cases j <;> simp [Json.without]
  cases written : c.toJson <;> simp [Json.prune, whole]

theorem ofText_eq {text : String} {c : Config} (read : ofText? text = some c) :
    ofText text = c.check.map fun _ => c := by
  rw [ofText, read]

/-- A configuration is read back from its text as it is. From the text without some members,
at the top or in any section, it is read with exactly the settings that are gone at their
standard values. Where such a text is read to be used, the result is that configuration if it
passes the check, and else what the check says. -/
theorem ofText_toJson_prune (c : Config) (top : String → Bool) (inside : String → String → Bool) :
    let left := c.reset top inside
    ofText? c.toJson.render = some c ∧
      ofText? (c.toJson.prune top inside).render = some left ∧
      ofText c.toJson.render = (c.check.map fun _ => c) ∧
      ofText (c.toJson.prune top inside).render = left.check.map fun _ => left := by
  intro left
  have pruned (top : String → Bool) (inside : String → String → Bool) :
      ofText? (c.toJson.prune top inside).render = some (c.reset top inside) := by
    rw [ofText?, Json.ofText?_render]
    exact ofDocument?_prune c top inside
  have whole : ofText? c.toJson.render = some c := by
    have all := pruned (fun _ => false) fun _ _ => false
    rwa [prune_nothing, reset_nothing] at all
  exact ⟨whole, pruned top inside, ofText_eq whole, ofText_eq (pruned top inside)⟩

/-- Without any member it is the standard configuration that is read. -/
example (c : Config) : c.reset (fun _ => true) (fun _ _ => false) = standard := rfl

end Config
end Telemetry
