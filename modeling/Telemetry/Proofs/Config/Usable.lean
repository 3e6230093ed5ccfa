import Telemetry.Config.Build

/-! Configurations that can be used.
The check goes through a list of problems; what it makes sure of is said here section by
section, and what the logger of such a configuration is made of. -/
namespace Telemetry.Config

/-- What the check makes sure of. A section that is off may hold anything. -/
structure Usable (c : Config) : Prop where
  flushTimeout : c.flushTimeoutMs ≠ 0
  table : c.csv.enabled = true → (Path.stem? c.csv.path).isSome = true ∧
    c.csv.maxFileSize ≠ 0 ∧ c.csv.flushIntervalMs ≠ 0
  marker : c.marker.enabled = true → c.marker.path ≠ ""
  summary : c.summary.enabled = true → c.summary.path ≠ "" ∧ c.summary.flushIntervalMs ≠ 0
  realtime : c.realtime.enabled = true → Trace.minEventBytes ≤ c.realtime.maxEventBytes.toNat
  stream : c.stream.enabled = true → c.stream.autoFlushIntervalMs ≠ 0
  sampling : ∀ e ∈ c.sampling.entries, e.2 ≠ 0

theorem check_eq_ok (c : Config) : c.check = .ok () ↔ ∀ p ∈ c.problems, p.1 = false := by
  have checks : c.check = .ok () ↔ c.problem? = none := by
    unfold check
    split <;> rename_i found <;> simp [found]
  rw [checks, problem?, Option.map_eq_none_iff, List.find?_eq_none]
  simp

/-- The check lets through what can be used, and nothing else. -/
theorem check_eq_ok_iff (c : Config) : c.check = .ok () ↔ c.Usable := by
  rw [check_eq_ok]
  simp only [problems, List.mem_append, List.mem_cons, List.mem_map, List.not_mem_nil, or_false,
    or_imp, forall_and, forall_eq, forall_exists_index, and_imp, forall_apply_eq_imp_iff₂,
    Bool.and_eq_false_imp, beq_eq_false_iff_ne, decide_eq_false_iff_not, Nat.not_lt,
    Option.isNone_eq_false_iff]
  constructor
  · rintro ⟨⟨timeout, named, size, interval, marker, file, period, bytes, flush⟩, rates⟩
    exact ⟨timeout, fun on => ⟨named on, size on, interval on⟩, marker,
      fun on => ⟨file on, period on⟩, bytes, flush, rates⟩
  · rintro ⟨timeout, table, marker, summary, bytes, flush, rates⟩
    exact ⟨⟨timeout, fun on => (table on).1, fun on => (table on).2.1, fun on => (table on).2.2,
      marker, fun on => (summary on).1, fun on => (summary on).2, bytes, flush⟩, rates⟩

variable {S : Type} {c : Config} {agent : Agent} {host : Host} {endpoint : Option Stream.Endpoint}

theorem streamChannels_eq_ok_iff {streams : List (Channel (Device S))} :
    c.streamChannels host endpoint = .ok streams ↔
      (c.stream.enabled = true → endpoint.isSome = true) ∧
        streams = endpoint.toList.flatMap fun e =>
          whenEnabled c.stream.enabled (c.streamChannel host e) := by
  cases endpoint with
  | none =>
    cases on : c.stream.enabled
    · simp only [streamChannels, on, Bool.false_eq_true, if_false, Except.ok.injEq, false_imp_iff,
        true_and]
      exact eq_comm
    · simp [streamChannels, on]
  | some e => simpa [streamChannels] using eq_comm

/-- The logger of a configuration that can be used: a channel for each section that is on, in
a fixed order. -/
theorem logger_eq_ok_iff {l : Logger (Device S)} :
    c.logger agent host endpoint = .ok l ↔
      c.Usable ∧ (c.stream.enabled = true → endpoint.isSome = true) ∧ l =
        { channels := whenEnabled c.csv.enabled (c.csvChannel host)
            ++ whenEnabled c.marker.enabled (c.markerChannel agent host)
            ++ whenEnabled c.summary.enabled c.summaryChannel
            ++ whenEnabled c.realtime.enabled c.realtimeChannel
            ++ endpoint.toList.flatMap fun e =>
              whenEnabled c.stream.enabled (c.streamChannel host e)
          flushTimeout := Span.ofMillis c.flushTimeoutMs.toNat } := by
  rw [← check_eq_ok_iff]
  unfold logger
  cases checked : c.check with
  | error fault => simp [bind, Except.bind]
  | ok _ =>
    cases streams : c.streamChannels (S := S) host endpoint with
    | error fault =>
      have missing : ¬ (c.stream.enabled = true → endpoint.isSome = true) := fun given => by
        rw [streamChannels_eq_ok_iff.mpr ⟨given, rfl⟩] at streams
        cases streams
      simp [bind, Except.bind, missing]
    | ok channels =>
      obtain ⟨given, rfl⟩ := streamChannels_eq_ok_iff.mp streams
      simp only [bind, Except.bind, Except.ok.injEq, true_and, and_iff_right given]
      exact eq_comm

end Telemetry.Config
