import Mathlib.Data.List.Nodup
import Telemetry.Proofs.Json.Fields
import Telemetry.Stream.Queue

/-! The dimensions of envelopes as they are read.
Every envelope has dimensions of its own, of which two are there only for some events and two
only for some queues. Their names are reserved, in any case, and properties come behind them
under their own keys. So no property can be taken for a dimension, and none for another one. -/
namespace Telemetry.Stream
open Json (Document)

/-- The event that an envelope shows: where the sizes are exceeded, the one without its
properties. -/
def shownEvent (exceeded : Bool) (r : Record) : Event :=
  if exceeded then r.toEvent.withoutProperties else r.toEvent

theorem shownEvent_distinct {r : Record}
    (distinct : ∀ e, r.event? = some e → e.properties.Distinct) (exceeded : Bool) :
    (shownEvent exceeded r).properties.Distinct := by
  obtain ⟨id, severity, payload⟩ := r
  cases exceeded with
  | true => exact List.nodup_nil
  | false =>
    cases payload with
    | event e => exact distinct e rfl
    | message text => exact List.nodup_singleton _

theorem isReserved_iff {key : String} :
    isReserved key = true ↔ Text.fold key ∈ reservedDimensions.map Text.fold := by
  simp only [isReserved, List.any_eq_true, Text.sameFold_iff, List.mem_map]

/-- The documents that are read of an envelope under a name among its dimensions. -/
def dimensionsNamed (name body : String) : List Document :=
  match Document.ofText? body with
  | some (.obj members) =>
    match members.lookup (some "customDimensions") with
    | some (.obj dimensions) => (dimensions.filter (·.1 == some name)).map (·.2)
    | _ => []
  | _ => []

namespace Queue

/-- The dimensions that do not come from properties. -/
def ownDimensions (q : Queue) (exceeded : Bool) (e : Event) : List (Option String × Document) :=
  [(some "transactionId", .str (some e.transaction.text))]
    ++ (e.durationMs.map fun d => (some "durationMs", Document.number (toString d).toList)).toList
    ++ (if q.settings.diagnostics then
        [(some "bufferInfo", (bufferInfo q.counts q.bodies.length).document)] else [])
    ++ (if exceeded then [(some "exceededSizeLimits", .str (some "True"))] else [])

/-- The members of an envelope that has these dimensions. -/
def envelopeDocuments (q : Queue) (now : Instant) (r : Record) (e : Event)
    (dimensions : Document) : List (Option String × Document) :=
  [(some "timestamp", .str (some (now.text 6))),
      (some "message", .str (some r.id.label)),
      (some "severityLevel", .number (toString (r.severity.level : Int)).toList),
      (some "itemType", .str (some (if r.isTelemetry then "event" else "trace"))),
      (some "operation_Id", .str (some e.activity.text))]
    ++ (e.parent?.map fun p => (some "operation_ParentId", Document.str (some p.text))).toList
    ++ [(some "appName", .str (some appName)),
      (some "appHost", .str (some q.machine)),
      (some "sdkVersion", .str (some appVersion)),
      (some "customDimensions", dimensions)]

theorem document_dimensions (q : Queue) (exceeded : Bool) (r : Record) :
    (dimensions
      (if q.settings.diagnostics then some (bufferInfo q.counts q.bodies.length) else none)
      exceeded r.toEvent).document =
      .obj (q.ownDimensions exceeded (shownEvent exceeded r) ++
        Json.memberDocuments
          (Value.entriesToJson (freeProperties (shownEvent exceeded r).properties))) := by
  rw [shownEvent]
  generalize r.toEvent = e
  obtain ⟨activity, parent, transaction, user, duration, properties⟩ := e
  cases duration <;> cases exceeded <;>
    rw [ownDimensions] <;> cases q.settings.diagnostics <;> rfl

theorem ofText?_bodyOf (q : Queue) (now : Instant) (exceeded : Bool) (r : Record) :
    let e := shownEvent exceeded r
    Document.ofText? (q.bodyOf now exceeded r) =
      some (.obj (q.envelopeDocuments now r e (.obj (q.ownDimensions exceeded e ++
        Json.memberDocuments (Value.entriesToJson (freeProperties e.properties)))))) := by
  intro e
  refine (Json.ofText?_render _).trans (congrArg some ?_)
  rw [← document_dimensions, envelope]
  have activity : e.activity = r.toEvent.activity := by
    cases exceeded <;> rfl
  have parent : e.parent? = r.toEvent.parent? := by
    cases exceeded <;> rfl
  rw [envelopeDocuments, activity, parent]
  cases r.toEvent.parent? <;> rfl

/-- A whole envelope has the properties that have no reserved name. -/
theorem ofText?_whole (q : Queue) (now : Instant) (r : Record) :
    Document.ofText? (q.bodyOf now false r) =
      some (.obj (q.envelopeDocuments now r r.toEvent (.obj (q.ownDimensions false r.toEvent ++
        Json.memberDocuments (Value.entriesToJson (freeProperties r.toEvent.properties)))))) :=
  q.ofText?_bodyOf now false r

theorem ofText?_bare (q : Queue) (now : Instant) (r : Record) :
    Document.ofText? (q.bodyOf now true r) =
      some (.obj
        (q.envelopeDocuments now r r.toEvent (.obj (q.ownDimensions true r.toEvent)))) := by
  have read := q.ofText?_bodyOf now true r
  have bare : Json.memberDocuments (Value.entriesToJson
      (freeProperties (shownEvent true r).properties)) = [] := rfl
  simp only [bare, List.append_nil] at read
  exact read

/-- The names of an envelope's own dimensions are reserved ones, each used once. -/
theorem keys_ownDimensions (q : Queue) (exceeded : Bool) (e : Event) :
    ((q.ownDimensions exceeded e).map Prod.fst).Sublist (reservedDimensions.map some) := by
  unfold ownDimensions
  cases e.durationMs <;> cases q.settings.diagnostics <;> cases exceeded <;>
    simp [reservedDimensions]

theorem dimensionsNamed_bodyOf (q : Queue) (now : Instant) (exceeded : Bool) (r : Record)
    (name : String) :
    let e := shownEvent exceeded r
    dimensionsNamed name (q.bodyOf now exceeded r) =
      ((q.ownDimensions exceeded e ++
        Json.memberDocuments (Value.entriesToJson (freeProperties e.properties))).filter
          (·.1 == some name)).map (·.2) := by
  intro e
  have last (d : Document) :
      (q.envelopeDocuments now r e d).lookup (some "customDimensions") = some d := by
    unfold envelopeDocuments
    cases e.parent? <;> rfl
  rw [dimensionsNamed, ofText?_bodyOf]
  simp only [last, e]

/-- No property takes the place of a reserved name. -/
theorem filter_freeProperties (p : Properties) {name : String} (reserved : isReserved name = true) :
    (Json.memberDocuments (Value.entriesToJson (freeProperties p))).filter (·.1 == some name) =
      [] := by
  rw [List.filter_eq_nil_iff, Json.memberDocuments_eq, Value.entriesToJson_eq]
  intro member there
  simp only [List.map_map, List.mem_map] at there
  obtain ⟨entry, free, rfl⟩ := there
  intro same
  have key : entry.1 = name := by simpa using same
  have unreserved := (List.mem_filter.mp free).2
  rw [key, reserved] at unreserved
  cases unreserved

/-- A queue that tells its counts does so once in each envelope, and another one never does. -/
theorem dimensionsNamed_bufferInfo (q : Queue) (now : Instant) (exceeded : Bool) (r : Record) :
    dimensionsNamed "bufferInfo" (q.bodyOf now exceeded r) =
      if q.settings.diagnostics then [(bufferInfo q.counts q.bodies.length).document] else [] := by
  rw [dimensionsNamed_bodyOf, List.filter_append, filter_freeProperties _ (by decide +kernel),
    List.append_nil]
  unfold ownDimensions
  cases (shownEvent exceeded r).durationMs <;> cases q.settings.diagnostics <;> cases exceeded <;>
    rfl

theorem nodup_fold_names {own free : List String} (reserved : own.Sublist reservedDimensions)
    (apart : (free.map Text.fold).Nodup) (other : ∀ key ∈ free, ¬ isReserved key) :
    ((own ++ free).map Text.fold).Nodup := by
  have listed : (reservedDimensions.map Text.fold).Nodup := by decide +kernel
  rw [List.map_append, List.nodup_append']
  refine ⟨listed.sublist (reserved.map _), apart, ?_⟩
  intro folded first second
  obtain ⟨key, there, rfl⟩ := List.mem_map.mp second
  exact other key there (isReserved_iff.mpr ((reserved.map _).subset first))

/-- Every envelope is an object whose dimensions are its own ones and, behind them and in
their order, the properties whose keys are not reserved. No two of their names agree when
case is disregarded. -/
theorem properties_beside_dimensions (q : Queue) (now : Instant) (exceeded : Bool) (r : Record)
    (distinct : ∀ e, r.event? = some e → e.properties.Distinct) :
    let e := shownEvent exceeded r
    let free := e.properties.entries.filter fun p =>
      reservedDimensions.all fun name => !Text.sameFold name p.1
    let dimensions := q.ownDimensions exceeded e ++
      free.map fun p => (some p.1, p.2.toJson.document)
    Document.ofText? (q.bodyOf now exceeded r) =
        some (.obj (q.envelopeDocuments now r e (.obj dimensions))) ∧
      ∃ names : List String, dimensions.map Prod.fst = names.map some ∧
        (names.map Text.fold).Nodup := by
  intro e free dimensions
  have chosen : freeProperties e.properties = free := by
    simp only [freeProperties, isReserved, List.not_any_eq_all_not, free]
  have written : Json.memberDocuments (Value.entriesToJson free) =
      free.map fun p => (some p.1, p.2.toJson.document) := by
    rw [Json.memberDocuments_eq, Value.entriesToJson_eq, List.map_map]
    rfl
  have same : dimensions = q.ownDimensions exceeded e ++
      Json.memberDocuments (Value.entriesToJson (freeProperties e.properties)) := by
    rw [chosen, written]
  refine ⟨same ▸ q.ofText?_bodyOf now exceeded r, ?_⟩
  obtain ⟨own, reserved, names⟩ := List.sublist_map_iff.mp (q.keys_ownDimensions exceeded e)
  refine ⟨own ++ free.map Prod.fst, ?_, nodup_fold_names reserved ?_ ?_⟩
  · rw [List.map_append, List.map_append, names, List.map_map, List.map_map]
    rfl
  · rw [List.map_map]
    exact (shownEvent_distinct distinct exceeded).sublist (List.filter_sublist.map _)
  · intro key there
    obtain ⟨p, member, rfl⟩ := List.mem_map.mp there
    rw [← chosen] at member
    simpa using (List.mem_filter.mp member).2

/-- A property that is called as a dimension is, but for the case, is not among them. -/
theorem properties_beside_counts :
    let q := ofSettings { Settings.standard with diagnostics := true } "bench-host-3" ⟨[], []⟩
    let e : Event := { (Event.ofActivity .nil).withDuration 7 with
      properties := ⟨[("BUFFERINFO", .text "stale"), ("note", .integer 5)]⟩ }
    let r : Record := ⟨.named "step", .warning, .event e⟩
    (∀ e, r.event? = some e → e.properties.Distinct) ∧
      Document.ofText? (q.bodyOf ⟨0, 0⟩ false r) =
        some (.obj (q.envelopeDocuments ⟨0, 0⟩ r e
          (.obj [(some "transactionId", .str (some e.transaction.text)),
            (some "durationMs", .number ['7']),
            (some "bufferInfo", (bufferInfo ⟨0, 0, 0, 0⟩ 0).document),
            (some "note", .number ['5'])]))) := by
  intro q e r
  have distinct (e : Event) (carried : r.event? = some e) : e.properties.Distinct := by
    cases carried
    show (["BUFFERINFO", "note"].map Text.fold).Nodup
    decide +kernel
  obtain ⟨read, _⟩ := q.properties_beside_dimensions ⟨0, 0⟩ false r distinct
  exact ⟨distinct, read⟩

end Queue
end Telemetry.Stream
