import Telemetry.Proofs.Json.Fields
import Telemetry.Proofs.Trace.Context

/-! The records of every budget, also of one that configurations refuse.
A record has one of four shapes: its whole context, a cut context, the reason why there is no
context, or the fixed section and nothing behind it. Each shape stands with the sizes that
lead to it, and all that is known of records under any budget is read off the four. -/
namespace Telemetry.Trace
open Json (Document memberChars)
open Text (escapedSize escapedSize_cut cut_prefix)

/-- The text of an object with one more member, which stands before the closing brace. -/
def withMember (object key value : String) : String :=
  String.ofList (object.toList.dropLast ++
    ',' :: (Text.literal key.toList ++ ':' :: (value.toList ++ ['\x7d'])))

theorem memberChars_concat {members : List (String × Json)} (filled : members ≠ []) (key : String)
    (value : Json) :
    memberChars (members ++ [(key, value)]) =
      memberChars members ++ ',' :: (Text.literal key.toList ++ ':' :: value.chars) := by
  induction members with
  | nil => exact absurd rfl filled
  | cons m rest ih =>
    obtain ⟨k, v⟩ := m
    cases rest with
    | nil => simp [memberChars]
    | cons next more =>
      have behind := ih (List.cons_ne_nil next more)
      rw [List.cons_append] at behind ⊢
      simp [memberChars, behind]

theorem toList_render_obj (members : List (String × Json)) :
    (Json.obj members).render.toList = '\x7b' :: memberChars members ++ ['\x7d'] := by
  rw [Json.render, String.toList_ofList, Json.chars, List.cons_append]

theorem render_concat {members : List (String × Json)} (filled : members ≠ []) (key : String)
    (value : Json) :
    (Json.obj (members ++ [(key, value)])).render =
      withMember (Json.obj members).render key value.render := by
  apply String.toList_inj.mp
  rw [toList_render_obj, memberChars_concat filled, withMember, String.toList_ofList,
    toList_render_obj, List.dropLast_concat, Json.render, String.toList_ofList]
  simp

def fixedKeys : List String :=
  ["eventName", "severity", "activityId", "parentActivityId", "transactionId", "durationMs",
    "userIdentity"]

section

variable (b : Budget) (name : String) (severity : Severity) (e : Event)

/-- The fixed section with a member behind it. -/
def extended (key : String) (value : Json) : Json :=
  .obj (fixedMembers name severity e ++ [(key, value)])

/-- The bytes that are left for a context behind the fixed section and the key. -/
def contextRoom : Nat :=
  b.maxBytes - ((Json.obj (fixedMembers name severity e)).size + memberOverhead contextKey)

/-- Why no context of so few bytes is tried. -/
def shortage (room : Nat) : Fault :=
  .constrainFailed ("fixed fields leave " ++ toString room ++ " bytes for context")

/-- The records that serialization leads to, each with the sizes for which it does. -/
inductive Shape : Entry → Prop
  | whole (fits : (extended name severity e contextKey e.properties.toJson).size ≤ b.maxBytes) :
    Shape (Budget.entry name severity e
      (extended name severity e contextKey e.properties.toJson) false false)
  | cut (large : b.maxBytes < (extended name severity e contextKey e.properties.toJson).size)
    (room : minContext ≤ contextRoom b name severity e) {context : Json}
    (result : constrain e.properties (contextRoom b name severity e) = .ok context)
    (fits : context.size ≤ contextRoom b name severity e) :
    Shape (Budget.entry name severity e (extended name severity e contextKey context) true false)
  | diagnostic
    (large : b.maxBytes < (extended name severity e contextKey e.properties.toJson).size)
    (narrow : contextRoom b name severity e < minContext) {text : String}
    (start : text.toList <+: (shortage (contextRoom b name severity e)).message.toList)
    (fits : (extended name severity e diagnosticKey (.str text)).size ≤ b.maxBytes) :
    Shape (Budget.entry name severity e (extended name severity e diagnosticKey (.str text))
      true true)
  | bare (large : b.maxBytes < (extended name severity e contextKey e.properties.toJson).size)
    (narrow : contextRoom b name severity e < minContext)
    (scarce : b.maxBytes < (Json.obj (fixedMembers name severity e)).size +
      memberOverhead diagnosticKey + 2) :
    Shape (Budget.entry name severity e (.obj (fixedMembers name severity e)) true true)

variable {b name severity e}

theorem size_extended {key : String} (plain : escapedSize key = key.utf8ByteSize) (value : Json) :
    (extended name severity e key value).size =
      (Json.obj (fixedMembers name severity e)).size + memberOverhead key + value.size :=
  size_append (List.cons_ne_nil _ _) plain value

theorem render_extended (key : String) (value : Json) :
    (extended name severity e key value).render =
      withMember (Json.obj (fixedMembers name severity e)).render key value.render :=
  render_concat (List.cons_ne_nil _ _) key value

theorem constrain_narrow (properties : Properties) {limit : Nat} (narrow : limit < minContext) :
    constrain properties limit = .error (shortage limit) := by
  rw [constrain, if_pos narrow, shortage]

theorem serialize_shape (b : Budget) (name : String) (severity : Severity) (e : Event) :
    Shape b name severity e (b.serialize name severity e) := by
  unfold Budget.serialize
  by_cases fits : (extended name severity e contextKey e.properties.toJson).size ≤ b.maxBytes
  · have whole := Shape.whole fits
    rw [extended] at fits
    simp only [if_pos fits]
    exact whole
  · have large := Nat.lt_of_not_le fits
    rw [extended] at fits
    simp only [if_neg fits]
    by_cases narrow : contextRoom b name severity e < minContext
    · have failed := constrain_narrow e.properties narrow
      rw [contextRoom] at failed
      simp only [failed, Budget.diagnostic]
      split
      · rename_i enough
        refine .diagnostic large narrow ?_ ?_
        · exact cut_prefix _ _
        · have short := escapedSize_cut (b.maxBytes -
            ((Json.obj (fixedMembers name severity e)).size + memberOverhead diagnosticKey + 2))
            (shortage (contextRoom b name severity e)).message
          rw [contextRoom] at short
          rw [size_extended rfl, Json.size_str]
          omega
      · rename_i scarce
        exact .bare large narrow (Nat.lt_of_not_le scarce)
    · have room := Nat.le_of_not_lt narrow
      obtain ⟨members, result, within⟩ := constrain_fits e.properties room
      have shape := Shape.cut large room result within
      rw [contextRoom] at result
      simp only [result]
      exact shape

namespace Shape

variable {record : Entry}

/-- Every payload goes on from the fixed section, where this has its closing brace. -/
theorem start (shape : Shape b name severity e record) :
    '\x7b' :: memberChars (fixedMembers name severity e) <+: record.payload.toList := by
  cases shape with
  | whole | cut | diagnostic => exact chars_start _ _
  | bare =>
    show _ <+: (Json.obj (fixedMembers name severity e)).render.toList
    rw [toList_render_obj]
    exact List.prefix_append _ _

theorem size_le (shape : Shape b name severity e record) :
    record.size ≤ max b.maxBytes (Json.obj (fixedMembers name severity e)).size := by
  cases shape with
  | whole fits => exact Nat.le_trans fits (Nat.le_max_left _ _)
  | cut large room result fits =>
    apply Nat.le_trans _ (Nat.le_max_left _ _)
    show (extended name severity e contextKey _).size ≤ b.maxBytes
    rw [size_extended rfl]
    rw [contextRoom, minContext] at room
    rw [contextRoom] at fits
    omega
  | diagnostic large narrow start fits => exact Nat.le_trans fits (Nat.le_max_left _ _)
  | bare => exact Nat.le_max_right _ _

theorem fixed_le (shape : Shape b name severity e record) :
    (Json.obj (fixedMembers name severity e)).size ≤ record.size := by
  cases shape with
  | whole | cut | diagnostic =>
    show _ ≤ (extended name severity e _ _).size
    rw [size_extended rfl]
    omega
  | bare => exact Nat.le_refl _

theorem constrained_iff (shape : Shape b name severity e record) :
    record.constrained = false ↔
      (extended name severity e contextKey e.properties.toJson).size ≤ b.maxBytes := by
  cases shape with
  | whole fits => exact iff_of_true rfl fits
  | cut large | diagnostic large | bare large =>
    exact iff_of_false nofun (Nat.not_le_of_lt large)

theorem constrainFailed_iff (shape : Shape b name severity e record) :
    record.constrainFailed = true ↔
      b.maxBytes < (extended name severity e contextKey e.properties.toJson).size ∧
        contextRoom b name severity e < minContext := by
  cases shape with
  | whole fits => exact iff_of_false nofun fun both => Nat.not_le_of_lt both.1 fits
  | cut large room => exact iff_of_false nofun fun both => Nat.not_le_of_lt both.2 room
  | diagnostic large narrow | bare large narrow => exact iff_of_true rfl ⟨large, narrow⟩

theorem payload_of_whole (shape : Shape b name severity e record)
    (whole : record.constrained = false) :
    record.payload = (extended name severity e contextKey e.properties.toJson).render := by
  cases shape with
  | whole => rfl
  | cut | diagnostic | bare => cases whole

theorem payload_of_cut (shape : Shape b name severity e record) (cut : record.constrained = true)
    (tried : record.constrainFailed = false) :
    ∃ context, constrain e.properties (contextRoom b name severity e) = .ok context ∧
      record.payload = (extended name severity e contextKey context).render := by
  cases shape with
  | whole => cases cut
  | cut large room result => exact ⟨_, result, rfl⟩
  | diagnostic | bare => cases tried

theorem payload_of_failed (shape : Shape b name severity e record)
    (failed : record.constrainFailed = true) :
    record.payload = (Json.obj (fixedMembers name severity e)).render ∨
      ∃ text : String,
        text.toList <+: (shortage (contextRoom b name severity e)).message.toList ∧
        record.payload = (extended name severity e diagnosticKey (.str text)).render := by
  cases shape with
  | whole | cut => cases failed
  | diagnostic large narrow start => exact .inr ⟨_, start, rfl⟩
  | bare => exact .inl rfl

end Shape

theorem Shape.no_context {record : Entry} (shape : Shape b name severity e record)
    (failed : record.constrainFailed = true) :
    ∃ members, Document.ofText? record.payload = some (.obj members) ∧
      some contextKey ∉ members.map Prod.fst := by
  have read (members : List (String × Json)) (absent : contextKey ∉ members.map Prod.fst) :
      ∃ documents, Document.ofText? (Json.obj members).render = some (.obj documents) ∧
        some contextKey ∉ documents.map Prod.fst := by
    refine ⟨Json.memberDocuments members, Json.ofText?_render _, ?_⟩
    rw [Json.keys_memberDocuments]
    simpa using absent
  obtain fixed | ⟨text, _, diagnosed⟩ := shape.payload_of_failed failed
  · rw [fixed]
    exact read _ (by decide : contextKey ∉ fixedKeys)
  · rw [diagnosed]
    exact read _ (by decide : contextKey ∉ fixedKeys ++ [diagnosticKey])

end

/-- Under every budget a record is the fixed section with something behind it, which stands
in the room that the budget leaves. It is not constrained where all fits, and then it has the
whole context. Where not all fits and fewer than 64 bytes remain, it has no context, and at
most the beginning of the reason. The record that has only the fixed section is never longer. -/
theorem serialize_any_budget (b : Budget) (name : String) (severity : Severity) (e : Event) :
    let fixed := (Budget.minimal name severity e).payload
    let full := withMember fixed contextKey e.properties.toJson.render
    let room := b.maxBytes - (fixed.utf8ByteSize + 11)
    let record := b.serialize name severity e
    fixed = (Json.obj (fixedMembers name severity e)).render ∧
    (∃ start, fixed.toList = start ++ ['\x7d'] ∧ start <+: record.payload.toList) ∧
    record.size ≤ max b.maxBytes fixed.utf8ByteSize ∧
    (record.constrained = false ↔ full.utf8ByteSize ≤ b.maxBytes) ∧
    (record.constrained = false → record.payload = full) ∧
    (record.constrained = true → record.constrainFailed = false → ∃ context,
      constrain e.properties room = .ok context ∧
        record.payload = withMember fixed contextKey context.render) ∧
    (record.constrainFailed = true ↔ b.maxBytes < full.utf8ByteSize ∧ room < 64) ∧
    (record.constrainFailed = true → ∃ fault, constrain e.properties room = .error fault ∧
      (record.payload = fixed ∨ ∃ text : String, text.toList <+: fault.message.toList ∧
        record.payload = withMember fixed diagnosticKey (Json.str text).render) ∧
      ∃ members, Document.ofText? record.payload = some (.obj members) ∧
        some contextKey ∉ members.map Prod.fst) ∧
    (Budget.minimal name severity e).size ≤ record.size := by
  intro fixed full room record
  have shape : Shape b name severity e record := serialize_shape b name severity e
  have appended (key : String) (value : Json) :
      withMember fixed key value.render = (extended name severity e key value).render :=
    (render_extended key value).symm
  have size : full.utf8ByteSize =
      (extended name severity e contextKey e.properties.toJson).size :=
    congrArg String.utf8ByteSize (appended contextKey e.properties.toJson)
  have left : room = contextRoom b name severity e := rfl
  simp only [size, left, appended]
  refine ⟨rfl, ⟨_, toList_render_obj _, shape.start⟩, shape.size_le, shape.constrained_iff,
    fun whole => (shape.payload_of_whole whole).trans (appended _ _).symm, shape.payload_of_cut,
    shape.constrainFailed_iff, fun failed => ?_, shape.fixed_le⟩
  have narrow := (shape.constrainFailed_iff.mp failed).2
  exact ⟨_, constrain_narrow e.properties narrow, shape.payload_of_failed failed,
    shape.no_context failed⟩

end Telemetry.Trace
