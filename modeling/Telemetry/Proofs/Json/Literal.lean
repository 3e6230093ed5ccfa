import Telemetry.Property.Value
import Telemetry.Proofs.Json.Reading
import Telemetry.Proofs.Json.Size

/-! The literal of a text is the JSON text of that value, and is as long as it was counted to
be. The budgets of a trace rest on this: they count characters before anything is written, and
cut a text so that its literal fits. -/
namespace Telemetry.Text
open Json (Document ofText?_render)

/-- The literal of a text is the value that JSON has for it. Between its quotes it denotes the
characters of the text, and no others, and it is read as the text. It is what is written for a
property with this text, and its bytes are those that the table gives for the bytes of the text.
Its size is the one counted, with the quotes. Cutting a text leaves the longest beginning whose
count is within the room. That is the text itself where it is within the room, and otherwise the
next character is beyond it. -/
theorem literal_exact (s : String) (room : Nat) :
    (∃ inside, (quoted s).toList = '"' :: (inside ++ ['"']) ∧
      ∀ cs, Denotes inside cs ↔ cs = s.toList) ∧
    Document.ofText? (quoted s) = some (.str (some s)) ∧
    (Value.text s).toJson.render = quoted s ∧ bytes (quoted s) = literalBytes (bytes s) ∧
    (quoted s).utf8ByteSize = escapedSize s + 2 ∧
    LongestStart room s (cut room s) ∧
    (∀ short, LongestStart room s short → short = cut room s) ∧
    (escapedSize s ≤ room → cut room s = s) ∧
    (room < escapedSize s → ∃ c more, s.toList = (cut room s).toList ++ c :: more ∧
      room < escapedSize ((cut room s).push c)) := by
  have rendered : quoted s = (Json.str s).render := rfl
  refine ⟨⟨escape s.toList, ?_, ?_⟩, ?_, ?_, bytes_quoted s, ?_, longestStart_cut room s, ?_,
    cut_of_fits, exists_next⟩
  · exact String.toList_ofList
  · intro cs
    constructor
    · intro denotes
      exact denotes.unique (denotes_escape s.toList)
    · rintro rfl
      exact denotes_escape s.toList
  · rw [rendered, ofText?_render, Json.document]
  · rw [rendered, Value.toJson]
  · rw [rendered]
    exact Json.size_str s
  · intro short again
    exact again.unique (longestStart_cut room s)

end Telemetry.Text
