import Mathlib.Data.List.Induction
import Telemetry.Summary.Report

/-! The events of a report and what each of them adds.
A report is its sections one after another, one for each event that was applied, and some of
these are empty. Which part an event plays is told from its category and its name alone. -/
namespace Telemetry

theorem EventId.category_unique {e : EventId} {c d : Category} (first : e.isIn c = true)
    (second : e.isIn d = true) : c = d := by
  have same : c.id = d.id := (beq_iff_eq.mp first).symm.trans (beq_iff_eq.mp second)
  cases c <;> cases d <;> first | rfl | cases same

namespace Summary

/-- An event that a report gets, with what names it and the moment at which it comes. -/
structure Occurrence where
  id : EventId
  event : Event
  moment : Instant

namespace Occurrence

/-- A metric that says how a component ended. -/
def isOutcome (x : Occurrence) : Bool :=
  x.id.isIn .metric && Text.endsFold x.id.label "SucceededOrFailed"

/-- The exit of a run, which is not about the details of a process. -/
def isExit (x : Occurrence) : Bool :=
  x.id.isIn .trace && Text.startsFold x.id.label "Exit Code: " &&
    !Text.endsFold x.id.label ".ProcessDetails"

end Occurrence

section Roles

variable {id : EventId}

theorem not_profile_of_exit (exit : Text.startsFold id.label "Exit Code: " = true) :
    Text.sameFold id.label "ProfileExecution.Begin" = false := by
  refine Bool.eq_false_iff.mpr fun profile => ?_
  rw [Text.startsFold, (Text.sameFold_iff _ _).mp profile] at exit
  revert exit
  decide

end Roles

namespace Occurrence

variable {x : Occurrence}

theorem role_outcome_iff : roleOf x.id = .outcome ↔ x.isOutcome = true := by
  grind [roleOf, isOutcome]

theorem role_closing_iff : roleOf x.id = .closing ↔ x.isExit = true := by
  grind [roleOf, isExit, EventId.category_unique, not_profile_of_exit]

end Occurrence

namespace Report

def take (r : Report) (x : Occurrence) : Report :=
  r.apply x.id x.event x.moment

def ofHistory (history : List Occurrence) : Report :=
  history.foldl take empty

theorem ofHistory_concat (history : List Occurrence) (x : Occurrence) :
    ofHistory (history ++ [x]) = (ofHistory history).take x :=
  List.foldl_append ..

end Report

/-- What an event added to a report. -/
structure Section where
  cause : Occurrence
  items : List Item

def Section.text (s : Section) : String :=
  blockText s.cause.moment s.items

def sectionsFrom (r : Report) : List Occurrence → List Section
  | [] => []
  | x :: rest => ⟨x, r.blockOf x.id x.event⟩ :: sectionsFrom (r.take x) rest

def sections (history : List Occurrence) : List Section :=
  sectionsFrom .empty history

theorem sectionsFrom_concat (r : Report) (history : List Occurrence) (x : Occurrence) :
    sectionsFrom r (history ++ [x]) =
      sectionsFrom r history ++ [⟨x, (history.foldl Report.take r).blockOf x.id x.event⟩] := by
  induction history generalizing r with
  | nil => rfl
  | cons y rest ih => exact congrArg _ (ih (r.take y))

theorem sections_concat (history : List Occurrence) (x : Occurrence) :
    sections (history ++ [x]) =
      sections history ++ [⟨x, (Report.ofHistory history).blockOf x.id x.event⟩] :=
  sectionsFrom_concat ..

/-- Each event has a section, and these are the text of the report. -/
theorem sections_spec (history : List Occurrence) :
    (sections history).map Section.cause = history ∧
      (Report.ofHistory history).text = String.join ((sections history).map Section.text) := by
  induction history using List.reverseRecOn with
  | nil => exact ⟨rfl, rfl⟩
  | append_singleton history x ih =>
    obtain ⟨causes, text⟩ := ih
    rw [Report.ofHistory_concat, sections_concat, List.map_append, List.map_append, causes]
    refine ⟨rfl, ?_⟩
    rw [String.join_append, ← text, List.map_singleton, String.join_cons, String.join_nil,
      String.append_empty]
    rfl

end Summary
end Telemetry
