import Mathlib.Data.List.Nodup
import Telemetry.Property.Basic

/-! Entries put into a map of properties one after another.
Where keys differ when case is disregarded, each entry of the map keeps its place and its
spelling and takes the value that was put in at its key, if there is one. What has no key
in the map comes behind, in the order in which it was put in. -/
namespace Telemetry.Properties

def folds (entries : List (String × Value)) : List String :=
  entries.map fun e => Text.fold e.1

variable {p q : Properties} {key : String} {value : Value}

theorem contains_iff : p.contains key = true ↔ Text.fold key ∈ folds p.entries := by
  simp [contains, folds, Text.sameFold_iff]

theorem get?_cons (e : String × Value) (rest : List (String × Value)) :
    (mk (e :: rest)).get? key =
      if Text.sameFold e.1 key then some e.2 else (mk rest).get? key := by
  simp only [get?, List.find?_cons]
  cases Text.sameFold e.1 key <;> rfl

theorem get?_insert (p : Properties) (key : String) (value : Value) (other : String) :
    (p.insert key value).get? other =
      if Text.sameFold key other then some value else p.get? other := by
  obtain ⟨entries⟩ := p
  induction entries with
  | nil => exact get?_cons (key, value) []
  | cons e rest ih =>
    by_cases here : Text.sameFold e.1 key = true
    · have placed : (mk (e :: rest)).insert key value = mk ((e.1, value) :: rest) := by
        rw [insert, insertEntry, if_pos here]
      have spelled : Text.sameFold e.1 other = Text.sameFold key other := by
        rw [Text.sameFold, Text.sameFold, (Text.sameFold_iff _ _).mp here]
      rw [placed, get?_cons, get?_cons, spelled]
      split <;> rfl
    · have behind : (mk (e :: rest)).insert key value =
          mk (e :: ((mk rest).insert key value).entries) := by
        rw [insert, insertEntry, if_neg here, insert]
      rw [behind, get?_cons, get?_cons, ih]
      by_cases first : Text.sameFold e.1 other = true
      · have apart : ¬ Text.sameFold key other = true := by
          rw [Text.sameFold_iff] at here first ⊢
          exact fun same => here (first.trans same.symm)
        rw [if_pos first, if_neg apart, if_pos first]
      · rw [if_neg first, if_neg first]

theorem get?_absent (absent : Text.fold key ∉ folds p.entries) : p.get? key = none := by
  rw [get?, Option.map_eq_none_iff, List.find?_eq_none]
  intro e member
  rw [Text.sameFold_iff]
  intro same
  exact absent (List.mem_map.mpr ⟨e, member, same⟩)

theorem folds_insert (p : Properties) (key : String) (value : Value) :
    folds (p.insert key value).entries =
      folds p.entries ++ if p.contains key then [] else [Text.fold key] := by
  obtain ⟨entries⟩ := p
  induction entries with
  | nil => rfl
  | cons e rest ih =>
    simp only [insert, contains, folds, insertEntry, List.any_cons, List.map_cons] at ih ⊢
    by_cases here : Text.sameFold e.1 key = true
    · simp [here]
    · simp only [here, Bool.false_eq_true, if_false, Bool.false_or, List.map_cons, ih,
        List.cons_append]
      rfl

theorem contains_insert (p : Properties) (key : String) (value : Value) (other : String) :
    (p.insert key value).contains other = (p.contains other || Text.sameFold key other) := by
  rw [Bool.eq_iff_iff, Bool.or_eq_true, contains_iff, contains_iff, Text.sameFold_iff, folds_insert]
  cases there : p.contains key with
  | true =>
    rw [contains_iff] at there
    simp only [if_true, List.append_nil, iff_self_or]
    intro same
    rwa [← same]
  | false => simp [eq_comm]

theorem Distinct.insert (distinct : p.Distinct) (key : String) (value : Value) :
    (p.insert key value).Distinct := by
  show (folds _).Nodup
  rw [folds_insert]
  split
  · rw [List.append_nil]
    exact distinct
  · rename_i absent
    rw [contains_iff] at absent
    rw [← List.concat_eq_append]
    exact List.Nodup.concat absent distinct

/-- A value put in stands at its key, or behind all entries. -/
theorem Distinct.insert_entries (distinct : p.Distinct) (key : String) (value : Value) :
    (p.insert key value).entries =
      (p.entries.map fun e => if Text.sameFold e.1 key then (e.1, value) else e) ++
        if p.contains key then [] else [(key, value)] := by
  obtain ⟨entries⟩ := p
  induction entries with
  | nil => rfl
  | cons e rest ih =>
    obtain ⟨apart, distinct⟩ := List.nodup_cons.mp distinct
    have ih := ih distinct
    simp only [Properties.insert, contains, insertEntry, List.any_cons, List.map_cons] at ih ⊢
    by_cases here : Text.sameFold e.1 key = true
    · have others (f : String × Value) (member : f ∈ rest) :
          (if Text.sameFold f.1 key then (f.1, value) else f) = f := by
        apply if_neg
        intro same
        apply apart
        show Text.fold e.1 ∈ folds rest
        rw [(Text.sameFold_iff _ _).mp here, ← (Text.sameFold_iff _ _).mp same]
        exact List.mem_map_of_mem member
      simp only [here, if_true, Bool.true_or, List.append_nil, List.map_congr_left others,
        List.map_id']
    · simp only [here, Bool.false_eq_true, if_false, Bool.false_or, ih, List.cons_append]
      rfl

/-- The value that an entry takes from others is not changed by one that was put in before. -/
theorem get?_getD_insert {e f : String × Value} {rest : List (String × Value)}
    (absent : Text.fold e.1 ∉ folds rest) (put : String × Value)
    (same : put = if Text.sameFold f.1 e.1 then (f.1, e.2) else f) :
    (put.1, ((mk rest).get? put.1).getD put.2) = (f.1, ((mk (e :: rest)).get? f.1).getD f.2) := by
  rw [get?_cons, Text.sameFold_comm e.1 f.1]
  by_cases there : Text.sameFold f.1 e.1 = true
  · rw [if_pos there] at same ⊢
    have none_behind : (mk rest).get? f.1 = none := by
      apply get?_absent
      rw [(Text.sameFold_iff _ _).mp there]
      exact absent
    simp [same, none_behind]
  · rw [if_neg there] at same ⊢
    rw [same]

/-- Entries put in give their values to those that are there, and the rest comes behind. -/
theorem Distinct.insertAll_entries (distinct : p.Distinct) (apart : q.Distinct) :
    (p.insertAll q.entries).entries =
      (p.entries.map fun e => (e.1, (q.get? e.1).getD e.2)) ++
        q.entries.filter fun e => !p.contains e.1 := by
  obtain ⟨entries⟩ := q
  induction entries generalizing p with
  | nil => simp [insertAll, get?]
  | cons e rest ih =>
    obtain ⟨absent, apart⟩ := List.nodup_cons.mp apart
    have first : p.insertAll (e :: rest) = (p.insert e.1 e.2).insertAll rest := rfl
    have behind : (rest.filter fun f => !(p.insert e.1 e.2).contains f.1) =
        rest.filter fun f => !p.contains f.1 := by
      apply List.filter_congr
      intro f member
      have other : Text.sameFold e.1 f.1 = false := by
        rw [Bool.eq_false_iff]
        intro same
        apply absent
        show Text.fold e.1 ∈ folds rest
        rw [(Text.sameFold_iff _ _).mp same]
        exact List.mem_map_of_mem member
      rw [contains_insert, other, Bool.or_false]
    have last : (mk rest).get? e.1 = none := get?_absent absent
    rw [first, ih (distinct.insert e.1 e.2) apart, distinct.insert_entries, behind,
      List.map_append, List.map_map, List.filter_cons]
    simp only [Function.comp_def, get?_getD_insert absent _ rfl]
    cases p.contains e.1 with
    | true => simp
    | false => simp [last]

theorem Distinct.ofList_entries (distinct : p.Distinct) : ofList p.entries = p := by
  have nothing : empty.Distinct := List.nodup_nil
  have same := nothing.insertAll_entries distinct
  simp only [empty, contains, List.map_nil, List.any_nil, List.nil_append, Bool.not_false,
    List.filter_true] at same
  exact congrArg mk same

end Telemetry.Properties
