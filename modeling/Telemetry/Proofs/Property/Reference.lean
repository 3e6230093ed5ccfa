import Mathlib.Data.Finmap
import Mathlib.Data.List.Sort
import Telemetry.Proofs.Property.Inserting

/-! Maps of properties against a map by folded keys.
The reference remembers of each key how it was spelled when it came, its value, and how many
keys had come before. A key that is taken out is forgotten, so it comes again as a new one.
Whatever is done to both, they answer alike, and the entries of the one are the slots of the
other in the order in which their keys came. -/
namespace Telemetry

structure Slot where
  spelling : String
  value : Value
  /-- The number of keys that came before this one. -/
  arrival : Nat

def Slot.entry (s : Slot) : String × Value :=
  (s.spelling, s.value)

/-- The slot with a value put in, if it is that of the key. -/
def Slot.renew (key : String) (value : Value) (s : Slot) : Slot :=
  if Text.sameFold s.spelling key then { s with value := value } else s

namespace Slot

variable {key : String} {value : Value}

theorem spelling_renew (s : Slot) : (s.renew key value).spelling = s.spelling := by
  unfold renew
  split
  · rfl
  · rfl

theorem arrival_renew (s : Slot) : (s.renew key value).arrival = s.arrival := by
  unfold renew
  split
  · rfl
  · rfl

theorem entry_renew (s : Slot) : (s.renew key value).entry =
    if Text.sameFold s.entry.1 key then (s.entry.1, value) else s.entry :=
  apply_ite entry _ _ _

theorem renew_same {s : Slot} (same : Text.fold s.spelling = Text.fold key) :
    s.renew key value = { s with value := value } :=
  if_pos ((Text.sameFold_iff _ _).mpr same)

theorem renew_other {s : Slot} (other : Text.fold s.spelling ≠ Text.fold key) :
    s.renew key value = s :=
  if_neg (mt (Text.sameFold_iff _ _).mp other)

end Slot

/-- Slots by the key without regard to case, and the number of keys that came so far. -/
structure Reference where
  slots : Finmap fun _ : String => Slot
  arrivals : Nat

namespace Reference

def empty : Reference := ⟨∅, 0⟩

def slot? (m : Reference) (key : String) : Option Slot :=
  m.slots.lookup (Text.fold key)

/-- A key that is there takes the value and keeps its spelling and its place. -/
def insert (m : Reference) (key : String) (value : Value) : Reference :=
  match m.slot? key with
  | some slot => { m with slots := m.slots.insert (Text.fold key) { slot with value := value } }
  | none => ⟨m.slots.insert (Text.fold key) ⟨key, value, m.arrivals⟩, m.arrivals + 1⟩

def erase (m : Reference) (key : String) : Reference :=
  { m with slots := m.slots.erase (Text.fold key) }

def insertAll (m : Reference) (entries : List (String × Value)) : Reference :=
  entries.foldl (fun m e => m.insert e.1 e.2) m

/-- All slots of the map, in the order in which their keys came. -/
structure Lists (m : Reference) (slots : List Slot) : Prop where
  sorted : slots.Pairwise fun a b => a.arrival < b.arrival
  slot_iff : ∀ key slot,
    m.slots.lookup key = some slot ↔ slot ∈ slots ∧ Text.fold slot.spelling = key

variable {m : Reference} {slots : List Slot}

theorem Lists.unique {others : List Slot} (lists : m.Lists slots) (again : m.Lists others) :
    slots = others := by
  have : Std.Irrefl fun a b : Slot => a.arrival < b.arrival := ⟨fun a => Nat.lt_irrefl a.arrival⟩
  have : Std.Antisymm fun a b : Slot => a.arrival < b.arrival :=
    ⟨fun a b first second => absurd first (Nat.lt_asymm second)⟩
  refine lists.sorted.eq_of_mem_iff again.sorted fun slot => ?_
  have first := lists.slot_iff (Text.fold slot.spelling) slot
  have second := again.slot_iff (Text.fold slot.spelling) slot
  rw [and_iff_left rfl] at first second
  exact first.symm.trans second

theorem Lists.same (lists : m.Lists slots) {a b : Slot} (first : a ∈ slots) (second : b ∈ slots)
    (alike : Text.fold a.spelling = Text.fold b.spelling) : a = b := by
  have at_a := (lists.slot_iff _ a).mpr ⟨first, alike⟩
  have at_b := (lists.slot_iff _ b).mpr ⟨second, rfl⟩
  exact Option.some.inj (at_a.symm.trans at_b)

theorem Lists.nodup (lists : m.Lists slots) :
    (slots.map fun slot => Text.fold slot.spelling).Nodup := by
  apply List.pairwise_map.mpr
  refine lists.sorted.imp_of_mem ?_
  intro a b first second before alike
  rw [lists.same first second alike] at before
  exact Nat.lt_irrefl _ before

theorem Lists.card_keys (lists : m.Lists slots) : m.slots.keys.card = slots.length := by
  have keys : m.slots.keys = (slots.map fun slot => Text.fold slot.spelling).toFinset := by
    ext key
    rw [Finmap.mem_keys, Finmap.mem_iff, List.mem_toFinset, List.mem_map]
    exact exists_congr fun slot => lists.slot_iff key slot
  rw [keys, List.toFinset_card_of_nodup lists.nodup, List.length_map]

section Steps

variable {key : String} {value : Value}

theorem insert_present {slot : Slot} (found : m.slot? key = some slot) :
    m.insert key value =
      { m with slots := m.slots.insert (Text.fold key) { slot with value := value } } := by
  rw [insert, found]

theorem insert_absent (absent : m.slot? key = none) :
    m.insert key value =
      ⟨m.slots.insert (Text.fold key) ⟨key, value, m.arrivals⟩, m.arrivals + 1⟩ := by
  rw [insert, absent]

theorem Lists.renew (lists : m.Lists slots) {slot : Slot} (found : m.slot? key = some slot) :
    (m.insert key value).Lists (slots.map (Slot.renew key value)) := by
  obtain ⟨member, alike⟩ := (lists.slot_iff _ _).mp found
  rw [insert_present found]
  constructor
  · rw [List.pairwise_map]
    simp only [Slot.arrival_renew]
    exact lists.sorted
  · intro other s
    by_cases same : other = Text.fold key
    · subst same
      rw [Finmap.lookup_insert, Option.some_inj, ← Slot.renew_same alike]
      constructor
      -- The slot of the key becomes the new one, and no other slot has this key.
      · rintro rfl
        refine ⟨List.mem_map_of_mem member, ?_⟩
        rw [Slot.spelling_renew]
        exact alike
      · rintro ⟨inside, same⟩
        obtain ⟨s, listed, rfl⟩ := List.mem_map.mp inside
        rw [Slot.spelling_renew] at same
        rw [lists.same listed member (same.trans alike.symm)]
    · rw [Finmap.lookup_insert_of_ne _ same, lists.slot_iff]
      constructor
      · rintro ⟨listed, rfl⟩
        exact ⟨List.mem_map.mpr ⟨s, listed, Slot.renew_other same⟩, rfl⟩
      · rintro ⟨inside, apart⟩
        obtain ⟨s, listed, rfl⟩ := List.mem_map.mp inside
        rw [Slot.spelling_renew] at apart
        subst apart
        rw [Slot.renew_other same]
        exact ⟨listed, rfl⟩

theorem Lists.concat (lists : m.Lists slots) (early : ∀ slot ∈ slots, slot.arrival < m.arrivals)
    (absent : m.slot? key = none) :
    (m.insert key value).Lists (slots ++ [⟨key, value, m.arrivals⟩]) := by
  rw [insert_absent absent]
  constructor
  · rw [List.pairwise_append]
    refine ⟨lists.sorted, List.pairwise_singleton _ _, fun a before b new => ?_⟩
    rw [List.mem_singleton.mp new]
    exact early a before
  · intro other slot
    rw [List.mem_append, List.mem_singleton]
    by_cases same : other = Text.fold key
    · subst same
      rw [Finmap.lookup_insert, Option.some_inj]
      constructor
      · rintro rfl
        exact ⟨.inr rfl, rfl⟩
      · rintro ⟨listed | new, same⟩
        · cases absent.symm.trans ((lists.slot_iff _ _).mpr ⟨listed, same⟩)
        · exact new.symm
    · rw [Finmap.lookup_insert_of_ne _ same, lists.slot_iff]
      constructor
      · rintro ⟨listed, alike⟩
        exact ⟨.inl listed, alike⟩
      · rintro ⟨listed | rfl, alike⟩
        · exact ⟨listed, alike⟩
        · exact absurd alike.symm same

theorem Lists.erase (lists : m.Lists slots) (key : String) :
    (m.erase key).Lists (slots.filter fun slot => !Text.sameFold slot.spelling key) := by
  constructor
  · exact lists.sorted.filter _
  · intro other slot
    rw [List.mem_filter, Bool.not_eq_true', Bool.eq_false_iff, ne_eq, Text.sameFold_iff]
    by_cases same : other = Text.fold key
    · subst same
      rw [Reference.erase, Finmap.lookup_erase]
      constructor
      · nofun
      · rintro ⟨⟨_, apart⟩, same⟩
        exact absurd same apart
    · rw [Reference.erase, Finmap.lookup_erase_ne same, lists.slot_iff]
      constructor
      · rintro ⟨listed, rfl⟩
        exact ⟨⟨listed, same⟩, rfl⟩
      · rintro ⟨⟨listed, _⟩, alike⟩
        exact ⟨listed, alike⟩

end Steps

end Reference

namespace Properties

variable {p : Properties} {key : String} {value : Value}

theorem distinct_cons {e : String × Value} {rest : List (String × Value)} :
    (mk (e :: rest)).Distinct ↔
      (∀ f ∈ rest, Text.fold f.1 ≠ Text.fold e.1) ∧ (mk rest).Distinct := by
  simp [Distinct, List.nodup_cons]

theorem Distinct.get?_of_mem (distinct : p.Distinct) {e : String × Value} (member : e ∈ p.entries)
    (alike : Text.fold e.1 = Text.fold key) : p.get? key = some e.2 := by
  obtain ⟨entries⟩ := p
  induction entries with
  | nil => cases member
  | cons first rest ih =>
    obtain ⟨apart, distinct⟩ := distinct_cons.mp distinct
    rw [get?_cons]
    rcases List.mem_cons.mp member with rfl | behind
    · rw [if_pos ((Text.sameFold_iff _ _).mpr alike)]
    · have other : ¬ Text.sameFold first.1 key = true := by
        rw [Text.sameFold_iff, ← alike]
        exact (apart e behind).symm
      rw [if_neg other]
      exact ih distinct behind

theorem contains_eq_isSome (p : Properties) (key : String) :
    p.contains key = (p.get? key).isSome := by
  rw [contains, get?, Option.isSome_map, List.isSome_find?]

theorem Distinct.erase_entries (distinct : p.Distinct) (key : String) :
    (p.erase key).entries = p.entries.filter fun e => !Text.sameFold e.1 key := by
  obtain ⟨entries⟩ := p
  simp only [erase]
  induction entries with
  | nil => rfl
  | cons first rest ih =>
    obtain ⟨apart, distinct⟩ := distinct_cons.mp distinct
    cases here : Text.sameFold first.1 key with
    | true =>
      have others : (rest.filter fun e => !Text.sameFold e.1 key) = rest := by
        apply List.filter_eq_self.mpr
        intro e member
        rw [Bool.not_eq_true', Bool.eq_false_iff, ne_eq, Text.sameFold_iff,
          ← (Text.sameFold_iff _ _).mp here]
        exact apart e member
      simp [here, others]
    | false => simp [here, ih distinct]

/-- The entries of a map are the slots of a reference in their order. -/
structure Agrees (p : Properties) (m : Reference) (slots : List Slot) : Prop where
  entries : p.entries = slots.map Slot.entry
  lists : m.Lists slots
  early : ∀ slot ∈ slots, slot.arrival < m.arrivals

variable {m : Reference} {slots : List Slot}

theorem agrees_empty : Agrees empty .empty [] :=
  ⟨rfl, ⟨.nil, fun key slot => by simp [Reference.empty]⟩, nofun⟩

theorem Agrees.folds (agrees : Agrees p m slots) :
    folds p.entries = slots.map fun slot => Text.fold slot.spelling := by
  rw [Properties.folds, agrees.entries, List.map_map]
  rfl

theorem Agrees.distinct (agrees : Agrees p m slots) : p.Distinct := by
  show (Properties.folds p.entries).Nodup
  rw [agrees.folds]
  exact agrees.lists.nodup

theorem Agrees.get? (agrees : Agrees p m slots) (key : String) :
    p.get? key = (m.slot? key).map Slot.value := by
  cases found : m.slot? key with
  | some slot =>
    obtain ⟨member, alike⟩ := (agrees.lists.slot_iff _ _).mp found
    have listed : slot.entry ∈ p.entries := by
      rw [agrees.entries]
      exact List.mem_map_of_mem member
    exact agrees.distinct.get?_of_mem listed alike
  | none =>
    apply get?_absent
    rw [agrees.folds]
    intro there
    obtain ⟨slot, member, alike⟩ := List.mem_map.mp there
    cases found.symm.trans ((agrees.lists.slot_iff _ _).mpr ⟨member, alike⟩)

theorem Agrees.contains (agrees : Agrees p m slots) (key : String) :
    p.contains key = (m.slot? key).isSome := by
  rw [contains_eq_isSome, agrees.get?, Option.isSome_map]

theorem Agrees.size (agrees : Agrees p m slots) : p.size = m.slots.keys.card := by
  rw [Properties.size, agrees.entries, List.length_map, agrees.lists.card_keys]

theorem Agrees.insert (agrees : Agrees p m slots) (key : String) (value : Value) :
    ∃ slots', Agrees (p.insert key value) (m.insert key value) slots' := by
  have entries := agrees.distinct.insert_entries key value
  rw [agrees.contains, agrees.entries, List.map_map] at entries
  have renewed : (fun e => if Text.sameFold e.1 key then (e.1, value) else e) ∘ Slot.entry =
      Slot.entry ∘ Slot.renew key value :=
    funext fun slot => slot.entry_renew.symm
  cases found : m.slot? key with
  | some slot =>
    refine ⟨slots.map (Slot.renew key value), ?_, agrees.lists.renew found, ?_⟩
    · rw [entries, found, renewed, List.map_map]
      exact List.append_nil _
    · rw [Reference.insert_present found]
      intro s inside
      obtain ⟨s, listed, rfl⟩ := List.mem_map.mp inside
      rw [Slot.arrival_renew]
      exact agrees.early s listed
  | none =>
    have others : slots.map (Slot.renew key value) = slots := by
      refine (List.map_congr_left fun s listed => Slot.renew_other ?_).trans (List.map_id _)
      intro same
      cases found.symm.trans ((agrees.lists.slot_iff _ _).mpr ⟨listed, same⟩)
    refine ⟨slots ++ [⟨key, value, m.arrivals⟩], ?_, agrees.lists.concat agrees.early found, ?_⟩
    · rw [entries, found, renewed, ← List.map_map, others, List.map_append]
      rfl
    · rw [Reference.insert_absent found]
      intro s listed
      rcases List.mem_append.mp listed with before | new
      · exact Nat.lt_succ_of_lt (agrees.early s before)
      · rw [List.mem_singleton.mp new]
        exact Nat.lt_succ_self _

theorem Agrees.erase (agrees : Agrees p m slots) (key : String) :
    Agrees (p.erase key) (m.erase key)
      (slots.filter fun slot => !Text.sameFold slot.spelling key) := by
  refine ⟨?_, agrees.lists.erase key, fun slot listed => ?_⟩
  · rw [agrees.distinct.erase_entries, agrees.entries, List.filter_map]
    rfl
  · exact agrees.early slot (List.mem_of_mem_filter listed)

theorem Agrees.insertAll (agrees : Agrees p m slots) (entries : List (String × Value)) :
    ∃ slots', Agrees (p.insertAll entries) (m.insertAll entries) slots' := by
  induction entries generalizing p m slots with
  | nil => exact ⟨slots, agrees⟩
  | cons e rest ih =>
    obtain ⟨slots', agrees⟩ := agrees.insert e.1 e.2
    exact ih agrees

end Properties

inductive Change
  | insert (key : String) (value : Value)
  | remove (key : String)
  | extend (entries : List (String × Value))
  /-- A new map of entries in place of the old one. -/
  | collect (entries : List (String × Value))

/-- The answer to a change, and the map behind it. -/
def Properties.change (p : Properties) : Change → Option Value × Properties
  | .insert key value => p.replace key value
  | .remove key => p.remove key
  | .extend entries => (none, p.insertAll entries)
  | .collect entries => (none, .ofList entries)

def Properties.changed (p : Properties) (changes : List Change) : Properties :=
  changes.foldl (fun p c => (p.change c).2) p

namespace Reference

def change (m : Reference) : Change → Option Value × Reference
  | .insert key value => ((m.slot? key).map Slot.value, m.insert key value)
  | .remove key => ((m.slot? key).map Slot.value, m.erase key)
  | .extend entries => (none, m.insertAll entries)
  | .collect entries => (none, empty.insertAll entries)

def changed (m : Reference) (changes : List Change) : Reference :=
  changes.foldl (fun m c => (m.change c).2) m

end Reference

namespace Properties

variable {p : Properties} {m : Reference} {slots : List Slot}

/-- Both answer a change alike, and agree behind it. -/
theorem Agrees.change (agrees : Agrees p m slots) (c : Change) :
    (p.change c).1 = (m.change c).1 ∧ ∃ slots', Agrees (p.change c).2 (m.change c).2 slots' := by
  cases c with
  | insert key value => exact ⟨agrees.get? key, agrees.insert key value⟩
  | remove key => exact ⟨agrees.get? key, _, agrees.erase key⟩
  | extend entries => exact ⟨rfl, agrees.insertAll entries⟩
  | collect entries => exact ⟨rfl, agrees_empty.insertAll entries⟩

theorem agrees_changed (changes : List Change) :
    ∃ slots, Agrees (empty.changed changes) (Reference.empty.changed changes) slots := by
  induction changes using List.reverseRecOn with
  | nil => exact ⟨[], agrees_empty⟩
  | append_singleton changes c ih =>
    obtain ⟨slots, agrees⟩ := ih
    rw [changed, Reference.changed, List.foldl_append, List.foldl_append]
    exact (agrees.change c).2

/-- Whatever is done to a map that is empty at first: its keys differ when case is disregarded,
and it answers as the reference does to the same changes, to the next one and to every look-up.
It has as many entries as the reference has keys. The slots of the reference have one order in
which their keys came, and in this order their spellings and values are the entries of the map
and the members of its JSON form. -/
theorem changed_as_reference (changes : List Change) :
    let p := empty.changed changes
    let m := Reference.empty.changed changes
    p.Distinct ∧ (∀ c, (p.change c).1 = (m.change c).1) ∧
    (∀ key, p.get? key = (m.slot? key).map Slot.value ∧
      p.contains key = (m.slot? key).isSome) ∧
    p.size = m.slots.keys.card ∧
    ∃ slots, m.Lists slots ∧ (∀ others, m.Lists others → others = slots) ∧
      p.entries = slots.map (fun slot => (slot.spelling, slot.value)) ∧
      p.toJson = .obj (slots.map fun slot => (slot.spelling, slot.value.toJson)) := by
  intro p m
  obtain ⟨slots, agrees⟩ := agrees_changed changes
  refine ⟨agrees.distinct, fun c => (agrees.change c).1,
    fun key => ⟨agrees.get? key, agrees.contains key⟩, agrees.size,
    slots, agrees.lists, fun others again => again.unique agrees.lists, agrees.entries, ?_⟩
  rw [toJson, Value.entriesToJson_eq, agrees.entries, List.map_map]
  rfl

end Properties
end Telemetry
