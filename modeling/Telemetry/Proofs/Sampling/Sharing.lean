import Mathlib.Data.Finset.Card
import Telemetry.Sampling

/-! Samplings that are shared by name.
Callers ask for a sampling by its name, keep a handle of it, and count through the handle. A
handle stands for one sampling of all that were made. Whoever made a second one for a name would
count apart from those who hold the first. Whatever callers do, there is one sampling for each
name that was asked for with a positive rate, and all handles for the name are handles of it. So
a registry that keeps its samplings by name, and counts by name, tells the same. -/
namespace Telemetry.Sampling

/-- All samplings that were made, and a table of their places in this list by name. A place is
what callers hold as a handle. -/
structure Pool where
  made : List Sampling
  table : List (String × Nat)

namespace Pool

def empty : Pool := ⟨[], []⟩

def get? (p : Pool) (name : String) : Option Nat :=
  p.table.lookup name

def size (p : Pool) : Nat :=
  p.table.length

/-- The handle of a name. Where the table has none, a sampling is made and put into the table;
where none can be made the pool stays as it is. -/
def getOrCreate (p : Pool) (name : String) (rate : Nat) : Except Fault Nat × Pool :=
  match p.get? name with
  | some handle => (.ok handle, p)
  | none =>
    match create name rate with
    | .ok s => (.ok p.made.length, ⟨p.made ++ [s], p.table ++ [(name, p.made.length)]⟩)
    | .error fault => (.error fault, p)

/-- Counts an invocation for the sampling of a handle. -/
def increment (p : Pool) (handle : Nat) : Pool :=
  { p with made := p.made.modify handle Sampling.increment }

end Pool

/-- What a caller did, and the answer. -/
inductive Event
  | getOrCreate (name : String) (rate : Nat) (answer : Except Fault Nat)
  | get (name : String) (answer : Option Nat)
  | increment (handle : Nat)

namespace Event

/-- The handle that came with an answer, and the name that it was asked for by. -/
def obtained? : Event → Option (String × Nat)
  | .getOrCreate name _ (.ok handle) => some (name, handle)
  | .get name (some handle) => some (name, handle)
  | _ => none

/-- A name and a rate with which a sampling can be made. -/
def creation? : Event → Option (String × Nat)
  | .getOrCreate name rate _ => if 0 < rate then some (name, rate) else none
  | _ => none

/-- An invocation was counted through a handle that was obtained for a name. -/
def counts (handles : List (String × Nat)) (name : String) : Event → Bool
  | .increment handle => handles.contains (name, handle)
  | _ => false

def isIncrement (handle : Nat) : Event → Bool
  | .increment other => other == handle
  | _ => false

end Event

def handles (log : List Event) : List (String × Nat) :=
  log.filterMap Event.obtained?

def creations (log : List Event) : List (String × Nat) :=
  log.filterMap Event.creation?

/-- How often an invocation was counted through handles for a name. -/
def counted (log : List Event) (name : String) : Nat :=
  log.countP (Event.counts (handles log) name)

/-- What happened since there was nothing, and what came of it: the samplings behind the handles,
and the registry of those who count by name. Invocations are counted through handles that were
obtained before. -/
inductive History : List Event → Pool → Registry → Prop
  | start : History [] .empty .empty
  | getOrCreate {log : List Event} {p : Pool} {r : Registry} (before : History log p r)
    (name : String) (rate : Nat) :
    History (log ++ [.getOrCreate name rate (p.getOrCreate name rate).1])
      (p.getOrCreate name rate).2 (r.getOrCreate name rate).2
  | get {log : List Event} {p : Pool} {r : Registry} (before : History log p r) (name : String) :
    History (log ++ [.get name (p.get? name)]) p r
  | increment {log : List Event} {p : Pool} {r : Registry} (before : History log p r)
    {name : String} {handle : Nat} (obtained : (name, handle) ∈ handles log) :
    History (log ++ [.increment handle]) (p.increment handle) (r.increment name)

theorem eq_of_creation? {name other : String} {rate positive : Nat} {answer : Except Fault Nat}
    (creation : (Event.getOrCreate name rate answer).creation? = some (other, positive)) :
    name = other ∧ rate = positive ∧ 0 < rate := by
  rw [Event.creation?, Option.ite_none_right_eq_some, Option.some_inj, Prod.mk.injEq] at creation
  exact ⟨creation.2.1, creation.2.2, creation.1⟩

theorem filterMap_concat {α β : Type} (f : α → Option β) (items : List α) (item : α) :
    (items ++ [item]).filterMap f = items.filterMap f ++ (f item).toList := by
  rw [List.filterMap_append, List.filterMap_cons]
  cases f item <;> rfl

theorem handles_concat (log : List Event) (e : Event) :
    handles (log ++ [e]) = handles log ++ e.obtained?.toList :=
  filterMap_concat ..

theorem creations_concat (log : List Event) (e : Event) :
    creations (log ++ [e]) = creations log ++ e.creation?.toList :=
  filterMap_concat ..

theorem lookup_concat (table : List (String × Nat)) (name other : String) (n : Nat) :
    (table ++ [(name, n)]).lookup other =
      (table.lookup other).or (if other = name then some n else none) := by
  rw [List.lookup_append]
  congr 1
  by_cases same : other = name
  · simp [same]
  · rw [if_neg same, List.lookup_cons, beq_false_of_ne same, List.lookup_nil]

theorem getElem?_concat_iff {made : List Sampling} {s t : Sampling} {i : Nat} :
    (made ++ [s])[i]? = some t ↔ made[i]? = some t ∨ (i = made.length ∧ s = t) := by
  obtain inside | rfl | beyond := Nat.lt_trichotomy i made.length
  · rw [List.getElem?_append_left inside]
    simp [Nat.ne_of_lt inside]
  · simp
  · have outside : (made ++ [s])[i]? = none := by
      rw [List.getElem?_eq_none_iff, List.length_append, List.length_singleton]
      exact beyond
    rw [outside, List.getElem?_eq_none (Nat.le_of_lt beyond)]
    simp [Nat.ne_of_gt beyond]

namespace Registry

variable {r : Registry} {name : String} {rate : Nat}

theorem getOrCreate_found {s : Sampling} (found : r.get? name = some s) :
    r.getOrCreate name rate = (.ok s, r) := by
  rw [getOrCreate, found]

theorem getOrCreate_made (absent : r.get? name = none) (positive : 0 < rate) :
    r.getOrCreate name rate =
      (.ok ⟨name, rate, 0, positive⟩, ⟨r.entries ++ [⟨name, rate, 0, positive⟩]⟩) := by
  rw [getOrCreate, absent, create, dif_pos positive]

theorem getOrCreate_failed (absent : r.get? name = none) {fault : Fault}
    (failed : create name rate = .error fault) : r.getOrCreate name rate = (.error fault, r) := by
  rw [getOrCreate, absent, failed]

theorem get?_concat (r : Registry) (s : Sampling) (name : String) :
    (Registry.mk (r.entries ++ [s])).get? name =
      (r.get? name).or (if name = s.name then some s else none) := by
  rw [get?, List.find?_append, get?, List.find?_singleton]
  by_cases same : name = s.name
  · simp [same]
  · simp [same, Ne.symm same]

theorem rate_increment (r : Registry) (name other : String) :
    ((r.increment name).get? other).map Sampling.rate = (r.get? other).map Sampling.rate := by
  have rated : (Sampling.rate ∘ fun s : Sampling => if s.name == name then s.increment else s) =
      Sampling.rate := by
    funext s
    rw [Function.comp_apply]
    split <;> rfl
  rw [get?_increment, Option.map_map, rated]

end Registry

namespace Pool

variable {p : Pool} {name : String} {rate : Nat}

theorem getOrCreate_found {handle : Nat} (found : p.get? name = some handle) :
    p.getOrCreate name rate = (.ok handle, p) := by
  rw [getOrCreate, found]

theorem getOrCreate_made (absent : p.get? name = none) (positive : 0 < rate) :
    p.getOrCreate name rate = (.ok p.made.length,
      ⟨p.made ++ [⟨name, rate, 0, positive⟩], p.table ++ [(name, p.made.length)]⟩) := by
  rw [getOrCreate, absent, create, dif_pos positive]

theorem getOrCreate_failed (absent : p.get? name = none) {fault : Fault}
    (failed : create name rate = .error fault) : p.getOrCreate name rate = (.error fault, p) := by
  rw [getOrCreate, absent, failed]

theorem get?_concat_iff (absent : p.get? name = none) (made : List Sampling) (n : Nat)
    (other : String) (handle : Nat) :
    (Pool.mk made (p.table ++ [(name, n)])).get? other = some handle ↔
      p.get? other = some handle ∨ (handle = n ∧ name = other) := by
  rw [get?, lookup_concat, Option.or_eq_some_iff]
  by_cases same : other = name
  · subst same
    rw [get?] at absent
    simp [absent, get?, eq_comm]
  · simp [same, Ne.symm same, get?]

theorem getElem?_increment (p : Pool) (handle i : Nat) : (p.increment handle).made[i]? =
    p.made[i]?.map fun s => if handle = i then s.increment else s :=
  List.getElem?_modify ..

theorem name_increment (p : Pool) (handle i : Nat) :
    (p.increment handle).made[i]?.map Sampling.name = p.made[i]?.map Sampling.name := by
  rw [getElem?_increment, Option.map_map]
  congr 1
  funext s
  rw [Function.comp_apply]
  split <;> rfl

/-- What the sampling of a handle has counted. A handle of none has counted nothing. -/
def count (p : Pool) (handle : Nat) : Nat :=
  (p.made[handle]?.map fun s => s.count.toNat).getD 0

theorem count_eq {s : Sampling} {handle : Nat} (there : p.made[handle]? = some s) :
    p.count handle = s.count.toNat := by
  rw [count, there, Option.map_some, Option.getD_some]

/-- A sampling that is made has counted nothing, as if it were not there. -/
theorem count_concat (p : Pool) {s : Sampling} (fresh : s.count = 0) (table : List (String × Nat))
    (i : Nat) : (Pool.mk (p.made ++ [s]) table).count i = p.count i := by
  by_cases last : i = p.made.length
  · simp [count, last, fresh]
  · have before : (p.made ++ [s])[i]? = p.made[i]? := by
      apply Option.ext
      intro t
      simp [getElem?_concat_iff, last]
    rw [count, before, count]

theorem count_increment {s : Sampling} {handle : Nat} (there : p.made[handle]? = some s) :
    (p.increment handle).count handle = (p.count handle + 1) % 2 ^ 64 := by
  rw [count, getElem?_increment, count_eq there, there, Option.map_some, if_pos rfl,
    Option.map_some, Option.getD_some, toNat_increment]

theorem count_increment_other {handle i : Nat} (other : handle ≠ i) :
    (p.increment handle).count i = p.count i := by
  rw [count, getElem?_increment, count]
  simp only [if_neg other, Option.map_id']

end Pool

/-- The table and the registry are both as the samplings that were made. -/
structure Stored (p : Pool) (r : Registry) : Prop where
  entries : r.entries = p.made
  size : p.size = p.made.length
  place_iff : ∀ name handle,
    p.get? name = some handle ↔ ∃ s, p.made[handle]? = some s ∧ s.name = name

/-- The samplings that were made, in the table and in the registry, are as the history tells. -/
structure Shares (log : List Event) (p : Pool) (r : Registry) : Prop extends Stored p r where
  obtained_iff : ∀ name handle, (name, handle) ∈ handles log ↔ p.get? name = some handle
  rates : ∀ name, (r.get? name).map Sampling.rate = (creations log).lookup name
  counts : ∀ handle, p.count handle = log.countP (Event.isIncrement handle) % 2 ^ 64

variable {log : List Event} {p : Pool} {r : Registry}

theorem shares_start : Shares [] .empty .empty := by
  refine ⟨⟨rfl, rfl, ?_⟩, ?_, fun name => rfl, fun handle => rfl⟩
  · intro name handle
    simp [Pool.empty, Pool.get?]
  · intro name handle
    simp [handles, Pool.empty, Pool.get?]

namespace Stored

variable {name : String} {rate handle : Nat}

/-- The registry has the sampling whose handle the table has. -/
theorem get?_eq (stored : Stored p r) (name : String) :
    r.get? name = (p.get? name).bind (p.made[·]?) := by
  cases found : p.get? name with
  | some handle =>
    obtain ⟨s, there, named⟩ := (stored.place_iff name handle).mp found
    obtain ⟨inside, here⟩ := List.getElem?_eq_some_iff.mp there
    rw [Option.bind_some, there, Registry.get?, stored.entries, List.find?_eq_some_iff_getElem]
    refine ⟨beq_iff_eq.mpr named, handle, inside, here, ?_⟩
    intro j earlier
    rw [Bool.not_eq_true', beq_eq_false_iff_ne]
    intro same
    have again := (stored.place_iff name j).mpr ⟨_, List.getElem?_eq_getElem _, same⟩
    rw [found, Option.some_inj] at again
    exact Nat.ne_of_gt earlier again
  | none =>
    rw [Option.bind_none, Registry.get?, stored.entries, List.find?_eq_none]
    intro s member
    rw [beq_iff_eq]
    intro named
    obtain ⟨handle, there⟩ := List.mem_iff_getElem?.mp member
    have listed := (stored.place_iff name handle).mpr ⟨s, there, named⟩
    rw [found] at listed
    cases listed

theorem exists_sampling (stored : Stored p r) (found : p.get? name = some handle) :
    ∃ s, p.made[handle]? = some s ∧ s.name = name ∧ r.get? name = some s := by
  obtain ⟨s, there, named⟩ := (stored.place_iff name handle).mp found
  refine ⟨s, there, named, ?_⟩
  rw [stored.get?_eq, found, Option.bind_some, there]

theorem get?_eq_none_iff (stored : Stored p r) (name : String) :
    r.get? name = none ↔ p.get? name = none := by
  cases found : p.get? name with
  | some handle =>
    obtain ⟨s, _, _, known⟩ := stored.exists_sampling found
    simp [known]
  | none =>
    rw [stored.get?_eq, found]
    simp

theorem place_unique (stored : Stored p r) {i j : Nat} {s t : Sampling}
    (first : p.made[i]? = some s) (second : p.made[j]? = some t) (same : s.name = t.name) :
    i = j := by
  have here := (stored.place_iff t.name i).mpr ⟨s, first, same⟩
  have there := (stored.place_iff t.name j).mpr ⟨t, second, rfl⟩
  exact Option.some.inj (here.symm.trans there)

theorem nodup_names (stored : Stored p r) : (r.entries.map Sampling.name).Nodup := by
  rw [stored.entries, List.Nodup, List.pairwise_map, List.pairwise_iff_getElem]
  intro i j first second before same
  have place := stored.place_unique (List.getElem?_eq_getElem first)
    (List.getElem?_eq_getElem second) same
  exact Nat.ne_of_lt before place

theorem made (stored : Stored p r) (absent : p.get? name = none) (positive : 0 < rate) :
    Stored ⟨p.made ++ [⟨name, rate, 0, positive⟩], p.table ++ [(name, p.made.length)]⟩
      ⟨r.entries ++ [⟨name, rate, 0, positive⟩]⟩ := by
  have longer : p.table.length = p.made.length := stored.size
  refine ⟨?_, ?_, ?_⟩
  · rw [stored.entries]
  · rw [Pool.size, List.length_append, List.length_append, longer]
    rfl
  · intro other handle
    rw [Pool.get?_concat_iff absent, stored.place_iff]
    simp only [getElem?_concat_iff]
    constructor
    · rintro (⟨s, there, named⟩ | ⟨last, named⟩)
      · exact ⟨s, .inl there, named⟩
      · exact ⟨_, .inr ⟨last, rfl⟩, named⟩
    · rintro ⟨s, there | ⟨last, rfl⟩, named⟩
      · exact .inl ⟨s, there, named⟩
      · exact .inr ⟨last, named⟩

theorem increment_entries (stored : Stored p r) (found : p.get? name = some handle) :
    (r.increment name).entries = (p.increment handle).made := by
  rw [Registry.increment, stored.entries]
  apply List.ext_getElem?
  intro i
  rw [List.getElem?_map, Pool.getElem?_increment]
  apply Option.map_congr
  intro s there
  obtain ⟨t, here, known⟩ := (stored.place_iff name handle).mp found
  have place : s.name = name ↔ handle = i := by
    constructor
    · intro named
      exact stored.place_unique here there (known.trans named.symm)
    · rintro rfl
      rw [here, Option.some_inj] at there
      rw [← there, known]
  simp only [beq_iff_eq, place]

theorem increment (stored : Stored p r) (found : p.get? name = some handle) :
    Stored (p.increment handle) (r.increment name) := by
  refine ⟨stored.increment_entries found, ?_, ?_⟩
  · rw [Pool.increment, List.length_modify]
    exact stored.size
  · intro other i
    have kept : (p.increment handle).get? other = p.get? other := rfl
    rw [kept, stored.place_iff, ← Option.map_eq_some_iff, ← Option.map_eq_some_iff,
      Pool.name_increment]

end Stored

namespace Shares

variable {name : String} {rate handle : Nat}

/-- An event that counts nothing, gives no handle but that of the table and makes no sampling. -/
theorem told {e : Event} (shares : Shares log p r)
    (known : ∀ name handle, e.obtained? = some (name, handle) → p.get? name = some handle)
    (made : ∀ name rate, e.creation? = some (name, rate) → r.get? name ≠ none)
    (still : ∀ handle, e.isIncrement handle = false) : Shares (log ++ [e]) p r := by
  refine ⟨shares.toStored, ?_, ?_, ?_⟩
  · intro name handle
    rw [handles_concat, List.mem_append, Option.mem_toList, shares.obtained_iff]
    constructor
    · rintro (before | here)
      · exact before
      · exact known name handle here
    · exact .inl
  · intro name
    rw [creations_concat, shares.rates]
    cases created : e.creation? with
    | none => rw [Option.toList_none, List.append_nil]
    | some c =>
      obtain ⟨other, rate⟩ := c
      rw [Option.toList_some, lookup_concat, ← shares.rates]
      by_cases same : name = other
      · subst same
        obtain ⟨s, there⟩ := Option.ne_none_iff_exists'.mp (made name rate created)
        rw [there]
        rfl
      · rw [if_neg same, Option.or_none]
  · intro handle
    rw [List.countP_append, List.countP_singleton, still handle]
    exact shares.counts handle

theorem made (shares : Shares log p r) (absent : p.get? name = none) (positive : 0 < rate) :
    Shares (log ++ [.getOrCreate name rate (.ok p.made.length)])
      ⟨p.made ++ [⟨name, rate, 0, positive⟩], p.table ++ [(name, p.made.length)]⟩
      ⟨r.entries ++ [⟨name, rate, 0, positive⟩]⟩ := by
  refine ⟨shares.toStored.made absent positive, ?_, ?_, ?_⟩
  · intro other handle
    rw [handles_concat, List.mem_append, shares.obtained_iff, Pool.get?_concat_iff absent]
    simp [Event.obtained?, and_comm, eq_comm]
  · intro other
    have creation : (Event.getOrCreate name rate (.ok p.made.length)).creation? =
        some (name, rate) := if_pos positive
    rw [Registry.get?_concat, creations_concat, creation, Option.toList_some, lookup_concat,
      Option.map_or, shares.rates]
    by_cases same : other = name
    · rw [if_pos same, if_pos same, Option.map_some]
    · rw [if_neg same, if_neg same, Option.map_none]
  · intro handle
    rw [p.count_concat rfl, shares.counts, List.countP_append, List.countP_singleton]
    rfl

theorem increment (shares : Shares log p r) (found : p.get? name = some handle) :
    Shares (log ++ [.increment handle]) (p.increment handle) (r.increment name) := by
  have stored := shares.toStored
  refine ⟨stored.increment found, ?_, ?_, ?_⟩
  · intro other i
    have nothing : (Event.increment handle).obtained? = none := rfl
    rw [handles_concat, nothing, Option.toList_none, List.append_nil]
    exact shares.obtained_iff other i
  · intro other
    have nothing : (Event.increment handle).creation? = none := rfl
    rw [creations_concat, nothing, Option.toList_none, List.append_nil, Registry.rate_increment]
    exact shares.rates other
  · intro i
    rw [List.countP_append, List.countP_singleton]
    by_cases here : handle = i
    · subst here
      obtain ⟨s, there, _⟩ := stored.exists_sampling found
      have once : Event.isIncrement handle (.increment handle) = true := beq_self_eq_true handle
      rw [Pool.count_increment there, shares.counts, once, if_pos rfl, Nat.mod_add_mod]
    · have other : Event.isIncrement i (.increment handle) = false := beq_false_of_ne here
      rw [Pool.count_increment_other here, shares.counts, other]
      rfl

end Shares

/-- What happens keeps the samplings shared. -/
theorem History.shares (history : History log p r) : Shares log p r := by
  induction history with
  | start => exact shares_start
  | @getOrCreate log p r _ name rate shares =>
    cases found : p.get? name with
    | some handle =>
      obtain ⟨s, _, _, there⟩ := shares.exists_sampling found
      rw [Pool.getOrCreate_found found, Registry.getOrCreate_found there]
      refine shares.told ?_ ?_ fun _ => rfl
      · rintro _ _ ⟨⟩
        exact found
      · intro other positive creation
        obtain ⟨rfl, _⟩ := eq_of_creation? creation
        rw [there]
        exact nofun
    | none =>
      have absent := (shares.get?_eq_none_iff name).mpr found
      by_cases positive : 0 < rate
      · rw [Pool.getOrCreate_made found positive, Registry.getOrCreate_made absent positive]
        exact shares.made found positive
      · have failed : create name rate = .error _ := dif_neg positive
        rw [Pool.getOrCreate_failed found failed, Registry.getOrCreate_failed absent failed]
        refine shares.told nofun ?_ fun _ => rfl
        intro other positive' creation
        obtain ⟨_, _, above⟩ := eq_of_creation? creation
        exact absurd above positive
  | @get log p r _ name shares =>
    refine shares.told ?_ nofun fun _ => rfl
    intro other handle obtained
    cases found : p.get? name with
    | some place =>
      rw [found] at obtained
      cases obtained
      exact found
    | none =>
      rw [found] at obtained
      cases obtained
  | increment _ obtained shares => exact shares.increment ((shares.obtained_iff _ _).mp obtained)

/-- All handles for a name are the one of the table, so what was counted through any of them was
counted through this one. -/
theorem Shares.counted_eq {name : String} {handle : Nat} (shares : Shares log p r)
    (found : p.get? name = some handle) :
    counted log name = log.countP (Event.isIncrement handle) := by
  apply List.countP_congr
  intro e _
  cases e with
  | increment other =>
    rw [Event.counts, Event.isIncrement, List.contains_iff_mem, shares.obtained_iff, found,
      Option.some_inj, beq_iff_eq]
    exact eq_comm
  | getOrCreate | get => exact Iff.rfl

theorem mem_creations_iff {name : String} :
    name ∈ (creations log).map Prod.fst ↔
      ∃ rate answer, 0 < rate ∧ Event.getOrCreate name rate answer ∈ log := by
  constructor
  · intro member
    obtain ⟨⟨_, rate⟩, created, rfl⟩ := List.mem_map.mp member
    obtain ⟨e, happened, creation⟩ := List.mem_filterMap.mp created
    cases e with
    | getOrCreate asked given answer =>
      obtain ⟨rfl, rfl, positive⟩ := eq_of_creation? creation
      exact ⟨given, answer, positive, happened⟩
    | get | increment => cases creation
  · rintro ⟨rate, answer, positive, happened⟩
    have created : (name, rate) ∈ creations log :=
      List.mem_filterMap.mpr ⟨.getOrCreate name rate answer, happened, if_pos positive⟩
    exact List.mem_map_of_mem created

theorem Shares.isSome_get?_iff (shares : Shares log p r) (name : String) :
    (r.get? name).isSome ↔ name ∈ (creations log).map Prod.fst := by
  rw [← Option.isSome_map (f := Sampling.rate), shares.rates, List.lookup_isSome_iff]
  simp

theorem Shares.size_eq (shares : Shares log p r) :
    r.size = ((creations log).map Prod.fst).toFinset.card := by
  have same : (r.entries.map Sampling.name).toFinset =
      ((creations log).map Prod.fst).toFinset := by
    ext name
    rw [List.mem_toFinset, List.mem_toFinset, ← shares.isSome_get?_iff, Registry.get?,
      List.find?_isSome]
    simp
  rw [← same, List.toFinset_card_of_nodup shares.nodup_names, List.length_map, Registry.size]

theorem Pool.fails_iff {name : String} {rate : Nat} {fault : Fault} :
    (p.getOrCreate name rate).1 = .error fault ↔
      p.get? name = none ∧ rate = 0 ∧ create name 0 = .error fault := by
  cases found : p.get? name with
  | some handle =>
    rw [getOrCreate_found found]
    simp
  | none =>
    by_cases positive : 0 < rate
    · rw [getOrCreate_made found positive]
      simp [Nat.ne_of_gt positive]
    · obtain rfl : rate = 0 := Nat.eq_zero_of_not_pos positive
      have failed : create name 0 = .error _ := dif_neg positive
      rw [getOrCreate_failed found failed, failed]
      simp

theorem Shares.sampling {name : String} {handle : Nat} (shares : Shares log p r)
    (found : p.get? name = some handle) :
    ∃ s, p.made[handle]? = some s ∧ r.get? name = some s ∧ s.name = name ∧
      (creations log).lookup name = some s.rate ∧ s.count.toNat = counted log name % 2 ^ 64 := by
  obtain ⟨s, there, named, known⟩ := shares.exists_sampling found
  have rate := shares.rates name
  rw [known, Option.map_some] at rate
  refine ⟨s, there, known, named, rate.symm, ?_⟩
  rw [shares.counted_eq found, ← shares.counts, Pool.count_eq there]

/-- What callers are told of samplings that are shared by name. -/
structure SharedByName (log : List Event) (p : Pool) (r : Registry) : Prop where
  /-- A name is found exactly if it was asked for with a positive rate. -/
  found_iff : ∀ name, (p.get? name).isSome ↔
    ∃ rate answer, 0 < rate ∧ Event.getOrCreate name rate answer ∈ log
  /-- All handles for a name are the one that is found, and are handles of no other name. -/
  handle_iff : ∀ name handle, (name, handle) ∈ handles log ↔ p.get? name = some handle
  apart : ∀ name other handle,
    (name, handle) ∈ handles log → (other, handle) ∈ handles log → name = other
  /-- The sampling of a handle has the first positive rate with which its name was asked for,
  and counts what was counted through all handles for the name. It is the one that those who
  count by name have. -/
  sampling : ∀ name handle, (name, handle) ∈ handles log →
    ∃ s, p.made[handle]? = some s ∧ r.get? name = some s ∧ s.name = name ∧
      (creations log).lookup name = some s.rate ∧ s.count.toNat = counted log name % 2 ^ 64
  /-- There are as many samplings as names that were asked for with a positive rate. -/
  size : p.size = ((creations log).map Prod.fst).toFinset.card ∧ r.size = p.size
  /-- Only a rate of zero for a name that is not there fails, and then nothing changes. -/
  fails_iff : ∀ name rate fault, (p.getOrCreate name rate).1 = .error fault ↔
    p.get? name = none ∧ rate = 0 ∧ create name 0 = .error fault
  unchanged : ∀ name rate fault, (p.getOrCreate name rate).1 = .error fault →
    (p.getOrCreate name rate).2 = p ∧ r.getOrCreate name rate = (.error fault, r)

/-- Whatever callers do, in whatever order: samplings are shared by their names. -/
theorem History.shared_by_name (history : History log p r) : SharedByName log p r := by
  have shares := history.shares
  have same : r.size = p.size := by rw [shares.size, ← shares.entries, Registry.size]
  constructor
  · intro name
    rw [← mem_creations_iff, ← shares.isSome_get?_iff, Option.isSome_iff_ne_none,
      Option.isSome_iff_ne_none, ne_eq, ne_eq, shares.get?_eq_none_iff]
  · exact shares.obtained_iff
  · intro name other handle first second
    obtain ⟨s, there, named⟩ :=
      (shares.place_iff name handle).mp ((shares.obtained_iff name handle).mp first)
    obtain ⟨t, again, known⟩ :=
      (shares.place_iff other handle).mp ((shares.obtained_iff other handle).mp second)
    rw [there, Option.some_inj] at again
    rw [← named, ← known, again]
  · intro name handle obtained
    exact shares.sampling ((shares.obtained_iff name handle).mp obtained)
  · exact ⟨same ▸ shares.size_eq, same⟩
  · intro name rate fault
    exact Pool.fails_iff
  · intro name rate fault fails
    obtain ⟨found, rfl, failed⟩ := Pool.fails_iff.mp fails
    rw [Pool.getOrCreate_failed found failed,
      Registry.getOrCreate_failed ((shares.get?_eq_none_iff name).mpr found) failed]
    exact ⟨rfl, rfl⟩

/-- A name is refused at first, and asked for again with another rate when it is there. Its two
handles count together, and apart from those of another name. -/
theorem History.shared_by_name_of_two :
    let log : List Event :=
      [.getOrCreate "cpu" 0
        (.error (.invalidConfiguration "sampling rate for 'cpu' must be positive")),
        .getOrCreate "cpu" 10 (.ok 0), .getOrCreate "disk" 3 (.ok 1), .increment 0,
        .getOrCreate "cpu" 99 (.ok 0), .increment 1, .increment 0]
    ∃ p r, History log p r ∧ p.size = 2 ∧
      ∃ s, r.get? "cpu" = some s ∧ s.rate = 10 ∧ s.count.toNat = 2 := by
  intro log
  have made := ((start.getOrCreate "cpu" 0).getOrCreate "cpu" 10).getOrCreate "disk" 3
  have once := @increment _ _ _ made "cpu" 0 (by decide +kernel)
  have beside := @increment _ _ _ (once.getOrCreate "cpu" 99) "disk" 1 (by decide +kernel)
  have history := @increment _ _ _ beside "cpu" 0 (by decide +kernel)
  have shared := shared_by_name history
  obtain ⟨s, _, known, _, rate, count⟩ := shared.sampling "cpu" 0 (by decide +kernel)
  have first : (creations log).lookup "cpu" = some 10 := by decide +kernel
  have both : counted log "cpu" = 2 := by decide +kernel
  refine ⟨_, _, history, ?_, s, known, ?_, ?_⟩
  · rw [shared.size.1]
    decide +kernel
  · exact Option.some.inj (rate.symm.trans first)
  · exact count.trans (congrArg (· % 2 ^ 64) both)

end Telemetry.Sampling
