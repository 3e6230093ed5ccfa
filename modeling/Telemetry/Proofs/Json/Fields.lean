import Mathlib.Data.List.Nodup
import Telemetry.Json.Fields
import Telemetry.Proofs.Json.Reading

/-! Records are read back from the objects that are written of them.
An object whose keys are the names of the fields gives each field its value. A field whose
member was taken out of the object gets its standard value, and no other field does. -/
namespace Telemetry.Json

/-- An object without the members of some keys. -/
def without (gone : String → Bool) : Json → Json
  | .obj members => .obj (members.filter fun m => !gone m.1)
  | j => j

/-- An object without the members of some keys, where the values of the other members are
also without the members of some keys. -/
def prune (top : String → Bool) (inside : String → String → Bool) : Json → Json
  | .obj members => (obj (members.map fun m => (m.1, m.2.without (inside m.1)))).without top
  | j => j

def members : Json → List (String × Json)
  | .obj members => members
  | _ => []

theorem memberDocuments_eq (members : List (String × Json)) :
    memberDocuments members = members.map fun m => (some m.1, m.2.document) := by
  induction members with
  | nil => rfl
  | cons m rest ih => rw [memberDocuments, ih, List.map_cons]

theorem keys_memberDocuments (members : List (String × Json)) :
    (memberDocuments members).map Prod.fst = (members.map Prod.fst).map some := by
  rw [memberDocuments_eq, List.map_map, List.map_map]
  rfl

theorem nat?_int {n bound : Nat} (small : n < bound) :
    (Json.int n).document.nat? bound = some n := by
  have digits : (toString (n : Int)).toList = Nat.toDigits 10 n := by
    rw [Token.toList_toString_int]
    simp
  have all : (Nat.toDigits 10 n).all Char.isDigit = true :=
    List.all_eq_true.mpr (Token.areDigits_toDigits n).2
  have value : (Nat.toDigits 10 n).foldl (fun n c => 10 * n + (c.toNat - 48)) 0 = n :=
    Nat.ofDigitChars_toDigits (by decide) (by decide)
  rw [document, Document.nat?, digits, if_pos all]
  simp only [value, if_pos small]

theorem entries?_map {α : Type} {f : α → Json} {read : Document → Option α}
    (reads : ∀ a, read (f a).document = some a) (entries : List (String × α)) :
    (Json.obj (entries.map fun e => (e.1, f e.2))).document.entries? read = some entries := by
  rw [document, Document.entries?, memberDocuments_eq, List.map_map]
  induction entries with
  | nil => rfl
  | cons e rest ih =>
    rw [List.map_cons, List.mapM_cons, ih]
    simp [reads]

namespace Fields

def kept (gone : String → Bool) (members : List (String × Json)) : Fields :=
  ⟨(members.filter fun m => !gone m.1).map fun m => (m.1, m.2.document)⟩

variable {members : List (String × Json)}

theorem ofMembers?_memberDocuments {names : List String}
    (known : ∀ m ∈ members, m.1 ∈ names) (distinct : (members.map (·.1)).Nodup) :
    ofMembers? names (memberDocuments members) =
      some (members.map fun m => (m.1, m.2.document)) := by
  induction members with
  | nil => rfl
  | cons m rest ih =>
    obtain ⟨absent, distinct⟩ := List.nodup_cons.mp distinct
    have others := ih (fun m member => known m (List.mem_cons_of_mem _ member)) distinct
    have named : names.contains m.1 = true := by
      simpa using known m List.mem_cons_self
    have once : ((rest.map fun m => (m.1, m.2.document)).any fun e => e.1 == m.1) = false := by
      rw [List.any_eq_false]
      intro e member
      obtain ⟨m', there, rfl⟩ := List.mem_map.mp member
      simpa using fun same => absent (List.mem_map.mpr ⟨m', there, same⟩)
    rw [memberDocuments, ofMembers?, others]
    simp only [Option.bind_eq_bind, Option.bind_some, named, once, if_true, Bool.false_eq_true,
      if_false, List.map_cons]

theorem find?_kept (distinct : (members.map (·.1)).Nodup) (gone : String → Bool)
    {name : String} {v : Json} (member : (name, v) ∈ members) :
    (kept gone members).find? name = if gone name then none else some v.document := by
  have sound (e : String × Document)
      (there : e ∈ (members.filter fun m => !gone m.1).map fun m => (m.1, m.2.document))
      (same : e.1 = name) : gone name = false ∧ e.2 = v.document := by
    obtain ⟨m, left, rfl⟩ := List.mem_map.mp there
    obtain ⟨listed, stays⟩ := List.mem_filter.mp left
    obtain rfl := List.inj_on_of_nodup_map distinct listed member same
    exact ⟨by simpa using stays, rfl⟩
  unfold find? kept
  cases found : ((members.filter fun m => !gone m.1).map fun m => (m.1, m.2.document)).find?
      (fun e => e.1 == name) with
  | none =>
    have missing : gone name = true := by
      by_contra stays
      refine List.find?_eq_none.mp found (name, v.document) (List.mem_map.mpr
        ⟨(name, v), List.mem_filter.mpr ⟨member, by simp [stays]⟩, rfl⟩) (beq_self_eq_true name)
    simp [missing]
  | some e =>
    obtain ⟨stays, value⟩ :=
      sound e (List.mem_of_find?_eq_some found) (by simpa using List.find?_some found)
    simp [stays, value]

/-- What is left of an object gives each field its value, unless the member is gone. -/
theorem exists_fields {j : Json} (names : List String) (object : j = .obj j.members)
    (keys : j.members.map (·.1) = names) (distinct : names.Nodup) (gone : String → Bool) :
    ∃ f, ofDocument? names (j.without gone).document = some f ∧
      ∀ (place : Nat) {α : Type} {name : String} {v : Json} {reader : Document → Option α}
        {value : α}, j.members[place]? = some (name, v) → reader v.document = some value →
        ∀ default : α,
          f.read name reader default = some (if gone name then default else value) := by
  subst keys
  refine ⟨kept gone j.members, ?_, fun place {α name v reader value} there reads default => ?_⟩
  · have known (m : String × Json) (member : m ∈ j.members.filter fun m => !gone m.1) :
        m.1 ∈ j.members.map (·.1) :=
      List.mem_map.mpr ⟨m, List.mem_of_mem_filter member, rfl⟩
    have still : ((j.members.filter fun m => !gone m.1).map (·.1)).Nodup :=
      distinct.sublist (List.filter_sublist.map _)
    rw [object, without, document, ofDocument?, members, ofMembers?_memberDocuments known still]
    rfl
  · unfold read
    rw [find?_kept distinct gone (List.mem_of_getElem? there)]
    cases gone name with
    | true => rfl
    | false => exact reads

end Fields
end Telemetry.Json
