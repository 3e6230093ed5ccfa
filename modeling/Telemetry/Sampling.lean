import Telemetry.Fault

/-! Sampling of invocations: one in every `rate`, by a counter that wraps at
`2 ^ 64`, and a registry of samplings known by name. -/
namespace Telemetry

structure Sampling where
  name : String
  rate : Nat
  count : UInt64
  rate_pos : 0 < rate

namespace Sampling

/-- A sampling that has counted nothing; its rate has to be positive. -/
def create (name : String) (rate : Nat) : Except Fault Sampling :=
  if h : 0 < rate then .ok ⟨name, rate, 0, h⟩
  else .error (.invalidConfiguration ("sampling rate for '" ++ name ++ "' must be positive"))

/-- The invocation that comes next is a sampled one. -/
def isHit (s : Sampling) : Bool :=
  s.count.toNat % s.rate == 0

def increment (s : Sampling) : Sampling :=
  { s with count := s.count + 1 }

theorem toNat_increment (s : Sampling) :
    s.increment.count.toNat = (s.count.toNat + 1) % 2 ^ 64 := by
  rw [increment, UInt64.toNat_add, UInt64.toNat_one]

/-- Which of the next `n` invocations are sampled, counted from `index`, and the
sampling after them. -/
def run (s : Sampling) : Nat → Nat → List Nat × Sampling
  | 0, _ => ([], s)
  | n + 1, index =>
    let (hits, after) := run s.increment n (index + 1)
    (if s.isHit then index :: hits else hits, after)

structure Registry where
  entries : List Sampling

namespace Registry

def empty : Registry := ⟨[]⟩

def get? (r : Registry) (name : String) : Option Sampling :=
  r.entries.find? fun s => s.name == name

def size (r : Registry) : Nat :=
  r.entries.length

/-- The sampling of a name. One that is there keeps its rate and its count, else
one is created; where that fails the registry stays as it is. -/
def getOrCreate (r : Registry) (name : String) (rate : Nat) : Except Fault Sampling × Registry :=
  match r.get? name with
  | some s => (.ok s, r)
  | none =>
    match create name rate with
    | .ok s => (.ok s, ⟨r.entries ++ [s]⟩)
    | .error fault => (.error fault, r)

/-- Puts a sampling in the place of the one of its name. -/
def put (r : Registry) (s : Sampling) : Registry :=
  ⟨r.entries.map fun t => if t.name == s.name then s else t⟩

def increment (r : Registry) (name : String) : Registry :=
  ⟨r.entries.map fun t => if t.name == name then t.increment else t⟩

/-- Counting renames nothing, so a name finds what it found before, counted on if it is its own. -/
theorem get?_increment (r : Registry) (name other : String) :
    (r.increment name).get? other =
      (r.get? other).map fun s => if s.name == name then s.increment else s := by
  have named : ((fun s : Sampling => s.name == other) ∘
      fun s => if s.name == name then s.increment else s) = fun s => s.name == other := by
    funext s
    rw [Function.comp_apply]
    split <;> rfl
  rw [get?, increment, List.find?_map, named, get?]

theorem get?_increment_self (r : Registry) (name : String) :
    (r.increment name).get? name = (r.get? name).map Sampling.increment := by
  rw [get?_increment]
  refine Option.map_congr fun s found => ?_
  have its_own := List.find?_some found
  exact if_pos its_own

end Registry
end Sampling
end Telemetry
