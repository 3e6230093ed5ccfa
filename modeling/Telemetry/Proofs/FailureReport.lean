import Mathlib.Data.List.DropRight
import Mathlib.Data.List.Induction
import Telemetry.FailureReport

/-! Reports account for every failure.
A failure is told itself, or it is counted in the next line that tells one, or no line came
behind it. So the lines and the failures that still wait add up to all failures, and each line
has their number at its time. Lines are never closer than the interval. -/
namespace Telemetry

structure Failure where
  moment : Nat
  sink : String
  operation : String
  error : String

namespace FailureReport

def hear (r : FailureReport) (f : Failure) : FailureReport × Option Journal.Line :=
  r.report f.moment f.sink f.operation f.error

/-- The reporter when it has heard of failures, one after another. -/
def hearAll (r : FailureReport) (failures : List Failure) : FailureReport :=
  failures.foldl (fun r f => (r.hear f).1) r

structure Answer where
  failure : Failure
  line : Option Journal.Line

namespace Answer

def isTold (a : Answer) : Bool :=
  a.line.isSome

/-- The failures that the line of an answer counts besides the one that it tells. -/
def suppressed (a : Answer) : Nat :=
  match a.line with
  | some (.failure _ _ _ _ suppressed) => suppressed
  | _ => 0

end Answer

def answers (r : FailureReport) : List Failure → List Answer
  | [] => []
  | f :: rest => ⟨f, (r.hear f).2⟩ :: answers (r.hear f).1 rest

/-- The answers that tell their failures. -/
def told (given : List Answer) : List Answer :=
  given.filter Answer.isTold

def waiting (given : List Answer) : Nat :=
  (given.rtakeWhile fun a => !a.isTold).length

theorem hearAll_concat (r : FailureReport) (failures : List Failure) (f : Failure) :
    r.hearAll (failures ++ [f]) = ((r.hearAll failures).hear f).1 :=
  List.foldl_append ..

theorem answers_concat (r : FailureReport) (failures : List Failure) (f : Failure) :
    r.answers (failures ++ [f]) = r.answers failures ++ [⟨f, ((r.hearAll failures).hear f).2⟩] := by
  induction failures generalizing r with
  | nil => rfl
  | cons g rest ih => exact congrArg _ (ih (r.hear g).1)

/-- What a reporter does with a failure. -/
inductive Heard (r : FailureReport) (f : Failure) : FailureReport × Option Journal.Line → Prop
  | told (due : ∀ last, r.lastTold = some last → r.interval ≤ f.moment - last) :
    Heard r f ({ r with lastTold := some f.moment, pending := 0, total := r.total + 1 },
      some (.failure f.sink f.operation f.error (r.total + 1) r.pending))
  | counted {last : Nat} (before : r.lastTold = some last)
    (early : f.moment - last < r.interval) :
    Heard r f ({ r with pending := r.pending + 1, total := r.total + 1 }, none)

theorem heard_hear (r : FailureReport) (f : Failure) : Heard r f (r.hear f) := by
  obtain ⟨interval, lastTold, pending, total⟩ := r
  unfold hear report isDue
  cases lastTold with
  | none => exact .told nofun
  | some last =>
    by_cases due : interval ≤ f.moment - last
    · simp only [due, decide_true, if_true]
      apply Heard.told
      intro last' given
      cases given
      exact due
    · simp only [due, decide_false, Bool.false_eq_true, if_false]
      exact .counted rfl (Nat.lt_of_not_le due)

section Answers

variable {given : List Answer} {a : Answer}

theorem told_concat_told (isTold : a.isTold = true) : told (given ++ [a]) = told given ++ [a] := by
  rw [told, List.filter_append, List.filter_cons_of_pos isTold, List.filter_nil, told]

theorem told_concat_counted (counted : a.isTold = false) : told (given ++ [a]) = told given := by
  rw [told, List.filter_append, List.filter_cons_of_neg (by simp [counted]), List.filter_nil,
    List.append_nil, told]

theorem waiting_concat_told (isTold : a.isTold = true) : waiting (given ++ [a]) = 0 := by
  rw [waiting, List.rtakeWhile_concat_neg _ _ _ (by simp [isTold]), List.length_nil]

theorem waiting_concat_counted (counted : a.isTold = false) :
    waiting (given ++ [a]) = waiting given + 1 := by
  rw [waiting, List.rtakeWhile_concat_pos _ _ _ (by simp [counted]), List.length_append,
    List.length_singleton, waiting]

end Answers

/-- What a reporter with an interval notes of the failures that it has heard of. -/
structure Accounts (interval : Nat) (failures : List Failure) (given : List Answer)
    (r : FailureReport) : Prop where
  same : r.interval = interval
  total : r.total = failures.length
  pending : r.pending = waiting given
  last : r.lastTold = (told given).getLast?.map fun a => a.failure.moment
  sum : ((told given).map fun a => 1 + a.suppressed).sum + waiting given = failures.length
  begun : told given = [] → failures = []
  heard : ∀ a ∈ told given, a.failure ∈ failures
  apart : (told given).Pairwise fun a b => a.failure.moment + interval ≤ b.failure.moment

variable {interval : Nat} {failures : List Failure} {given : List Answer} {r : FailureReport}
  {f : Failure}

theorem accounts_nothing (interval : Nat) : Accounts interval [] [] (ofInterval interval) :=
  ⟨rfl, rfl, rfl, rfl, rfl, fun _ => rfl, nofun, .nil⟩

/-- The interval has passed since all lines if it has passed since the last one. -/
theorem Accounts.since_told (accounts : Accounts interval failures given r)
    (later : ∀ g ∈ failures, g.moment ≤ f.moment)
    (due : ∀ last, r.lastTold = some last → r.interval ≤ f.moment - last) :
    ∀ a ∈ told given, a.failure.moment + interval ≤ f.moment := by
  have last := accounts.last
  have heard := accounts.heard
  have apart := accounts.apart
  rw [accounts.same] at due
  rcases List.eq_nil_or_concat' (told given) with nothing | ⟨front, final, whole⟩
  · rw [nothing]
    exact nofun
  · rw [whole] at last heard apart ⊢
    rw [List.getLast?_concat] at last
    have behind := later _ (heard final (List.mem_append_right _ List.mem_cons_self))
    have passed : interval ≤ f.moment - final.failure.moment := due _ last
    -- `due` speaks of the last line only; the earlier ones are further away from it.
    intro a member
    rcases List.mem_append.mp member with earlier | final
    · have before := (List.pairwise_append.mp apart).2.2 a earlier final List.mem_cons_self
      omega
    · rw [List.mem_singleton.mp final]
      omega

theorem Accounts.hear (accounts : Accounts interval failures given r)
    (later : ∀ g ∈ failures, g.moment ≤ f.moment) :
    Accounts interval (failures ++ [f]) (given ++ [⟨f, (r.hear f).2⟩]) (r.hear f).1 := by
  have heard := heard_hear r f
  have since := accounts.since_told later
  obtain ⟨same, total, pending, last, sum, begun, known, apart⟩ := accounts
  have among {failures' : List Failure} (listed : ∀ a ∈ told given, a.failure ∈ failures) :
      ∀ a ∈ told given, a.failure ∈ failures ++ failures' :=
    fun a member => List.mem_append_left _ (listed a member)
  generalize r.hear f = result at heard
  cases heard with
  | told due =>
    have isTold : Answer.isTold ⟨f, some (.failure f.sink f.operation f.error (r.total + 1)
        r.pending)⟩ = true := rfl
    constructor
    · exact same
    · rw [List.length_append, List.length_singleton, total]
    · exact (waiting_concat_told isTold).symm
    · rw [told_concat_told isTold, List.getLast?_concat]
      rfl
    · have counted : Answer.suppressed ⟨f, some (.failure f.sink f.operation f.error (r.total + 1)
          r.pending)⟩ = r.pending := rfl
      rw [told_concat_told isTold, waiting_concat_told isTold, List.map_append, List.sum_append,
        List.map_singleton, List.sum_singleton, counted, List.length_append, List.length_singleton]
      omega
    · intro nothing
      rw [told_concat_told isTold] at nothing
      exact absurd nothing (List.append_ne_nil_of_right_ne_nil _ (List.cons_ne_nil _ _))
    · rw [told_concat_told isTold]
      intro a member
      rcases List.mem_append.mp member with before | final
      · exact among known a before
      · rw [List.mem_singleton.mp final]
        exact List.mem_append_right _ List.mem_cons_self
    · rw [told_concat_told isTold, List.pairwise_append]
      refine ⟨apart, List.pairwise_singleton _ _, fun a before b final => ?_⟩
      rw [List.mem_singleton.mp final]
      exact since due a before
  | counted before early =>
    have counted : Answer.isTold ⟨f, none⟩ = false := rfl
    constructor
    · exact same
    · rw [List.length_append, List.length_singleton, total]
    · rw [waiting_concat_counted counted, pending]
    · rw [told_concat_counted counted]
      exact last
    · rw [told_concat_counted counted, waiting_concat_counted counted, List.length_append,
        List.length_singleton]
      omega
    · rw [told_concat_counted counted]
      intro nothing
      rw [nothing, before] at last
      cases last
    · rw [told_concat_counted counted]
      exact among known
    · rw [told_concat_counted counted]
      exact apart

theorem failures_answers (r : FailureReport) (failures : List Failure) :
    (r.answers failures).map Answer.failure = failures := by
  induction failures generalizing r with
  | nil => rfl
  | cons f rest ih => exact congrArg _ (ih (r.hear f).1)

theorem accounts_hearAll (interval : Nat) {failures : List Failure}
    (ordered : failures.Pairwise fun a b => a.moment ≤ b.moment) :
    Accounts interval failures ((ofInterval interval).answers failures)
      ((ofInterval interval).hearAll failures) := by
  induction failures using List.reverseRecOn with
  | nil => exact accounts_nothing interval
  | append_singleton failures f ih =>
    obtain ⟨before, _, later⟩ := List.pairwise_append.mp ordered
    rw [hearAll_concat, answers_concat]
    exact (ih before).hear fun g member => later g member f List.mem_cons_self

/-- A failure is told if it is the first one or the interval has passed since the last one that
was told. -/
theorem Accounts.isSome_hear_iff (accounts : Accounts interval failures given r)
    (later : ∀ g ∈ failures, g.moment ≤ f.moment) :
    (r.hear f).2.isSome = true ↔ failures = [] ∨
      ∃ a, (told given).getLast? = some a ∧ a.failure.moment + interval ≤ f.moment := by
  have heard := heard_hear r f
  have since := accounts.since_told later
  obtain ⟨same, _, _, last, _, begun, known, _⟩ := accounts
  generalize r.hear f = result at heard
  cases heard with
  | told due =>
    refine iff_of_true rfl ?_
    cases final : (told given).getLast? with
    | none => exact .inl (begun (List.getLast?_eq_none_iff.mp final))
    | some a => exact .inr ⟨a, rfl, since due a (List.mem_of_getLast? final)⟩
  | @counted last' before early =>
    refine iff_of_false Bool.false_ne_true ?_
    rintro (nothing | ⟨a, final, passed⟩)
    · subst nothing
      have nothing : told given = [] :=
        List.eq_nil_iff_forall_not_mem.mpr fun a member => List.not_mem_nil (known a member)
      rw [nothing, before] at last
      cases last
    · rw [final, before] at last
      have moment : last' = a.failure.moment := Option.some.inj last
      rw [same, moment] at early
      omega

/-- Whatever the interval is, and whatever failures a reporter hears of while the clock does not
go back: it has counted all of them, and these are the ones that lines tell, the ones that lines
count besides, and the ones that still wait. Lines are at least the interval apart. The next
failure is told if it is the first one or the interval has passed since the last one that was
told, and its line has the number of all failures up to it and of those that waited. -/
theorem failures_accounted (interval : Nat) {failures : List Failure}
    (ordered : failures.Pairwise fun a b => a.moment ≤ b.moment) :
    let r := (ofInterval interval).hearAll failures
    let given := (ofInterval interval).answers failures
    given.map Answer.failure = failures ∧ r.total = failures.length ∧
    r.total = ((told given).map fun a => 1 + a.suppressed).sum + waiting given ∧
    ((told given).Pairwise fun a b => a.failure.moment + interval ≤ b.failure.moment) ∧
    ∀ f : Failure, (∀ g ∈ failures, g.moment ≤ f.moment) →
      ((r.hear f).2.isSome = true ↔ failures = [] ∨
        ∃ a, (told given).getLast? = some a ∧ a.failure.moment + interval ≤ f.moment) ∧
      ∀ line, (r.hear f).2 = some line →
        line = .failure f.sink f.operation f.error (failures.length + 1) (waiting given) := by
  intro r given
  have accounts : Accounts interval failures given r := accounts_hearAll interval ordered
  refine ⟨failures_answers _ failures, accounts.total, ?_, accounts.apart, fun f later => ?_⟩
  · rw [accounts.total, accounts.sum]
  · refine ⟨accounts.isSome_hear_iff later, fun line given => ?_⟩
    have heard := heard_hear r f
    rw [← accounts.total, ← accounts.pending]
    generalize r.hear f = result at heard given
    cases heard with
    | told _ => exact (Option.some.inj given).symm
    | counted _ _ => cases given

/-- Two of four failures are told, one is counted by the second line and one still waits for the
line of a fifth failure. -/
theorem failures_accounted_between_lines :
    let failure (moment : Nat) : Failure := ⟨moment, "rolling-csv", "flush", "disk full"⟩
    let failures := [0, 3, 10, 19].map failure
    let r := (ofInterval 10).hearAll failures
    let given := (ofInterval 10).answers failures
    (failures.Pairwise fun a b => a.moment ≤ b.moment) ∧
      (∀ g ∈ failures, g.moment ≤ (failure 20).moment) ∧
      (told given).map (fun a => (a.failure.moment, a.suppressed)) = [(0, 0), (10, 1)] ∧
      r.total = (1 + 0) + (1 + 1) + 1 ∧
      (r.hear (failure 20)).2 = some (.failure "rolling-csv" "flush" "disk full" 5 1) := by
  intro failure failures r given
  have ordered : failures.Pairwise fun a b => a.moment ≤ b.moment := by decide
  have later : ∀ g ∈ failures, g.moment ≤ (failure 20).moment := by decide
  have lines : (told given).map (fun a => (a.failure.moment, a.suppressed)) =
      [(0, 0), (10, 1)] := by decide
  obtain ⟨_, total, _, _, next⟩ := failures_accounted 10 ordered
  obtain ⟨isTold, line⟩ := next (failure 20) later
  refine ⟨ordered, later, lines, total, ?_⟩
  have due : (r.hear (failure 20)).2.isSome = true :=
    isTold.mpr (.inr ⟨⟨failure 10, some (.failure "rolling-csv" "flush" "disk full" 3 1)⟩,
      by rfl, by decide⟩)
  obtain ⟨told, heard⟩ := Option.isSome_iff_exists.mp due
  rw [heard, line told heard]
  rfl

end FailureReport
end Telemetry
