import Mathlib.Data.Int.CardIntervalMod
import Telemetry.Logger.Activity
import Telemetry.Proofs.Logger.Isolation
import Telemetry.Proofs.Property.Inserting
import Telemetry.Sink.Probe
import Telemetry.Storage.Memory

/-! Pieces of work that are told of, one after another.
What happens during a run is written down as a list: records that are handed to the logger,
bodies that are run, and invocations that are counted. The list of a run follows from the
invocations, the outcomes of their bodies and the count at the start alone, and of the records
in it each sink is given those that its channel admits. -/
namespace Telemetry.Bench

variable {S α β : Type}

structure Invocation (S α β : Type) where
  work : EventId
  event : Event
  body : Bench S α → Outcome β × Bench S α

/-- One step of a run. -/
inductive Happening (S α β : Type)
  | emitted (r : Record)
  /-- A body was run, with an outcome, and took some milliseconds of the steady clock. -/
  | ran (body : Bench S α → Outcome β × Bench S α) (outcome : Outcome β) (elapsed : Nat)
  | counted

/-- What became of an invocation. -/
structure Account (S α β : Type) where
  invocation : Invocation S α β
  outcome : Outcome β
  elapsed : Nat

namespace Account

/-- The number of the work, with a name that is its label and a suffix. -/
def id (a : Account S α β) (tail : String) : EventId :=
  ⟨a.invocation.work.id, some (a.invocation.work.label ++ tail)⟩

def start (a : Account S α β) : Record :=
  ⟨a.id "Start", .information, .event a.invocation.event⟩

def failedEvent (a : Account S α β) (kind text : String) : Event :=
  { a.invocation.event with
    properties := a.invocation.event.properties.insert "error"
      (.map [("errorType", .text kind), ("errorMessage", .text text)]) }

def failed (a : Account S α β) (kind text : String) : Record :=
  ⟨a.id "Error", .error, .event (a.failedEvent kind text)⟩

def failure? (a : Account S α β) : Option Record :=
  match a.outcome with
  | .returned _ => none
  | .failed kind text => some (a.failed kind text)
  | .panicked none => some (a.failed "panic" "unknown panic")
  | .panicked (some text) => some (a.failed "panic" text)

def stop (a : Account S α β) : Record :=
  ⟨a.id "Stop", .information, .event { a.invocation.event with durationMs := some a.elapsed }⟩

/-- What happens during an invocation, told of or not. -/
def story (a : Account S α β) : Bool → List (Happening S α β)
  | true => [.emitted a.start, .ran a.invocation.body a.outcome a.elapsed] ++
      (a.failure?.map .emitted).toList ++ [.emitted a.stop, .counted]
  | false => [.ran a.invocation.body a.outcome a.elapsed, .counted]

end Account

/-- The invocation of an index, counted from zero, is told of. -/
def isTold : Option Sampling → Nat → Bool
  | none, _ => true
  | some s, i => (s.count.toNat + i) % 2 ^ 64 % s.rate == 0

/-- What happens during invocations of which the first one has an index. -/
def story (sampling : Option Sampling) : Nat → List (Account S α β) → List (Happening S α β)
  | _, [] => []
  | i, a :: rest => a.story (isTold sampling i) ++ story sampling (i + 1) rest

section Count

theorem countP_range_mod {rate : Nat} (positive : 0 < rate) (n : Nat) :
    (List.range n).countP (fun i => i % rate == 0) = (n + rate - 1) / rate := by
  have counted : (List.range n).countP (fun i => i % rate == 0) = n.count (· ≡ 0 [MOD rate]) :=
    List.countP_congr fun i _ => by
      rw [beq_iff_eq, decide_eq_true_iff]
      exact (Nat.modEq_zero_iff_dvd.trans (Nat.dvd_iff_mod_eq_zero ..)).symm
  have whole := Nat.div_add_mod n rate
  have below := Nat.mod_lt n positive
  rw [counted, Nat.count_modEq_card n positive, eq_comm, Nat.div_eq_iff positive, Nat.zero_mod]
  split <;> rw [Nat.add_mul, Nat.mul_comm] <;> omega

theorem countP_isTold {s : Sampling} (fresh : s.count = 0) {n : Nat} (bounded : n ≤ 2 ^ 64) :
    (List.range n).countP (isTold (some s)) = (n + s.rate - 1) / s.rate := by
  rw [← countP_range_mod s.rate_pos]
  refine List.countP_congr fun i member => ?_
  have below : i < 2 ^ 64 := Nat.lt_of_lt_of_le (List.mem_range.mp member) bounded
  have first : s.count.toNat = 0 := by rw [fresh, UInt64.toNat_zero]
  rw [isTold, first, Nat.zero_add, Nat.mod_eq_of_lt below]

theorem isTold_increment (s : Sampling) (i : Nat) :
    isTold (some s.increment) i = isTold (some s) (i + 1) := by
  have index :
      ((s.count.toNat + 1) % 2 ^ 64 + i) % 2 ^ 64 = (s.count.toNat + (i + 1)) % 2 ^ 64 := by
    omega
  rw [isTold, isTold, Sampling.toNat_increment, index, Sampling.increment]

theorem isHit_eq_isTold (s : Sampling) : s.isHit = isTold (some s) 0 := by
  rw [isTold, Nat.add_zero, Nat.mod_eq_of_lt s.count.toNat_lt, Sampling.isHit]

/-- After an invocation that was counted, indices begin with the next one. -/
theorem story_increment (sampling : Option Sampling) (i : Nat) (accounts : List (Account S α β)) :
    story (sampling.map Sampling.increment) i accounts = story sampling (i + 1) accounts := by
  induction accounts generalizing i with
  | nil => rfl
  | cons a rest ih =>
    have told : isTold (sampling.map Sampling.increment) i = isTold sampling (i + 1) := by
      cases sampling with
      | none => rfl
      | some s => exact isTold_increment s i
    rw [story, story, told, ih]

end Count

variable [Sink S α]

/-- What a list of happenings leads to, where invocations are counted for a sampling: a record
goes to every channel in turn. -/
inductive Leads (sampling : Option String) :
    Bench S α → List (Happening S α β) → Bench S α → Prop
  | done {b : Bench S α} : Leads sampling b [] b
  | emitted {b after : Bench S α} {r : Record} {rest : List (Happening S α β)}
    {channels : List (Channel α)} {w : World S}
    (dispatched : Logger.eachChannel (Channel.dispatch r) b.session.sink.channels
      b.session.world = (channels, w))
    (behind : Leads sampling { b with session := { b.session with
      sink := { b.session.sink with channels := channels }, world := w } } rest after) :
    Leads sampling b (.emitted r :: rest) after
  | ran {b after : Bench S α} {body : Bench S α → Outcome β × Bench S α}
    {rest : List (Happening S α β)} (behind : Leads sampling (body b).2 rest after) :
    Leads sampling b (.ran body (body b).1
      ((body b).2.session.world.steady - b.session.world.steady) :: rest) after
  | counted {b after : Bench S α} {rest : List (Happening S α β)}
    (behind : Leads sampling (b.count sampling) rest after) :
    Leads sampling b (.counted :: rest) after

def records (happenings : List (Happening S α β)) : List Record :=
  happenings.filterMap fun
    | .emitted r => some r
    | _ => none

/-- What the sinks were given, each behind the test of its channel. -/
def ears (heard : α → List Record) (b : Bench S α) : List ((Record → Bool) × List Record) :=
  b.session.sink.channels.map fun c => (c.admits, heard c.sink)

/-- Does pieces of work one after another. -/
def performAll (sampling : Option String) :
    List (Invocation S α β) → Bench S α → List (Outcome β) × Bench S α
  | [], b => ([], b)
  | c :: rest, b =>
    let (outcome, b) := b.perform c.work c.event sampling c.body
    let (outcomes, b) := performAll sampling rest b
    (outcome :: outcomes, b)

theorem Leads.append {sampling : Option String} {b between after : Bench S α}
    {first second : List (Happening S α β)} (here : Leads sampling b first between)
    (behind : Leads sampling between second after) : Leads sampling b (first ++ second) after := by
  induction here with
  | done => exact behind
  | emitted dispatched _ ih => exact .emitted dispatched (ih behind)
  | ran _ ih => exact .ran (ih behind)
  | counted _ ih => exact .counted (ih behind)

theorem ears_eachChannel {heard : α → List Record}
    (hears : ∀ r a (w : World S), heard (Sink.log r a w).2.1 = heard a ++ [r]) (r : Record)
    (channels : List (Channel α)) (w : World S) :
    (Logger.eachChannel (Channel.dispatch r) channels w).1.map
        (fun c => (c.admits, heard c.sink)) =
      channels.map fun c => (c.admits, heard c.sink ++ [r].filter c.admits) := by
  induction channels generalizing w with
  | nil => rfl
  | cons c rest ih =>
    obtain ⟨same, here⟩ := Logger.heard_dispatch hears r c w
    exact congrArg₂ List.cons (Prod.ext same here) (ih _)

/-- Where nothing that is run is heard, a sink hears of what is emitted all that its channel
admits. -/
theorem Leads.hears {sampling : Option String} {b after : Bench S α}
    {happenings : List (Happening S α β)} {heard : α → List Record}
    (hears : ∀ r a (w : World S), heard (Sink.log r a w).2.1 = heard a ++ [r])
    (silent : ∀ body outcome elapsed, Happening.ran body outcome elapsed ∈ happenings →
      ∀ b : Bench S α, (body b).2.ears heard = b.ears heard)
    (leads : Leads sampling b happenings after) :
    after.ears heard =
      (b.ears heard).map fun e => (e.1, e.2 ++ (records happenings).filter e.1) := by
  induction leads with
  | done => simp [records]
  | @emitted b after r rest channels w dispatched _ ih =>
    have here := ears_eachChannel hears r b.session.sink.channels b.session.world
    rw [dispatched] at here
    rw [ih fun body outcome elapsed member =>
      silent body outcome elapsed (List.mem_cons_of_mem _ member)]
    show (channels.map _).map _ = _
    rw [here, List.map_map, Bench.ears, List.map_map]
    refine List.map_congr_left fun c _ => ?_
    have parts : records (.emitted r :: rest) = [r] ++ records rest := rfl
    simp only [Function.comp_apply, parts, List.filter_append, List.append_assoc]
  | @ran b after body rest _ ih =>
    rw [ih fun body outcome elapsed member =>
      silent body outcome elapsed (List.mem_cons_of_mem _ member),
      silent body _ _ List.mem_cons_self]
    rfl
  | @counted b after rest _ ih =>
    have counted : (b.count sampling).ears heard = b.ears heard := by
      cases sampling <;> rfl
    rw [ih fun body outcome elapsed member =>
      silent body outcome elapsed (List.mem_cons_of_mem _ member), counted]
    rfl

omit [Sink S α] in
theorem mem_story {sampling : Option Sampling} {i : Nat} {accounts : List (Account S α β)}
    {body : Bench S α → Outcome β × Bench S α} {outcome : Outcome β} {elapsed : Nat}
    (member : Happening.ran body outcome elapsed ∈ story sampling i accounts) :
    body ∈ accounts.map (·.invocation.body) := by
  induction accounts generalizing i with
  | nil => cases member
  | cons a rest ih =>
    rcases List.mem_append.mp member with here | behind
    · have same : body = a.invocation.body := by
        cases told : isTold sampling i <;> simp_all [Account.story]
      exact List.mem_cons.mpr (.inl same)
    · exact List.mem_cons_of_mem _ (ih behind)

theorem leads_tellFailure (sampling : Option String) (a : Account S α β) (b : Bench S α) :
    Leads (β := β) sampling b (a.failure?.map Happening.emitted).toList
      (b.tellFailure a.invocation.work a.invocation.event a.outcome) := by
  obtain ⟨invocation, outcome, elapsed⟩ := a
  cases outcome with
  | returned value => exact .done
  | failed kind text => exact .emitted rfl .done
  | panicked text =>
    cases text with
    | none => exact .emitted rfl .done
    | some text => exact .emitted rfl .done

theorem perform_told {work : EventId} {e : Event} {sampling : Option String}
    {body : Bench S α → Outcome β × Bench S α} {b : Bench S α}
    (told : b.isSampled sampling = true) :
    b.perform work e sampling body =
      ((b.traced work e body).1, (b.traced work e body).2.count sampling) := by
  simp only [perform, told, if_true]

theorem perform_untold {work : EventId} {e : Event} {sampling : Option String}
    {body : Bench S α → Outcome β × Bench S α} {b : Bench S α}
    (untold : b.isSampled sampling = false) :
    b.perform work e sampling body = ((body b).1, (body b).2.count sampling) := by
  simp only [perform, untold, Bool.false_eq_true, if_false]

/-- One invocation has its body run once, and is counted once behind all that is told. -/
theorem leads_perform (sampling : Option String) (c : Invocation S α β) (b : Bench S α) :
    ∃ elapsed, Leads sampling b
      (Account.story ⟨c, (b.perform c.work c.event sampling c.body).1, elapsed⟩
        (b.isSampled sampling))
      (b.perform c.work c.event sampling c.body).2 := by
  cases told : b.isSampled sampling with
  | false =>
    rw [perform_untold told]
    exact ⟨(c.body b).2.session.world.steady - b.session.world.steady, .ran (.counted .done)⟩
  | true =>
    rw [perform_told told]
    let started := b.tell c.work "Start" .information c.event
    refine ⟨(c.body started).2.session.world.steady - started.session.world.steady,
      .emitted rfl (.ran ?_)⟩
    exact (leads_tellFailure sampling ⟨c, (c.body started).1, _⟩ _).append
      (.emitted rfl (.counted .done))

theorem samplings_tellFailure (work : EventId) (e : Event) (outcome : Outcome β) (b : Bench S α) :
    (b.tellFailure work e outcome).samplings = b.samplings := by
  unfold tellFailure
  split <;> rfl

theorem get?_perform {name : String} {c : Invocation S α β}
    (spares : ∀ b : Bench S α, (c.body b).2.samplings.get? name = b.samplings.get? name)
    (b : Bench S α) :
    (b.perform c.work c.event (some name) c.body).2.samplings.get? name =
      (b.samplings.get? name).map Sampling.increment := by
  cases told : b.isSampled (some name) with
  | false =>
    rw [perform_untold told]
    exact (Sampling.Registry.get?_increment_self _ _).trans (by rw [spares])
  | true =>
    have kept : (b.traced c.work c.event c.body).2.samplings.get? name = b.samplings.get? name := by
      show (tellFailure _ _ _ _).samplings.get? name = _
      rw [samplings_tellFailure, spares]
      rfl
    rw [perform_told told]
    exact (Sampling.Registry.get?_increment_self _ _).trans (by rw [kept])

omit [Sink S α] in
theorem isSampled_eq_isTold {sampling : Option Sampling} {b : Bench S α}
    (present : ∀ s ∈ sampling, b.samplings.get? s.name = some s) :
    b.isSampled (sampling.map (·.name)) = isTold sampling 0 := by
  cases sampling with
  | none => rfl
  | some s =>
    have there := present s rfl
    simp only [isSampled, Option.map_some, Option.bind_some, there, isHit_eq_isTold]

/-- The accounts of a run, and the sampling after it. -/
theorem exists_accounts (sampling : Option Sampling) (calls : List (Invocation S α β))
    (b : Bench S α) (present : ∀ s ∈ sampling, b.samplings.get? s.name = some s)
    (spares : ∀ s ∈ sampling, ∀ c ∈ calls, ∀ b : Bench S α,
      (c.body b).2.samplings.get? s.name = b.samplings.get? s.name) :
    (∃ accounts : List (Account S α β), accounts.map (·.invocation) = calls ∧
      accounts.map (·.outcome) = (performAll (sampling.map (·.name)) calls b).1 ∧
      Leads (sampling.map (·.name)) b (story sampling 0 accounts)
        (performAll (sampling.map (·.name)) calls b).2) ∧
    ∀ s ∈ sampling, ∃ s',
      (performAll (sampling.map (·.name)) calls b).2.samplings.get? s.name = some s' ∧
        s'.rate = s.rate ∧ s'.count.toNat = (s.count.toNat + calls.length) % 2 ^ 64 := by
  induction calls generalizing sampling b with
  | nil =>
    refine ⟨⟨[], rfl, rfl, .done⟩, fun s chosen => ⟨s, present s chosen, rfl, ?_⟩⟩
    exact (Nat.mod_eq_of_lt s.count.toNat_lt).symm
  | cons c rest ih =>
    let name := sampling.map (·.name)
    have same : (sampling.map Sampling.increment).map (·.name) = name := by
      rw [Option.map_map]
      rfl
    obtain ⟨elapsed, here⟩ := leads_perform name c b
    rw [isSampled_eq_isTold present] at here
    have present' : ∀ s ∈ sampling.map Sampling.increment,
        (b.perform c.work c.event name c.body).2.samplings.get? s.name = some s := by
      rintro s chosen
      obtain ⟨s, rfl, rfl⟩ := Option.mem_map.mp chosen
      exact (get?_perform (spares s rfl c List.mem_cons_self) b).trans (by rw [present s rfl]; rfl)
    have spares' : ∀ s ∈ sampling.map Sampling.increment, ∀ c ∈ rest, ∀ b : Bench S α,
        (c.body b).2.samplings.get? s.name = b.samplings.get? s.name := by
      rintro s chosen d member
      obtain ⟨s, rfl, rfl⟩ := Option.mem_map.mp chosen
      exact spares s rfl d (List.mem_cons_of_mem _ member)
    obtain ⟨⟨accounts, invocations, outcomes, behind⟩, counted⟩ := ih _ _ present' spares'
    rw [same] at outcomes behind counted
    rw [story_increment] at behind
    refine ⟨⟨⟨c, (b.perform c.work c.event name c.body).1, elapsed⟩ :: accounts, ?_, ?_, ?_⟩, ?_⟩
    · rw [List.map_cons, invocations]
    · rw [List.map_cons, outcomes]
      rfl
    · exact here.append behind
    · intro s chosen
      obtain ⟨s', there, rate, count⟩ := counted s.increment (Option.mem_map_of_mem _ chosen)
      refine ⟨s', there, rate, count.trans ?_⟩
      rw [Sampling.toNat_increment, List.length_cons]
      omega

omit [Sink S α] in
/-- Of the properties only the error is another one. -/
theorem property?_failedEvent (a : Account S α β) (kind text key : String) :
    (a.failedEvent kind text).property? key =
      if Text.sameFold "error" key then
        some (.map [("errorType", .text kind), ("errorMessage", .text text)])
      else a.invocation.event.property? key :=
  Properties.get?_insert ..

/-- Pieces of work done one after another, for no sampling or for one that is registered and
that their bodies leave alone: every body is run once and its outcome is given back. An
invocation is told of if its index hits the rate, counted on from what was counted before,
and not at all otherwise; what is told are a start, an error where the body failed or broke
down, and a stop. Each of these records goes to every channel, and where the bodies tell
nothing themselves, each sink is given those that its channel admits and no others. At the end
all invocations are counted. Of a sampling that has counted nothing one invocation in every
rate is told of, and all are without a sampling. -/
theorem performAll_told (sampling : Option Sampling) (calls : List (Invocation S α β))
    (b : Bench S α) (present : ∀ s ∈ sampling, b.samplings.get? s.name = some s)
    (spares : ∀ s ∈ sampling, ∀ c ∈ calls, ∀ b : Bench S α,
      (c.body b).2.samplings.get? s.name = b.samplings.get? s.name) :
    let name := sampling.map (·.name)
    let (outcomes, after) := performAll name calls b
    (∃ accounts : List (Account S α β), accounts.map (·.invocation) = calls ∧
      accounts.map (·.outcome) = outcomes ∧ Leads name b (story sampling 0 accounts) after ∧
      (∀ a ∈ accounts, ∀ kind text key, (a.failedEvent kind text).property? key =
        if Text.sameFold "error" key then
          some (.map [("errorType", .text kind), ("errorMessage", .text text)])
        else a.invocation.event.property? key) ∧
      ∀ heard : α → List Record,
        (∀ r a (w : World S), heard (Sink.log r a w).2.1 = heard a ++ [r]) →
        (∀ c ∈ calls, ∀ b : Bench S α, (c.body b).2.ears heard = b.ears heard) →
        after.ears heard =
          (b.ears heard).map fun e =>
            (e.1, e.2 ++ (records (story sampling 0 accounts)).filter e.1)) ∧
    (∀ s ∈ sampling, ∃ s', after.samplings.get? s.name = some s' ∧ s'.rate = s.rate ∧
      s'.count.toNat = (s.count.toNat + calls.length) % 2 ^ 64) ∧
    (∀ s ∈ sampling, s.count = 0 → calls.length ≤ 2 ^ 64 →
      (List.range calls.length).countP (isTold sampling) =
        (calls.length + s.rate - 1) / s.rate) ∧
    (sampling = none → (List.range calls.length).countP (isTold sampling) = calls.length) := by
  obtain ⟨⟨accounts, invocations, outcomes, leads⟩, counted⟩ :=
    exists_accounts sampling calls b present spares
  refine ⟨⟨accounts, invocations, outcomes, leads, fun a _ => property?_failedEvent a,
    fun heard hears silent => ?_⟩, counted, fun s chosen fresh bounded => ?_, fun unchosen => ?_⟩
  · refine leads.hears hears fun body outcome elapsed member => ?_
    obtain ⟨a, there, rfl⟩ := List.mem_map.mp (mem_story member)
    exact silent _ (invocations ▸ List.mem_map_of_mem there)
  · cases chosen
    exact countP_isTold fresh bounded
  · have all : ∀ i ∈ List.range calls.length, isTold none i = true := fun _ _ => rfl
    rw [unchosen, List.countP_eq_length.mpr all, List.length_range]

/-- Two invocations are told of on both sides of the wrap of the counter, the one after them
is not; a sink that breaks down does not matter. -/
theorem performAll_told_wrapping :
    let s : Sampling := ⟨"exec", 3, 18446744073709551615, by decide⟩
    let probe : Probe MemoryStore :=
      .ofManner { Probe.Manner.plain "probe" with answer := .panicked none }
    let world : World MemoryStore := .ofStore (.ofFiles [])
    let b : Bench MemoryStore (Probe MemoryStore) :=
      ⟨⟨⟨[.ofSink probe], Logger.standardTimeout⟩, world, 0⟩, ⟨[s]⟩⟩
    let call (body : Bench MemoryStore (Probe MemoryStore) →
        Outcome Nat × Bench MemoryStore (Probe MemoryStore)) :
        Invocation MemoryStore (Probe MemoryStore) Nat := ⟨.named "Exec", .ofActivity .nil, body⟩
    let calls := [call fun b => (.returned 3, b.spend 5),
      call fun b => (.failed "String" "exit code 2", b), call fun b => (.panicked none, b)]
    (∀ t ∈ some s, b.samplings.get? t.name = some t) ∧
    (∀ t ∈ some s, ∀ c ∈ calls, ∀ b, (c.body b).2.samplings.get? t.name = b.samplings.get? t.name) ∧
    (List.range 3).map (isTold (some s)) = [true, true, false] ∧
    (performAll (some "exec") calls b).2.session.sink.channels.map
        (·.sink.records.reverse.map (·.id.name)) =
      [[some "ExecStart", some "ExecStop", some "ExecStart", some "ExecError", some "ExecStop"]] ∧
    ∃ accounts : List (Account MemoryStore (Probe MemoryStore) Nat),
      accounts.map (·.outcome) =
        [.returned 3, .failed "String" "exit code 2", .panicked none] ∧
      Leads (some "exec") b (story (some s) 0 accounts) (performAll (some "exec") calls b).2 ∧
      (performAll (some "exec") calls b).2.session.sink.channels.map (·.sink.records.reverse) =
        [records (story (some s) 0 accounts)] := by
  intro s probe world b call calls
  have present : ∀ t ∈ some s, b.samplings.get? t.name = some t := by
    rintro t ⟨⟩
    rfl
  have spares : ∀ t ∈ some s, ∀ c ∈ calls, ∀ b : Bench MemoryStore (Probe MemoryStore),
      (c.body b).2.samplings.get? t.name = b.samplings.get? t.name := by
    intro t _ c member b
    simp only [calls, call, List.mem_cons, List.not_mem_nil, or_false] at member
    rcases member with rfl | rfl | rfl <;> rfl
  obtain ⟨⟨accounts, _, outcomes, leads, _, hears⟩, _⟩ :=
    performAll_told (some s) calls b present spares
  have given : (performAll (some "exec") calls b).1 =
      [.returned 3, .failed "String" "exit code 2", .panicked none] := by
    decide +kernel
  have silent : ∀ c ∈ calls, ∀ b : Bench MemoryStore (Probe MemoryStore),
      (c.body b).2.ears (·.records.reverse) = b.ears (·.records.reverse) := by
    intro c member b
    simp only [calls, call, List.mem_cons, List.not_mem_nil, or_false] at member
    rcases member with rfl | rfl | rfl <;> rfl
  have heard := congrArg (List.map Prod.snd)
    (hears (·.records.reverse) (fun _ _ _ => List.reverse_cons) silent)
  have all : (records (story (some s) 0 accounts)).filter (Channel.ofSink probe).admits =
      records (story (some s) 0 accounts) := List.filter_eq_self.mpr fun _ _ => rfl
  rw [ears, List.map_map, List.map_map] at heard
  refine ⟨present, spares, by decide, by decide +kernel, accounts, outcomes.trans given, leads,
    heard.trans ?_⟩
  exact congrArg (fun kept => [[] ++ kept]) all

end Telemetry.Bench
