import Mathlib.Data.List.Perm.Basic
import Telemetry.Proofs.Logger.Settling
import Telemetry.Proofs.Sink.Holdings

/-! What the channels of a logger hold in their files.
All channels work on one storage, each with files of its own. So what one channel does
moves its own holdings and leaves those of the others alone, whatever is done with the
logger: a record goes to the channels that admit it, and the rest brings no record. -/
namespace Telemetry
open LawfulStorage (content?)

variable {S α : Type} [Storage S] [LawfulStorage S] [Sink S α] [Settling S α] [Custodian S α]
  {before : String → Option String} {records records' : List (Instant × Record)}

namespace Channel

def admitted (c : Channel α) (records : List (Instant × Record)) : List (Instant × Record) :=
  records.filter fun x => c.admits x.2

/-- What a channel was made with and keeps: the records that it admits, and what its sink was
made with. -/
def label (c : Channel α) : (Record → Bool) × Custodian.Terms α :=
  (c.admits, Custodian.terms c.sink)

variable [Resting S α]

/-- What a channel holds of the records that were brought. -/
structure Holds (before : String → Option String) (records : List (Instant × Record))
    (c : Channel α) (w : World S) : Prop where
  free : c.call = none → Resting.Free c.sink
  holds : Custodian.Holds before (c.admitted records) c.sink (content? w.store)

theorem Holds.sound {c : Channel α} {w : World S} (holds : c.Holds before records w) : c.Sound :=
  ⟨Custodian.good holds.holds, holds.free⟩

theorem Holds.frame {c : Channel α} {w w' : World S}
    (same : ∀ path, Custodian.owns (Custodian.terms c.sink) path →
      content? w'.store path = content? w.store path)
    (holds : c.Holds before records w) : c.Holds before records w' :=
  ⟨holds.free, Custodian.frame same holds.holds⟩

/-- A channel was brought from one state to another one, and so were its files only. -/
structure Moved (before : String → Option String) (records : List (Instant × Record))
    (c : Channel α) (w : World S) (p : Channel α × World S) : Prop where
  holds : p.1.Holds before records p.2
  label_same : p.1.label = c.label
  outside : ∀ path, ¬ Custodian.owns (Custodian.terms c.sink) path →
    content? p.2.store path = content? w.store path

variable {c : Channel α} {w : World S}

theorem moved_refl (holds : c.Holds before records w) : Moved before records c w (c, w) :=
  ⟨holds, rfl, fun _ _ => rfl⟩

theorem Moved.trans {p q : Channel α × World S} (first : Moved before records c w p)
    (second : Moved before records' p.1 p.2 q) : Moved before records' c w q where
  holds := second.holds
  label_same := second.label_same.trans first.label_same
  outside path foreign := by
    have terms : Custodian.terms p.1.sink = Custodian.terms c.sink :=
      congrArg Prod.snd first.label_same
    rw [second.outside path (by rwa [terms]), first.outside path foreign]

theorem moved_of_sink {a : α} {w' : World S} {call : Option Call} {reporter : FailureReport}
    (free : call = none → Resting.Free a)
    (moved : Custodian.Moved before (c.admitted records) c.sink w (a, w')) :
    Moved before records c w ({ c with sink := a, call := call, reporter := reporter }, w') :=
  ⟨⟨free, moved.holds⟩, congrArg (Prod.mk c.admits) moved.terms_same, moved.outside⟩

theorem moved_conclude (now : Tick) (holds : c.Holds before records w) :
    Moved before records c w (c.conclude now w) := by
  have cases_ := c.conclude_cases now w
  generalize c.conclude now w = p at cases_ ⊢
  cases cases_ with
  | idle => exact moved_refl holds
  | waits => exact moved_refl holds
  | ends _ _ store =>
    have dropped : Custodian.Moved before (c.admitted records) c.sink w (Sink.endCall c.sink, w) :=
      Custodian.moved_quietly .drop nofun holds.holds
    exact moved_of_sink (fun _ => Resting.free_endCall c.sink) (dropped.of_store store)

theorem moved_endCall (holds : c.Holds before records w) :
    Moved before records c w (c.endCall, w) :=
  moved_of_sink (fun _ => Resting.free_endCall c.sink)
    (Custodian.moved_quietly .drop nofun holds.holds)

theorem moved_pollCall (now : Tick) (holds : c.Holds before records w) :
    Moved before records c w (c.pollCall now w) := by
  unfold pollCall
  split
  · rename_i calls
    have moved : Moved before records c w
        ({ c with sink := (Sink.pollCall now c.sink w).1 }, (Sink.pollCall now c.sink w).2) := by
      refine moved_of_sink (fun rest => ?_)
        (Custodian.moved_quietly (.callOn now) nofun holds.holds)
      rw [rest] at calls
      cases calls
    exact moved.trans (moved_conclude now moved.holds)
  · exact moved_refl holds

theorem moved_pollTasks (now : Tick) (holds : c.Holds before records w) :
    Moved before records c w (c.pollTasks now w) :=
  moved_of_sink (fun rest => (Resting.free_pollTasks now w).mpr (holds.free rest))
    (Custodian.moved_quietly (.tasksOn now) nofun holds.holds)

theorem moved_begin (op : Sink.Op) (noRecord : ∀ r, op ≠ .log r)
    {begin : α → World S → α × World S} (begins : ∀ a w, op.run a w = begin (Sink.endCall a) w)
    (operation : String) (now : Tick) (timeout : Span) (rest : c.call = none)
    (holds : c.Holds before records w) :
    Moved before records c w
      ((({ c with sink := (begin c.sink w).1 } : Channel α).expecting operation now
        timeout).conclude now (begin c.sink w).2) := by
  have begun := Custodian.moved_quietly op noRecord holds.holds
  rw [begins, Resting.endCall_free (holds.free rest)] at begun
  have moved : Moved before records c w
      (({ c with sink := (begin c.sink w).1 } : Channel α).expecting operation now timeout,
        (begin c.sink w).2) :=
    moved_of_sink nofun begun
  exact moved.trans (moved_conclude now moved.holds)

theorem moved_dispatch (r : Record) (holds : c.Holds before records w) :
    Moved before (records ++ [(w.wall, r)]) c w (c.dispatch r w) ∧
      (c.dispatch r w).2.wall = w.wall := by
  unfold dispatch
  split
  · rename_i admits
    have admitted :
        c.admitted (records ++ [(w.wall, r)]) = c.admitted records ++ [(w.wall, r)] := by
      simp [Channel.admitted, admits]
    have moved := Custodian.moved_op (.log r) holds.holds
    have wall : (Sink.log r c.sink w).2.2.wall = w.wall := Custodian.log_wall r c.sink w
    have free (rest : c.call = none) := Resting.free_log r w (holds.free rest)
    simp only [Sink.Op.run, Sink.Op.brought, ← admitted] at moved
    generalize Sink.log r c.sink w = p at moved wall free
    obtain ⟨answer, a, w'⟩ := p
    have taken : Moved before (records ++ [(w.wall, r)]) c w ({ c with sink := a }, w') :=
      moved_of_sink free moved
    cases answer with
    | accepted => exact ⟨taken, wall⟩
    | refused fault =>
      obtain ⟨reporter, w'', same, store, wall'⟩ :=
        ({ c with sink := a } : Channel α).report_store "log" fault.message w'
      simp only [same]
      exact ⟨moved_of_sink free (moved.of_store store), wall'.trans wall⟩
    | panicked text =>
      obtain ⟨reporter, w'', same, store, wall'⟩ :=
        ({ c with sink := a } : Channel α).report_store "log"
          ("sink panicked: " ++ text.getD "unknown panic") w'
      simp only [same]
      exact ⟨moved_of_sink free (moved.of_store store), wall'.trans wall⟩
  · rename_i refused
    have admitted : c.admitted (records ++ [(w.wall, r)]) = c.admitted records := by
      simp [Channel.admitted, refused]
    exact ⟨moved_refl ⟨holds.free, by rw [admitted]; exact holds.holds⟩, rfl⟩

end Channel

namespace Logger

/-- No two channels have a file in common. -/
def Apart (labels : List ((Record → Bool) × Custodian.Terms α)) : Prop :=
  labels.Pairwise fun a b => ∀ path, Custodian.owns a.2 path → ¬ Custodian.owns b.2 path

variable [Resting S α]

/-- Channels were brought from one state to another one, and so were their files only. -/
structure AllMoved (before : String → Option String) (records : List (Instant × Record))
    (l : List (Channel α)) (w : World S) (p : List (Channel α) × World S) : Prop where
  holds : ∀ c ∈ p.1, c.Holds before records p.2
  labels_same : p.1.map Channel.label = l.map Channel.label
  outside : ∀ path, (∀ c ∈ l, ¬ Custodian.owns (Custodian.terms c.sink) path) →
    content? p.2.store path = content? w.store path

theorem AllMoved.nil (w : World S) : AllMoved (α := α) before records [] w ([], w) :=
  ⟨nofun, rfl, fun _ _ => rfl⟩

/-- What is done with one channel and then with the others does not disturb any of them. -/
theorem AllMoved.cons {c : Channel α} {rest : List (Channel α)} {w : World S}
    {p : Channel α × World S} {q : List (Channel α) × World S}
    (apart : Apart ((c :: rest).map Channel.label)) (first : c.Moved before records w p)
    (later : AllMoved before records rest p.2 q) :
    AllMoved before records (c :: rest) w (p.1 :: q.1, q.2) where
  holds d member := by
    rcases List.mem_cons.mp member with rfl | there
    · refine first.holds.frame fun path mine => later.outside path fun other member => ?_
      have terms : Custodian.terms p.1.sink = Custodian.terms c.sink :=
        congrArg Prod.snd first.label_same
      rw [terms] at mine
      exact (List.pairwise_cons.mp apart).1 _ (List.mem_map_of_mem member) path mine
    · exact later.holds d there
  labels_same := congrArg₂ List.cons first.label_same later.labels_same
  outside path foreign := by
    rw [later.outside path fun d member => foreign d (List.mem_cons_of_mem _ member),
      first.outside path (foreign c List.mem_cons_self)]

theorem holds_rest {c : Channel α} {rest : List (Channel α)} {w : World S} {p : Channel α × World S}
    (apart : Apart ((c :: rest).map Channel.label)) (first : c.Moved before records' w p)
    (holds : ∀ d ∈ rest, d.Holds before records w) : ∀ d ∈ rest, d.Holds before records p.2 := by
  intro d member
  refine (holds d member).frame fun path yours => first.outside path fun mine => ?_
  exact (List.pairwise_cons.mp apart).1 _ (List.mem_map_of_mem member) path mine yours

/-- What moves each channel moves all of them. `G` is what is known of the surroundings. -/
theorem eachChannel_moved {f : Channel α → World S → Channel α × World S} {P : Channel α → Prop}
    {G : World S → Prop}
    (moves : ∀ c w, G w → P c → c.Holds before records w →
      c.Moved before records' w (f c w) ∧ G (f c w).2)
    {l : List (Channel α)} {w : World S} (apart : Apart (l.map Channel.label)) (around : G w)
    (all : ∀ c ∈ l, P c) (holds : ∀ c ∈ l, c.Holds before records w) :
    AllMoved before records' l w (eachChannel f l w) ∧ G (eachChannel f l w).2 := by
  induction l generalizing w with
  | nil => exact ⟨.nil w, around⟩
  | cons c rest ih =>
    obtain ⟨first, around'⟩ :=
      moves c w around (all c List.mem_cons_self) (holds c List.mem_cons_self)
    have others := holds_rest apart first fun d member => holds d (List.mem_cons_of_mem _ member)
    obtain ⟨later, around''⟩ := ih (List.pairwise_cons.mp apart).2 around'
      (fun d member => all d (List.mem_cons_of_mem _ member)) others
    exact ⟨.cons apart first later, around''⟩

/-- What the channels of a logger hold of the records that were brought to it. -/
structure Holds (before : String → Option String)
    (labels : List ((Record → Bool) × Custodian.Terms α)) (records : List (Instant × Record))
    (l : Logger α) (w : World S) : Prop where
  labels_same : l.channels.map Channel.label = labels
  holds : ∀ c ∈ l.channels, c.Holds before records w

variable {labels : List ((Record → Bool) × Custodian.Terms α)} {l : Logger α} {w : World S}

theorem Holds.sound (holds : l.Holds before labels records w) : Settling.Good l :=
  fun c member => (holds.holds c member).sound

theorem Holds.moved {p : List (Channel α) × World S} (holds : l.Holds before labels records w)
    (moved : AllMoved before records' l.channels w p) :
    Logger.Holds before labels records' { l with channels := p.1 } p.2 :=
  ⟨moved.labels_same.trans holds.labels_same, moved.holds⟩

/-- Something that brings no record is done with each channel. -/
theorem Holds.each {f : Channel α → World S → Channel α × World S} {P : Channel α → Prop}
    (moves : ∀ c w, P c → c.Holds before records w → c.Moved before records w (f c w))
    (apart : Apart labels) (all : ∀ c ∈ l.channels, P c) (holds : l.Holds before labels records w) :
    Logger.Holds before labels records (l.each f w).1 (l.each f w).2 := by
  have apart' : Apart (l.channels.map Channel.label) := holds.labels_same ▸ apart
  exact holds.moved (eachChannel_moved (G := fun _ => True)
    (fun c w _ pre holds => ⟨moves c w pre holds, trivial⟩) apart' trivial all holds.holds).1

theorem Holds.dispatch (r : Record) (apart : Apart labels)
    (holds : l.Holds before labels records w) :
    Logger.Holds before labels (records ++ [(w.wall, r)]) (l.each (Channel.dispatch r) w).1
      (l.each (Channel.dispatch r) w).2 := by
  have apart' : Apart (l.channels.map Channel.label) := holds.labels_same ▸ apart
  refine holds.moved (eachChannel_moved (P := fun _ => True) (G := fun w' => w'.wall = w.wall)
    (fun c w' wall _ holds => ?_) apart' rfl (fun _ _ => trivial) holds.holds).1
  rw [← wall]
  exact ⟨(Channel.moved_dispatch r holds).1, (Channel.moved_dispatch r holds).2⟩

theorem startChannels_moved (inRuntime : Bool) (now : Tick) {l : List (Channel α)}
    (holds : ∀ c ∈ l, c.Holds before records w) :
    (∀ c ∈ (startChannels inRuntime now l).2, c.Holds before records w) ∧
      (startChannels inRuntime now l).2.map Channel.label = l.map Channel.label := by
  induction l with
  | nil => exact ⟨holds, rfl⟩
  | cons c rest ih =>
    have here := holds c List.mem_cons_self
    have there (d : Channel α) (member : d ∈ rest) := holds d (List.mem_cons_of_mem _ member)
    obtain ⟨later, labels⟩ := ih there
    have started :
        c.Moved before records w ({ c with sink := (Sink.start inRuntime now c.sink).2 }, w) :=
      Channel.moved_of_sink (fun rest => Resting.free_start inRuntime now (here.free rest))
        (Custodian.moved_quietly (.start inRuntime now) nofun here.holds)
    unfold startChannels
    split
    · rename_i fault sink same
      rw [same] at started
      exact ⟨List.forall_mem_cons.mpr ⟨started.holds, there⟩, congrArg (· :: _) started.label_same⟩
    · rename_i sink same
      rw [same] at started
      exact ⟨List.forall_mem_cons.mpr ⟨started.holds, later⟩,
        congrArg₂ List.cons started.label_same labels⟩

theorem Holds.endCall (holds : l.Holds before labels records w) :
    Logger.Holds before labels records (Sink.endCall l) w where
  labels_same := by
    rw [← holds.labels_same]
    show (l.channels.map Channel.endCall).map Channel.label = _
    rw [List.map_map]
    exact List.map_congr_left fun c member =>
      (Channel.moved_endCall (holds.holds c member)).label_same
  holds c' member := by
    obtain ⟨c, there, rfl⟩ := List.mem_map.mp member
    exact (Channel.moved_endCall (holds.holds c there)).holds

omit [Storage S] [LawfulStorage S] [Settling S α] [Custodian S α] [Resting S α] in
theorem call_of_endCall (l : Logger α) : ∀ c ∈ (Sink.endCall l).channels, c.call = none := by
  intro c member
  obtain ⟨c', _, rfl⟩ := List.mem_map.mp member
  rfl

theorem Holds.op_quietly (op : Sink.Op) (noRecord : ∀ r, op ≠ .log r) (apart : Apart labels)
    (holds : l.Holds before labels records w) :
    Logger.Holds before labels records (op.run l w).1 (op.run l w).2 := by
  cases op with
  | log r => exact absurd rfl (noRecord r)
  | start inRuntime now =>
    obtain ⟨kept, same⟩ := startChannels_moved inRuntime now holds.holds
    exact ⟨same.trans holds.labels_same, kept⟩
  | flush now timeout =>
    exact holds.endCall.each (fun _ _ rest holds => Channel.moved_begin (.flush now timeout) nofun
      (fun _ _ => rfl) "flush" now timeout rest holds) apart (call_of_endCall l)
  | stop now timeout =>
    exact holds.endCall.each (fun _ _ rest holds => Channel.moved_begin (.stop now timeout) nofun
      (fun _ _ => rfl) "stop" now timeout rest holds) apart (call_of_endCall l)
  | callOn now =>
    exact holds.each (P := fun _ => True)
      (fun _ _ _ holds => Channel.moved_pollCall now holds) apart
      fun _ _ => trivial
  | tasksOn now =>
    exact holds.each (P := fun _ => True)
      (fun _ _ _ holds => Channel.moved_pollTasks now holds) apart
      fun _ _ => trivial
  | drop => exact holds.endCall
  | clocks wall steady =>
    exact ⟨holds.labels_same, fun c member =>
      ⟨(holds.holds c member).free, (holds.holds c member).holds⟩⟩

/-- Whatever is done with a logger, its channels hold in their files what they took in. -/
theorem Holds.op (op : Sink.Op) (apart : Apart labels) (holds : l.Holds before labels records w) :
    Logger.Holds before labels (records ++ op.brought w.wall) (op.run l w).1 (op.run l w).2 := by
  by_cases noRecord : ∀ r, op ≠ .log r
  · rw [Sink.Op.brought_eq_nil w.wall noRecord, List.append_nil]
    exact holds.op_quietly op noRecord apart
  · obtain ⟨r, same⟩ := not_forall.mp noRecord
    obtain rfl := not_not.mp same
    exact holds.dispatch r apart

end Logger
end Telemetry
