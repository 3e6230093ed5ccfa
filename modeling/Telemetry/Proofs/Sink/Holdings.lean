import Telemetry.Proofs.Sink.Operations
import Telemetry.Proofs.Storage.Lawful

/-! What sinks hold in files of their own.
Each sink writes to its own files only, so what it holds there does not depend on what
others do with theirs. Holdings are told from what the files held at first and from the
records that were brought since. -/
namespace Telemetry
open LawfulStorage (content?)
open Service (Keeps Continues)

/-- Whatever becomes of jobs, they keep `I`. -/
abbrev Service.Lasting {S σ κ : Type} [Duty σ κ] [Work S σ κ]
    (I : Stage S σ → List κ → Prop) : Prop :=
  Keeps I I fun _ _ => True

/-- Jobs that write to the files of their state only. -/
class Holding (S σ : Type) (κ : outParam Type) [Storage S] [LawfulStorage S] [Duty σ κ]
    [Work S σ κ] where
  Terms : Type
  /-- What a state was made with and keeps. -/
  terms : σ → Terms
  owns : Terms → String → Prop
  /-- What there is in the files, in the state and with the jobs, after what there was in the
  files before and after the records that were brought. -/
  Holds : (String → Option String) → List (Instant × Record) → σ → List κ →
    (String → Option String) → Prop
  frame : ∀ {before c c' : String → Option String} {h : List (Instant × Record)} {s : σ}
    {jobs : List κ}, (∀ path, owns (terms s) path → c' path = c path) → Holds before h s jobs c →
    Holds before h s jobs c'
  keeps : ∀ (before : String → Option String) (h : List (Instant × Record)) (m : Terms)
    (c : String → Option String), Service.Lasting fun (g : Stage S σ) (jobs : List κ) =>
      Holds before h g.state jobs (content? g.world.store) ∧ terms g.state = m ∧
        ∀ path, ¬ owns m path → content? g.world.store path = c path
  log : ∀ {before : String → Option String} {h : List (Instant × Record)} {g : Stage S σ}
    {jobs : List κ} (r : Record), Holds before h g.state jobs (content? g.world.store) →
    Holds before (h ++ [(g.world.wall, r)]) (Work.accept r g).state jobs (content? g.world.store) ∧
      terms (Work.accept r g).state = terms g.state
  accept_world : ∀ (r : Record) (g : Stage S σ),
    (Work.accept r g).world.store = g.world.store ∧ (Work.accept r g).world.wall = g.world.wall

/-- A sink that writes to its own files only. -/
class Custodian (S : outParam Type) (α : Type) [Storage S] [LawfulStorage S] [Sink S α]
    [Settling S α] where
  Terms : Type
  /-- What a sink was made with and keeps. -/
  terms : α → Terms
  owns : Terms → String → Prop
  Holds : (String → Option String) → List (Instant × Record) → α → (String → Option String) → Prop
  frame : ∀ {before c c' : String → Option String} {h : List (Instant × Record)} {a : α},
    (∀ path, owns (terms a) path → c' path = c path) → Holds before h a c → Holds before h a c'
  good : ∀ {before c : String → Option String} {h : List (Instant × Record)} {a : α},
    Holds before h a c → Settling.Good a
  op : ∀ {before : String → Option String} {h : List (Instant × Record)} {a : α} {w : World S}
    (op : Sink.Op), Holds before h a (content? w.store) →
    Holds before (h ++ op.brought w.wall) (op.run a w).1 (content? (op.run a w).2.store) ∧
      terms (op.run a w).1 = terms a ∧
      ∀ path, ¬ owns (terms a) path → content? (op.run a w).2.store path = content? w.store path
  log_wall : ∀ (r : Record) (a : α) (w : World S), ((Sink.Op.log r).run a w).2.wall = w.wall

section Service

variable {S σ κ : Type} [Storage S] [LawfulStorage S] [Duty σ κ] [Work S σ κ] [Holding S σ κ]

theorem Holding.op {before : String → Option String} {h : List (Instant × Record)}
    {s : Service S σ κ} {w : World S} (op : Sink.Op)
    (holds : Holding.Holds S before h s.state s.jobs (content? w.store)) :
    Holding.Holds S before (h ++ op.brought w.wall) (op.run s w).1.state (op.run s w).1.jobs
        (content? (op.run s w).2.store) ∧
      Holding.terms (S := S) (op.run s w).1.state = Holding.terms (S := S) s.state ∧
      ∀ path, ¬ Holding.owns (Holding.terms (S := S) s.state) path →
        content? (op.run s w).2.store path = content? w.store path := by
  by_cases noRecord : ∀ r, op ≠ .log r
  · rw [Sink.Op.brought_eq_nil w.wall noRecord, List.append_nil]
    exact (Holding.keeps (S := S) (σ := σ) before h (Holding.terms (S := S) s.state)
      (content? w.store)).op
      noRecord (s := s) (w := w) ⟨holds, rfl, fun _ _ => rfl⟩
  · obtain ⟨r, same⟩ := not_forall.mp noRecord
    obtain rfl := not_not.mp same
    obtain ⟨entered, kept⟩ := Holding.log (g := s.stage w) r holds
    have store : (Work.accept r (s.stage w)).world.store = w.store :=
      (Holding.accept_world r (s.stage w)).1
    refine ⟨?_, kept, fun path _ => ?_⟩
    · show Holding.Holds S before (h ++ [(w.wall, r)]) (Work.accept r (s.stage w)).state s.jobs
        (content? (Work.accept r (s.stage w)).world.store)
      rw [store]
      exact entered
    · show content? (Work.accept r (s.stage w)).world.store path = content? w.store path
      rw [store]

instance [Service.Paced S σ κ] : Custodian S (Service S σ κ) where
  Terms := Holding.Terms S σ
  terms s := Holding.terms (S := S) s.state
  owns := Holding.owns
  Holds before h s c := s.Rhythmic ∧ Holding.Holds S before h s.state s.jobs c
  frame same holds := ⟨holds.1, Holding.frame same holds.2⟩
  good holds := holds.1
  op {_ _ _ w} op holds :=
    have after := Holding.op op holds.2
    ⟨⟨Service.rhythmic_op w op holds.1, after.1⟩, after.2⟩
  log_wall r s w := (Holding.accept_world r (s.stage w)).2

end Service

namespace Custodian

variable {S α : Type} [Storage S] [LawfulStorage S] [Sink S α] [Settling S α] [Custodian S α]
  {before : String → Option String} {h : List (Instant × Record)} {a : α} {w : World S}
  {p : α × World S}

/-- A sink was brought from one state to another one, and so were its files only. -/
structure Moved (before : String → Option String) (h : List (Instant × Record)) (a : α)
    (w : World S) (p : α × World S) : Prop where
  holds : Holds before h p.1 (content? p.2.store)
  terms_same : terms p.1 = terms a
  outside : ∀ path, ¬ owns (terms a) path → content? p.2.store path = content? w.store path

theorem moved_op (op : Sink.Op) (holds : Holds before h a (content? w.store)) :
    Moved before (h ++ op.brought w.wall) a w (op.run a w) :=
  have after := Custodian.op op holds
  ⟨after.1, after.2.1, after.2.2⟩

theorem moved_quietly (op : Sink.Op) (noRecord : ∀ r, op ≠ .log r)
    (holds : Holds before h a (content? w.store)) : Moved before h a w (op.run a w) := by
  have moved := moved_op op holds
  rwa [Sink.Op.brought_eq_nil w.wall noRecord, List.append_nil] at moved

theorem Moved.of_store (moved : Moved before h a w p) {w' : World S}
    (store : w'.store = p.2.store) : Moved before h a w (p.1, w') := by
  obtain ⟨holds, terms_same, outside⟩ := moved
  rw [← store] at holds outside
  exact ⟨holds, terms_same, outside⟩

end Custodian
end Telemetry
