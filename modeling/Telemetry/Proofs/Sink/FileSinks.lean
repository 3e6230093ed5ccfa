import Telemetry.Csv.Sink
import Telemetry.Marker.Sink
import Telemetry.Proofs.Sink.Pausing
import Telemetry.Summary.Sink

/-! The sinks that write files only pause: their jobs wait between two attempts, and no
attempt changes the settings. -/
namespace Telemetry
open Service (Beside Discreet Pausing Untouched)

namespace Service

/-- Jobs that write what waits to files, in one attempt after another, under settings that
nothing changes. -/
class Filing (S σ : Type) (ς : outParam Type) [Duty σ Pause] [Work S σ Pause] where
  settings : σ → ς
  policy : ς → RetryPolicy
  intervalMs : ς → Nat
  write : σ → S → Except Fault Unit × σ × S
  begin_eq : ∀ (now : Tick) (g : Stage S σ),
    Work.begin now g = firstAttempts (policy (settings g.state)) now (Stage.onStore write) g
  resume_eq : ∀ (now : Tick) (pause : Pause) (g : Stage S σ), Work.resume now pause g =
    furtherAttempts (policy (settings g.state)) now (Stage.onStore write) pause g
  wake?_eq : ∀ (pause : Pause) (s : σ), Duty.wake? pause s = some pause.wake
  abandon_eq : ∀ (pause : Pause) (s : σ), Duty.abandon pause s = s
  taken : ∀ s : σ, Duty.takeNotice s = s
  silent : ∀ s : σ, Duty.hasNotice s = false
  rounds : ∀ s : σ, Duty.rounds s = 0
  patience : ∀ s : σ, Duty.patience s = (policy (settings s)).patience
  period : ∀ s : σ, Duty.period s = some (intervalMs (settings s))
  write_settings : ∀ (s : σ) (store : S), settings (write s store).2.1 = settings s
  accept_settings : ∀ (r : Record) (g : Stage S σ),
    settings (Work.accept r g).state = settings g.state

namespace Filing

variable {S σ ς : Type} [Duty σ Pause] [Work S σ Pause] [Filing S σ ς]

/-- What attempts in a row leave: the settings, and everything around but the storage. -/
theorem attempts_beside (policy : RetryPolicy) (now : Tick) (left retries : Nat) (g : Stage S σ) :
    let g' := (attempts policy now (Stage.onStore write) left retries g).2
    settings S g'.state = settings S g.state ∧
      g'.world = { g.world with store := g'.world.store } :=
  attempts_keep (P := fun g' : Stage S σ => settings S g'.state = settings S g.state ∧
      g'.world = { g.world with store := g'.world.store })
    (fun g' ⟨same, world⟩ => by
      have moved : (Stage.onStore write g').2.world =
          { g'.world with store := (Stage.onStore write g').2.world.store } := rfl
      exact ⟨(write_settings g'.state g'.world.store).trans same, moved.trans (by rw [world])⟩)
    left retries ⟨rfl, rfl⟩

instance : Discreet S σ Pause where
  begin now g := by
    rw [begin_eq]
    exact ⟨(attempts_beside ..).2, by simp [silent (S := S)]⟩
  resume now pause g := by
    rw [resume_eq]
    exact ⟨(attempts_beside ..).2, by simp [silent (S := S)]⟩
  taken s := by simp [silent (S := S)]

theorem untouched : Untouched S fun s : σ => settings S s where
  begin now g := by
    rw [begin_eq]
    exact (attempts_beside ..).1
  resume now pause g := by
    rw [resume_eq]
    exact (attempts_beside ..).1
  abandon pause s := by rw [abandon_eq (S := S)]
  notice s := by rw [taken (S := S)]

instance : Pausing S σ Pause where
  pause := id
  policy s := policy S σ (settings S s)
  wake? := wake?_eq S
  rounds := rounds S
  patience := patience
  begin_waits {now g g' pause} waits := by
    rw [begin_eq] at waits
    exact attempts_waiting (Nat.sub_zero _).symm waits
  resume_waits {now g g' pause pause'} waits := by
    rw [resume_eq] at waits
    exact furtherAttempts_waiting waits
  accept_same r g := by
    rw [period (S := S), period (S := S), accept_settings]
    exact ⟨rfl, rfl⟩
  policy_same := untouched.map (policy S σ)
  period_same := by
    have same := (untouched (S := S) (σ := σ)).map fun s => some (intervalMs S σ s)
    simpa only [period (S := S)] using same

end Filing
end Service

variable {S : Type} [Storage S]

namespace Csv.Table

theorem writeBuffer_settings (t : Table) (files : Files) (store : S) :
    (t.writeBuffer files store).2.1.settings = t.settings := by
  unfold writeBuffer
  split
  · rfl
  · split
    · rfl
    · simp only
      split <;> rfl

theorem write_settings (t : Table) (store : S) : (t.write store).2.1.settings = t.settings := by
  unfold write
  split
  · rfl
  · split
    · exact writeBuffer_settings t _ store
    · split
      · rfl
      · exact writeBuffer_settings _ _ _

instance : Service.Filing S Table Settings where
  settings := Table.settings
  policy := Settings.retry
  intervalMs := Settings.intervalMs
  write := write
  begin_eq _ _ := rfl
  resume_eq _ _ _ := rfl
  wake?_eq _ _ := rfl
  abandon_eq _ _ := rfl
  taken _ := rfl
  silent _ := rfl
  rounds _ := rfl
  patience _ := rfl
  period _ := rfl
  write_settings := write_settings
  accept_settings r g := by
    show (g.state.add g.world.wall r).settings = _
    unfold add
    split <;> rfl

end Csv.Table

namespace Summary.File

theorem write_settings (s : File) (store : S) : (s.write store).2.1.settings = s.settings := by
  unfold write
  split
  · rfl
  · simp only
    split
    · rfl
    · split <;> rfl

instance : Service.Filing S File Settings where
  settings := File.settings
  policy := Settings.retry
  intervalMs := Settings.intervalMs
  write := write
  begin_eq _ _ := rfl
  resume_eq _ _ _ := rfl
  wake?_eq _ _ := rfl
  abandon_eq _ _ := rfl
  taken _ := rfl
  silent _ := rfl
  rounds _ := rfl
  patience _ := rfl
  period _ := rfl
  write_settings := write_settings
  accept_settings r g := by
    show (g.state.add g.world.wall r).settings = _
    unfold add
    split <;> rfl

end Summary.File

namespace Marker.File

theorem attempts_state (content : String) (policy : RetryPolicy) (now : Tick) (left retries : Nat)
    (g : Stage S File) :
    (attempts policy now (attempt content) left retries g).2.state = g.state :=
  attempts_keep (P := fun g' : Stage S File => g'.state = g.state) (fun _ same => same) left
    retries rfl

omit [Storage S] in
theorem conclude_settings (content : String) (p : Progress Pause × Stage S File) :
    (conclude content p).2.state.settings = p.2.state.settings := by
  unfold conclude
  split <;> rfl

omit [Storage S] in
theorem conclude_waiting {content : String} {p : Progress Pause × Stage S File}
    {job : Writing} {g : Stage S File} (waits : conclude content p = (.waiting job, g)) :
    p.1 = .waiting job.pause := by
  obtain ⟨progress, g'⟩ := p
  cases progress with
  | waiting pause =>
    cases waits
    rfl
  | finished result => cases result <;> cases waits

theorem begin_settings (now : Tick) (g : Stage S File) :
    (begin now g).2.state.settings = g.state.settings := by
  unfold begin
  split
  · rfl
  · rw [conclude_settings, firstAttempts, attempts_state]

omit [Storage S] in
theorem conclude_beside (content : String) (p : Progress Pause × Stage S File) :
    (conclude content p).2.world = p.2.world ∧
      (conclude content p).2.state.notice = p.2.state.notice := by
  unfold conclude
  split <;> exact ⟨rfl, rfl⟩

theorem attempts_beside (content : String) (policy : RetryPolicy) (now : Tick) (left retries : Nat)
    (g : Stage S File) :
    Beside g (conclude content (attempts policy now (attempt content) left retries g)).2 := by
  obtain ⟨world, notice⟩ := conclude_beside content
    (attempts policy now (attempt content) left retries g)
  rw [attempts_state] at notice
  refine ⟨?_, fun there => notice.symm.trans there⟩
  rw [world]
  exact attempts_keep
    (P := fun g' : Stage S File => g'.world = { g.world with store := g'.world.store })
    (fun g' world => by
      have moved : (attempt content g').2.world =
          { g'.world with store := (attempt content g').2.world.store } := rfl
      exact moved.trans (by rw [world])) left retries rfl

instance : Discreet S File Writing where
  begin now g := by
    show Beside g (begin now g).2
    unfold begin
    split
    · exact ⟨rfl, id⟩
    · rename_i content _
      obtain ⟨world, notice⟩ := attempts_beside content g.state.settings.retry now
        g.state.settings.retry.maxRetries 0
        ({ g with state := { g.state with pending := none } } : Stage S File)
      exact ⟨world, notice⟩
  resume now job g := attempts_beside job.content g.state.settings.retry now _ _ g
  taken _ := nofun

theorem untouched : Untouched S fun s : File => s.settings where
  begin := begin_settings
  resume now job g := by
    show (conclude _ _).2.state.settings = _
    rw [conclude_settings, furtherAttempts, attempts_state]
  abandon _ _ := rfl
  notice _ := rfl

instance : Pausing S File Writing where
  pause := Writing.pause
  policy m := m.settings.retry
  wake? _ _ := rfl
  rounds _ := rfl
  patience _ := rfl
  begin_waits {now g g' job} waits := by
    have waits : begin now g = (.waiting job, g') := waits
    unfold begin at waits
    split at waits
    · cases waits
    · exact attempts_waiting (Nat.sub_zero _).symm (Prod.ext (conclude_waiting waits) rfl)
  resume_waits waits := furtherAttempts_waiting (Prod.ext (conclude_waiting waits) rfl)
  accept_same r g := by
    show (g.state.capture g.world.wall).settings.retry = _ ∧ _
    unfold capture
    split <;> exact ⟨rfl, rfl⟩
  policy_same := untouched.map Settings.retry
  period_same := ⟨fun _ _ => rfl, fun _ _ _ => rfl, fun _ _ => rfl, fun _ => rfl⟩

end Marker.File
end Telemetry
