import Telemetry.Proofs.Json.Size
import Telemetry.Proofs.Sink.Running
import Telemetry.Proofs.Stream.Dimensions
import Telemetry.Proofs.Stream.Turns

/-! The sizes of envelopes and of batches.
A batch takes its first envelope whatever its size is, so that a batch is not too large rests
on what is put in: each envelope that waits is small enough by itself. Then each batch is the
longest run of leading envelopes that fit together. -/
namespace Telemetry.Stream
open Json (Document)
open Service (Becomes Continues Keeps Use)

def bytes (bodies : List String) : Nat :=
  (bodies.map (·.utf8ByteSize)).sum

theorem bytes_nil : bytes [] = 0 := rfl

theorem bytes_cons (body : String) (rest : List String) :
    bytes (body :: rest) = body.utf8ByteSize + bytes rest := rfl

/-- One leading envelope at least, and as many as fit together. -/
structure Fills (limit : Nat) (waiting batch : List String) : Prop where
  filled : batch ≠ []
  front : batch <+: waiting
  fits : bytes batch ≤ limit
  full : ∀ body rest, waiting = batch ++ body :: rest → limit < bytes batch + body.utf8ByteSize

/-- The batches that a job hands to the endpoint, one after another and each from the front
of what waits then: those that were answered, with their answers, and one that was not. -/
inductive Handed (limit : Nat) :
    List String → List Delivery → Option (List String) → List String → Prop
  | done {waiting : List String} : Handed limit waiting [] none waiting
  | unanswered {waiting batch : List String} (fills : Fills limit waiting batch) :
      Handed limit waiting [] (some batch) waiting
  | refused {waiting batch : List String} (fills : Fills limit waiting batch) :
      Handed limit waiting [⟨false, batch⟩] none waiting
  | accepted {waiting batch after : List String} {later : List Delivery}
      {last : Option (List String)} (fills : Fills limit waiting batch)
      (goesOn : Handed limit (waiting.drop batch.length) later last after) :
      Handed limit waiting (⟨true, batch⟩ :: later) last after

/-- The batch of a job that waits for an answer. -/
def unanswered : Progress Transmission → Option (List String)
  | .finished _ => none
  | .waiting job => job.sending.map (·.batch)

theorem Handed.suffix {limit : Nat} {waiting after : List String} {handed : List Delivery}
    {last : Option (List String)} (hands : Handed limit waiting handed last after) :
    after <:+ waiting := by
  induction hands with
  | done => exact List.suffix_refl _
  | unanswered _ => exact List.suffix_refl _
  | refused _ => exact List.suffix_refl _
  | accepted _ _ ih => exact ih.trans (List.drop_suffix _ _)

namespace Queue

theorem bytes_fitting (room : Nat) (bodies : List String) : bytes (fitting room bodies) ≤ room := by
  induction bodies generalizing room with
  | nil => exact Nat.zero_le room
  | cons body rest ih =>
    unfold fitting
    split
    · have fits := ih (room - body.utf8ByteSize)
      rw [bytes_cons]
      omega
    · exact Nat.zero_le room

theorem fitting_full {room : Nat} {bodies rest : List String} {body : String}
    (parts : bodies = fitting room bodies ++ body :: rest) :
    room < bytes (fitting room bodies) + body.utf8ByteSize := by
  induction bodies generalizing room with
  | nil => cases parts
  | cons first others ih =>
    unfold fitting at parts ⊢
    split at parts
    · rename_i fits
      rw [if_pos fits]
      have behind := ih (List.cons.inj parts).2
      rw [bytes_cons]
      omega
    · rename_i large
      obtain ⟨rfl, _⟩ := List.cons.inj parts
      rw [if_neg large]
      rw [bytes_nil]
      omega

def Small (q : Queue) : Prop :=
  ∀ body ∈ q.bodies, body.utf8ByteSize ≤ q.settings.maxBytes

theorem batch_fills {q : Queue} (filled : q.bodies ≠ []) (small : q.Small) :
    Fills q.settings.maxBytes q.bodies q.batch := by
  have front := q.batch_prefix
  cases waiting : q.bodies with
  | nil => exact absurd waiting filled
  | cons first rest =>
    have alone := small first (waiting ▸ List.mem_cons_self)
    have behind := bytes_fitting (q.settings.maxBytes - first.utf8ByteSize) rest
    have chosen : q.batch = first :: fitting (q.settings.maxBytes - first.utf8ByteSize) rest := by
      simp only [batch, waiting]
    rw [waiting, chosen] at front
    rw [chosen]
    refine ⟨List.cons_ne_nil _ _, front, ?_, fun body others parts => ?_⟩
    · rw [bytes_cons]
      omega
    · have next := fitting_full (List.cons.inj parts).2
      rw [bytes_cons]
      omega

/-- What a job hands over that is run from a queue: behind the deliveries that were made
before come its own. -/
def HandsOver (limit : Nat) (q : Queue) (p : Progress Transmission × Queue) : Prop :=
  ∃ handed, p.2.endpoint.deliveries = handed.reverse ++ q.endpoint.deliveries ∧
    Handed limit q.bodies handed (unanswered p.1) p.2.bodies

/-- A job hands over batches of the size that is set, and does not change the settings. -/
structure Hands (q : Queue) (p : Progress Transmission × Queue) : Prop where
  settings : p.2.settings = q.settings
  handed : HandsOver q.settings.maxBytes q p

/-- A batch that is accepted at once comes before those that are handed over then. -/
theorem Hands.behind {q q' : Queue} {p : Progress Transmission × Queue} {batch : List String}
    (fills : Fills q.settings.maxBytes q.bodies batch) (settings : q'.settings = q.settings)
    (bodies : q'.bodies = q.bodies.drop batch.length)
    (deliveries : q'.endpoint.deliveries = ⟨true, batch⟩ :: q.endpoint.deliveries)
    (hands : Hands q' p) : Hands q p := by
  obtain ⟨same, later, delivered, goesOn⟩ := hands
  rw [settings, bodies] at goesOn
  refine ⟨same.trans settings, ⟨true, batch⟩ :: later, ?_, .accepted fills goesOn⟩
  rw [delivered, deliveries, List.reverse_cons, List.append_assoc, List.singleton_append]

theorem Hands.small {q : Queue} {p : Progress Transmission × Queue} (hands : Hands q p)
    (small : q.Small) : p.2.Small := by
  obtain ⟨settings, _, _, handed⟩ := hands
  intro body member
  rw [settings]
  exact small body (handed.suffix.subset member)

theorem Small.drop {q q' : Queue} (small : q.Small) (settings : q'.settings = q.settings)
    {n : Nat} (bodies : q'.bodies = q.bodies.drop n) : q'.Small := by
  intro body member
  rw [bodies] at member
  rw [settings]
  exact small body (List.mem_of_mem_drop member)

theorem sendAll_hands (now : Tick) (ticket count : Nat) {q : Queue} (small : q.Small) :
    Hands q (q.sendAll now ticket count) := by
  induction count generalizing q with
  | zero => exact ⟨rfl, [], rfl, .done⟩
  | succ count ih =>
    have outcome := q.sendAll_sends now ticket count
    generalize q.sendAll now ticket (count + 1) = p at outcome ⊢
    have asked : q.replied.endpoint.deliveries = q.endpoint.deliveries := q.replied_deliveries
    cases outcome with
    | passed => exact ⟨rfl, [], rfl, .done⟩
    | idle => exact ⟨rfl, [], rfl, .done⟩
    | delayed turn filled => exact ⟨rfl, [], asked, .unanswered (batch_fills filled small)⟩
    | accepted turn filled =>
      -- An accepted batch is taken off, and those behind it come from what is left.
      refine .behind (batch_fills filled small) ?_ ?_ ?_ (ih ?_)
      exacts [rfl, rfl, congrArg (⟨true, q.batch⟩ :: ·) asked, small.drop rfl rfl]
    | refused turn filled =>
      refine ⟨rfl, [⟨false, q.batch⟩], ?_, .refused (batch_fills filled small)⟩
      exact congrArg (⟨false, q.batch⟩ :: ·) asked

theorem begin_hands (now : Tick) {q : Queue} (small : q.Small) : Hands q (q.begin now) := by
  obtain ⟨settings, handed⟩ := sendAll_hands now q.nextTicket (q.bodies.length + 1)
    (q := { q with turns := q.turns ++ [q.nextTicket], nextTicket := q.nextTicket + 1 }) small
  exact ⟨settings, handed⟩

/-- The queue after the answer that a job waited for, if it waited for one. -/
def answeredTo (q : Queue) (job : Transmission) : Queue :=
  match job.sending with
  | none => q
  | some s => q.answered s.accepts s.batch

theorem answered_small {q : Queue} (small : q.Small) (accepted : Bool) (batch : List String) :
    (q.answered accepted batch).Small := by
  cases accepted with
  | true => exact small.drop rfl rfl
  | false => exact small

theorem answeredTo_small {q : Queue} (small : q.Small) (job : Transmission) :
    (q.answeredTo job).Small := by
  unfold answeredTo
  cases job.sending with
  | none => exact small
  | some s => exact answered_small small s.accepts s.batch

theorem answeredTo_settings (q : Queue) (job : Transmission) :
    (q.answeredTo job).settings = q.settings := by
  unfold answeredTo
  cases job.sending with
  | none => rfl
  | some s => exact (q.answered_same s.accepts s.batch).1

theorem resume_hands (now : Tick) (job : Transmission) {q : Queue} (small : q.Small) :
    Hands (q.answeredTo job) (q.resume now job) := by
  have still := answeredTo_small small job
  unfold answeredTo at still ⊢
  unfold resume
  cases under : job.sending with
  | none => exact sendAll_hands now job.ticket (q.bodies.length + 1) small
  | some s =>
    rw [under] at still
    simp only
    split
    · obtain ⟨settings, handed⟩ := sendAll_hands now job.ticket
        ((q.answered s.accepts s.batch).bodies.length + 1)
        (q := (q.answered s.accepts s.batch).requeue job.ticket) still
      exact ⟨settings, handed⟩
    · exact ⟨rfl, [], rfl, .done⟩

variable {S : Type}

/-- A record is put in whole, without its properties, or not at all. -/
theorem accept_enters {r : Record} {g : Stage S Queue} {q : Queue} {whole bare : String}
    (counted : g.state.countExpected = q) (first : q.bodyOf g.world.wall false r = whole)
    (second : q.bodyOf g.world.wall true r = bare) :
    (accept r g).state =
      if g.state.settings.capacity ≤ g.state.bodies.length then q.countDropped
      else if whole.utf8ByteSize ≤ g.state.settings.maxBytes then
        { q with bodies := q.bodies ++ [whole] }
      else if bare.utf8ByteSize ≤ g.state.settings.maxBytes then
        { q with bodies := q.bodies ++ [bare] }
      else q.countDropped := by
  subst counted
  rw [accept_state, outcome, isFull, body?]
  simp only [decide_eq_true_eq, first, second]
  split_ifs <;> first | rfl | contradiction

theorem accept_small (r : Record) {g : Stage S Queue} (small : g.state.Small) :
    (accept r g).state.Small := by
  have behind {body : String} (fits : body.utf8ByteSize ≤ g.state.settings.maxBytes) :
      Small { g.state.countExpected with bodies := g.state.countExpected.bodies ++ [body] } := by
    intro other member
    rcases List.mem_append.mp member with before | last
    · exact small other before
    · rwa [List.mem_singleton.mp last]
  rw [accept_enters rfl rfl rfl]
  split_ifs with full whole bare
  · exact small
  · exact behind whole
  · exact behind bare
  · exact small

theorem state_log (u : Use S Queue Transmission) (r : Record) :
    (u.step (.log r)).1.state = (accept r u.stage).state := by
  have after : (u.step (.log r)).1.stage = accept r u.stage := u.stage_log r
  rw [← Use.stage_state, after]

theorem accept_endpoint (r : Record) (g : Stage S Queue) :
    (accept r g).state.endpoint = g.state.endpoint := by
  rw [accept_state]
  split <;> rfl

/-- The settings are those of the beginning, and each envelope that waits is small enough. -/
structure Limited (settings : Settings) (q : Queue) : Prop where
  same : q.settings = settings.withCapacity settings.capacity
  small : q.Small

theorem Limited.run {settings : Settings} {q : Queue} {g : Stage S Queue}
    {jobs : List Transmission} {f : Queue → Progress Transmission × Queue}
    (hands : Hands q (f g.state)) (limited : Limited settings q) :
    Continues (fun g _ => Limited settings g.state) (fun _ _ => True) jobs (onState f g) := by
  have after : Limited settings (f g.state).2 :=
    ⟨hands.settings.trans limited.same, hands.small limited.small⟩
  unfold onState
  cases ran : f g.state with
  | mk progress q' =>
    rw [ran] at after
    cases progress with
    | finished result => exact ⟨trivial, after⟩
    | waiting job => exact after

theorem keeps_limited (settings : Settings) :
    Keeps (S := S) (fun g _ => Limited settings g.state) (fun g _ => Limited settings g.state)
      (fun _ _ => True) where
  perm _ limited := limited
  surroundings state _ limited := by rwa [state]
  notice limited := limited
  begin now limited := Limited.run (begin_hands now limited.small) limited
  resume now limited _ := Limited.run (resume_hands now _ limited.small)
    ⟨(answeredTo_settings _ _).trans limited.same, answeredTo_small limited.small _⟩
  abandon limited := ⟨limited.same, limited.small⟩

theorem run_limited (settings : Settings) (machine : String) (replies : List Reply) (w : World S)
    (actions : List Service.Action) :
    let start : Use S Queue Transmission :=
      .ofState (.ofSettings settings machine (.ofReplies replies)) w
    Limited settings (start.run actions).state := by
  intro start
  have fresh : Limited settings start.state := ⟨rfl, fun _ member => by cases member⟩
  have record (g : Stage S Queue) (_ : List Transmission) (r : Record)
      (limited : Limited settings g.state) : Limited settings (accept r g).state :=
    ⟨(accept_settings r g).trans limited.same, accept_small r limited.small⟩
  exact (Use.run_with_records (keeps_limited settings) record actions (Use.live_ofState _ w)
    fresh).1

/-- Envelopes that do not tell counts do not depend on what happened before. -/
theorem bodyOf_plain {q : Queue} (plain : q.settings.diagnostics = false) (now : Instant)
    (exceeded : Bool) (r : Record) :
    q.bodyOf now exceeded r = (envelope now q.machine none exceeded r).render := by
  rw [bodyOf, plain]
  rfl

theorem accept_wall (r : Record) (g : Stage S Queue) :
    (accept r g).world.wall = g.world.wall := by
  have reported (sink operation error : String) (g : Stage S Queue) :
      (g.report sink operation error).world.wall = g.world.wall := by
    unfold Stage.report World.report
    cases told : g.reporter.report g.world.steady sink operation error with
    | mk reporter line => cases line <;> rfl
  unfold accept
  simp only
  split
  · rfl
  · split
    · exact reported _ _ _ _
    · rfl

theorem wall_log (u : Use S Queue Transmission) (r : Record) :
    (u.step (.log r)).1.world.wall = u.world.wall := by
  have after : (u.step (.log r)).1.stage = accept r u.stage := u.stage_log r
  rw [← Use.stage_world, after, accept_wall, Use.stage_world]

/-- One record after another is put in as long as there is room, where its envelope is the
same each time. -/
theorem run_logs {settings : Settings} {machine : String} {wall : Instant} {r : Record}
    {text : String}
    (always : ∀ q : Queue, q.settings = settings → q.machine = machine →
      q.bodyOf wall false r = text)
    (fits : text.utf8ByteSize ≤ settings.maxBytes) {n : Nat} {u : Use S Queue Transmission}
    (same : u.state.settings = settings) (called : u.state.machine = machine)
    (moment : u.world.wall = wall) (room : u.state.bodies.length + n ≤ settings.capacity) :
    let v := u.run (List.replicate n (.log r))
    v.state.settings = settings ∧ v.state.machine = machine ∧ v.world.wall = wall ∧
      v.state.bodies.length = u.state.bodies.length + n := by
  induction n generalizing u with
  | zero => exact ⟨same, called, moment, rfl⟩
  | succ n ih =>
    have first : u.state.countExpected.bodyOf u.stage.world.wall false r = text := by
      rw [Use.stage_world, moment]
      exact always _ same called
    have free : ¬ settings.capacity ≤ u.state.bodies.length := by omega
    have entered := accept_enters rfl first rfl
    rw [Use.stage_state, same, if_neg free, if_pos fits, ← state_log] at entered
    have wall := wall_log u r
    generalize next : (u.step (.log r)).1 = u' at entered wall
    have bodies : u'.state.bodies = u.state.bodies ++ [text] := by rw [entered]; rfl
    have length : u'.state.bodies.length = u.state.bodies.length + 1 := by
      rw [bodies, List.length_append, List.length_singleton]
    have behind : u.run (List.replicate (n + 1) (.log r)) = u'.run (List.replicate n (.log r)) := by
      rw [Use.run, List.replicate_succ, List.foldl_cons, next, Use.run]
    obtain ⟨same', called', moment', all⟩ := ih (u := u') (by rw [entered]; exact same)
      (by rw [entered]; exact called) (wall.trans moment) (by omega)
    rw [behind]
    exact ⟨same', called', moment', by omega⟩

theorem run_logs_full {settings : Settings} {machine : String} {wall : Instant} {r : Record}
    {text : String}
    (always : ∀ q : Queue, q.settings = settings → q.machine = machine →
      q.bodyOf wall false r = text)
    (fits : text.utf8ByteSize ≤ settings.maxBytes) {n : Nat} {u : Use S Queue Transmission}
    (same : u.state.settings = settings) (called : u.state.machine = machine)
    (moment : u.world.wall = wall) (room : u.state.bodies.length + n = settings.capacity) :
    let v := u.run (List.replicate n (.log r))
    v.state.countExpected.bodyOf v.world.wall false r = text ∧
      (v.step (.log r)).1.state = v.state.countExpected.countDropped := by
  obtain ⟨same', called', moment', length⟩ :=
    run_logs always fits same called moment (Nat.le_of_eq room)
  intro v
  have body : v.state.countExpected.bodyOf v.stage.world.wall false r = text := by
    rw [Use.stage_world, moment']
    exact always _ same' called'
  have full : v.state.settings.capacity ≤ v.state.bodies.length := by
    rw [same', length, room]
  have entered := accept_enters rfl body rfl
  rw [Use.stage_state, if_pos full, ← state_log] at entered
  exact ⟨body, entered⟩

/-- Whatever is done with a stream, and however its endpoint answers: a record that finds
room is put in with its properties if it is small enough so, else without them if it is small
enough then, and is given up otherwise. All envelopes that wait are within the limit, and so
is each batch that is handed to the endpoint, which is the longest such run of those at the
front of the queue. Only jobs hand something to the endpoint. -/
theorem batches_within_limit (settings : Settings) (machine : String) (replies : List Reply)
    (w : World S) (actions : List Service.Action) :
    let start : Use S Queue Transmission :=
      .ofState (.ofSettings settings machine (.ofReplies replies)) w
    let now := start.run actions
    (∀ r,
      let q := now.state.countExpected
      let e := r.toEvent
      let whole := q.bodyOf now.world.wall false r
      let bare := q.bodyOf now.world.wall true r
      Document.ofText? whole = some (.obj (q.envelopeDocuments now.world.wall r e
        (.obj (q.ownDimensions false e ++
          Json.memberDocuments (Value.entriesToJson (freeProperties e.properties)))))) ∧
      Document.ofText? bare = some (.obj (q.envelopeDocuments now.world.wall r e
        (.obj (q.ownDimensions true e)))) ∧
      (now.step (.log r)).1.state =
        if max settings.capacity minCapacity ≤ now.state.bodies.length then q.countDropped
        else if whole.utf8ByteSize ≤ settings.maxBytes then { q with bodies := q.bodies ++ [whole] }
        else if bare.utf8ByteSize ≤ settings.maxBytes then { q with bodies := q.bodies ++ [bare] }
        else q.countDropped) ∧
    (∀ body ∈ now.state.bodies, body.utf8ByteSize ≤ settings.maxBytes) ∧
    (∀ t, HandsOver settings.maxBytes now.state (now.state.begin t)) ∧
    (∀ t job, HandsOver settings.maxBytes (now.state.answeredTo job) (now.state.resume t job)) ∧
    ∀ a, Becomes endpoint now.stage now.jobs (now.step a).1.state.endpoint := by
  intro start now
  have limited : Limited settings now.state := run_limited settings machine replies w actions
  -- How the run came here does not matter any more.
  clear_value now
  obtain ⟨same, small⟩ := limited
  have capacity : now.state.settings.capacity = max settings.capacity minCapacity :=
    congrArg Settings.capacity same
  have limit : now.state.settings.maxBytes = settings.maxBytes := by rw [same]; rfl
  refine ⟨fun r => ?_, ?_, fun t => ?_, fun t job => ?_, fun a => ?_⟩
  · intro q e whole bare
    refine ⟨q.ofText?_whole now.world.wall r, q.ofText?_bare now.world.wall r, ?_⟩
    have counted : now.stage.state.countExpected = q := rfl
    have first : q.bodyOf now.stage.world.wall false r = whole := rfl
    have second : q.bodyOf now.stage.world.wall true r = bare := rfl
    have entered := accept_enters counted first second
    rw [Use.stage_state, capacity, limit] at entered
    rw [state_log]
    exact entered
  · rw [← limit]
    exact small
  · rw [← limit]
    exact (begin_hands t small).handed
  · rw [← limit, ← answeredTo_settings now.state job]
    exact (resume_hands t job small).handed
  · obtain ⟨r, rfl⟩ | noRecord := Service.record_or_not a
    · rw [state_log]
      exact .inl (accept_endpoint r now.stage)
    · exact Use.step_becomes (fun _ _ => rfl) (fun _ _ _ => rfl) now noRecord

/-- Where as many envelopes wait as may wait, a record is given up though its envelope is
small enough. -/
theorem small_envelope_given_up :
    let settings : Settings := { Settings.standard with capacity := minCapacity }
    let r : Record := ⟨.named "step", .standard, .event (.ofActivity .nil)⟩
    let start : Use Unit Queue Transmission :=
      .ofState (.ofSettings settings "bench-host-3" (.ofReplies [])) (.ofStore ())
    let now := start.run (List.replicate minCapacity (.log r))
    (now.state.countExpected.bodyOf now.world.wall false r).utf8ByteSize ≤ settings.maxBytes ∧
      (now.step (.log r)).1.state = now.state.countExpected.countDropped := by
  intro settings r start
  have fits : (envelope ⟨0, 0⟩ "bench-host-3" none false r).render.utf8ByteSize ≤
      settings.maxBytes := by
    rw [← Json.size, Json.size_eq]
    decide +kernel
  have always (q : Queue) (same : q.settings = settings) (called : q.machine = "bench-host-3") :
      q.bodyOf ⟨0, 0⟩ false r = (envelope ⟨0, 0⟩ "bench-host-3" none false r).render := by
    have plain : q.settings.diagnostics = false := by rw [same]; rfl
    rw [bodyOf_plain plain, called]
  obtain ⟨body, givenUp⟩ :=
    run_logs_full (n := minCapacity) (u := start) always fits rfl rfl rfl (by decide)
  refine ⟨?_, givenUp⟩
  rw [body]
  exact fits

end Queue
end Telemetry.Stream
