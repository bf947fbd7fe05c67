import InverterLink.Connection.Step
import InverterLink.Proofs.BrokerMoves

/-!
# The steps of calls and filters

A call goes from phase to phase, and a step of it changes little besides: it may lock or unlock the
write side of the socket, a failed write gives the socket up, and a query subscribes once.
`CallMove` says everything that a step of a call can do, `FilterMove` the same of the filter of a
query.
-/

namespace InverterLink.Proofs
open Connection

/-- How a call goes on by an action: the phase that it enters, who has locked the write side then,
and what can be seen of it. -/
inductive Advance (s : State) (n : CallId) (c : Call) :
    Action → CallPhase → Option CallId → List Event → Prop where
  | served (identifier : Identifier) (d : Datagram) (phase : c.phase = .looking)
    (job : c.job = .query identifier) (fresh : s.fresh? identifier = some d) :
    Advance s n c (.stepCall n) (.finished (.ok (.answered d))) (s.unlock n).writer
      [.finished n (.ok (.answered d))]
  | missed (identifier : Identifier) (phase : c.phase = .looking)
    (job : c.job = .query identifier) (fresh : s.fresh? identifier = none) :
    Advance s n c (.stepCall n) .subscribing s.writer []
  | barred (phase : c.phase = .checking) (cancelled : s.cancelled = true) :
    Advance s n c (.stepCall n) (.finished (.error .cancelled)) (s.unlock n).writer
      [.finished n (.error .cancelled)]
  | passed (phase : c.phase = .checking) (cancelled : s.cancelled = false) :
    Advance s n c (.stepCall n) .locking s.writer []
  | unplugged (phase : c.phase = .locking) (writer : s.writer = none) (live : s.live = none) :
    Advance s n c (.stepCall n) (.finished (.error .disconnected)) (s.unlock n).writer
      [.finished n (.error .disconnected)]
  | locked (socket : SocketId) (phase : c.phase = .locking) (writer : s.writer = none)
    (live : s.live = some socket) :
    Advance s n c (.stepCall n) (.writing socket c.job.frame) (some n) []
  | written (socket : SocketId) (phase : c.phase = .writing socket []) :
    Advance s n c (.stepCall n) (.flushing socket) s.writer []
  | wrote (socket : SocketId) (rest : List UInt8) (count : Nat)
    (phase : c.phase = .writing socket rest) (least : 0 < count) (most : count ≤ rest.length) :
    Advance s n c (.wrote n count) (.writing socket (rest.drop count)) s.writer
      [.wrote n socket (rest.take count)]
  | sent (socket : SocketId) (frame : List UInt8) (phase : c.phase = .flushing socket)
    (job : c.job = .send frame) :
    Advance s n c (.flushed n) (.finished (.ok (.sent frame.length))) (s.unlock n).writer
      [.finished n (.ok (.sent frame.length))]
  | asked (socket : SocketId) (identifier : Identifier) (phase : c.phase = .flushing socket)
    (job : c.job = .query identifier) :
    Advance s n c (.flushed n) (.awaiting (s.now + s.config.queryTimeout.nanos))
      (s.unlock n).writer []
  | answered (deadline : Instant) (result : LinkResult Outcome)
    (phase : c.phase = .awaiting deadline) (answer : State.answer? c = some result) :
    Advance s n c (.stepCall n) (.finished result) (s.unlock n).writer [.finished n result]
  | expired (deadline : Instant) (phase : c.phase = .awaiting deadline)
    (answer : State.answer? c = none) (late : deadline ≤ s.now) :
    Advance s n c (.stepCall n) (.finished (.error .timeout)) (s.unlock n).writer
      [.finished n (.error .timeout)]
  | dropped (phase : c.phase.isOver = false) :
    Advance s n c (.dropCall n) .dropped (s.unlock n).writer []

/-- A call writes to this socket. -/
def writesTo (socket : SocketId) : CallPhase → Prop
  | .writing k (_ :: _) | .flushing k => k = socket
  | _ => False

/-- What a step of a call does to a connection. -/
inductive CallMove (s : State) (n : CallId) (c : Call) : Action → State → List Event → Prop where
  | advance (action : Action) (phase : CallPhase) (writer : Option CallId) (events : List Event)
    (step : Advance s n c action phase writer events) :
    CallMove s n c action
      { s with calls := s.calls.modify n fun c => { c with phase }, writer } events
  /-- A failed write gives up the socket. -/
  | fail (socket : SocketId) (error : IoError) (phase : writesTo socket c.phase) :
    CallMove s n c (.refused n error)
      { s with
        live := none
        connected := false
        released := s.live.toList ++ s.released
        calls := s.calls.modify n fun c =>
          { c with phase := .finished (.error (.connection error)) }
        writer := (s.unlock n).writer }
      (.writeFailed n socket (.connection error) :: (s.live.toList.map .released ++
        [.finished n (.error (.connection error))]))
  /-- A query subscribes. -/
  | join (phase : c.phase = .subscribing) :
    CallMove s n c (.stepCall n)
      { s with
        broker := s.broker.subscribe.1
        calls := s.calls.modify n fun c =>
          { c with phase := .checking, filter := some { subscription := s.broker.queues.length } } }
      [.subscribed s.broker.queues.length]

/-- What a step of the filter of a query does to a connection. -/
inductive FilterMove (s : State) (n : CallId) (c : Call) (f : Filter) :
    State → List Event → Prop where
  | look (d : Datagram) (rest : List Datagram) (phase : c.phase.isOver = false)
    (queue : unread s.broker f.subscription = d :: rest) :
    FilterMove s n c f
      ({ s with broker := (s.broker.receive f.subscription).1 }.updateFilter n fun f =>
        State.Filter.look f c.job d)
      [.received f.subscription (.message d)]
  | close (why : c.phase.isOver = true ∨
      unread s.broker f.subscription = [] ∧ s.broker.isFed f.subscription = false) :
    FilterMove s n c f (s.endFilter n f) []

section Calls

variable {s s' : State} {n : CallId} {events : List Event}

lemma unlock_eq (s : State) (n : CallId) :
    s.unlock n = { s with writer := (s.unlock n).writer } := by
  unfold State.unlock
  split <;> rfl

lemma finish_eq (s : State) (n : CallId) (result : LinkResult Outcome) :
    s.finish n result =
      ({ s with
          calls := s.calls.modify n fun c => { c with phase := .finished result }
          writer := (s.unlock n).writer },
        [.finished n result]) := by
  rw [State.finish, unlock_eq]
  rfl

lemma advance_finish {c : Call} {action : Action} {result : LinkResult Outcome}
    (h : some (s.finish n result) = some (s', events))
    (step : Advance s n c action (.finished result) (s.unlock n).writer [.finished n result]) :
    CallMove s n c action s' events := by
  rw [finish_eq] at h
  cases h
  exact .advance _ _ _ _ step

theorem callMove_stepCall (h : s.stepCall n = some (s', events)) :
    ∃ c, s.calls[n]? = some c ∧ CallMove s n c (.stepCall n) s' events := by
  simp only [State.stepCall, Option.bind_eq_bind, Option.bind_eq_some_iff] at h
  obtain ⟨c, hc, h⟩ := h
  refine ⟨c, hc, ?_⟩
  split at h
  · rename_i identifier hphase hjob
    split at h
    · rename_i d hfresh
      exact advance_finish h (.served identifier d hphase hjob hfresh)
    · rename_i hfresh
      cases h
      exact .advance _ _ _ _ (.missed identifier hphase hjob hfresh)
  · cases h
  · rename_i hphase
    cases h
    exact .join hphase
  · rename_i hphase
    split at h
    · rename_i hcancelled
      exact advance_finish h (.barred hphase hcancelled)
    · rename_i hcancelled
      cases h
      exact .advance _ _ _ _ (.passed hphase (by simpa using hcancelled))
  · rename_i hphase
    split at h
    · cases h
    · rename_i hwriter
      have hwriter : s.writer = none := by simpa using hwriter
      split at h
      · rename_i hlive
        exact advance_finish h (.unplugged hphase hwriter hlive)
      · rename_i socket hlive
        cases h
        exact .advance _ _ _ _ (.locked socket hphase hwriter hlive)
  · rename_i socket hphase
    cases h
    exact .advance _ _ _ _ (.written socket hphase)
  · cases h
  · cases h
  · rename_i deadline hphase
    split at h
    · rename_i result hanswer
      exact advance_finish h (.answered deadline result hphase hanswer)
    · rename_i hanswer
      split at h
      · rename_i hlate
        exact advance_finish h (.expired deadline hphase hanswer hlate)
      · cases h
  · cases h
  · cases h

theorem callMove_wrote {count : Nat} (h : s.wrote n count = some (s', events)) :
    ∃ c, s.calls[n]? = some c ∧ CallMove s n c (.wrote n count) s' events := by
  simp only [State.wrote, Option.bind_eq_bind, Option.bind_eq_some_iff] at h
  obtain ⟨c, hc, h⟩ := h
  refine ⟨c, hc, ?_⟩
  split at h
  · rename_i socket rest hphase
    split at h
    · rename_i hcount
      cases h
      exact .advance _ _ _ _ (.wrote socket rest count hphase hcount.1 hcount.2)
    · cases h
  · cases h

lemma callMove_failWrite {c : Call} {socket : SocketId} {error : IoError}
    (h : some (s.failWrite n socket error) = some (s', events))
    (phase : writesTo socket c.phase) : CallMove s n c (.refused n error) s' events := by
  have hwriter : (s.disconnect.1.unlock n).writer = (s.unlock n).writer := by
    unfold State.unlock State.disconnect
    split <;> rfl
  simp only [State.failWrite, finish_eq, hwriter] at h
  cases h
  exact .fail socket error phase

theorem callMove_refused {error : IoError} (h : s.refused n error = some (s', events)) :
    ∃ c, s.calls[n]? = some c ∧ CallMove s n c (.refused n error) s' events := by
  simp only [State.refused, Option.bind_eq_bind, Option.bind_eq_some_iff] at h
  obtain ⟨c, hc, h⟩ := h
  refine ⟨c, hc, ?_⟩
  split at h
  · rename_i socket b rest hphase
    exact callMove_failWrite h (by rw [hphase]; rfl)
  · rename_i socket hphase
    exact callMove_failWrite h (by rw [hphase]; rfl)
  · cases h

theorem callMove_flushed (h : s.flushed n = some (s', events)) :
    ∃ c, s.calls[n]? = some c ∧ CallMove s n c (.flushed n) s' events := by
  simp only [State.flushed, Option.bind_eq_bind, Option.bind_eq_some_iff] at h
  obtain ⟨c, hc, h⟩ := h
  refine ⟨c, hc, ?_⟩
  split at h
  · rename_i socket frame hphase hjob
    exact advance_finish h (.sent socket frame hphase hjob)
  · rename_i socket identifier hphase hjob
    rw [unlock_eq] at h
    cases h
    exact .advance _ _ _ _ (.asked socket identifier hphase hjob)
  · cases h

theorem callMove_dropCall (h : s.dropCall n = some (s', events)) :
    ∃ c, s.calls[n]? = some c ∧ CallMove s n c (.dropCall n) s' events := by
  simp only [State.dropCall, Option.bind_eq_bind, Option.bind_eq_some_iff] at h
  obtain ⟨c, hc, h⟩ := h
  refine ⟨c, hc, ?_⟩
  split at h
  · cases h
  · rename_i hover
    rw [unlock_eq] at h
    cases h
    exact .advance _ _ _ _ (.dropped (by simpa using hover))

theorem filterMove_stepFilter (h : s.stepFilter n = some (s', events)) :
    ∃ c f, s.calls[n]? = some c ∧ c.filter = some f ∧ f.running = true ∧
      FilterMove s n c f s' events := by
  simp only [State.stepFilter, Option.bind_eq_bind, Option.bind_eq_some_iff] at h
  obtain ⟨c, hc, f, hf, h⟩ := h
  split at h
  · cases h
  · rename_i hrunning
    refine ⟨c, f, hc, hf, not_not.mp hrunning, ?_⟩
    split at h
    · rename_i hover
      cases h
      exact .close (.inl hover)
    · rename_i hover
      have hover : c.phase.isOver = false := by simpa using hover
      cases hq : unread s.broker f.subscription with
      | nil =>
        rw [receive_of_empty hq] at h
        by_cases hfed : s.broker.isFed f.subscription
        · simp [hfed] at h
        · simp only [hfed, Bool.false_eq_true, if_false] at h
          cases h
          exact .close (.inr ⟨hq, by simpa using hfed⟩)
      | cons d rest =>
        have hlook := FilterMove.look (s := s) (n := n) d rest hover hq
        rw [receive_of_unread hq] at h hlook
        cases h
        exact hlook

end Calls
end InverterLink.Proofs
