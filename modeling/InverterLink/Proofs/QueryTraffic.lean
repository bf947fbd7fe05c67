import InverterLink.Proofs.CacheHistory
import InverterLink.Proofs.Corruption
import InverterLink.Proofs.SocketWrites

/-!
# What queries send

A query with a fresh entry in the cache ends at once and touches nothing. Any other query
subscribes; if it then finds the connection neither cancelled nor without a socket, it is handed the
socket once and writes its request to it, whatever happens while it waits for the answer. So the
requests that a device reads are those of the queries that were handed its socket, in the same
order.
-/

namespace InverterLink.Proofs
open Connection

/-- What a call does that others could notice. -/
inductive Doing where
  | joined (id : SubscriberId)
  /-- It gets the lock, with this to write. -/
  | granted (socket : SocketId) (frame : List UInt8)
  | wrote (socket : SocketId) (bytes : List UInt8)
  deriving DecidableEq

def joined? : Event → Option Doing
  | .subscribed id => some (.joined id)
  | _ => none

def wrote? (n : CallId) : Event → Option Doing
  | .wrote m socket bytes => if m = n then some (.wrote socket bytes) else none
  | _ => none

/-- The subscriptions that a call makes in a visit. -/
def joinedAt (n : CallId) (w : Visit) : List Doing :=
  match w.action with
  | .stepCall m => if m = n then w.events.filterMap joined? else []
  | _ => []

/-- The socket that a call is handed in a visit. -/
def grantedAt (n : CallId) (w : Visit) : List Doing :=
  ((grantAt w).toList.filter (·.call = n)).map fun g => .granted g.socket g.frame

/-- What a call does in a visit. -/
def traceAt (n : CallId) (w : Visit) : List Doing :=
  joinedAt n w ++ grantedAt n w ++ w.events.filterMap (wrote? n)

/-- All that a call has done. -/
def traceOf (n : CallId) (h : List Visit) : List Doing := h.flatMap (traceAt n)

/-- What a call has done before it may be handed a socket. -/
def Prelude : Job → List Doing → Prop
  | .query _, t => ∃ id, t = [.joined id]
  | .send _, t => t = []

/-- What a call has done that was handed a socket: it has written its frame to it, but for the
rest. -/
def Spoken (job : Job) (k : SocketId) (rest : List UInt8) (t : List Doing) : Prop :=
  ∃ (lead : List Doing) (chunks : List (List UInt8)), Prelude job lead ∧
    t = lead ++ .granted k job.frame :: chunks.map (.wrote k) ∧ chunks.flatten ++ rest = job.frame

/-- What a call has done when it gets to a phase. -/
def Reached (job : Job) (t : List Doing) : CallPhase → Prop
  | .looking | .subscribing => t = [] ∧ ∃ identifier, job = .query identifier
  | .checking | .locking => Prelude job t
  | .writing k rest => Spoken job k rest t
  | .flushing k => Spoken job k [] t
  | .awaiting _ => ∃ k, Spoken job k [] t
  | .finished _ | .dropped => t = [] ∨ Prelude job t ∨ ∃ k rest, Spoken job k rest t

/-- A call in this phase has nothing more to write. -/
def silent : CallPhase → Bool
  | .awaiting _ | .finished _ | .dropped => true
  | _ => false

/-- What every call has done. -/
structure Recorded (h : List Visit) (s : State) : Prop where
  reached : ∀ n job phase, outline s n = some (job, phase) → Reached job (traceOf n h) phase
  flushed : ∀ n job phase, outline s n = some (job, phase) → (∃ v ∈ h, v.action = .flushed n) →
    silent phase = true ∧ ∃ k, Spoken job k [] (traceOf n h)
  unmade : ∀ n, outline s n = none → traceOf n h = [] ∧ ∀ v ∈ h, v.action ≠ .flushed n

section Traces

variable {job : Job} {k : SocketId} {rest : List UInt8} {t more : List Doing} {phase : CallPhase}
  {h : List Visit} {w : Visit} {n m : CallId} {s s' : State} {action : Action}
  {events : List Event} {c : Call}

lemma traceOf_concat : traceOf n (h ++ [w]) = traceOf n h ++ traceAt n w := by
  rw [traceOf, List.flatMap_append, List.flatMap_singleton]
  rfl

lemma traceOf_quiet (hw : traceAt n w = []) : traceOf n (h ++ [w]) = traceOf n h := by
  rw [traceOf_concat, hw, List.append_nil]

lemma reached_over (hr : Reached job t phase) :
    t = [] ∨ Prelude job t ∨ ∃ k rest, Spoken job k rest t := by
  cases phase with
  | looking | subscribing => exact .inl hr.1
  | checking | locking => exact .inr (.inl hr)
  | writing k rest => exact .inr (.inr ⟨k, rest, hr⟩)
  | flushing k => exact .inr (.inr ⟨k, [], hr⟩)
  | awaiting deadline =>
    obtain ⟨k, hr⟩ := hr
    exact .inr (.inr ⟨k, [], hr⟩)
  | finished | dropped => exact hr

lemma wrote_none (he : ∀ e ∈ events, isWrite e = false) : events.filterMap (wrote? n) = [] := by
  refine List.filterMap_eq_nil_iff.mpr fun e hmem => ?_
  have hunwritten := he e hmem
  cases e with
  | wrote => cases hunwritten
  | _ => rfl

lemma traceAt_nothing (hjoined : joinedAt n ⟨s, action, s', events⟩ = [])
    (hwriter : ∀ m, s'.writer = some m → s.writer = some m)
    (he : ∀ e ∈ events, isWrite e = false) : traceAt n ⟨s, action, s', events⟩ = [] := by
  rw [traceAt, hjoined, grantedAt, grantAt_none hwriter, wrote_none he]
  rfl

lemma traceAt_keepsOutlines (kept : KeepsOutlines s action s' events) :
    traceAt n ⟨s, action, s', events⟩ = [] := by
  refine traceAt_nothing ?_ (fun m hw => kept.writer ▸ hw) kept.unwritten
  cases action with
  | stepCall m => cases kept.actor
  | _ => rfl

lemma unwritten_fail {socket : SocketId} {error : IoError} {result : LinkResult Outcome}
    {e : Event} (he : e ∈ .writeFailed n socket (.connection error) ::
      (s.live.toList.map .released ++ [.finished n result])) : isWrite e = false := by
  simp only [List.mem_cons, List.mem_append, List.mem_map, List.not_mem_nil, or_false] at he
  rcases he with rfl | ⟨k, -, rfl⟩ | rfl <;> rfl

lemma traceAt_other (hc : s.calls[m]? = some c) (hm : CallMove s m c action s' events)
    (hne : m ≠ n) : traceAt n ⟨s, action, s', events⟩ = [] := by
  have hgranted : grantedAt n ⟨s, action, s', events⟩ = [] := by
    rcases grantAt_callMove hc hm with hnone | ⟨k, -, -, -, hsome⟩
    · rw [grantedAt, hnone]
      rfl
    · simp [grantedAt, hsome, hne]
  have hrest : joinedAt n ⟨s, action, s', events⟩ = [] ∧ events.filterMap (wrote? n) = [] := by
    cases hm with
    | advance _ phase writer _ step => cases step <;> simp [joinedAt, wrote?, hne]
    | fail socket error phase => exact ⟨rfl, wrote_none fun e he => unwritten_fail he⟩
    | join phase => simp [joinedAt, wrote?, hne]
  rw [traceAt, hgranted, hrest.1, hrest.2]
  rfl

lemma outline_other (hm : CallMove s m c action s' events) (hne : m ≠ n) :
    outline s' n = outline s n := by
  rw [outline, calls_callMove hm hne, outline]

/-- What a call does in a step of its own, and the phase that it enters: it locks the write side,
writes, subscribes, or does nothing that others could notice. -/
inductive OwnStep (s : State) (n : CallId) (c : Call) : Action → CallPhase → List Doing → Prop where
  | granted (k : SocketId) (phase : c.phase = .locking) (live : s.live = some k) :
    OwnStep s n c (.stepCall n) (.writing k c.job.frame) [.granted k c.job.frame]
  | wrote (k : SocketId) (rest : List UInt8) (count : Nat) (phase : c.phase = .writing k rest) :
    OwnStep s n c (.wrote n count) (.writing k (rest.drop count)) [.wrote k (rest.take count)]
  | joined (phase : c.phase = .subscribing) (id : SubscriberId) :
    OwnStep s n c (.stepCall n) .checking [.joined id]
  | missed (phase : c.phase = .looking) : OwnStep s n c (.stepCall n) .subscribing []
  | passed (phase : c.phase = .checking) : OwnStep s n c (.stepCall n) .locking []
  | written (k : SocketId) (phase : c.phase = .writing k []) :
    OwnStep s n c (.stepCall n) (.flushing k) []
  | flushed (k : SocketId) (phase : c.phase = .flushing k) (next : CallPhase)
    (silent : silent next = true) : OwnStep s n c (.flushed n) next []
  | ended (action : Action) (phase : c.phase.isOver = false) (next : CallPhase)
    (ends : next.isOver = true) (other : action ≠ .flushed n) : OwnStep s n c action next []

lemma ownStep_eq (ht : traceAt n w = t)
    (h : OwnStep s n c action phase t) : OwnStep s n c action phase (traceAt n w) := ht ▸ h

lemma traceAt_granted {frame : List UInt8} (hgrant : grantAt w = some ⟨n, k, frame⟩)
    (he : w.events = []) : traceAt n w = [.granted k frame] := by
  have hjoined : joinedAt n w = [] := by
    unfold joinedAt
    split
    · rw [he]
      exact ite_self _
    · rfl
  rw [traceAt, hjoined, grantedAt, hgrant, he]
  simp

lemma outline_phase (hc : s.calls[n]? = some c)
    (hcalls : s'.calls = s.calls.modify n fun c => { c with phase }) :
    outline s' n = some (c.job, phase) := by
  rw [outline, hcalls, modify_phase hc]
  rfl

lemma ownStep_of_callMove (hc : s.calls[n]? = some c) (hm : CallMove s n c action s' events) :
    ∃ phase, outline s' n = some (c.job, phase) ∧
      OwnStep s n c action phase (traceAt n ⟨s, action, s', events⟩) := by
  cases hm with
  | advance _ phase writer _ step =>
    refine ⟨phase, outline_phase hc rfl, ?_⟩
    have hunlock : ∀ m, (s.unlock n).writer = some m → s.writer = some m :=
      fun m hw => (unlock_writer hw).1
    cases step with
    | locked k before writer live =>
      exact ownStep_eq
        (traceAt_granted (grantAt_locked writer rfl (modify_phase hc _) rfl) rfl)
        (.granted k before live)
    | wrote k rest count before =>
      refine ownStep_eq ?_ (.wrote k rest count before)
      rw [traceAt, grantedAt, grantAt_none fun m hw => hw]
      simp [joinedAt, wrote?]
    | missed identifier before =>
      exact ownStep_eq (traceAt_nothing (by simp [joinedAt]) (fun m hw => hw) (by simp))
        (.missed before)
    | passed before =>
      exact ownStep_eq (traceAt_nothing (by simp [joinedAt]) (fun m hw => hw) (by simp))
        (.passed before)
    | written k before =>
      exact ownStep_eq (traceAt_nothing (by simp [joinedAt]) (fun m hw => hw) (by simp))
        (.written k before)
    | sent k frame before =>
      exact ownStep_eq (traceAt_nothing rfl hunlock (by simp [isWrite])) (.flushed k before _ rfl)
    | asked k identifier before =>
      exact ownStep_eq (traceAt_nothing rfl hunlock (by simp)) (.flushed k before _ rfl)
    | dropped before =>
      exact ownStep_eq (traceAt_nothing rfl hunlock (by simp)) (.ended _ before _ rfl (by simp))
    | served _ _ before | barred before | unplugged before | answered _ _ before
    | expired _ before =>
      exact ownStep_eq (traceAt_nothing (by simp [joinedAt, joined?]) hunlock (by simp [isWrite]))
        (.ended _ (by rw [before]; rfl) _ rfl (by simp))
  | fail socket error phase =>
    refine ⟨_, outline_phase hc rfl, ownStep_eq (traceAt_nothing rfl ?_ ?_)
      (.ended _ ?_ _ rfl (by simp))⟩
    · exact fun m hw => (unlock_writer hw).1
    · exact fun e he => unwritten_fail he
    · cases hp : c.phase with
      | writing | flushing => rfl
      | _ =>
        rw [hp] at phase
        exact phase.elim
  | join phase =>
    refine ⟨.checking, ?_, ownStep_eq ?_ (.joined phase s.broker.queues.length)⟩
    · simp [outline, hc]
    · rw [traceAt, grantedAt, grantAt_none fun m hw => hw]
      simp [joinedAt, joined?, wrote?]

lemma reached_own (hr : Reached c.job t c.phase)
    (step : OwnStep s n c action phase more) : Reached c.job (t ++ more) phase := by
  cases step with
  | granted k before live =>
    rw [before] at hr
    exact ⟨t, [], hr, rfl, rfl⟩
  | wrote k rest count before =>
    rw [before] at hr
    obtain ⟨lead, chunks, hlead, rfl, hall⟩ := hr
    refine ⟨lead, chunks ++ [rest.take count], hlead, ?_, ?_⟩
    · simp
    · simp [hall]
  | joined before id =>
    rw [before] at hr
    obtain ⟨rfl, identifier, hjob⟩ := hr
    rw [hjob]
    exact ⟨id, rfl⟩
  | missed before | passed before | written k before =>
    rw [before] at hr
    rwa [List.append_nil]
  | flushed k before next hnext =>
    rw [before] at hr
    rw [List.append_nil]
    cases phase with
    | awaiting => exact ⟨k, hr⟩
    | finished | dropped => exact .inr (.inr ⟨k, [], hr⟩)
    | _ => cases hnext
  | ended _ before next ends =>
    rw [List.append_nil]
    have hover := reached_over hr
    cases phase with
    | finished | dropped => exact hover
    | _ => cases ends

lemma own_or_other (hs : s.step action = some (s', events)) (n : CallId) :
    (∃ c, s.calls[n]? = some c ∧ CallMove s n c action s' events) ∨
      traceAt n ⟨s, action, s', events⟩ = [] ∧ action ≠ .flushed n ∧
        (outline s' n = outline s n ∨
          outline s n = none ∧ ∃ job, outline s' n = some (job, job.first)) := by
  rcases keepsOutlines_step hs with ⟨m, c, hc, hm⟩ | kept
  · by_cases hne : m = n
    · subst hne
      exact .inl ⟨c, hc, hm⟩
    · refine .inr ⟨traceAt_other hc hm hne, ?_, .inl (outline_other hm hne)⟩
      rintro rfl
      exact hne (Option.some.inj (actor_callMove hm)).symm
  · refine .inr ⟨traceAt_keepsOutlines kept, ?_, kept.outline n⟩
    rintro rfl
    cases kept.actor

lemma reached_first (job : Job) : Reached job [] job.first := by
  cases job with
  | send frame => rfl
  | query identifier => exact ⟨rfl, identifier, rfl⟩

lemma flushed_own (hr : Reached c.job t c.phase) (step : OwnStep s n c action phase more)
    (hflushed : action = .flushed n ∨ silent c.phase = true ∧ ∃ k, Spoken c.job k [] t) :
    silent phase = true ∧ ∃ k, Spoken c.job k [] (t ++ more) := by
  cases step with
  | flushed k before next hnext =>
    rw [before] at hr
    rw [List.append_nil]
    exact ⟨hnext, k, hr⟩
  | ended _ before next ends other =>
    rw [List.append_nil]
    refine ⟨?_, (hflushed.resolve_left other).2⟩
    cases phase with
    | finished | dropped => rfl
    | _ => cases ends
  | granted _ before | wrote _ _ _ before | joined before | missed before | passed before
  | written _ before =>
    rcases hflushed with hn | ⟨hn, -⟩
    · cases hn
    · rw [before] at hn
      cases hn

theorem recorded_step (hr : Recorded h s) (hs : s.step action = some (s', events)) :
    Recorded (h ++ [⟨s, action, s', events⟩]) s' := by
  constructor
  · intro n job phase houtline
    rcases own_or_other hs n with ⟨c, hc, hm⟩ | ⟨hquiet, -, hsame | ⟨hnone, new, hnew⟩⟩
    · obtain ⟨next, hnext, step⟩ := ownStep_of_callMove hc hm
      cases hnext.symm.trans houtline
      rw [traceOf_concat]
      exact reached_own (hr.reached n c.job c.phase (outline_eq hc)) step
    · rw [traceOf_quiet hquiet]
      exact hr.reached n job phase (hsame ▸ houtline)
    · obtain ⟨rfl, rfl⟩ := Prod.mk.inj (Option.some.inj (hnew.symm.trans houtline))
      rw [traceOf_quiet hquiet, (hr.unmade n hnone).1]
      exact reached_first new
  · intro n job phase houtline hflushed
    have hcases : action = .flushed n ∨ ∃ v ∈ h, v.action = .flushed n := by
      obtain ⟨v, hv, hact⟩ := hflushed
      rcases List.mem_append.mp hv with hv | hv
      · exact .inr ⟨v, hv, hact⟩
      · rw [List.mem_singleton.mp hv] at hact
        exact .inl hact
    rcases own_or_other hs n with ⟨c, hc, hm⟩ | ⟨hquiet, hother, hsame | ⟨hnone, new, hnew⟩⟩
    · obtain ⟨next, hnext, step⟩ := ownStep_of_callMove hc hm
      cases hnext.symm.trans houtline
      rw [traceOf_concat]
      exact flushed_own (hr.reached n c.job c.phase (outline_eq hc)) step
        (hcases.imp_right (hr.flushed n c.job c.phase (outline_eq hc)))
    · rw [traceOf_quiet hquiet]
      exact hr.flushed n job phase (hsame ▸ houtline) (hcases.resolve_left hother)
    · obtain ⟨v, hv, hact⟩ := hcases.resolve_left hother
      exact absurd hact ((hr.unmade n hnone).2 v hv)
  · intro n hnone
    rcases own_or_other hs n with ⟨c, hc, hm⟩ | ⟨hquiet, hother, hsame | ⟨-, new, hnew⟩⟩
    · obtain ⟨next, hnext, -⟩ := ownStep_of_callMove hc hm
      cases hnext.symm.trans hnone
    · obtain ⟨htrace, hbefore⟩ := hr.unmade n (hsame ▸ hnone)
      refine ⟨(traceOf_quiet hquiet).trans htrace, fun v hv => ?_⟩
      rcases List.mem_append.mp hv with hv | hv
      · exact hbefore v hv
      · rw [List.mem_singleton.mp hv]
        exact hother
    · cases hnew.symm.trans hnone

lemma recorded_start (settings : ConnectionBuilder) (now : Instant) (cancelled : Bool) :
    Recorded [] (State.start settings now cancelled) := by
  have hnone : ∀ n, outline (State.start settings now cancelled) n = none := fun _ => rfl
  refine ⟨fun n job phase h => ?_, fun n job phase h => ?_, fun _ _ =>
    ⟨rfl, fun _ hv => absurd hv List.not_mem_nil⟩⟩
  · cases (hnone n).symm.trans h
  · cases (hnone n).symm.trans h

lemma job_step (ho : outline s n = some (job, phase)) (hs : s.step action = some (s', events)) :
    ∃ next, outline s' n = some (job, next) := by
  rcases own_or_other hs n with ⟨c, hc, hm⟩ | ⟨-, -, hsame | ⟨hnone, -⟩⟩
  · cases (outline_eq hc).symm.trans ho
    obtain ⟨next, hnext, -⟩ := ownStep_of_callMove hc hm
    exact ⟨next, hnext⟩
  · exact ⟨phase, hsame.trans ho⟩
  · cases hnone.symm.trans ho

lemma job_run {actions : List Action} (ho : outline s n = some (job, phase))
    (hr : s.run actions = some (s', events)) : ∃ next, outline s' n = some (job, next) :=
  visits_induction (P := fun _ s => ∃ phase, outline s n = some (job, phase)) ⟨phase, ho⟩
    (fun _ _ _ _ _ ⟨_, ho⟩ hs => job_step ho hs) hr

/-- The call is over. -/
def IsOver (s : State) (n : CallId) : Prop :=
  ∃ job phase, outline s n = some (job, phase) ∧ phase.isOver = true

lemma over_step (ho : IsOver s n) (hs : s.step action = some (s', events)) :
    traceAt n ⟨s, action, s', events⟩ = [] ∧ IsOver s' n := by
  obtain ⟨job, phase, houtline, hover⟩ := ho
  rcases own_or_other hs n with ⟨c, hc, hm⟩ | ⟨hquiet, -, hsame | ⟨hnone, -⟩⟩
  · cases (outline_eq hc).symm.trans houtline
    obtain ⟨next, -, step⟩ := ownStep_of_callMove hc hm
    generalize traceAt n _ = more at step
    exfalso
    cases step with
    | ended _ before => cases before.symm.trans hover
    | granted _ before | wrote _ _ _ before | joined before | missed before | passed before
    | written _ before | flushed _ before =>
      rw [before] at hover
      cases hover
  · exact ⟨hquiet, job, phase, hsame.trans houtline, hover⟩
  · cases hnone.symm.trans houtline

lemma over_run {actions : List Action} (ho : IsOver s n) (hr : s.run actions = some (s', events)) :
    traceOf n (visitsOf s actions) = [] := by
  have hall := visits_induction (P := fun h s => traceOf n h = [] ∧ IsOver s n) ⟨rfl, ho⟩ ?_ hr
  · exact hall.1
  · intro h s action s' events ⟨htrace, ho⟩ hs
    obtain ⟨hquiet, ho'⟩ := over_step ho hs
    exact ⟨(traceOf_quiet hquiet).trans htrace, ho'⟩

theorem recorded_run (settings : ConnectionBuilder) (now : Instant) (cancelled : Bool)
    {actions : List Action}
    (hr : (State.start settings now cancelled).run actions = some (s, events)) :
    Recorded (visitsOf (State.start settings now cancelled) actions) s :=
  visits_induction (P := Recorded) (recorded_start settings now cancelled)
    (fun _ _ _ _ _ hr hs => recorded_step hr hs) hr

lemma trace_of_ended {settings : ConnectionBuilder} {now : Instant} {cancelled : Bool}
    {actions : List Action}
    (hr : (State.start settings now cancelled).run actions = some (s, events))
    (hw : w ∈ visitsOf (State.start settings now cancelled) actions)
    (hc : w.state.calls[n]? = some c) (hquiet : traceAt n w = []) (hover : IsOver w.next n) :
    Reached c.job (traceOf n (visitsOf (State.start settings now cancelled) actions)) c.phase := by
  obtain ⟨before, after, ahead, behind, hbefore, -, hafter, hvisits⟩ := passages_split hr hw
  have hreached := (recorded_run settings now cancelled hbefore).reached n _ _ (outline_eq hc)
  have htrace : traceOf n (visitsOf (State.start settings now cancelled) actions) =
      traceOf n (visitsOf (State.start settings now cancelled) before) := by
    rw [visitsOf, hvisits, traceOf, List.flatMap_append, List.flatMap_cons, hquiet]
    have hrest : (visitsOf w.next after).flatMap (traceAt n) = [] := over_run hover hafter
    rw [hrest, List.append_nil]
    exact List.append_nil _
  rwa [htrace]

lemma stepCall_served {identifier : Identifier} {d : Datagram} (hc : s.calls[n]? = some c)
    (hphase : c.phase = .looking) (hjob : c.job = .query identifier)
    (hfresh : s.fresh? identifier = some d) :
    s.stepCall n = some (s.finish n (.ok (.answered d))) := by
  simp [State.stepCall, hc, hphase, hjob, hfresh]

lemma stepCall_barred (hc : s.calls[n]? = some c) (hphase : c.phase = .checking)
    (hcancelled : s.cancelled = true) :
    s.stepCall n = some (s.finish n (.error .cancelled)) := by
  simp [State.stepCall, hc, hphase, hcancelled]

lemma stepCall_unplugged (hc : s.calls[n]? = some c) (hphase : c.phase = .locking)
    (hwriter : s.writer = none) (hlive : s.live = none) :
    s.stepCall n = some (s.finish n (.error .disconnected)) := by
  simp [State.stepCall, hc, hphase, hwriter, hlive]

lemma stepCall_locked (hc : s.calls[n]? = some c) (hphase : c.phase = .locking)
    (hs : s.stepCall n = some (s', events)) : s.writer = none := by
  cases hw : s.writer with
  | none => rfl
  | some m => simp [State.stepCall, hc, hphase, hw] at hs

lemma finish_seen {result : LinkResult Outcome} (hc : s.calls[n]? = some c)
    (hs : some (s.finish n result) = some (s', events)) :
    events = [.finished n result] ∧ traceAt n ⟨s, .stepCall n, s', events⟩ = [] ∧ IsOver s' n := by
  rw [finish_eq] at hs
  cases hs
  refine ⟨rfl, traceAt_nothing (by simp [joinedAt, joined?]) ?_ (by simp [isWrite]), ?_⟩
  · exact fun m hw => (unlock_writer hw).1
  · exact ⟨c.job, _, outline_phase hc rfl, rfl⟩

lemma prelude_ungranted {frame : List UInt8} (hp : Prelude job t) : .granted k frame ∉ t := by
  intro hmem
  cases job with
  | query identifier =>
    obtain ⟨id, rfl⟩ := hp
    cases List.mem_singleton.mp hmem
  | send bytes =>
    cases hp
    cases hmem

lemma spoken_granted {j : SocketId} {frame : List UInt8} (hs : Spoken job k rest t)
    (hm : .granted j frame ∈ t) : j = k ∧ frame = job.frame := by
  obtain ⟨lead, chunks, hlead, rfl, -⟩ := hs
  rcases List.mem_append.mp hm with hm | hm
  · exact absurd hm (prelude_ungranted hlead)
  · rcases List.mem_cons.mp hm with hm | hm
    · cases hm
      exact ⟨rfl, rfl⟩
    · obtain ⟨chunk, -, he⟩ := List.mem_map.mp hm
      cases he

/-- A call has done nothing, or what comes before the lock, or it has written its frame, but for a
rest. There is no rest if the socket has sent what was written. -/
lemma record_of_call (hr : Recorded h s) (ho : outline s n = some (job, phase)) :
    traceOf n h = [] ∨ Prelude job (traceOf n h) ∨
      ∃ k rest, Spoken job k rest (traceOf n h) ∧
        ((∃ v ∈ h, v.action = .flushed n) → rest = []) := by
  by_cases hflushed : ∃ v ∈ h, v.action = .flushed n
  · obtain ⟨-, k, hspoken⟩ := hr.flushed n job phase ho hflushed
    exact .inr (.inr ⟨k, [], hspoken, fun _ => rfl⟩)
  · rcases reached_over (hr.reached n job phase ho) with hnone | hlead | ⟨k, rest, hspoken⟩
    · exact .inl hnone
    · exact .inr (.inl hlead)
    · exact .inr (.inr ⟨k, rest, hspoken, fun hf => absurd hf hflushed⟩)

lemma spoken_of_granted {frame : List UInt8} (hr : Recorded h s)
    (ho : outline s n = some (job, phase)) (hm : .granted k frame ∈ traceOf n h) :
    frame = job.frame ∧ ∃ rest, Spoken job k rest (traceOf n h) ∧
      ((∃ v ∈ h, v.action = .flushed n) → rest = []) := by
  rcases record_of_call hr ho with hnone | hlead | ⟨j, rest, hspoken, hflushed⟩
  · rw [hnone] at hm
    cases hm
  · exact absurd hm (prelude_ungranted hlead)
  · obtain ⟨rfl, hframe⟩ := spoken_granted hspoken hm
    exact ⟨hframe, rest, hspoken, hflushed⟩

lemma granted_of_mem {g : Grant} (hg : g ∈ grantsIn h) :
    .granted g.socket g.frame ∈ traceOf g.call h := by
  obtain ⟨w, hw, hgrant⟩ := List.mem_filterMap.mp hg
  refine List.mem_flatMap.mpr ⟨w, hw, ?_⟩
  refine List.mem_append_left _ (List.mem_append_right _ ?_)
  simp [grantedAt, hgrant]

lemma frame_of_grant (hr : Recorded h s) {g : Grant} (hg : g ∈ grantsIn h) :
    ∃ c, s.calls[g.call]? = some c ∧ g.frame = c.job.frame := by
  have hmem := granted_of_mem hg
  cases hc : s.calls[g.call]? with
  | none =>
    have hnone : outline s g.call = none := by rw [outline, hc]; rfl
    rw [(hr.unmade g.call hnone).1] at hmem
    cases hmem
  | some c => exact ⟨c, rfl, (spoken_of_granted hr (outline_eq hc) hmem).1⟩

/-- Who is handed a socket: the call that has waited for the lock while there is a socket. -/
lemma grantAt_iff (hs : s.step action = some (s', events)) {frame : List UInt8} :
    grantAt ⟨s, action, s', events⟩ = some ⟨n, k, frame⟩ ↔
      action = .stepCall n ∧ ∃ c, s.calls[n]? = some c ∧ c.phase = .locking ∧ s.live = some k ∧
        frame = c.job.frame := by
  constructor
  · intro hgrant
    rcases keepsOutlines_step hs with ⟨m, c, hc, hm⟩ | kept
    · rcases grantAt_callMove hc hm with hnone | ⟨k', hact, hphase, hlive, hsome⟩
      · cases hnone.symm.trans hgrant
      · cases hsome.symm.trans hgrant
        exact ⟨hact, c, hc, hphase, hlive, rfl⟩
    · have hnone := grantAt_none (w := ⟨s, action, s', events⟩) fun m hw => kept.writer ▸ hw
      cases hnone.symm.trans hgrant
  · rintro ⟨rfl, c, hc, hphase, hlive, rfl⟩
    have hwriter := stepCall_locked hc hphase hs
    simp only [State.step, State.stepCall, hc, Option.bind_eq_bind, Option.bind_some, hphase,
      hwriter, hlive] at hs
    cases hs
    exact grantAt_locked hwriter rfl (modify_phase hc _) rfl

/-- No call is handed a socket twice. -/
theorem granted_once (settings : ConnectionBuilder) (now : Instant) (cancelled : Bool)
    {actions : List Action}
    (hr : (State.start settings now cancelled).run actions = some (s, events)) :
    ((grantsIn (visitsOf (State.start settings now cancelled) actions)).map (·.call)).Nodup := by
  have hall := visits_induction
    (P := fun h s => Recorded h s ∧ ((grantsIn h).map (·.call)).Nodup)
    ⟨recorded_start settings now cancelled, List.nodup_nil⟩ ?_ hr
  · exact hall.2
  · intro h s action s' events ⟨hrecorded, hnodup⟩ hs
    refine ⟨recorded_step hrecorded hs, ?_⟩
    rw [grantsIn_concat, List.map_append]
    cases hgrant : grantAt ⟨s, action, s', events⟩ with
    | none => simpa using hnodup
    | some g =>
      obtain ⟨n, k, frame⟩ := g
      obtain ⟨-, c, hc, hphase, -⟩ := (grantAt_iff hs).mp hgrant
      have hnew : n ∉ (grantsIn h).map (·.call) := by
        intro hmem
        obtain ⟨g, hg, rfl⟩ := List.mem_map.mp hmem
        have hreached := hrecorded.reached g.call _ _ (outline_eq hc)
        rw [hphase] at hreached
        exact prelude_ungranted hreached (granted_of_mem hg)
      simpa using hnodup.concat hnew

end Traces

/-- The request that a device reads from a query that was handed its socket. -/
def request? (s : State) (g : Grant) : Option Datagram := do
  let c ← s.calls[g.call]?
  match c.job with
  | .query identifier => some (.read identifier)
  | .send _ => none

section Devices

variable {s : State} {grants : List Grant}

lemma requests_read
    (hframes : ∀ g ∈ grants, ∃ c, s.calls[g.call]? = some c ∧ g.frame = c.job.frame)
    (hsent : ∀ c ∈ s.calls, ∀ frame, c.job = .send frame →
      ∃ d : Datagram, d.Fits ∧ d.command ≠ .read ∧ frame = d.encode) :
    ∃ datagrams : List Datagram, grants.flatMap (·.frame) = encodeAll datagrams ∧
      (∀ d ∈ datagrams, d.Fits) ∧
      datagrams.filter (·.command = .read) = grants.filterMap (request? s) := by
  induction grants with
  | nil => exact ⟨[], rfl, nofun, rfl⟩
  | cons g rest ih =>
    obtain ⟨datagrams, hall, hfits, hreads⟩ :=
      ih fun g' hg => hframes g' (List.mem_cons_of_mem g hg)
    obtain ⟨c, hc, hframe⟩ := hframes g List.mem_cons_self
    cases hjob : c.job with
    | query identifier =>
      refine ⟨.read identifier :: datagrams, ?_, ?_, ?_⟩
      · rw [List.flatMap_cons, hall, hframe, hjob, encodeAll_cons]
        rfl
      · intro d hd
        rcases List.mem_cons.mp hd with rfl | hd
        · exact Nat.zero_le _
        · exact hfits d hd
      · have hrequest : request? s g = some (.read identifier) := by
          simp [request?, hc, hjob]
        rw [List.filterMap_cons, hrequest, List.filter_cons, if_pos (by rfl), hreads]
    | send frame =>
      obtain ⟨d, hd, hcommand, rfl⟩ := hsent c (List.mem_of_getElem? hc) frame hjob
      refine ⟨d :: datagrams, ?_, ?_, ?_⟩
      · rw [List.flatMap_cons, hall, hframe, hjob, encodeAll_cons]
        rfl
      · intro d' hd'
        rcases List.mem_cons.mp hd' with rfl | hd'
        · exact hd
        · exact hfits d' hd'
      · have hrequest : request? s g = none := by
          simp [request?, hc, hjob]
        rw [List.filterMap_cons, hrequest, List.filter_cons, if_neg (by simpa using hcommand),
          hreads]

end Devices

section Runs

variable {settings : ConnectionBuilder} {now : Instant} {cancelled : Bool}
  {actions : List Action} {s : State} {events : List Event} {n : CallId} {c : Call} {w : Visit}
  {identifier : Identifier} {k : SocketId}

lemma fresh_of_entry {d : Datagram} {stored : Instant}
    (hentry : s.cache.get? identifier = some ⟨d, stored⟩)
    (hage : s.age stored < s.config.queryTimeout) : s.fresh? identifier = some d := by
  simp [State.fresh?, hentry, hage]

lemma ended_unspoken {result : LinkResult Outcome}
    (hrun : (State.start settings now cancelled).run actions = some (s, events))
    (hw : w ∈ visitsOf (State.start settings now cancelled) actions)
    (hact : w.action = .stepCall n) (hc : w.state.calls[n]? = some c)
    (hend : w.state.stepCall n = some (w.state.finish n result)) :
    w.events = [.finished n result] ∧
      Reached c.job (traceOf n (visitsOf (State.start settings now cancelled) actions))
        c.phase := by
  obtain ⟨_, _, _, _, -, hstep, -, -⟩ := passages_split hrun hw
  obtain ⟨state, action, next, seen⟩ := w
  subst hact
  obtain ⟨hevents, hquiet, hover⟩ := finish_seen hc (hend.symm.trans hstep)
  exact ⟨hevents, trace_of_ended hrun hw hc hquiet hover⟩

lemma granted_spoken
    (hrun : (State.start settings now cancelled).run actions = some (s, events))
    (hw : w ∈ visitsOf (State.start settings now cancelled) actions)
    (hact : w.action = .stepCall n) (hc : w.state.calls[n]? = some c) (hphase : c.phase = .locking)
    (hlive : w.state.live = some k) :
    let h := visitsOf (State.start settings now cancelled) actions
    ∃ rest, Spoken c.job k rest (traceOf n h) ∧
      ((∃ v ∈ h, v.action = .flushed n) → rest = []) := by
  intro h
  have hrecorded : Recorded h s := recorded_run settings now cancelled hrun
  obtain ⟨before, after, _, behind, -, hstep, hafter, -⟩ := passages_split hrun hw
  have hgrant : grantAt w = some ⟨n, k, c.job.frame⟩ :=
    (grantAt_iff hstep).mpr ⟨hact, c, hc, hphase, hlive, rfl⟩
  have hmem : .granted k c.job.frame ∈ traceOf n h :=
    granted_of_mem (List.mem_filterMap.mpr ⟨w, hw, hgrant⟩)
  obtain ⟨next, hnext⟩ : ∃ next, outline s n = some (c.job, next) := by
    obtain ⟨phase, hone⟩ := job_step (outline_eq hc) hstep
    exact job_run hone hafter
  exact (spoken_of_granted hrecorded hnext hmem).2

/-- What the device of a socket sees, if no call breaks off there. -/
lemma device_sees (k : SocketId)
    (hrun : (State.start settings now cancelled).run actions = some (s, events))
    (hk : ∀ w ∈ visitsOf (State.start settings now cancelled) actions, breaksOff k w = false) :
    let h := visitsOf (State.start settings now cancelled) actions
    seenOn k events <+: (grantsOn k h).flatMap (·.frame) ∧
      (s.writer = none → seenOn k events = (grantsOn k h).flatMap (·.frame)) := by
  intro h
  have haired : Aired k h s :=
    visits_induction (P := Aired k) (aired_start settings now cancelled k)
      (fun _ _ _ _ _ ha hs => aired_step ha hs) hrun
  have hcarried := haired.carried hk
  rw [← events_eq hrun] at hcarried
  refine ⟨⟨_, hcarried⟩, fun hwriter => ?_⟩
  rwa [unsent_free hwriter, List.append_nil] at hcarried

lemma device_reads (k : SocketId)
    (hrun : (State.start settings now cancelled).run actions = some (s, events))
    (hk : ∀ w ∈ visitsOf (State.start settings now cancelled) actions, breaksOff k w = false)
    (hwriter : s.writer = none)
    (hsent : ∀ c ∈ s.calls, ∀ frame, c.job = .send frame →
      ∃ d : Datagram, d.Fits ∧ d.command ≠ .read ∧ frame = d.encode) :
    (readFresh (seenOn k events)).filter (·.command = .read) =
      (grantsOn k (visitsOf (State.start settings now cancelled) actions)).filterMap
        (request? s) := by
  have hrecorded := recorded_run settings now cancelled hrun
  have hframes : ∀ g ∈ grantsOn k (visitsOf (State.start settings now cancelled) actions),
      ∃ c, s.calls[g.call]? = some c ∧ g.frame = c.job.frame :=
    fun g hg => frame_of_grant hrecorded (List.mem_of_mem_filter hg)
  obtain ⟨datagrams, hall, hfits, hreads⟩ := requests_read hframes hsent
  obtain ⟨q, hq, -⟩ := decode_encodeAll (p := ({} : Decoder)) rfl hfits
  rw [(device_sees k hrun hk).2 hwriter, hall, readFresh, hq, hreads]

end Runs

/-- A query that finds a fresh entry in the cache ends with it at once: it changes nothing else, and
in the whole run it neither subscribes nor gets the lock nor writes. A query that has found no fresh
entry subscribes once. If it then finds the connection cancelled, or no socket when its turn has
come, it ends so and does nothing more. If it finds a socket, it is handed its request for that
socket, once, and writes nothing else: all that it writes goes to this socket and begins the
request, and it is the whole request when the socket has sent it. Handed over is only to a call
whose turn has come, and to none twice. Unless a call breaks off, the device of a socket sees the
frames handed over there, in this order; when nobody is writing and the senders send no requests,
the requests that it reads are those of the queries that were handed its socket, in the same
order. -/
theorem query_traffic (settings : ConnectionBuilder) (now : Instant) (cancelled : Bool)
    (actions : List Action) (s : State) (events : List Event)
    (hrun : (State.start settings now cancelled).run actions = some (s, events)) :
    let h := visitsOf (State.start settings now cancelled) actions
    (∀ n c identifier d stored, s.calls[n]? = some c → c.job = .query identifier →
      c.phase = .looking → s.cache.get? identifier = some ⟨d, stored⟩ →
      s.age stored < settings.config.queryTimeout →
      s.step (.stepCall n) = some
        ({ s with
            calls := s.calls.modify n fun c => { c with phase := .finished (.ok (.answered d)) } },
          [.finished n (.ok (.answered d))])) ∧
    (∀ w ∈ h, ∀ n c identifier, w.action = .stepCall n → w.state.calls[n]? = some c →
      c.job = .query identifier →
      (c.phase = .looking → ∀ d stored, w.state.cache.get? identifier = some ⟨d, stored⟩ →
        w.state.age stored < settings.config.queryTimeout →
        w.events = [.finished n (.ok (.answered d))] ∧ traceOf n h = []) ∧
      (c.phase = .checking → w.state.cancelled = true →
        w.events = [.finished n (.error .cancelled)] ∧ ∃ id, traceOf n h = [.joined id]) ∧
      (c.phase = .locking → w.state.live = none →
        w.events = [.finished n (.error .disconnected)] ∧ ∃ id, traceOf n h = [.joined id]) ∧
      (c.phase = .locking → ∀ k, w.state.live = some k →
        ∃ (id : SubscriberId) (chunks : List (List UInt8)),
          traceOf n h = .joined id :: .granted k (Datagram.read identifier).encode ::
            chunks.map (.wrote k) ∧
          chunks.flatten <+: (Datagram.read identifier).encode ∧
          ((∃ v ∈ h, v.action = .flushed n) →
            chunks.flatten = (Datagram.read identifier).encode))) ∧
    (∀ w ∈ h, ∀ n k frame, grantAt w = some ⟨n, k, frame⟩ ↔
      w.action = .stepCall n ∧ ∃ c, w.state.calls[n]? = some c ∧ c.phase = .locking ∧
        w.state.live = some k ∧ frame = c.job.frame) ∧
    ((grantsIn h).map (·.call)).Nodup ∧
    ∀ k, (∀ w ∈ h, breaksOff k w = false) →
      seenOn k events <+: (grantsOn k h).flatMap (·.frame) ∧
      (s.writer = none → seenOn k events = (grantsOn k h).flatMap (·.frame) ∧
        ((∀ c ∈ s.calls, ∀ frame, c.job = .send frame →
            ∃ d : Datagram, d.Fits ∧ d.command ≠ .read ∧ frame = d.encode) →
          (readFresh (seenOn k events)).filter (·.command = .read) =
            (grantsOn k h).filterMap (request? s))) := by
  intro h
  refine ⟨?_, ?_, ?_, granted_once settings now cancelled hrun, ?_⟩
  · intro n c identifier d stored hc hjob hphase hentry hage
    have hsteady := steady_run (steady_start settings now cancelled) hrun
    rw [← hsteady.queries.settings] at hage
    have hwriter := unlock_other hsteady.locked hc (by rw [hphase]; rfl)
    rw [State.step, stepCall_served hc hphase hjob (fresh_of_entry hentry hage), finish_eq, hwriter]
  · intro w hw n c identifier hact hc hjob
    have hsettings : w.state.settings = settings := by
      obtain ⟨before, _, _, _, hbefore, -, -, -⟩ := passages_split hrun hw
      exact (queries_run settings now cancelled hbefore).settings
    refine ⟨fun hphase d stored hentry hage => ?_, fun hphase hcancelled => ?_,
      fun hphase hlive => ?_, fun hphase k hlive => ?_⟩
    · rw [← hsettings] at hage
      obtain ⟨he, htrace⟩ := ended_unspoken hrun hw hact hc
        (stepCall_served hc hphase hjob (fresh_of_entry hentry hage))
      rw [hphase] at htrace
      exact ⟨he, htrace.1⟩
    · obtain ⟨he, htrace⟩ := ended_unspoken hrun hw hact hc (stepCall_barred hc hphase hcancelled)
      rw [hphase, hjob] at htrace
      exact ⟨he, htrace⟩
    · have hwriter : w.state.writer = none := by
        obtain ⟨_, _, _, _, -, hstep, -, -⟩ := passages_split hrun hw
        rw [hact] at hstep
        exact stepCall_locked hc hphase hstep
      obtain ⟨he, htrace⟩ := ended_unspoken hrun hw hact hc
        (stepCall_unplugged hc hphase hwriter hlive)
      rw [hphase, hjob] at htrace
      exact ⟨he, htrace⟩
    · obtain ⟨rest, ⟨lead, chunks, hlead, htrace, hall⟩, hflushed⟩ :=
        granted_spoken hrun hw hact hc hphase hlive
      rw [hjob] at hlead htrace hall
      obtain ⟨id, rfl⟩ := hlead
      refine ⟨id, chunks, htrace, ⟨rest, hall⟩, fun hf => ?_⟩
      rwa [hflushed hf, List.append_nil] at hall
  · intro w hw n k frame
    obtain ⟨_, _, _, _, -, hstep, -, -⟩ := passages_split hrun hw
    exact grantAt_iff hstep
  · intro k hk
    obtain ⟨hbegun, hwhole⟩ := device_sees k hrun hk
    exact ⟨hbegun, fun hwriter => ⟨hwhole hwriter, device_reads k hrun hk hwriter⟩⟩

/-- Two queries wait for the lock, and the younger one gets it first. The first answer comes when
both have written, and then another query asks for the same. -/
def overlapping : List Action :=
  [.stepBroker, .call (.query ⟨0x3E⟩), .call (.query ⟨0x40⟩), .stepCall 0, .stepCall 1,
    .stepCall 0, .stepCall 1, .stepCall 0, .stepCall 1, .stepCall 1, .wrote 1 4, .wrote 1 5,
    .stepCall 1, .flushed 1, .stepCall 0, .wrote 0 10, .stepCall 0, .flushed 0, .stepBroker,
    .stepBroker] ++ arrival [⟨.response, ⟨0x3E⟩, [1]⟩] ++ [.call (.query ⟨0x3E⟩)]

/-- The device reads the two requests in the order of the lock, and the third query takes the answer
from the cache. -/
theorem requests_in_lock_order :
    let start := State.start (.ofHost "inverter") 0 false
    ∃ s events, start.run overlapping = some (s, events) ∧
      (readFresh (seenOn 0 events)).filter (·.command = .read) =
        [.read ⟨0x40⟩, .read ⟨0x3E⟩] ∧
      (s.step (.stepCall 2)).map (·.2) =
        some [.finished 2 (.ok (.answered ⟨.response, ⟨0x3E⟩, [1]⟩))] := by
  intro start
  have hwhole : ∀ w ∈ visitsOf start overlapping, breaksOff 0 w = false := by decide +kernel
  have hsome : (start.run overlapping).isSome = true := by decide +kernel
  have hend : ∀ r ∈ start.run overlapping, r.1.writer = none ∧
      r.1.calls.map (·.job) = [.query ⟨0x3E⟩, .query ⟨0x40⟩, .query ⟨0x3E⟩] ∧
      r.1.calls[2]? = some { job := .query ⟨0x3E⟩, phase := .looking } ∧
      r.1.cache.get? ⟨0x3E⟩ = some ⟨⟨.response, ⟨0x3E⟩, [1]⟩, 0⟩ ∧
      r.1.age 0 < (ConnectionBuilder.ofHost "inverter").config.queryTimeout ∧
      (grantsOn 0 (visitsOf start overlapping)).filterMap (request? r.1) =
        [.read ⟨0x40⟩, .read ⟨0x3E⟩] := by decide +kernel
  obtain ⟨⟨s, events⟩, hrun⟩ := Option.isSome_iff_exists.mp hsome
  obtain ⟨hwriter, hjobs, hcall, hentry, hage, hgrants⟩ := hend _ hrun
  obtain ⟨hserved, -, -, -, hdevice⟩ := query_traffic _ _ _ overlapping s events hrun
  have hsent : ∀ c ∈ s.calls, ∀ frame, c.job = .send frame →
      ∃ d : Datagram, d.Fits ∧ d.command ≠ .read ∧ frame = d.encode := by
    intro c hc frame hjob
    have hmem := List.mem_map_of_mem (f := Call.job) hc
    rw [hjobs, hjob] at hmem
    simp at hmem
  refine ⟨s, events, hrun, ?_, ?_⟩
  · rw [((hdevice 0 hwhole).2 hwriter).2 hsent, hgrants]
  · rw [hserved 2 _ ⟨0x3E⟩ _ 0 hcall rfl rfl hentry hage, Option.map_some]

end InverterLink.Proofs
