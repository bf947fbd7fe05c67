import InverterLink.Proofs.Effort

/-!
# Shutting down

A cancelled connection comes to an end: all its tasks stop, and every call returns. `Over` says what
is left then. A call that begins later is refused before it reaches the device, unless the cache
serves it, and no dial begins.
-/

namespace InverterLink.Proofs
open Connection

/-- The tasks of the connection have ended, and it has no socket. -/
structure Ceased (s : State) : Prop where
  live : s.live = none
  connected : s.connected = false
  receiver : s.receiver.isOver = true
  decoder : s.decoder = .stopped
  loop : s.broker.phase = .stopped
  cacheFeed : s.cacheFeed = none
  logFeed : s.logFeed = none
  reporter : s.reporter = false

/-- Nothing is at work in the connection: no task, no call and no filter. -/
structure Over (s : State) : Prop extends Ceased s where
  calls : ∀ c ∈ s.calls, c.phase.isOver = true
  filters : ∀ c ∈ s.calls, ∀ f, c.filter = some f → f.running = false

/-- A call in this phase has not found out yet that the connection is cancelled. -/
def early : CallPhase → Bool
  | .looking | .subscribing | .checking => true
  | _ => false

/-- The tasks have ended, and no call gets as far as the socket. -/
structure Shut (s : State) : Prop where
  cancelled : s.cancelled = true
  ceased : Ceased s
  calls : ∀ (n : CallId) c, s.calls[n]? = some c → c.phase.isOver = true ∨ early c.phase = true

/-- The event neither reaches the device nor ends a call, unless with a refusal or with a fresh
answer from the cache. -/
def Inert (s : State) : Event → Prop
  | .dialStarted _ | .wrote _ _ _ | .writeFailed _ _ _ => False
  | .finished n result => result = .error .cancelled ∨
    ∃ c identifier d, s.calls[n]? = some c ∧ c.job = .query identifier ∧
      s.fresh? identifier = some d ∧ result = .ok (.answered d)
  | _ => True

section Rest

variable {settings : ConnectionBuilder} {h : List Visit} {s : State} {n : CallId} {c : Call}

lemma loop_of_rest (hd : Steady settings h s) (hc : s.cancelled = true)
    (hrest : s.stepBroker = none) : s.broker.phase = .stopped := by
  cases hp : s.broker.phase with
  | idle => exact absurd hp hd.started
  | running => simp [State.stepBroker, Broker.turn, hp, hc] at hrest
  | stopped => rfl

lemma decoder_of_rest (hc : s.cancelled = true) (hloop : s.broker.phase = .stopped)
    (hrest : s.stepDecoder = none) : s.decoder = .stopped := by
  cases hd : s.decoder with
  | idle => simp [State.stepDecoder, hd, hc] at hrest
  | publishing datagrams =>
    cases datagrams with
    | nil => simp [State.stepDecoder, hd] at hrest
    | cons d rest => simp [State.stepDecoder, hd, Broker.offer, hloop] at hrest
  | stopped => rfl

lemma writer_of_rest (hd : Steady settings h s) (hcalls : ∀ n, s.stepCall n = none)
    (hwrites : ∀ c ∈ s.calls, ∀ socket, ¬ writesTo socket c.phase) : s.writer = none := by
  cases hw : s.writer with
  | none => rfl
  | some n =>
    obtain ⟨c, hc, hlock⟩ := hd.locked n hw
    have hfree := hwrites c (List.mem_of_getElem? hc)
    have hstep := hcalls n
    cases hp : c.phase with
    | writing socket rest =>
      cases rest with
      | nil => simp [State.stepCall, hc, hp] at hstep
      | cons b rest =>
        refine absurd ?_ (hfree socket)
        rw [hp]
        rfl
    | flushing socket =>
      refine absurd ?_ (hfree socket)
      rw [hp]
      rfl
    | _ => simp [hp, holdsLock] at hlock

lemma pushInbound_of_stopped (hdecoder : s.decoder = .stopped) (item : Inbound) :
    s.pushInbound item = some (s, false) := by
  rw [State.pushInbound, if_pos hdecoder]

lemma pushStatus_of_ended (hreporter : s.reporter = false) (item : Status) :
    s.pushStatus item = some s := by
  simp [State.pushStatus, hreporter]

lemma receiver_of_rest (hc : s.cancelled = true) (hdecoder : s.decoder = .stopped)
    (hreporter : s.reporter = false) (hwriter : s.writer = none)
    (hrest : ∀ draw, s.stepReceiver draw = none) : s.receiver.isOver = true := by
  have hrest := hrest 0
  cases hr : s.receiver with
  | stopped => rfl
  | broken fault => rfl
  | _ =>
    simp [State.stepReceiver, hr, hc, hwriter, pushInbound_of_stopped hdecoder,
      pushStatus_of_ended hreporter] at hrest

lemma filter_of_rest (hd : Steady settings h s) (hloop : s.broker.phase = .stopped)
    (hc : s.calls[n]? = some c) {f : Filter} (hf : c.filter = some f)
    (hrest : s.stepFilter n = none) : f.running = false := by
  by_contra hn
  rw [Bool.not_eq_false] at hn
  have hunfed := unfed_of_stopped hd.ended hloop f.subscription
  cases hover : c.phase.isOver with
  | true => simp [State.stepFilter, hc, hf, hn, hover] at hrest
  | false =>
    cases hq : unread s.broker f.subscription with
    | nil => simp [State.stepFilter, hc, hf, hn, hover, receive_of_empty hq, hunfed] at hrest
    | cons d rest => simp [State.stepFilter, hc, hf, hn, hover, receive_of_unread hq] at hrest

lemma call_of_rest (hd : Steady settings h s)
    (hwriter : s.writer = none) (hc : s.calls[n]? = some c)
    (hfilter : ∀ f, c.filter = some f → f.running = false) (hrest : s.stepCall n = none) :
    c.phase.isOver = true ∨ ∃ socket, writesTo socket c.phase := by
  have ht := hd.queries.tracked n c hc
  cases hp : c.phase with
  | looking =>
    obtain ⟨identifier, hjob⟩ := ht.query (.inl (by rw [hp]; rfl))
    cases hf : s.fresh? identifier <;> simp [State.stepCall, hc, hp, hjob, hf] at hrest
  | subscribing => simp [State.stepCall, hc, hp] at hrest
  | checking =>
    cases hcancelled : s.cancelled <;> simp [State.stepCall, hc, hp, hcancelled] at hrest
  | locking => cases hl : s.live <;> simp [State.stepCall, hc, hp, hwriter, hl] at hrest
  | writing socket rest =>
    cases rest with
    | nil => simp [State.stepCall, hc, hp] at hrest
    | cons b rest => exact .inr ⟨socket, rfl⟩
  | flushing socket => exact .inr ⟨socket, rfl⟩
  | awaiting deadline =>
    -- the filter has ended, so it has an answer or there is none
    obtain ⟨identifier, hjob⟩ := ht.query (.inr ⟨deadline, hp⟩)
    obtain ⟨f, hf, -⟩ := ht.attended identifier hjob (by rw [hp]; rfl) (by rw [hp]; rfl)
    have hrunning := hfilter f hf
    cases hslot : f.slot <;>
      simp [State.stepCall, hc, hp, State.answer?, hf, hslot, hrunning] at hrest
  | finished result => exact .inl rfl
  | dropped => exact .inl rfl

/-- When the tasks of a cancelled connection wait and no call waits for the device, nothing is at
work any more. -/
theorem over_of_rest (hd : Steady settings h s) (hc : s.cancelled = true) (hrest : Resting s)
    (hwrites : ∀ c ∈ s.calls, ∀ socket, ¬ writesTo socket c.phase) : Over s := by
  obtain ⟨hreceiver, hdecoder, hbroker, hkeeper, hlogger, hreporter, hcalls⟩ := hrest
  have hloop := loop_of_rest hd hc hbroker
  have hdecoder := decoder_of_rest hc hloop hdecoder
  have hwriter := writer_of_rest hd (fun n => (hcalls n).1) hwrites
  have hreporter : s.reporter = false := by
    cases hr : s.reporter with
    | false => rfl
    | true => simp [State.stepReporter, hr, hc] at hreporter
  have hreceiver := receiver_of_rest hc hdecoder hreporter hwriter hreceiver
  have hlive : s.live = none := by
    refine hd.standing.idle ?_
    cases hr : s.receiver with
    | stopped => rfl
    | broken fault => rfl
    | _ => simp [hr, ReceiverPhase.isOver] at hreceiver
  have hfilters : ∀ (n : CallId) c, s.calls[n]? = some c →
      ∀ f, c.filter = some f → f.running = false :=
    fun n c hcall f hf => filter_of_rest hd hloop hcall hf (hcalls n).2
  refine ⟨⟨hlive, by rw [hd.standing.flag, hlive]; rfl, hreceiver, hdecoder, hloop, ?_, ?_,
    hreporter⟩, ?_, ?_⟩
  · cases hf : s.cacheFeed with
    | none => rfl
    | some id => simp [State.stepCacheKeeper, State.watch, hf, hc] at hkeeper
  · cases hf : s.logFeed with
    | none => rfl
    | some id => simp [State.stepLogger, State.watch, hf, hc] at hlogger
  · intro c hmem
    obtain ⟨n, hcall⟩ := List.mem_iff_getElem?.mp hmem
    rcases call_of_rest hd hwriter hcall (hfilters n c hcall) (hcalls n).1 with hover | hw
    · exact hover
    · obtain ⟨socket, hw⟩ := hw
      exact absurd hw (hwrites c hmem socket)
  · intro c hmem
    obtain ⟨n, hcall⟩ := List.mem_iff_getElem?.mp hmem
    exact hfilters n c hcall

end Rest
section Afterwards

variable {settings : ConnectionBuilder} {h : List Visit} {s s' : State} {action : Action}
  {events : List Event} {n : CallId} {c : Call}

lemma shut_of_over (ho : Over s) (hc : s.cancelled = true) : Shut s :=
  ⟨hc, ho.toCeased, fun _ _ hcall => .inl (ho.calls _ (List.mem_of_getElem? hcall))⟩

lemma early_steps (hd : Steady settings h s) (hcall : s.calls[n]? = some c)
    (he : early c.phase = true) : (s.stepCall n).isSome = true := by
  cases hp : c.phase with
  | looking =>
    obtain ⟨identifier, hjob⟩ := (hd.queries.tracked n c hcall).query (.inl (by rw [hp]; rfl))
    cases hf : s.fresh? identifier <;> simp [State.stepCall, hcall, hp, hjob, hf]
  | subscribing => simp [State.stepCall, hcall, hp]
  | checking => cases hc : s.cancelled <;> simp [State.stepCall, hcall, hp, hc]
  | _ => simp [hp, early] at he

lemma shut_advance {phase : CallPhase} {writer : Option CallId} (hsh : Shut s)
    (hcall : s.calls[n]? = some c) (step : Advance s n c action phase writer events) :
    (phase.isOver = true ∨ early phase = true) ∧ ∀ e ∈ events, Inert s e := by
  have hphase := hsh.calls n c hcall
  cases step with
  | served identifier d before job fresh =>
    refine ⟨.inl rfl, fun e he => ?_⟩
    rw [List.mem_singleton.mp he]
    exact .inr ⟨c, identifier, d, hcall, job, fresh, rfl⟩
  | missed => exact ⟨.inr rfl, List.forall_mem_nil _⟩
  | barred =>
    refine ⟨.inl rfl, fun e he => ?_⟩
    rw [List.mem_singleton.mp he]
    exact .inl rfl
  | passed before cancelled =>
    rw [hsh.cancelled] at cancelled
    cases cancelled
  | dropped => exact ⟨.inl rfl, List.forall_mem_nil _⟩
  | unplugged before | locked _ before | written _ before | wrote _ _ _ before | sent _ _ before
  | asked _ _ before | answered _ _ before | expired _ before =>
    rw [before] at hphase
    simp [CallPhase.isOver, early] at hphase

lemma late_of_writesTo {socket : SocketId} {phase : CallPhase} (hw : writesTo socket phase) :
    phase.isOver = false ∧ early phase = false := by
  cases phase with
  | writing => exact ⟨rfl, rfl⟩
  | flushing => exact ⟨rfl, rfl⟩
  | _ => exact hw.elim

lemma shut_callMove (hsh : Shut s) (hcall : s.calls[n]? = some c)
    (hm : CallMove s n c action s' events) : Shut s' ∧ ∀ e ∈ events, Inert s e := by
  have hc := hsh.ceased
  cases hm with
  | advance _ phase writer _ step =>
    obtain ⟨hphase, hevents⟩ := shut_advance hsh hcall step
    refine ⟨⟨hsh.cancelled, ⟨hc.live, hc.connected, hc.receiver, hc.decoder, hc.loop, hc.cacheFeed,
      hc.logFeed, hc.reporter⟩, fun m c' hc' => ?_⟩, hevents⟩
    obtain ⟨-, hc'⟩ | ⟨rfl, c₀, hc₀, rfl⟩ := modify_cases hc'
    · exact hsh.calls m c' hc'
    · exact hphase
  | fail socket error phase =>
    have hphase := hsh.calls n c hcall
    rw [(late_of_writesTo phase).1, (late_of_writesTo phase).2] at hphase
    simp at hphase
  | join phase =>
    refine ⟨⟨hsh.cancelled, ⟨hc.live, hc.connected, hc.receiver, hc.decoder, ?_, hc.cacheFeed,
      hc.logFeed, hc.reporter⟩, fun m c' hc' => ?_⟩, fun e he => ?_⟩
    · exact (subscribe_phase s.broker).trans hc.loop
    · obtain ⟨-, hc'⟩ | ⟨rfl, c₀, hc₀, rfl⟩ := modify_cases hc'
      · exact hsh.calls m c' hc'
      · exact .inr rfl
    · rw [List.mem_singleton.mp he]
      trivial

lemma phase_receive (b : Broker Datagram) (id : SubscriberId) :
    (b.receive id).1.phase = b.phase := by
  unfold Broker.receive
  split <;> rfl

lemma shut_same (hsh : Shut s) (htoken : s'.cancelled = true)
    (htasks : s'.live = s.live ∧ s'.connected = s.connected ∧ s'.receiver = s.receiver ∧
      s'.decoder = s.decoder ∧ s'.broker.phase = s.broker.phase ∧ s'.cacheFeed = s.cacheFeed ∧
      s'.logFeed = s.logFeed ∧ s'.reporter = s.reporter)
    (hcalls : ∀ n : CallId, (s'.calls[n]?).map (·.phase) = (s.calls[n]?).map (·.phase)) :
    Shut s' := by
  obtain ⟨hlive, hconnected, hreceiver, hdecoder, hloop, hcache, hlog, hreporter⟩ := htasks
  have hc := hsh.ceased
  refine ⟨htoken, ⟨hlive.trans hc.live, hconnected.trans hc.connected, hreceiver ▸ hc.receiver,
    hdecoder.trans hc.decoder, hloop.trans hc.loop, hcache.trans hc.cacheFeed,
    hlog.trans hc.logFeed, hreporter.trans hc.reporter⟩, fun n c hcall => ?_⟩
  have hphase := hcalls n
  rw [hcall, Option.map_some, eq_comm, Option.map_eq_some_iff] at hphase
  obtain ⟨c₀, hc₀, hphase⟩ := hphase
  exact hphase ▸ hsh.calls n c₀ hc₀

lemma feedless {id : SubscriberId} (hc : Ceased s) (w : Watcher) : w.feed s ≠ some id := by
  intro hfeed
  cases w with
  | cacheKeeper => cases hc.cacheFeed.symm.trans hfeed
  | logger => cases hc.logFeed.symm.trans hfeed

theorem shut_step (hsh : Shut s) (hs : s.step action = some (s', events)) :
    Shut s' ∧ ∀ e ∈ events, Inert s e := by
  have hc := hsh.ceased
  have htoken := cancelled_step hsh.cancelled hs
  cases transition_step hs with
  -- the tasks have ended, and the device has nothing to answer to
  | receiver hm => cases hc.receiver.symm.trans (live_receiver hm)
  | decoder hm =>
    cases hm with
    | calledOff phase | takes _ _ phase | ends phase | rests phase | publishes _ _ _ phase
      | refused _ _ phase => cases hc.decoder.symm.trans phase
  | loop b turn turns => simp [Broker.turn, hc.loop] at turns
  | watcher w own hm =>
    cases hm with
    | takes id d rest feed | ends id feed => exact absurd feed (feedless hc w)
  | reporter hm =>
    cases hm with
    | calledOff running | hears _ running | passesOn _ _ running | ends running =>
      cases hc.reporter.symm.trans running
  -- a call cannot get past its look at the token
  | call current hm => exact shut_callMove hsh current hm
  | @filter n c f _ _ current filter running hm =>
    have hcalls := phase_filterMove hm
    cases hm with
    | look d rest phase queue =>
      have hloop := phase_receive s.broker f.subscription
      refine ⟨shut_same hsh htoken ⟨rfl, rfl, rfl, rfl, hloop, rfl, rfl, rfl⟩ hcalls,
        fun e he => ?_⟩
      rw [List.mem_singleton.mp he]
      trivial
    | close why =>
      have hloop := (release_effort s.broker f.subscription).1
      exact ⟨shut_same hsh htoken ⟨rfl, rfl, rfl, rfl, hloop, rfl, rfl, rfl⟩ hcalls,
        List.forall_mem_nil _⟩
  | begin job =>
    refine ⟨⟨htoken, ⟨hc.live, hc.connected, hc.receiver, hc.decoder, hc.loop, hc.cacheFeed,
      hc.logFeed, hc.reporter⟩, fun n c hcall => ?_⟩, fun e he => ?_⟩
    · replace hcall : (s.calls ++ [({ job, phase := job.first } : Call)])[n]? = some c := hcall
      rw [List.getElem?_append] at hcall
      split at hcall
      · exact hsh.calls n c hcall
      · rw [List.mem_singleton.mp (List.mem_of_getElem? hcall)]
        cases job <;> exact .inr rfl
    · rw [List.mem_singleton.mp he]
      trivial
  -- whatever else users do leaves the tasks and the calls alone
  | subscribe =>
    refine ⟨shut_same hsh htoken ⟨rfl, rfl, rfl, rfl, subscribe_phase _, rfl, rfl, rfl⟩
      fun _ => rfl, fun e he => ?_⟩
    rw [List.mem_singleton.mp he]
    trivial
  | unsubscribe id held =>
    have hloop := (release_effort s.broker id).1
    exact ⟨shut_same hsh htoken ⟨rfl, rfl, rfl, rfl, hloop, rfl, rfl, rfl⟩ fun _ => rfl,
      List.forall_mem_nil _⟩
  | receive id held ready =>
    have hloop := phase_receive s.broker id
    refine ⟨shut_same hsh htoken ⟨rfl, rfl, rfl, rfl, hloop, rfl, rfl, rfl⟩ fun _ => rfl,
      fun e he => ?_⟩
    rw [List.mem_singleton.mp he]
    trivial
  | shutdown | cancelParent | wait =>
    exact ⟨shut_same hsh htoken ⟨rfl, rfl, rfl, rfl, rfl, rfl, rfl, rfl⟩ fun _ => rfl,
      List.forall_mem_nil _⟩

/-- Once it is shut, a connection stays so. -/
theorem shut_run {actions : List Action} (hsh : Shut s) (hr : s.run actions = some (s', events)) :
    Shut s' ∧ ∀ w ∈ visitsOf s actions, ∀ e ∈ w.events, Inert w.state e := by
  refine visits_induction (P := fun h s => Shut s ∧ ∀ w ∈ h, ∀ e ∈ w.events, Inert w.state e)
    ⟨hsh, List.forall_mem_nil _⟩ ?_ hr
  intro h s action s' events ⟨hsh, hinert⟩ hs
  obtain ⟨hnext, hevents⟩ := shut_step hsh hs
  refine ⟨hnext, fun w hw => ?_⟩
  rcases List.mem_append.mp hw with hw | hw
  · exact hinert w hw
  · rw [List.mem_singleton.mp hw]
    exact hevents

end Afterwards

/-- Take any run of a connection up to a state in which it is cancelled, and any run on from there
to a state in which all tasks wait and no call waits for the device. The second run is finite in
what the tasks and calls do, unless somebody keeps calling. In the end the tasks, the calls and the
filters are over, and there is no socket. A query that waited for its answer, unless its time is
over or it is dropped, has ended with the first datagram of its identifier that had arrived in its
queue when the connection was cancelled, and as cancelled if there was none. A subscriber gets what
waited for it at that moment, and then the end. Whatever happens afterwards, the tasks stay over, no
dial begins and nothing is written, and a call ends as cancelled, or with a fresh answer from the
cache; as long as it does not end, it can take a step. The token of whoever built the connection is
left alone. -/
theorem shutdown_complete (settings : ConnectionBuilder) (now : Instant) (cancelled : Bool)
    (before after later : List Action) (s₀ s s' : State) (log events more : List Event)
    (hbefore : (State.start settings now cancelled).run before = some (s₀, log))
    (hcancelled : s₀.cancelled = true) (hafter : s₀.run after = some (s, events))
    (hrest : Resting s) (hwrites : ∀ c ∈ s.calls, ∀ socket, ¬ writesTo socket c.phase)
    (hlater : s.run later = some (s', more)) :
    let h₀ := visitsOf (State.start settings now cancelled) before
    (after ++ later).countP works ≤ effort s₀ + 4 * (after ++ later).countP begins ∧
    Over s ∧
    (∀ (n : CallId) c deadline, s₀.calls[n]? = some c → c.phase = .awaiting deadline →
      s.now < deadline → (∀ action ∈ after, action ≠ .dropCall n) →
      ∃ identifier f, c.job = .query identifier ∧ c.filter = some f ∧
        SubscribedBy n f.subscription h₀ ∧
        .finished n (verdict identifier ((arrivals f.subscription h₀).map (·.2))) ∈ events) ∧
    (∀ id, s'.broker.isHeld id = true →
      takenFrom id (visitsOf s₀ (after ++ later)) ++ unread s'.broker id = unread s₀.broker id ∧
        (unread s'.broker id = [] → (s'.broker.receive id).2 = .closed)) ∧
    (Ceased s' ∧ (∀ w ∈ visitsOf s later, ∀ e ∈ w.events, Inert w.state e) ∧
      ∀ (n : CallId) c, s'.calls[n]? = some c → c.phase.isOver = false →
        (s'.stepCall n).isSome = true) ∧
    s'.parentCancelled = (cancelled || (before ++ after ++ later).any cancelsParent) := by
  intro h₀
  have hsteady₀ : Steady settings h₀ s₀ := by
    have hall := steady_run (steady_start settings now cancelled) hbefore
    rwa [List.nil_append] at hall
  have hsteady := steady_run hsteady₀ hafter
  have hsteady' := steady_run hsteady hlater
  have hcancelled' := cancelled_run hcancelled hafter
  have hwhole := runs_append hafter hlater
  have hover := over_of_rest hsteady hcancelled' hrest hwrites
  obtain ⟨hshut, hinert⟩ := shut_run (shut_of_over hover hcancelled') hlater
  refine ⟨?_, hover, ?_, ?_, ⟨hshut.ceased, hinert, ?_⟩, ?_⟩
  · have heffort := effort_run hsteady₀.started hcancelled hwhole
    omega
  · intro n c deadline hcall hphase hlate hdrop
    have ht := hsteady₀.queries.tracked n c hcall
    obtain ⟨identifier, hjob⟩ := ht.query (.inr ⟨deadline, hphase⟩)
    obtain ⟨f, hf, ha⟩ := ht.attended identifier hjob (by rw [hphase]; rfl) (by rw [hphase]; rfl)
    refine ⟨identifier, f, hjob, hf, ha.own, ?_⟩
    have hw : Awaits s₀ n identifier deadline f.subscription :=
      ⟨c, f, hcall, hjob, hphase, hf, rfl⟩
    refine (verdict_run hsteady₀ hcancelled hw hafter hlate hdrop).resolve_left ?_
    rintro ⟨c', f', hcall', -, hphase', -⟩
    have hend := hover.calls c' (List.mem_of_getElem? hcall')
    rw [hphase'] at hend
    cases hend
  · intro id held
    refine ⟨(final_run hsteady₀ hcancelled hwhole).kept id held, fun hempty => ?_⟩
    rw [receive_of_empty hempty, unfed_of_stopped hsteady'.ended hshut.ceased.loop]
    rfl
  · intro n c hcall hgoes
    refine early_steps hsteady' hcall ((hshut.calls n c hcall).resolve_left ?_)
    rw [hgoes]
    decide
  · have hparent := parent_run (runs_append (runs_append hbefore hafter) hlater)
    exact hparent

/-- A user listens and two queries wait. The answer to the first one is in all queues when the
connection is shut down. -/
def interrupted : List Action :=
  [.stepBroker, .subscribe, .stepBroker] ++ asking 0 ⟨0x3E⟩ ++ asking 1 ⟨0x3F⟩ ++
    [.read (.bytes (Datagram.encode ⟨.response, ⟨0x3E⟩, [0x2B]⟩)), .stepReceiver 0,
      .stepReceiver 0, .stepDecoder, .stepDecoder, .stepBroker, .shutdown]

/-- All tasks end. -/
def windingDown : List Action :=
  [.stepReceiver 0, .stepReceiver 0, .stepDecoder, .stepBroker, .stepCacheKeeper, .stepReporter,
    .stepFilter 0, .stepFilter 1, .stepFilter 0, .stepFilter 1, .stepCall 0, .stepCall 1]

/-- A query comes too late, and the user looks into its queue. -/
def tooLate : List Action :=
  [.call (.query ⟨0x40⟩), .stepCall 2, .stepCall 2, .stepCall 2, .receive 1, .receive 1]

/-- The first query gets its answer, the others do not, and the user gets the datagram. -/
theorem interrupted_queries_return :
    let start := State.start (.ofHost "inverter") 0 false
    let d : Datagram := ⟨.response, ⟨0x3E⟩, [0x2B]⟩
    ∃ s₀ s s' log events more, start.run interrupted = some (s₀, log) ∧
      s₀.run windingDown = some (s, events) ∧ s.run tooLate = some (s', more) ∧ Over s ∧
      .finished 0 (.ok (.answered d)) ∈ events ∧ .finished 1 (.error .cancelled) ∈ events ∧
      .finished 2 (.error .cancelled) ∈ more ∧ s'.parentCancelled = false ∧
      takenFrom 1 (visitsOf s₀ (windingDown ++ tooLate)) ++ unread s'.broker 1 = [d] := by
  intro start d
  have hsome : (start.run interrupted).isSome = true := by decide +kernel
  have hready : ∀ r ∈ start.run interrupted, r.1.cancelled = true ∧ unread r.1.broker 1 = [d] ∧
      r.1.calls.map (fun c => (c.job, c.phase, c.filter.map (·.subscription))) =
        [(.query ⟨0x3E⟩, .awaiting 2000000000, some 2),
          (.query ⟨0x3F⟩, .awaiting 2000000000, some 3)] ∧
      (r.1.run windingDown).isSome = true := by decide +kernel
  have hwound : ∀ r ∈ start.run interrupted, ∀ q ∈ r.1.run windingDown, Resting q.1 ∧
      (∀ c ∈ q.1.calls, c.phase.isOver = true) ∧ q.1.now = 0 ∧
      (q.1.run tooLate).isSome = true := by decide +kernel
  have hlast : ∀ r ∈ start.run interrupted, ∀ q ∈ r.1.run windingDown, ∀ p ∈ q.1.run tooLate,
      p.1.broker.isHeld 1 = true ∧ .finished 2 (.error .cancelled) ∈ p.2 := by decide +kernel
  have harrived : (arrivals 2 (visitsOf start interrupted)).map (·.2) = [d] ∧
      (arrivals 3 (visitsOf start interrupted)).map (·.2) = [d] := by decide +kernel
  have hquiet : ∀ n, ∀ action ∈ windingDown, action ≠ .dropCall n := by
    simp [windingDown]
  obtain ⟨⟨s₀, log⟩, hbefore⟩ := Option.isSome_iff_exists.mp hsome
  obtain ⟨hcancelled, hqueue, hcalls, hsome⟩ := hready _ hbefore
  obtain ⟨⟨s, events⟩, hafter⟩ := Option.isSome_iff_exists.mp hsome
  obtain ⟨hrest, hfinished, hnow, hsome⟩ := hwound _ hbefore _ hafter
  obtain ⟨⟨s', more⟩, hlater⟩ := Option.isSome_iff_exists.mp hsome
  obtain ⟨hheld, hrefused⟩ := hlast _ hbefore _ hafter _ hlater
  have hwrites : ∀ c ∈ s.calls, ∀ socket, ¬ writesTo socket c.phase := by
    intro c hc socket hw
    have hgoes := (late_of_writesTo hw).1
    rw [hfinished c hc] at hgoes
    cases hgoes
  obtain ⟨-, hover, hverdicts, hqueues, -, hparent⟩ :=
    shutdown_complete _ 0 false interrupted windingDown tooLate s₀ s s' log events more hbefore
      hcancelled hafter hrest hwrites hlater
  have hwaiting : ∀ (n : CallId) identifier id,
      (s₀.calls.map fun c => (c.job, c.phase, c.filter.map (·.subscription)))[n]? =
        some (.query identifier, .awaiting 2000000000, some id) →
      .finished n (verdict identifier
        ((arrivals id (visitsOf start interrupted)).map (·.2))) ∈ events := by
    intro n identifier id hn
    rw [List.getElem?_map, Option.map_eq_some_iff] at hn
    obtain ⟨c, hc, he⟩ := hn
    simp only [Prod.mk.injEq, Option.map_eq_some_iff] at he
    obtain ⟨hjob, hphase, f, hf, rfl⟩ := he
    obtain ⟨identifier', f', hjob', hf', -, hdone⟩ :=
      hverdicts n c _ hc hphase (by rw [hnow]; decide) (hquiet n)
    cases hjob.symm.trans hjob'
    cases hf.symm.trans hf'
    exact hdone
  have hfirst := hwaiting 0 ⟨0x3E⟩ 2 (by rw [hcalls]; rfl)
  have hsecond := hwaiting 1 ⟨0x3F⟩ 3 (by rw [hcalls]; rfl)
  rw [harrived.1] at hfirst
  rw [harrived.2] at hsecond
  refine ⟨s₀, s, s', log, events, more, hbefore, hafter, hlater, hover, hfirst, hsecond, hrefused,
    hparent, ?_⟩
  rw [(hqueues 1 hheld).1, hqueue]

end InverterLink.Proofs
