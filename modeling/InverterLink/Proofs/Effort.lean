import InverterLink.Proofs.Cancellation

/-!
# How long a cancelled connection goes on

A cancelled connection winds down: whatever a task, a call or the device does, less is left to do.
`effort` bounds what is left. Time, users and cancellation itself add nothing to it, and a new call
at most four steps. So the tasks come to rest, however they are scheduled.
-/

namespace InverterLink.Proofs
open Connection

section Queues

variable {μ : Type} {b b' : Broker μ} {deed : Deed μ}

/-- How many messages wait in the queues of a broker. -/
def unreadCount (b : Broker μ) : Nat := (b.queues.map (·.messages.length)).sum

/-- The deed takes a message out of a queue. -/
def takes : Deed μ → Bool
  | .took _ _ => true
  | _ => false

lemma sum_modify {α : Type} (g : α → Nat) (change : α → α) {l : List α} {n : Nat} {a : α}
    (h : l[n]? = some a) :
    ((l.modify n change).map g).sum + g a = (l.map g).sum + g (change a) := by
  obtain ⟨hn, rfl⟩ := List.getElem?_eq_some_iff.mp h
  have hsplit : l.map g = (l.take n).map g ++ g l[n] :: (l.drop (n + 1)).map g := by
    rw [← List.map_cons, ← List.map_append, ← List.drop_eq_getElem_cons, List.take_append_drop]
  rw [List.modify_eq_take_cons_drop hn, hsplit, List.map_append, List.map_cons, List.sum_append,
    List.sum_append, List.sum_cons, List.sum_cons]
  omega

lemma unreadCount_move (hm : Move b deed b') (hnone : delivered? deed = none) :
    unreadCount b' + (takes deed).toNat ≤ unreadCount b := by
  cases hm with
  | start =>
    rw [unreadCount, start_queues]
    exact Nat.le_refl _
  | join =>
    rw [unreadCount, subscribe_queues, List.map_append, List.sum_append]
    exact Nat.le_refl _
  | leave id held =>
    have hlen := lt_of_isHeld held
    have hsum := sum_modify (·.messages.length) Queue.drop (List.getElem?_eq_getElem hlen)
    rw [unreadCount, release_queues held]
    simp only [Queue.drop, List.length_nil] at hsum
    simp only [takes, Bool.toNat_false, unreadCount]
    omega
  | take id m rest queue =>
    have hsome : ∃ q, b.queues[id]? = some q ∧ q.messages = m :: rest := by
      unfold unread at queue
      cases hq : b.queues[id]? with
      | none => simp [hq] at queue
      | some q => exact ⟨q, rfl, by simpa [hq] using queue⟩
    obtain ⟨q, hq, hmessages⟩ := hsome
    have hsum := sum_modify (·.messages.length)
      (fun q : Queue μ => { q with messages := rest }) hq
    simp only [hmessages, List.length_cons] at hsum
    rw [receive_of_unread queue]
    simp only [takes, Bool.toNat_true, unreadCount]
    omega
  | deliver m phase requests pending => cases hnone
  | _ => exact Nat.le_refl _

end Queues

def receiverEffort : ReceiverPhase → Nat
  | .stopped | .broken _ => 0
  | .closing => 1
  | .reading _ | .redialing _ | .dialing _ | .pausing _ _ => 2
  | .acknowledging _ | .reporting _ | .announcing _ | .excusing _ _ => 3
  | .forwarding _ _ | .disconnecting _ | .installing => 4

def decoderEffort : DecoderPhase → Nat
  | .stopped => 0
  | .idle => 1
  | .publishing rest => rest.length + 2

def loopEffort : LoopPhase → Nat
  | .running => 1
  | _ => 0

/-- A call that has locked the socket writes its frame byte by byte at worst. -/
def phaseEffort (job : Job) : CallPhase → Nat
  | .finished _ | .dropped => 0
  | .checking | .awaiting _ => 1
  | .flushing _ => 2
  | .writing _ rest => rest.length + 3
  | .locking => job.frame.length + 4
  | .subscribing => 3
  | .looking => 4

def callEffort (c : Call) : Nat :=
  phaseEffort c.job c.phase + (c.filter.any (·.running)).toNat

/-- A bound on the steps that are left when a connection is cancelled. -/
def effort (s : State) : Nat :=
  receiverEffort s.receiver + decoderEffort s.decoder + loopEffort s.broker.phase +
    unreadCount s.broker + s.cacheFeed.isSome.toNat + s.logFeed.isSome.toNat + s.reporter.toNat +
    (s.calls.map callEffort).sum

/-- The action is one of a task or a call, or of the device. -/
def works : Action → Bool
  | .call _ | .subscribe | .unsubscribe _ | .receive _ | .shutdown | .cancelParent | .wait _ =>
    false
  | _ => true

/-- The action is the beginning of a call. -/
def begins : Action → Bool
  | .call _ => true
  | _ => false

section Steps

variable {settings : ConnectionBuilder} {h : List Visit} {s s' : State} {action : Action}
  {actions : List Action} {events : List Event} {n : CallId} {c : Call}

lemma not_uncancelled (hc : s.cancelled = true) : s.cancelled ≠ false :=
  fun hn => Bool.noConfusion (hc.symm.trans hn)

lemma heeding_effort {r : ReceiverPhase} (h : heeds r = true) : receiverEffort r = 2 := by
  cases r with
  | reading | redialing | dialing | pausing => rfl
  | _ => cases h

lemma holding_effort {r : ReceiverPhase} {item : Inbound} (h : inHand r = [item]) :
    2 < receiverEffort r := by
  cases r with
  | forwarding | announcing => simp [receiverEffort]
  | _ => cases h

lemma paused_effort {b : Backoff} {draw : Draw} {r : ReceiverPhase} (h : Paused s b draw r) :
    receiverEffort r < 3 := by
  cases h <;> simp [receiverEffort]

lemma receiver_effort (hc : s.cancelled = true) (hm : ReceiverStep s action s' events) :
    receiverEffort s'.receiver < receiverEffort s.receiver := by
  have hnever := not_uncancelled hc
  have hclosed : ∀ k, s.isClosed k ≠ false := by simp [State.isClosed, hc]
  cases hm with
  | calledOff draw phase cancelled =>
    rw [heeding_effort phase]
    exact Nat.one_lt_two
  | refused draw item hand decoder => exact Nat.lt_trans Nat.one_lt_two (holding_effort hand)
  | loses _ _ _ cancelled | dials _ _ _ cancelled | wakes _ _ _ _ cancelled | connects _ _ cancelled
    | misses _ _ _ cancelled => exact absurd cancelled hnever
  | reads k _ _ unclosed | fails k _ _ _ unclosed => exact absurd unclosed (hclosed k)
  | excuses draw b error next phase room paused =>
    rw [phase]
    exact paused_effort paused
  | forwards _ _ _ phase | announces _ _ phase | acknowledges _ _ phase | disconnects _ _ phase
    | reports _ _ phase | installs _ phase | closes _ phase =>
    rw [phase]
    simp [receiverEffort]

lemma publishing_effort (rest : List Datagram) :
    decoderEffort (State.publishing rest) ≤ rest.length + 2 := by
  unfold State.publishing
  split
  · exact Nat.le_add_left 1 _
  · exact Nat.le_refl _

lemma decoder_effort (hc : s.cancelled = true) (hm : DecoderStep s s' events) :
    decoderEffort s'.decoder < decoderEffort s.decoder := by
  have hnever := not_uncancelled hc
  cases hm with
  | calledOff phase cancelled =>
    rw [phase]
    exact Nat.zero_lt_one
  | takes _ _ _ cancelled | ends _ cancelled => exact absurd cancelled hnever
  | rests phase =>
    rw [phase]
    exact Nat.one_lt_two
  | publishes d rest b phase offer =>
    have hrest := publishing_effort rest
    rw [phase]
    show decoderEffort (State.publishing rest) < rest.length + 1 + 2
    omega
  | refused d rest phase loop =>
    rw [phase]
    exact Nat.zero_lt_succ _

lemma advance_effort {phase : CallPhase} {writer : Option CallId} (hc : s.cancelled = true)
    (step : Advance s n c action phase writer events) :
    phaseEffort c.job phase < phaseEffort c.job c.phase := by
  cases step with
  | served _ _ before | missed _ before | barred before | unplugged before | answered _ _ before
  | expired _ before | sent _ _ before | asked _ _ before | written _ before | locked _ before =>
    rw [before]
    simp [phaseEffort]
  | passed before cancelled =>
    rw [hc] at cancelled
    cases cancelled
  | wrote socket rest count before least most =>
    rw [before]
    simp only [phaseEffort, List.length_drop]
    omega
  | dropped before =>
    cases hp : c.phase with
    | finished result => simp [hp, CallPhase.isOver] at before
    | dropped => simp [hp, CallPhase.isOver] at before
    | _ => simp [phaseEffort]

lemma calls_effort (change : Call → Call) (hcall : s.calls[n]? = some c)
    (hless : callEffort (change c) < callEffort c) :
    ((s.calls.modify n change).map callEffort).sum < (s.calls.map callEffort).sum := by
  have hsum := sum_modify callEffort change hcall
  omega

lemma callMove_effort (hc : s.cancelled = true) (hcall : s.calls[n]? = some c)
    (hm : CallMove s n c action s' events) : effort s' < effort s := by
  cases hm with
  | advance _ phase writer _ step =>
    have hcalls := calls_effort (fun c => { c with phase }) hcall
      (Nat.add_lt_add_right (advance_effort hc step) _)
    simp only [effort]
    omega
  | fail socket error phase =>
    have hwriting : 0 < phaseEffort c.job c.phase := by
      unfold writesTo at phase
      split at phase
      · rename_i hphase
        rw [hphase]
        exact Nat.succ_pos _
      · rename_i hphase
        rw [hphase]
        exact Nat.succ_pos _
      · exact phase.elim
    have hcalls := calls_effort
      (fun c => { c with phase := .finished (.error (.connection error)) }) hcall
      (Nat.add_lt_add_right hwriting _)
    simp only [effort]
    omega
  | join phase =>
    have hqueues := unreadCount_move (.join s.broker) rfl
    have hcalls := calls_effort (fun c =>
      { c with phase := .checking, filter := some { subscription := s.broker.queues.length } })
      hcall (by simp only [callEffort, phase, phaseEffort, Option.any_some, Bool.toNat_true]; omega)
    simp only [takes, Bool.toNat_false] at hqueues
    simp only [effort, subscribe_phase]
    omega

lemma look_running (f : Filter) (job : Job) (d : Datagram) :
    (State.Filter.look f job d).running = f.running := by
  unfold State.Filter.look
  split
  · split <;> rfl
  · rfl

lemma release_effort (b : Broker Datagram) (id : SubscriberId) :
    (b.release id).phase = b.phase ∧ unreadCount (b.release id) ≤ unreadCount b := by
  by_cases held : b.isHeld id = true
  · refine ⟨release_phase held, ?_⟩
    have hqueues := unreadCount_move (.leave b id held) rfl
    exact hqueues
  · rw [Broker.release, if_neg held]
    exact ⟨rfl, Nat.le_refl _⟩

lemma filterMove_effort {f : Filter} (hcall : s.calls[n]? = some c) (hf : c.filter = some f)
    (running : f.running = true) (hm : FilterMove s n c f s' events) : effort s' < effort s := by
  cases hm with
  | look d rest phase queue =>
    -- one message less waits, and what the filter knows of it counts for nothing
    have hqueues := unreadCount_move (.take s.broker _ _ _ queue) rfl
    have hsum := sum_modify callEffort
      (fun c' => { c' with filter := c'.filter.map fun f => State.Filter.look f c.job d }) hcall
    have hsame : callEffort { c with filter := c.filter.map fun f => State.Filter.look f c.job d } =
        callEffort c := by
      simp only [callEffort, hf, look_running, Option.map_some, Option.any_some]
    have hphase : (s.broker.receive f.subscription).1.phase = s.broker.phase := by
      rw [receive_of_unread queue]
    simp only [takes, Bool.toNat_true] at hqueues
    simp only [effort, State.updateFilter, State.updateCall, hphase]
    omega
  | close why =>
    obtain ⟨hphase, hqueues⟩ := release_effort s.broker f.subscription
    have hcalls := calls_effort
      (fun c => { c with filter := c.filter.map fun f => { f with running := false } }) hcall
      (by simp [callEffort, hf, running])
    simp only [effort, State.endFilter, State.updateFilter, State.updateCall, hphase]
    omega

lemma begin_effort (job : Job) : callEffort { job, phase := job.first } ≤ 4 := by
  cases job with
  | send frame => exact Nat.le_add_left 1 3
  | query identifier => exact Nat.le_refl 4

lemma loopEffort_move {b b' : Broker Datagram} {deed : Deed Datagram} (hm : Move b deed b')
    (hstarted : b.phase ≠ .idle) : loopEffort b'.phase ≤ loopEffort b.phase := by
  cases hm with
  | start => rw [Broker.start, if_neg hstarted]
  | stop => exact Nat.zero_le _
  | join => rw [subscribe_phase]
  | leave id held => rw [release_phase held]
  | take id m rest queue => rw [receive_of_unread queue]
  | _ => exact Nat.le_refl _

lemma broker_effort (hstarted : s.broker.phase ≠ .idle) (hc : s.cancelled = true)
    (hs : s.step action = some (s', events)) :
    loopEffort s'.broker.phase + unreadCount s'.broker ≤
      loopEffort s.broker.phase + unreadCount s.broker := by
  have hm := (changes_step hs).move
  have hloop := loopEffort_move hm hstarted
  have hqueues := unreadCount_move hm (undelivered_of_cancelled hc hs)
  omega

lemma works_callMove (hm : CallMove s n c action s' events) : works action = true := by
  cases hm with
  | advance _ _ _ _ step => cases step <;> rfl
  | _ => rfl

lemma watcher_effort {w : Watcher} {id : SubscriberId} (h : w.feed s = some id) :
    (if w = .cacheKeeper then none else s.cacheFeed).isSome.toNat +
      (if w = .logger then none else s.logFeed).isSome.toNat <
    s.cacheFeed.isSome.toNat + s.logFeed.isSome.toNat := by
  cases w with
  | cacheKeeper =>
    have h : s.cacheFeed = some id := h
    simp [h]
  | logger =>
    have h : s.logFeed = some id := h
    simp [h]

/-- In a cancelled connection, every step of a task or a call leaves less to do, and nothing but a
new call adds to it. -/
theorem effort_step (hstarted : s.broker.phase ≠ .idle) (hc : s.cancelled = true)
    (hs : s.step action = some (s', events)) :
    effort s' + (works action).toNat ≤ effort s + 4 * (begins action).toNat := by
  have hbroker := broker_effort hstarted hc hs
  have hdone : effort s' < effort s → works action = true →
      effort s' + (works action).toNat ≤ effort s + 4 * (begins action).toNat := by
    intro hless hworks
    rw [hworks, Bool.toNat_true]
    omega
  have hsame : effort s' ≤ effort s → works action = false →
      effort s' + (works action).toNat ≤ effort s + 4 * (begins action).toNat := by
    intro hless hworks
    rw [hworks, Bool.toNat_false]
    omega
  cases transition_step hs with
  | receiver hm =>
    have hless := receiver_effort hc hm
    cases hm with
    | _ =>
      refine hdone ?_ rfl
      simp only [effort] at hless ⊢
      omega
  | decoder hm =>
    have hless := decoder_effort hc hm
    cases hm with
    | _ =>
      refine hdone ?_ rfl
      simp only [effort, State.stopDecoder] at hless hbroker ⊢
      omega
  | loop b turn turns =>
    simp only [Broker.turn, hc, if_true] at turns
    split at turns <;> cases turns
    rename_i hphase
    have hloop : loopEffort s.broker.phase = 1 := by
      rw [not_not.mp hphase]
      rfl
    have hstop : loopEffort s.broker.stop.phase = 0 := rfl
    have hqueues : unreadCount s.broker.stop = unreadCount s.broker := rfl
    refine hdone ?_ rfl
    simp only [effort]
    omega
  | watcher w own hm =>
    subst own
    cases hm with
    | takes id d rest feed cancelled queue => exact absurd cancelled (not_uncancelled hc)
    | ends id feed why =>
      refine hdone ?_ (by cases w <;> rfl)
      have hfeed := watcher_effort feed
      simp only [effort] at hbroker ⊢
      omega
  | reporter hm =>
    cases hm with
    | calledOff running cancelled =>
      refine hdone ?_ rfl
      simp only [effort, State.stopReporter, running, Bool.toNat_true, Bool.toNat_false]
      omega
    | hears _ _ cancelled | passesOn _ _ _ cancelled | ends _ cancelled =>
      exact absurd cancelled (not_uncancelled hc)
  | call current hm => exact hdone (callMove_effort hc current hm) (works_callMove hm)
  | filter current filter running hm =>
    exact hdone (filterMove_effort current filter running hm) rfl
  | begin job =>
    have hbegin := begin_effort job
    simp only [effort, works, begins, Bool.toNat_true, Bool.toNat_false,
      List.map_append, List.map_singleton, List.sum_append, List.sum_singleton]
    omega
  | subscribe | unsubscribe | receive =>
    refine hsame ?_ rfl
    simp only [effort] at hbroker ⊢
    omega
  | shutdown | cancelParent | wait => exact Nat.le_refl _

/-- However its tasks are scheduled, a cancelled connection takes a bounded number of steps, unless
somebody keeps calling. -/
theorem effort_run (hstarted : s.broker.phase ≠ .idle) (hc : s.cancelled = true)
    (hr : s.run actions = some (s', events)) :
    actions.countP works + effort s' ≤ effort s + 4 * actions.countP begins := by
  induction actions generalizing s events with
  | nil =>
    cases hr
    simp
  | cons action rest ih =>
    obtain ⟨s₁, now, later, hs, hrest, rfl⟩ := run_cases hr
    have hstep := effort_step hstarted hc hs
    have hrun := ih (started_move hstarted (changes_step hs).move) (cancelled_step hc hs) hrest
    have hcount : ∀ p : Action → Bool,
        (action :: rest).countP p = rest.countP p + (p action).toNat := by
      intro p
      rw [List.countP_cons]
      cases p action <;> rfl
    rw [hcount, hcount]
    omega

end Steps
end InverterLink.Proofs
