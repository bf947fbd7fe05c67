import InverterLink.Proofs.ConnectionVisits

/-!
# What queries are answered

A query ends with a datagram of its identifier: a cached one that is fresh enough, or the first one
that arrives in a queue of its own. The queue is there before the request is written, so every
datagram delivered from then on is offered to it. `Attended` ties the filter of a query to what has
arrived for it; a query whose time runs out has seen nothing that arrived in time.
-/

namespace InverterLink.Proofs
open Connection

/-- Time goes on only while all tasks wait. -/
def Paced (h : List Visit) : Prop := ∀ w ∈ h, w.state.now < w.next.now → Resting w.state

instance (h : List Visit) : Decidable (Paced h) := inferInstanceAs (Decidable (∀ w ∈ h, _ → _))

/-- The call made the subscription. -/
def SubscribedBy (n : CallId) (id : SubscriberId) (h : List Visit) : Prop :=
  ∃ w ∈ h, w.action = .stepCall n ∧ .subscribed id ∈ w.events

/-- A query in this phase has not subscribed yet. -/
def unprepared : CallPhase → Bool
  | .looking | .subscribing => true
  | _ => false

/-- The filter of a query has looked at what it took, one after the other, and holds on to the
first datagram of the identifier. It stops by itself only when the loop has stopped. -/
structure Attended (h : List Visit) (s : State) (n : CallId) (identifier : Identifier)
    (f : Filter) : Prop where
  own : SubscribedBy n f.subscription h
  listens : s.broker.isHeld f.subscription = f.running
  stopped : f.running = false → s.broker.phase = .stopped
  balanced : Balanced f.subscription h s.broker
  slot : f.slot = (takenFrom f.subscription h).find? (·.identifier = identifier)
  prompt : Paced h → ∀ x ∈ arrivals f.subscription h, x.2.identifier = identifier →
    x.1 < s.now → f.slot.isSome = true

/-- Where a call is. -/
structure Tracked (h : List Visit) (s : State) (n : CallId) (c : Call) : Prop where
  query : unprepared c.phase = true ∨ (∃ deadline, c.phase = .awaiting deadline) →
    ∃ identifier, c.job = .query identifier
  attended : ∀ identifier, c.job = .query identifier → c.phase.isOver = false →
    unprepared c.phase = false → ∃ f, c.filter = some f ∧ Attended h s n identifier f
  asked : ∀ deadline, c.phase = .awaiting deadline → ∃ w ∈ h, w.action = .flushed n ∧
    deadline = w.state.now + s.config.queryTimeout.nanos

/-- Where all calls are, and that the cache keeps its datagrams under their identifiers. -/
structure Queries (settings : ConnectionBuilder) (h : List Visit) (s : State) : Prop where
  settings : s.settings = settings
  holdings : Holdings h s
  cached : ∀ p ∈ s.cache.entries, p.2.datagram.identifier = p.1
  tracked : ∀ n c, s.calls[n]? = some c → Tracked h s n c

section Steps

variable {s s' : State} {action : Action} {events : List Event} {h : List Visit} {n : CallId}
  {c : Call} {f : Filter} {identifier : Identifier} {id : SubscriberId}

lemma feedOf_filter (hc : s.calls[n]? = some c) (hf : c.filter = some f) :
    feedOf s (.filter n) = some f.subscription := by
  simp [feedOf, hc, hf]

lemma arrivals_before (hs : s.step action = some (s', events)) {x : Instant × Datagram}
    (hx : x ∈ arrivals id (h ++ [⟨s, action, s', events⟩])) (hlt : x.1 < s'.now) :
    x ∈ arrivals id h := by
  rw [arrivals_concat, List.mem_append] at hx
  rcases hx with hx | hx
  · exact hx
  · obtain ⟨d, hd, rfl⟩ := List.mem_map.mp hx
    by_cases hwait : ∃ time, action = .wait time
    · obtain ⟨time, rfl⟩ := hwait
      -- nothing arrives while time goes on
      obtain ⟨-, rfl, -⟩ := wait_cases hs
      rw [added, List.drop_length] at hd
      cases hd
    · have hnow := (changes_step hs).clock fun time he => hwait ⟨time, he⟩
      rw [hnow] at hlt
      exact absurd hlt (Nat.lt_irrefl _)

lemma unread_resting (hrest : Resting s) (hsound : Sound s.broker) (hc : s.calls[n]? = some c)
    (hf : c.filter = some f) (hphase : c.phase.isOver = false)
    (hlistens : s.broker.isHeld f.subscription = f.running) :
    unread s.broker f.subscription = [] := by
  cases hr : f.running with
  | false => exact hsound.emptied _ (hlistens.trans hr)
  | true =>
    have hnone := (hrest.2.2.2.2.2.2 n).2
    cases hq : unread s.broker f.subscription with
    | nil => rfl
    | cons d rest => simp [State.stepFilter, hc, hf, hr, hphase, receive_of_unread hq] at hnone

lemma paced_of_concat {w : Visit} (h' : Paced (h ++ [w])) :
    Paced h ∧ (w.state.now < w.next.now → Resting w.state) :=
  ⟨fun v hv => h' v (List.mem_append_left _ hv),
    h' w (List.mem_append_right _ (List.mem_singleton_self w))⟩

lemma subscribedBy_concat {w : Visit} (hown : SubscribedBy n id h) :
    SubscribedBy n id (h ++ [w]) := by
  obtain ⟨v, hv, hrest⟩ := hown
  exact ⟨v, List.mem_append_left _ hv, hrest⟩

lemma prompt_step (ha : Attended h s n identifier f) (hsound : Sound s.broker)
    (hs : s.step action = some (s', events)) (hc : s.calls[n]? = some c)
    (hf : c.filter = some f) (hphase : c.phase.isOver = false)
    (hp : Paced (h ++ [⟨s, action, s', events⟩])) (x : Instant × Datagram)
    (hx : x ∈ arrivals f.subscription (h ++ [⟨s, action, s', events⟩]))
    (hid : x.2.identifier = identifier) (hlt : x.1 < s'.now) : f.slot.isSome = true := by
  obtain ⟨hpaced, hrest⟩ := paced_of_concat hp
  have hx := arrivals_before hs hx hlt
  by_cases hnow : s.now < s'.now
  · have hempty := unread_resting (hrest hnow) hsound hc hf hphase ha.listens
    have hmem : x.2 ∈ takenFrom f.subscription h := by
      have hb := ha.balanced
      rw [Balanced, hempty, List.append_nil] at hb
      rw [← hb]
      exact List.mem_map_of_mem hx
    rw [ha.slot, List.find?_isSome]
    exact ⟨x.2, hmem, by simpa using hid⟩
  · exact ha.prompt hpaced x hx hid (Nat.lt_of_lt_of_le hlt (Nat.not_lt.mp hnow))

lemma attended_other (ha : Attended h s n identifier f) (hd : Holdings h s)
    (hs : s.step action = some (s', events)) (hc : s.calls[n]? = some c)
    (hf : c.filter = some f) (hphase : c.phase.isOver = false)
    (hother : action ≠ .stepFilter n) :
    Attended (h ++ [⟨s, action, s', events⟩]) s' n identifier f := by
  have hfeed := feedOf_filter hc hf
  have hm := (changes_step hs).move
  have huntouched : touched? (deedAt s action) ≠ some f.subscription :=
    fun ht => hother (touched_by_reader hd hs hfeed ht)
  constructor
  · exact subscribedBy_concat ha.own
  · rw [isHeld_move hm (hd.made _ _ hfeed) huntouched, ha.listens]
  · exact fun hr => stopped_move hm (ha.stopped hr)
  · exact balanced_step ha.balanced hs fun he => absurd (congrArg touched? he) huntouched
  · rw [takenFrom_concat, took_of_untouched huntouched, Option.toList_none, List.append_nil,
      ha.slot]
  · exact prompt_step ha hd.sound hs hc hf hphase

lemma look_eq (f : Filter) (identifier : Identifier) (d : Datagram) :
    State.Filter.look f (.query identifier) d =
      { f with slot := f.slot.or ([d].find? (·.identifier = identifier)) } := by
  obtain ⟨id, running, slot⟩ := f
  cases slot with
  | some _ => rfl
  | none => by_cases he : d.identifier = identifier <;> simp [State.Filter.look, he]

lemma attended_looked {d : Datagram} {rest : List Datagram} (ha : Attended h s n identifier f)
    (hd : Holdings h s) (hs : s.step (.stepFilter n) = some (s', events))
    (hc : s.calls[n]? = some c) (hf : c.filter = some f) (hjob : c.job = .query identifier)
    (hphase : c.phase.isOver = false) (queue : unread s.broker f.subscription = d :: rest)
    (broker : s'.broker = (s.broker.receive f.subscription).1) :
    Attended (h ++ [⟨s, .stepFilter n, s', events⟩]) s' n identifier
      (State.Filter.look f c.job d) := by
  have hdeed : deedAt s (.stepFilter n) = .took f.subscription d := by
    rw [filtering_eq hc hf, filtering_look hphase queue]
  rw [hjob, look_eq]
  constructor
  · exact subscribedBy_concat ha.own
  · rw [broker, isHeld_receive queue]
    exact ha.listens
  · exact fun hr => stopped_move (changes_step hs).move (ha.stopped hr)
  · refine balanced_step ha.balanced hs fun he => ?_
    rw [hdeed] at he
    cases he
  · rw [takenFrom_concat, hdeed, took?, if_pos rfl, Option.toList_some, List.find?_append, ha.slot]
  · intro hp x hx hid hlt
    rw [Option.isSome_or, prompt_step ha hd.sound hs hc hf hphase hp x hx hid hlt, Bool.true_or]

lemma attended_closed (ha : Attended h s n identifier f) (hd : Holdings h s)
    (hs : s.step (.stepFilter n) = some (s', events)) (hc : s.calls[n]? = some c)
    (hf : c.filter = some f) (running : f.running = true) (hphase : c.phase.isOver = false)
    (hempty : unread s.broker f.subscription = [])
    (hunfed : s.broker.isFed f.subscription = false)
    (broker : s'.broker = s.broker.release f.subscription) :
    Attended (h ++ [⟨s, .stepFilter n, s', events⟩]) s' n identifier
      { f with running := false } := by
  have hheld : s.broker.isHeld f.subscription = true := ha.listens.trans running
  have hstopped : s.broker.phase = .stopped := by
    by_contra hn
    rw [isFed_of_held hd.sound hn hheld] at hunfed
    cases hunfed
  have hdeed : deedAt s (.stepFilter n) = .left f.subscription := by
    rw [filtering_eq hc hf, filtering_close (.inr ⟨hempty, hunfed⟩), leaving, if_pos hheld]
  constructor
  · exact subscribedBy_concat ha.own
  · rw [broker, isHeld_release hheld, if_pos rfl]
  · exact fun _ => stopped_move (changes_step hs).move hstopped
  · exact balanced_step ha.balanced hs fun _ => hempty
  · have htook : took? f.subscription (deedAt s (.stepFilter n)) = none := by
      rw [hdeed]
      rfl
    rw [takenFrom_concat, htook, Option.toList_none, List.append_nil]
    exact ha.slot
  · have hprompt := prompt_step ha hd.sound hs hc hf hphase
    exact hprompt

lemma attended_joined (hd : Holdings h s) (hs : s.step (.stepCall n) = some (s', events))
    (hc : s.calls[n]? = some c) (hphase : c.phase = .subscribing)
    (broker : s'.broker = s.broker.subscribe.1)
    (seen : events = [.subscribed s.broker.queues.length]) :
    Attended (h ++ [⟨s, .stepCall n, s', events⟩]) s' n identifier
      { subscription := s.broker.queues.length } := by
  obtain ⟨harrivals, htaken⟩ := hd.unmade _ (Nat.le_refl _)
  have hdeed : deedAt s (.stepCall n) = .joined s.broker.queues.length := by
    simp [deedAt, hc, hphase]
  constructor
  · refine ⟨_, List.mem_append_right _ (List.mem_singleton_self _), rfl, ?_⟩
    rw [seen]
    exact List.mem_singleton_self _
  · rw [broker, isHeld_subscribe, beq_self_eq_true, Bool.or_true]
  · intro hn
    cases hn
  · refine balanced_step ?_ hs fun he => ?_
    · rw [Balanced, harrivals, htaken, unread_unmade (Nat.le_refl _)]
      rfl
    · rw [hdeed] at he
      cases he
  · rw [takenFrom_concat, htaken, hdeed]
    rfl
  · intro _ x hx _ hlt
    have hx := arrivals_before hs hx hlt
    rw [harrivals] at hx
    cases hx

lemma tracked_attended (ht : Tracked h s n c) (hd : Holdings h s)
    (hs : s.step action = some (s', events)) (hc : s.calls[n]? = some c)
    (hother : action ≠ .stepFilter n) (hjob : c.job = .query identifier)
    (hphase : c.phase.isOver = false) (hready : unprepared c.phase = false) :
    ∃ f, c.filter = some f ∧
      Attended (h ++ [⟨s, action, s', events⟩]) s' n identifier f := by
  obtain ⟨f, hf, ha⟩ := ht.attended identifier hjob hphase hready
  exact ⟨f, hf, attended_other ha hd hs hc hf hphase hother⟩

lemma asked_concat {deadline : Instant} {w : Visit} (hsettings : s'.settings = s.settings)
    (hasked : ∃ v ∈ h, v.action = .flushed n ∧
      deadline = v.state.now + s.config.queryTimeout.nanos) :
    ∃ v ∈ h ++ [w], v.action = .flushed n ∧
      deadline = v.state.now + s'.config.queryTimeout.nanos := by
  obtain ⟨v, hv, hact, he⟩ := hasked
  refine ⟨v, List.mem_append_left _ hv, hact, ?_⟩
  rw [he, State.config, State.config, hsettings]

lemma tracked_advanced {phase : CallPhase} {writer : Option CallId} (ht : Tracked h s n c)
    (hd : Holdings h s) (hs : s.step action = some (s', events)) (hc : s.calls[n]? = some c)
    (step : Advance s n c action phase writer events) :
    Tracked (h ++ [⟨s, action, s', events⟩]) s' n { c with phase } := by
  have hsettings := (changes_step hs).settings
  have hother : action ≠ .stepFilter n := by
    cases step <;> nofun
  -- a call that goes on had its filter before, unless it has only looked into the cache
  have hgoes : phase.isOver = false → unprepared phase = false →
      c.phase.isOver = false ∧ unprepared c.phase = false := by
    intro hphase hready
    cases step with
    | served | barred | unplugged | sent | answered | expired | dropped => cases hphase
    | missed => cases hready
    | passed before | locked _ before | written _ before | wrote _ _ _ before | asked _ _ before =>
      rw [before]
      exact ⟨rfl, rfl⟩
  constructor
  · rintro (hlook | ⟨deadline, hwait⟩)
    · cases step with
      | missed id before job => exact ⟨id, job⟩
      | _ => cases hlook
    · cases step with
      | asked _ id before job => exact ⟨id, job⟩
      | _ => cases hwait
  · intro identifier hjob hphase hready
    obtain ⟨hphase, hready⟩ := hgoes hphase hready
    obtain ⟨f, hf, ha⟩ := tracked_attended ht hd hs hc hother hjob hphase hready
    exact ⟨f, hf, ha⟩
  · intro deadline hwait
    cases step with
    | asked =>
      cases hwait
      refine ⟨_, List.mem_append_right _ (List.mem_singleton_self _), rfl, ?_⟩
      rw [State.config, State.config, hsettings]
    | _ => cases hwait

theorem tracked_step {settings : ConnectionBuilder} (hq : Queries settings h s)
    (hs : s.step action = some (s', events)) {c' : Call} (hc' : s'.calls[n]? = some c') :
    Tracked (h ++ [⟨s, action, s', events⟩]) s' n c' := by
  have hd := hq.holdings
  have hsettings := (changes_step hs).settings
  cases fate_step hs hc' with
  | begun job new =>
    cases job with
    | send frame => exact ⟨nofun, nofun, nofun⟩
    | query identifier => exact ⟨fun _ => ⟨identifier, rfl⟩, nofun, nofun⟩
  | same c current other =>
    have ht := hq.tracked n c' current
    exact ⟨ht.query,
      fun _ hjob hphase hready => tracked_attended ht hd hs current other hjob hphase hready,
      fun deadline hwait => asked_concat hsettings (ht.asked deadline hwait)⟩
  | advanced c current phase writer step =>
    exact tracked_advanced (hq.tracked n c current) hd hs current step
  | failed c current error =>
    refine ⟨?_, nofun, nofun⟩
    rintro (hlook | ⟨deadline, hwait⟩)
    · cases hlook
    · cases hwait
  | joined c current phase act broker seen =>
    subst act
    refine ⟨?_, fun identifier _ _ _ =>
      ⟨_, rfl, attended_joined hd hs current phase broker seen⟩, nofun⟩
    rintro (hlook | ⟨deadline, hwait⟩)
    · cases hlook
    · cases hwait
  | looked c f current filter running phase d rest queue act broker =>
    subst act
    have ht := hq.tracked n c current
    refine ⟨ht.query, fun identifier hjob hphase hready => ⟨_, rfl, ?_⟩,
      fun deadline hwait => asked_concat hsettings (ht.asked deadline hwait)⟩
    obtain ⟨f', hf', ha⟩ := ht.attended identifier hjob hphase hready
    cases filter.symm.trans hf'
    exact attended_looked ha hd hs current filter hjob phase queue broker
  | closed c f current filter running why act broker =>
    subst act
    have ht := hq.tracked n c current
    refine ⟨ht.query, fun identifier hjob hphase hready => ⟨_, rfl, ?_⟩,
      fun deadline hwait => asked_concat hsettings (ht.asked deadline hwait)⟩
    obtain ⟨f', hf', ha⟩ := ht.attended identifier hjob hphase hready
    cases filter.symm.trans hf'
    obtain ⟨hempty, hunfed⟩ : unread s.broker f.subscription = [] ∧
        s.broker.isFed f.subscription = false := by
      refine why.resolve_left fun hn => ?_
      rw [show c.phase.isOver = false from hphase] at hn
      cases hn
    exact attended_closed ha hd hs current filter running hphase hempty hunfed broker

lemma cached_step (hcached : ∀ p ∈ s.cache.entries, p.2.datagram.identifier = p.1)
    (hs : s.step action = some (s', events)) :
    ∀ p ∈ s'.cache.entries, p.2.datagram.identifier = p.1 := by
  by_cases hkeeper : action = .stepCacheKeeper
  · subst hkeeper
    cases watcherStep_stepCacheKeeper hs with
    | takes id d rest feed cancelled queue =>
      intro p hp
      simp only [Watcher.cache] at hp
      split at hp
      · rcases List.mem_cons.mp hp with rfl | hp
        · rfl
        · exact hcached p (List.mem_of_mem_filter hp)
      · exact hcached p hp
    | ends => exact hcached
  · rw [((changes_step hs).keeper hkeeper).1]
    exact hcached

theorem queries_step {settings : ConnectionBuilder} (hq : Queries settings h s)
    (hs : s.step action = some (s', events)) :
    Queries settings (h ++ [⟨s, action, s', events⟩]) s' :=
  ⟨(changes_step hs).settings.trans hq.settings, holdings_step hq.holdings hs,
    cached_step hq.cached hs, fun _ _ hc => tracked_step hq hs hc⟩

lemma queries_start (settings : ConnectionBuilder) (now : Instant) (cancelled : Bool) :
    Queries settings [] (State.start settings now cancelled) :=
  ⟨rfl, holdings_start settings now cancelled, nofun, nofun⟩

/-- Every run keeps track of its queries. -/
theorem queries_run (settings : ConnectionBuilder) (now : Instant) (cancelled : Bool)
    {actions : List Action}
    (hr : (State.start settings now cancelled).run actions = some (s, events)) :
    Queries settings (visitsOf (State.start settings now cancelled) actions) s :=
  visits_induction (P := Queries settings) (queries_start settings now cancelled)
    (fun _ _ _ _ _ hq hs => queries_step hq hs) hr

lemma finished_cases {result : LinkResult Outcome} (hs : s.step action = some (s', events))
    (he : .finished n result ∈ events) :
    ∃ c, s.calls[n]? = some c ∧ ((∃ error, result = .error (.connection error)) ∨
      ∃ writer, Advance s n c action (.finished result) writer events) := by
  cases stepped_step hs with
  | @call m c _ _ _ hc move =>
    cases move with
    | advance _ phase writer _ step =>
      have hstep := step
      cases step with
      | served | barred | unplugged | sent | answered | expired =>
        cases List.mem_singleton.mp he
        exact ⟨c, hc, .inr ⟨_, hstep⟩⟩
      | wrote => cases List.mem_singleton.mp he
      | _ => cases he
    | fail socket error phase =>
      have hend : (.finished n result : Event) = .finished m (.error (.connection error)) := by
        simpa [List.mem_map] using he
      cases hend
      exact ⟨c, hc, .inl ⟨error, rfl⟩⟩
    | join phase => cases List.mem_singleton.mp he
  | filter hc hf running move =>
    cases move with
    | look => cases List.mem_singleton.mp he
    | close => cases he
  | begin job => cases List.mem_singleton.mp he
  | beside kept =>
    rcases kept.quiet _ he with hplain | ⟨-, d, hd⟩
    · cases hplain
    · cases hd

lemma answer_timeout (h : State.answer? c = some (.error .timeout)) : False := by
  simp only [State.answer?, Option.bind_eq_bind, Option.bind_eq_some_iff] at h
  obtain ⟨f, -, h⟩ := h
  split at h <;> cases h

lemma answer_answered {d : Datagram} (h : State.answer? c = some (.ok (.answered d))) :
    ∃ f, c.filter = some f ∧ f.slot = some d := by
  simp only [State.answer?, Option.bind_eq_bind, Option.bind_eq_some_iff] at h
  obtain ⟨f, hf, h⟩ := h
  refine ⟨f, hf, ?_⟩
  split at h
  · rename_i d' _ hslot
    cases h
    exact hslot
  · cases h
  · cases h

lemma fresh_cases {d : Datagram} (h : s.fresh? identifier = some d) :
    ∃ stored, s.cache.get? identifier = some ⟨d, stored⟩ ∧
      s.age stored < s.config.queryTimeout := by
  simp only [State.fresh?, Option.bind_eq_bind, Option.bind_eq_some_iff] at h
  obtain ⟨⟨d', stored⟩, he, h⟩ := h
  split at h
  · rename_i hage
    cases h
    exact ⟨stored, he, hage⟩
  · cases h

/-- What is in the slot of a filter came first into its queue. -/
lemma first_arrival {d : Datagram} (ha : Attended h s n identifier f) (hslot : f.slot = some d) :
    ((arrivals f.subscription h).map (·.2)).find? (·.identifier = identifier) = some d := by
  rw [ha.balanced, List.find?_append, ← ha.slot, hslot]
  rfl

/-- An empty slot means that nothing came before time last went on. -/
lemma late_arrival (ha : Attended h s n identifier f) (hp : Paced h) (hslot : f.slot = none)
    {x : Instant × Datagram} (hx : x ∈ arrivals f.subscription h)
    (hid : x.2.identifier = identifier) : s.now ≤ x.1 := by
  by_contra hn
  have hsome := ha.prompt hp x hx hid (Nat.not_le.mp hn)
  rw [hslot] at hsome
  cases hsome

lemma delivery_offered {d : Datagram} (ha : Attended h s n identifier f) (hsound : Sound s.broker)
    (hs : s.step .stepBroker = some (s', events)) (he : .turned (.delivered d) ∈ events) :
    unread s'.broker f.subscription = pushed (unread s.broker f.subscription) d := by
  obtain ⟨turn, rfl, hdeed⟩ := deed_of_turn hs
  cases List.mem_singleton.mp he
  have hm := (changes_step hs).move
  rw [hdeed] at hm
  refine unread_delivered hsound hm ?_
  -- a filter that has stopped gets nothing, since the loop has stopped
  rw [ha.listens]
  by_contra hn
  exact delivering_not_stopped hm (ha.stopped (by simpa using hn))

end Steps

/-- In every run, a query that ends with a datagram ends with one of its identifier: a cached one
that is fresh enough at that moment, or the first one that came into the subscription that the
query made. While a query that has subscribed goes on, every datagram that the loop delivers goes
into its queue, unless that is full. If time goes on only while all tasks wait, a query runs out of
time only if no datagram of its identifier came into its queue before the end of the time that it
waits for an answer, counted from when its request was sent. -/
theorem query_correlation (settings : ConnectionBuilder) (now : Instant) (cancelled : Bool)
    (actions : List Action) (s : State) (events : List Event)
    (hrun : (State.start settings now cancelled).run actions = some (s, events))
    (action : Action) (s' : State) (more : List Event) (hs : s.step action = some (s', more)) :
    let h := visitsOf (State.start settings now cancelled) actions
    (∀ n d, .finished n (.ok (.answered d)) ∈ more →
      ∃ c, s.calls[n]? = some c ∧ c.job = .query d.identifier ∧
        ((c.phase = .looking ∧ ∃ stored, s.cache.get? d.identifier = some ⟨d, stored⟩ ∧
            s.age stored < settings.config.queryTimeout) ∨
          ∃ f, c.filter = some f ∧ SubscribedBy n f.subscription h ∧
            ((arrivals f.subscription h).map (·.2)).find? (·.identifier = d.identifier) =
              some d)) ∧
    (∀ d, action = .stepBroker → .turned (.delivered d) ∈ more →
      ∀ n c identifier, s.calls[n]? = some c → c.job = .query identifier →
        c.phase.isOver = false → unprepared c.phase = false →
        ∃ f, c.filter = some f ∧ SubscribedBy n f.subscription h ∧
          unread s'.broker f.subscription =
            if (unread s.broker f.subscription).length < subscriberCapacity then
              unread s.broker f.subscription ++ [d]
            else unread s.broker f.subscription) ∧
    (Paced h → ∀ n, .finished n (.error .timeout) ∈ more →
      ∃ c identifier f w, s.calls[n]? = some c ∧ c.job = .query identifier ∧
        c.filter = some f ∧ SubscribedBy n f.subscription h ∧ w ∈ h ∧ w.action = .flushed n ∧
        ∀ x ∈ arrivals f.subscription h, x.2.identifier = identifier →
          w.state.now + settings.config.queryTimeout.nanos ≤ x.1) := by
  intro h
  have hq : Queries settings h s := queries_run settings now cancelled hrun
  refine ⟨?_, ?_, ?_⟩
  · intro n d he
    obtain ⟨c, hc, ⟨error, hn⟩ | ⟨writer, step⟩⟩ := finished_cases hs he
    · cases hn
    have ht := hq.tracked n c hc
    cases step with
    | served identifier _ phase job fresh =>
      obtain ⟨stored, hget, hage⟩ := fresh_cases fresh
      have hid : d.identifier = identifier := by
        obtain ⟨before, behind, hentries, -⟩ := List.lookup_eq_some_iff.mp hget
        refine hq.cached (identifier, ⟨d, stored⟩) ?_
        rw [hentries]
        exact List.mem_append_right _ List.mem_cons_self
      rw [State.config, hq.settings] at hage
      rw [hid]
      exact ⟨c, hc, job, .inl ⟨phase, stored, hget, hage⟩⟩
    | answered deadline _ phase answer =>
      obtain ⟨identifier, hjob⟩ := ht.query (.inr ⟨deadline, phase⟩)
      obtain ⟨f, hf, hslot⟩ := answer_answered answer
      obtain ⟨f', hf', ha⟩ := ht.attended identifier hjob (by rw [phase]; rfl) (by rw [phase]; rfl)
      cases hf.symm.trans hf'
      have hid : d.identifier = identifier := by
        have hfound := List.find?_some (ha.slot.symm.trans hslot)
        simpa using hfound
      rw [hid]
      exact ⟨c, hc, hjob, .inr ⟨f, hf, ha.own, first_arrival ha hslot⟩⟩
  · rintro d rfl he n c identifier hc hjob hphase hready
    obtain ⟨f, hf, ha⟩ := (hq.tracked n c hc).attended identifier hjob hphase hready
    exact ⟨f, hf, ha.own, delivery_offered ha hq.holdings.sound hs he⟩
  · intro hp n he
    obtain ⟨c, hc, ⟨error, hn⟩ | ⟨writer, step⟩⟩ := finished_cases hs he
    · cases hn
    have ht := hq.tracked n c hc
    cases step with
    | answered deadline _ phase answer => exact (answer_timeout answer).elim
    | expired deadline phase answer late =>
      obtain ⟨identifier, hjob⟩ := ht.query (.inr ⟨deadline, phase⟩)
      obtain ⟨f, hf, ha⟩ := ht.attended identifier hjob (by rw [phase]; rfl) (by rw [phase]; rfl)
      obtain ⟨w, hw, hact, hdeadline⟩ := ht.asked deadline phase
      have hslot : f.slot = none := by
        cases hslot : f.slot with
        | none => rfl
        | some d => simp [State.answer?, hf, hslot] at answer
      refine ⟨c, identifier, f, w, hc, hjob, hf, ha.own, hw, hact, fun x hx hid => ?_⟩
      rw [State.config, hq.settings] at hdeadline
      rw [← hdeadline]
      exact Nat.le_trans late (late_arrival ha hp hslot hx hid)

/-- What a query does until it waits for its answer. -/
def asking (n : CallId) (identifier : Identifier) : List Action :=
  [.call (.query identifier), .stepCall n, .stepCall n, .stepBroker, .stepCall n, .stepCall n,
    .wrote n (Datagram.read identifier).encode.length, .stepCall n, .flushed n]

/-- A query waits for two seconds. Just then the device answers, and the broker delivers the answer
before anybody notices that the time is over. -/
def answerTooLate : List Action :=
  [.call (.query ⟨0x3E⟩), .stepCall 0, .stepCall 0, .stepBroker, .stepBroker, .stepCall 0,
    .stepCall 0, .wrote 0 (Datagram.read ⟨0x3E⟩).encode.length, .stepCall 0, .flushed 0,
    .wait 2000000000, .read (.bytes (Datagram.encode ⟨.response, ⟨0x3E⟩, [0x2B]⟩)),
    .stepReceiver 0, .stepReceiver 0, .stepDecoder, .stepDecoder, .stepBroker]

/-- The query runs out of time, and the answer came when the time was over. -/
theorem answer_too_late :
    let start := State.start (.ofHost "inverter") 0 false
    let h := visitsOf start answerTooLate
    Paced h ∧ arrivals 1 h = [(2000000000, ⟨.response, ⟨0x3E⟩, [0x2B]⟩)] ∧
      ∃ s events s' more, start.run answerTooLate = some (s, events) ∧
        s.step (.stepCall 0) = some (s', more) ∧ .finished 0 (.error .timeout) ∈ more ∧
        ∃ w ∈ h, w.action = .flushed 0 ∧
          ∀ x ∈ arrivals 1 h, x.2.identifier = ⟨0x3E⟩ → w.state.now + 2000000000 ≤ x.1 := by
  intro start h
  have hpaced : Paced h := by decide +kernel
  have harrivals : arrivals 1 h = [(2000000000, ⟨.response, ⟨0x3E⟩, [0x2B]⟩)] := by
    decide +kernel
  have hsome : (start.run answerTooLate).isSome = true := by decide +kernel
  obtain ⟨⟨s, events⟩, hrun⟩ := Option.isSome_iff_exists.mp hsome
  have hend : ∀ r ∈ start.run answerTooLate,
      r.1.calls[0]?.map (fun c => (c.job, c.filter.map (·.subscription))) =
          some (.query ⟨0x3E⟩, some 1) ∧
        (r.1.step (.stepCall 0)).isSome = true ∧
        ∀ next ∈ r.1.step (.stepCall 0), .finished 0 (.error .timeout) ∈ next.2 := by
    decide +kernel
  obtain ⟨hcall, hnext, hfinished⟩ := hend _ hrun
  obtain ⟨⟨s', more⟩, hs⟩ := Option.isSome_iff_exists.mp hnext
  have htimeout : .finished 0 (.error .timeout) ∈ more := hfinished _ hs
  obtain ⟨c, identifier, f, w, hc, hjob, hf, -, hw, hact, hlate⟩ :=
    (query_correlation _ _ _ answerTooLate s events hrun _ s' more hs).2.2 hpaced 0 htimeout
  simp only [hc, hjob, hf, Option.map_some, Option.some.injEq, Prod.mk.injEq,
    Job.query.injEq] at hcall
  obtain ⟨rfl, hone⟩ := hcall
  rw [hone] at hlate
  exact ⟨hpaced, harrivals, s, events, s', more, hrun, hs, htimeout, w, hw, hact, hlate⟩

end InverterLink.Proofs
