import InverterLink.Proofs.CacheCurrency
import InverterLink.Proofs.Membership
import InverterLink.Proofs.QueryAnswers

/-!
# Who is subscribed

The subscriptions of a connection belong to the cache keeper, to the logger, to the filters of
queries and to users. A filter holds its subscription as long as it runs (`Listening`), and does not
outlive its query. The loop knows the subscriptions that are held (`Rostered`), so when all tasks
wait, nothing is left of the queries that are over.
-/

namespace InverterLink.Proofs
open Connection

/-- A filter belongs to a query, and holds its subscription as long as it runs. -/
def Listening (s : State) : Prop :=
  ∀ (n : CallId) c f, s.calls[n]? = some c → c.filter = some f →
    s.broker.isHeld f.subscription = f.running ∧ ∃ identifier, c.job = .query identifier

section Filters

variable {settings : ConnectionBuilder} {h : List Visit} {s s' : State} {action : Action}
  {events : List Event} {n : CallId} {c : Call} {f : Filter}

lemma listening_stepFilter (hl : Listening s) (hs : s.step (.stepFilter n) = some (s', events))
    (hc : s'.calls[n]? = some c) (hf : c.filter = some f) :
    s'.broker.isHeld f.subscription = f.running ∧ ∃ identifier, c.job = .query identifier := by
  obtain ⟨c₀, f₀, hc₀, hf₀, hrunning, hm⟩ := filterMove_stepFilter hs
  obtain ⟨hheld, identifier, hjob⟩ := hl n c₀ f₀ hc₀ hf₀
  cases hm with
  | look d rest phase queue =>
    obtain ⟨hne, -⟩ | ⟨-, c₁, hc₁, rfl⟩ := modify_cases hc
    · exact absurd rfl hne
    · cases hc₀.symm.trans hc₁
      rw [hf₀, Option.map_some, Option.some.injEq, hjob, look_eq] at hf
      subst hf
      exact ⟨(isHeld_receive queue f₀.subscription).trans hheld, identifier, hjob⟩
  | close why =>
    obtain ⟨hne, -⟩ | ⟨-, c₁, hc₁, rfl⟩ := modify_cases hc
    · exact absurd rfl hne
    · cases hc₀.symm.trans hc₁
      rw [hf₀, Option.map_some, Option.some.injEq] at hf
      subst hf
      have hreleased := isHeld_release (hheld.trans hrunning) f₀.subscription
      rw [if_pos rfl] at hreleased
      exact ⟨hreleased, identifier, hjob⟩

theorem listening_step (hl : Listening s) (hq : Queries settings h s)
    (hs : s.step action = some (s', events)) : Listening s' := by
  intro n c f hc hf
  by_cases hfilter : action = .stepFilter n
  · subst hfilter
    exact listening_stepFilter hl hs hc hf
  -- nobody else touches the subscription of a filter
  have hkept : ∀ c₀, s.calls[n]? = some c₀ → c₀.filter = some f →
      s'.broker.isHeld f.subscription = f.running := by
    intro c₀ hc₀ hf₀
    have hfeed := feedOf_filter hc₀ hf₀
    rw [isHeld_move (changes_step hs).move (hq.holdings.made _ _ hfeed)
      fun ht => hfilter (touched_by_reader hq.holdings hs hfeed ht)]
    exact (hl n c₀ f hc₀ hf₀).1
  cases fate_step hs hc with
  | begun job new => cases hf
  | same c current other => exact ⟨hkept c current hf, (hl n c f current hf).2⟩
  | advanced c current phase writer step => exact ⟨hkept c current hf, (hl n c f current hf).2⟩
  | failed c current error => exact ⟨hkept c current hf, (hl n c f current hf).2⟩
  | joined c current phase act broker seen =>
    cases hf
    refine ⟨?_, (hq.tracked n c current).query (.inl (by rw [phase]; rfl))⟩
    rw [broker, isHeld_subscribe, beq_self_eq_true, Bool.or_true]
  | looked c f₀ current filter running phase d rest queue act broker => exact absurd act hfilter
  | closed c f₀ current filter running why act broker => exact absurd act hfilter

lemma logger_step {id : SubscriberId} (hw : Working s) (hd : Holdings h s)
    (hs : s.step action = some (s', events)) (hfeed : s.logFeed = some id)
    (held : s.broker.isHeld id = true) :
    s'.logFeed = some id ∧ s'.broker.isHeld id = true := by
  have hreads : feedOf s .logger = some id := hfeed
  by_cases hlogger : action = .stepLogger
  · subst hlogger
    cases watcherStep_stepLogger hs with
    | takes j d rest feed cancelled queue =>
      cases feed.symm.trans hfeed
      exact ⟨hfeed, (isHeld_receive queue id).trans held⟩
    | ends j feed why =>
      cases feed.symm.trans hfeed
      rcases why with hcancelled | ⟨-, hunfed⟩
      · rw [hw.cancelled] at hcancelled
        cases hcancelled
      · rw [isFed_of_held hd.sound (not_stopped hw.loop) held] at hunfed
        cases hunfed
  · refine ⟨((changes_step hs).logger hlogger).trans hfeed, ?_⟩
    rw [isHeld_move (changes_step hs).move (hd.made _ _ hreads)
      fun ht => hlogger (touched_by_reader hd hs hreads ht), held]

end Filters

/-- Everybody who has subscribed to a connection that is not cancelled is accounted for. -/
structure Enrollment (settings : ConnectionBuilder) (h : List Visit) (s : State) : Prop where
  current : Current h s
  queries : Queries settings h s
  rostered : Rostered s.broker
  listening : Listening s
  logger : s.logFeed = if settings.logs then some 1 else none
  logging : ∀ id, s.logFeed = some id → s.broker.isHeld id = true

section Runs

variable {settings : ConnectionBuilder} {h : List Visit} {s s' : State} {action : Action}
  {events : List Event} {n : CallId} {c : Call}

theorem enrollment_step (he : Enrollment settings h s) (hs : s.step action = some (s', events))
    (ha : cancels action = false) :
    Enrollment settings (h ++ [⟨s, action, s', events⟩]) s' := by
  have hq := he.queries
  have hlogger : s'.logFeed = s.logFeed ∧
      ∀ id, s.logFeed = some id → s'.broker.isHeld id = true := by
    cases hfeed : s.logFeed with
    | none =>
      rcases (changes_step hs).feeds.2 with hf | hf
      · exact ⟨hf.trans hfeed, nofun⟩
      · exact ⟨hf, nofun⟩
    | some id =>
      obtain ⟨hf, hheld⟩ := logger_step he.current.working hq.holdings hs hfeed
        (he.logging id hfeed)
      refine ⟨hf, ?_⟩
      rintro _ ⟨⟩
      exact hheld
  exact ⟨current_step he.current hs ha, queries_step hq hs,
    rostered_move he.rostered (changes_step hs).move, listening_step he.listening hq hs,
    hlogger.1.trans he.logger, fun id hid => hlogger.2 id (hlogger.1 ▸ hid)⟩

lemma rostered_start (settings : ConnectionBuilder) (now : Instant) (cancelled : Bool) :
    Rostered (State.start settings now cancelled).broker := by
  have hidle : Rostered ({} : Broker Datagram) := ⟨fun _ => rfl, fun _ => rfl⟩
  have hcache := rostered_move (rostered_move hidle (.start _)) (.join _)
  by_cases hlogs : settings.logs = true
  · simp only [State.start, hlogs, if_true]
    exact rostered_move hcache (.join _)
  · simp only [State.start, hlogs, Bool.false_eq_true, if_false]
    exact hcache

lemma enrollment_start (settings : ConnectionBuilder) (now : Instant) :
    Enrollment settings [] (State.start settings now false) := by
  refine ⟨current_start settings now, queries_start settings now false,
    rostered_start settings now false, ?_, ?_, ?_⟩
  · intro n c f hc
    cases hc
  · cases hlogs : settings.logs
    · simp [State.start, hlogs]
    · simp only [State.start, hlogs, if_true]
      rfl
  · cases hlogs : settings.logs
    · simp [State.start, hlogs]
    · simp only [State.start, hlogs, if_true]
      rintro id ⟨⟩
      rfl

theorem enrollment_run (settings : ConnectionBuilder) (now : Instant) {actions : List Action}
    (hrun : (State.start settings now false).run actions = some (s, events))
    (hc : ∀ action ∈ actions, cancels action = false) :
    Enrollment settings (visitsOf (State.start settings now false) actions) s := by
  have hall := visits_induction
    (P := fun h s => (∀ w ∈ h, cancels w.action = false) → Enrollment settings h s)
    (fun _ => enrollment_start settings now) ?_ hrun
  · exact hall fun w hw => hc _ (action_mem hw)
  · intro h s action s' events ih hs hc
    exact enrollment_step (ih fun w hw => hc w (List.mem_append_left _ hw)) hs
      (hc _ (List.mem_append_right _ (List.mem_singleton_self _)))

lemma requests_of_rest (hw : Working s) (hrest : s.stepBroker = none) : s.broker.requests = [] := by
  cases hr : s.broker.requests with
  | nil => rfl
  | cons request rest =>
    simp [State.stepBroker, Broker.turn, hw.loop, hw.cancelled, hr] at hrest

lemma prepared_of_rest (ht : Tracked h s n c) (hc : s.calls[n]? = some c)
    (hrest : s.stepCall n = none) : unprepared c.phase = false := by
  cases hp : c.phase with
  | looking =>
    obtain ⟨identifier, hjob⟩ := ht.query (.inl (by rw [hp]; rfl))
    cases hf : s.fresh? identifier <;> simp [State.stepCall, hc, hp, hjob, hf] at hrest
  | subscribing => simp [State.stepCall, hc, hp] at hrest
  | _ => rfl

lemma filters_of_rest (he : Enrollment settings h s) (hrest : Resting s)
    (hc : s.calls[n]? = some c) {f : Filter} (hf : c.filter = some f) :
    f.running = !c.phase.isOver := by
  obtain ⟨hstep, hfilter⟩ := hrest.2.2.2.2.2.2 n
  cases hover : c.phase.isOver with
  | true =>
    by_contra hn
    simp only [Bool.not_true, Bool.not_eq_false] at hn
    simp [State.stepFilter, hc, hf, hn, hover] at hfilter
  | false =>
    have ht := he.queries.tracked n c hc
    obtain ⟨-, identifier, hjob⟩ := he.listening n c f hc hf
    obtain ⟨f', hf', ha⟩ := ht.attended identifier hjob hover (prepared_of_rest ht hc hstep)
    cases hf.symm.trans hf'
    by_contra hn
    have hstopped := ha.stopped (by simpa using hn)
    rw [he.current.working.loop] at hstopped
    cases hstopped

end Runs

/-- The subscriptions that users hold. -/
def userFeeds (s : State) : List SubscriberId :=
  (List.range s.broker.queues.length).filter s.isUserHeld

/-- The subscriptions of the queries that go on. -/
def queryFeeds (s : State) : List SubscriberId :=
  s.calls.filterMap fun c =>
    if c.phase.isOver then none else c.filter.map (·.subscription)

section Feeds

variable {settings : ConnectionBuilder} {h : List Visit} {s : State} {id : SubscriberId}

lemma mem_userFeeds : id ∈ userFeeds s ↔ s.isUserHeld id = true := by
  rw [userFeeds, List.mem_filter, List.mem_range]
  refine ⟨fun hid => hid.2, fun hid => ⟨?_, hid⟩⟩
  rw [State.isUserHeld, Bool.and_eq_true] at hid
  exact lt_of_isHeld hid.1

lemma mem_queryFeeds :
    id ∈ queryFeeds s ↔ ∃ (n : CallId) (c : Call) (f : Filter), s.calls[n]? = some c ∧
      c.phase.isOver = false ∧ c.filter = some f ∧ f.subscription = id := by
  rw [queryFeeds, List.mem_filterMap]
  constructor
  · rintro ⟨c, hmem, hid⟩
    obtain ⟨n, hc⟩ := List.mem_iff_getElem?.mp hmem
    split at hid
    · cases hid
    · rename_i hover
      obtain ⟨f, hf, rfl⟩ := Option.map_eq_some_iff.mp hid
      exact ⟨n, c, f, hc, by simpa using hover, hf, rfl⟩
  · rintro ⟨n, c, f, hc, hover, hf, rfl⟩
    exact ⟨c, List.mem_of_getElem? hc, by simp [hover, hf]⟩

lemma feed_of_queryFeeds (hid : id ∈ queryFeeds s) : ∃ n, feedOf s (.filter n) = some id := by
  obtain ⟨n, c, f, hc, -, hf, rfl⟩ := mem_queryFeeds.mp hid
  exact ⟨n, feedOf_filter hc hf⟩

lemma nodup_queryFeeds (hd : Holdings h s) : (queryFeeds s).Nodup := by
  rw [queryFeeds, List.Nodup, List.pairwise_filterMap, List.pairwise_iff_getElem]
  intro i j hi hj hij id hid id' hid' he
  subst he
  have hfeed : ∀ n (hn : n < s.calls.length),
      (if s.calls[n].phase.isOver then none else s.calls[n].filter.map (·.subscription)) =
        some id → feedOf s (.filter n) = some id := by
    intro n hn hsome
    split at hsome
    · cases hsome
    · simp [feedOf, List.getElem?_eq_getElem hn, hsome]
  have hsame := hd.apart _ _ id (hfeed i hi hid) (hfeed j hj hid')
  cases hsame
  exact absurd hij (Nat.lt_irrefl _)

lemma nodup_feeds (hd : Holdings h s) :
    (s.cacheFeed.toList ++ s.logFeed.toList ++ userFeeds s ++ queryFeeds s).Nodup := by
  have hcache : ∀ id ∈ s.cacheFeed.toList, feedOf s .cacheKeeper = some id :=
    fun id hid => Option.mem_toList.mp hid
  have hlog : ∀ id ∈ s.logFeed.toList, feedOf s .logger = some id :=
    fun id hid => Option.mem_toList.mp hid
  have huser : ∀ id ∈ userFeeds s, ∀ r, feedOf s r ≠ some id :=
    fun id hid r hr => not_taken_of_userHeld (mem_userFeeds.mp hid) (isTaken_of_feed hr)
  rw [List.nodup_append, List.nodup_append, List.nodup_append]
  refine ⟨⟨⟨?_, ?_, ?_⟩, List.nodup_range.filter _, ?_⟩, nodup_queryFeeds hd, ?_⟩
  · cases s.cacheFeed <;> simp
  · cases s.logFeed <;> simp
  · rintro id hid _ hid' rfl
    cases hd.apart _ _ id (hcache id hid) (hlog id hid')
  · rintro id hid _ hid' rfl
    rcases List.mem_append.mp hid with hid | hid
    · exact huser id hid' _ (hcache id hid)
    · exact huser id hid' _ (hlog id hid)
  · rintro id hid _ hid' rfl
    obtain ⟨n, hn⟩ := feed_of_queryFeeds hid'
    rcases List.mem_append.mp hid with hid | hid
    · rcases List.mem_append.mp hid with hid | hid
      · cases hd.apart _ _ id (hcache id hid) hn
      · cases hd.apart _ _ id (hlog id hid) hn
    · exact huser id hid _ hn

/-- When all tasks wait, whoever holds a subscription is the cache keeper, the logger, a user or a
query that goes on. -/
lemma held_iff_feed (he : Enrollment settings h s) (hrest : Resting s) :
    s.broker.isHeld id = true ↔
      id ∈ s.cacheFeed.toList ++ s.logFeed.toList ++ userFeeds s ++ queryFeeds s := by
  simp only [List.mem_append, Option.mem_toList, mem_userFeeds]
  constructor
  · intro held
    by_cases htaken : s.isTaken id = true
    · simp only [State.isTaken, Bool.or_eq_true, decide_eq_true_eq, List.any_eq_true] at htaken
      rcases htaken with (hcache | hlog) | ⟨c, hmem, hany⟩
      · exact .inl (.inl (.inl hcache))
      · exact .inl (.inl (.inr hlog))
      · obtain ⟨f, hf, hid⟩ := (Option.any_eq_true _ _).mp hany
        obtain ⟨n, hc⟩ := List.mem_iff_getElem?.mp hmem
        obtain rfl : f.subscription = id := by simpa using hid
        have hrunning := filters_of_rest he hrest hc hf
        rw [← (he.listening n c f hc hf).1, held] at hrunning
        exact .inr (mem_queryFeeds.mpr ⟨n, c, f, hc, by simpa using hrunning.symm, hf, rfl⟩)
    · exact .inl (.inr (by simp [State.isUserHeld, held, htaken]))
  · rintro (((hcache | hlog) | huser) | hquery)
    · cases hcache.symm.trans he.current.feed
      exact he.current.held
    · exact he.logging id hlog
    · rw [State.isUserHeld, Bool.and_eq_true] at huser
      exact huser.1
    · obtain ⟨n, c, f, hc, hover, hf, rfl⟩ := mem_queryFeeds.mp hquery
      rw [(he.listening n c f hc hf).1, filters_of_rest he hrest hc hf, hover]
      rfl

end Feeds

/-- When all tasks of a connection that is not cancelled wait, the loop knows exactly the
subscriptions of the cache keeper, of the logger, if there is one, of the users, and one for each
query that goes on; it has announced how many these are. The queries that go on have found nothing
fresh in the cache, and the filters of all others have ended. -/
theorem queries_leave_nothing_behind (settings : ConnectionBuilder) (now : Instant)
    (actions : List Action) (s : State) (events : List Event)
    (hrun : (State.start settings now false).run actions = some (s, events))
    (hc : ∀ action ∈ actions, cancels action = false) (hrest : Resting s) :
    (s.broker.members.Perm
        (s.cacheFeed.toList ++ s.logFeed.toList ++ userFeeds s ++ queryFeeds s) ∧
      s.cacheFeed = some 0 ∧ s.logFeed = (if settings.logs then some 1 else none) ∧
      s.broker.count = s.broker.members.length) ∧
    (∀ (n : CallId) c, s.calls[n]? = some c → c.phase.isOver = false →
      unprepared c.phase = false ∧
        (c.filter.isSome = true ↔ ∃ identifier, c.job = .query identifier)) ∧
    ∀ (n : CallId) c f, s.calls[n]? = some c → c.filter = some f →
      f.running = !c.phase.isOver := by
  have he := enrollment_run settings now hrun hc
  have hworking := he.current.working
  have hrunning := not_stopped hworking.loop
  have hmembers : s.broker.members = heldSubscriptions s.broker := by
    have hroster := he.rostered.roster hrunning
    rwa [requests_of_rest hworking hrest.2.2.1] at hroster
  refine ⟨⟨?_, he.current.feed, he.logger, he.rostered.count hrunning⟩, ?_, ?_⟩
  · rw [hmembers]
    refine (List.perm_ext_iff_of_nodup (nodup_heldSubscriptions _)
      (nodup_feeds he.queries.holdings)).mpr fun id => ?_
    rw [mem_heldSubscriptions]
    exact held_iff_feed he hrest
  · intro n c hcall hover
    have ht := he.queries.tracked n c hcall
    have hprepared := prepared_of_rest ht hcall (hrest.2.2.2.2.2.2 n).1
    refine ⟨hprepared, fun hf => ?_, ?_⟩
    · obtain ⟨f, hf⟩ := Option.isSome_iff_exists.mp hf
      exact (he.listening n c f hcall hf).2
    · rintro ⟨identifier, hjob⟩
      obtain ⟨f, hf, -⟩ := ht.attended identifier hjob hover hprepared
      exact Option.isSome_iff_exists.mpr ⟨f, hf⟩
  · intro n c f hcall hf
    exact filters_of_rest he hrest hcall hf

/-- A logger listens, and a user. Of two queries that wait, the device answers the first; a third
one is dropped on the way, and a fourth one finds the answer in the cache. -/
def queried : List Action :=
  [.stepBroker, .stepBroker, .subscribe, .stepBroker] ++ asking 0 ⟨0x3E⟩ ++ asking 1 ⟨0x3F⟩ ++
    [.call (.query ⟨0x40⟩), .stepCall 2, .stepCall 2, .stepBroker, .dropCall 2, .stepFilter 2,
      .stepBroker, .read (.bytes (Datagram.encode ⟨.response, ⟨0x3E⟩, [0x2B]⟩)), .stepReceiver 0,
      .stepReceiver 0, .stepReporter, .stepDecoder, .stepDecoder, .stepBroker, .stepCacheKeeper,
      .stepLogger, .stepFilter 0, .stepFilter 1, .stepCall 0, .stepFilter 0, .stepBroker,
      .call (.query ⟨0x3E⟩), .stepCall 3]

/-- What is left are the cache keeper, the logger, the user and the query that still waits. -/
theorem waiting_query_stays_subscribed :
    let settings := { ConnectionBuilder.ofHost "inverter" with logs := true }
    (∀ action ∈ queried, cancels action = false) ∧
      ∃ s events, (State.start settings 0 false).run queried = some (s, events) ∧ Resting s ∧
        s.calls.map (·.phase.isOver) = [true, false, true, true] ∧
        s.broker.members.Perm [0, 1, 2, 4] ∧ s.broker.count = 4 := by
  intro settings
  have hc : ∀ action ∈ queried, cancels action = false := by decide +kernel
  have hsome : ((State.start settings 0 false).run queried).isSome = true := by decide +kernel
  have hend : ∀ r ∈ (State.start settings 0 false).run queried, Resting r.1 ∧
      r.1.calls.map (·.phase.isOver) = [true, false, true, true] ∧
      userFeeds r.1 = [2] ∧ queryFeeds r.1 = [4] := by decide +kernel
  obtain ⟨⟨s, events⟩, hrun⟩ := Option.isSome_iff_exists.mp hsome
  obtain ⟨hrest, hover, huser, hquery⟩ := hend _ hrun
  obtain ⟨⟨hmembers, hcache, hlog, hcount⟩, -, -⟩ :=
    queries_leave_nothing_behind settings 0 queried s events hrun hc hrest
  rw [hcache, hlog, huser, hquery] at hmembers
  exact ⟨hc, s, events, hrun, hrest, hover, hmembers, hcount.trans hmembers.length_eq⟩

end InverterLink.Proofs
