import InverterLink.Proofs.ConnectionVisits
import InverterLink.Proofs.EventSources
import InverterLink.Proofs.SocketStreams

/-!
# What the cache holds

The cache keeper stores every response that it takes out of its queue. As long as the connection is
not cancelled, it goes on until nothing is left there, so in the end the cache holds, for each
identifier, the last response that found room in the queue of the keeper. That is the last response
that the decoder published if the keeper never leaves its queue full. A burst that comes while the
keeper does not get to read leaves an older response in the cache.
-/

namespace InverterLink.Proofs
open Connection

/-- The last response of an identifier. -/
def lastResponse (identifier : Identifier) (datagrams : List Datagram) : Option Datagram :=
  (datagrams.filter fun d => d.isResponse && d.identifier = identifier).getLast?

/-- A delivery of the control loop. -/
def delivers : Event → Bool
  | .turned (.delivered _) => true
  | _ => false

/-- No delivery finds the queue of a subscription full. -/
def Roomy (id : SubscriberId) (h : List Visit) : Prop :=
  ∀ w ∈ h, ∀ e ∈ w.events, delivers e = true →
    (unread w.state.broker id).length < subscriberCapacity

instance (id : SubscriberId) (h : List Visit) : Decidable (Roomy id h) :=
  inferInstanceAs (Decidable (∀ w ∈ h, ∀ e ∈ w.events, _ → _))

/-- The cache keeper is at work and has stored what it took, and what was published is delivered or
waits for the loop. -/
structure Current (h : List Visit) (s : State) : Prop where
  working : Working s
  holdings : Holdings h s
  feed : s.cacheFeed = some 0
  held : s.broker.isHeld 0 = true
  balanced : Balanced 0 h s.broker
  cached : ∀ identifier, (s.cache.get? identifier).map (·.datagram) =
    lastResponse identifier (takenFrom 0 h)
  published : publishedBy (h.flatMap (·.events)) = acceptedIn (momentsOf h)
  roomy : Roomy 0 h → (arrivals 0 h).map (·.2) = deliveredIn (momentsOf h)

section Lists

variable {h : List Visit} {w : Visit} {identifier : Identifier}

lemma lastResponse_concat (datagrams : List Datagram) (d : Datagram) :
    lastResponse identifier (datagrams ++ [d]) =
      if d.isResponse = true ∧ d.identifier = identifier then some d
      else lastResponse identifier datagrams := by
  rw [lastResponse, List.filter_append, List.getLast?_append]
  by_cases hd : d.isResponse = true ∧ d.identifier = identifier
  · simp [hd]
  · have hnone : (d.isResponse && decide (d.identifier = identifier)) = false := by
      simpa using hd
    simp [hd, hnone, lastResponse]

lemma get?_put (c : Cache) (d : Datagram) (now : Instant) (identifier : Identifier) :
    (c.put d now).get? identifier =
      if d.identifier = identifier then some ⟨d, now⟩ else c.get? identifier := by
  have hfilter : ∀ entries : List (Identifier × CacheEntry), d.identifier ≠ identifier →
      (entries.filter (·.1 ≠ d.identifier)).lookup identifier = entries.lookup identifier := by
    intro entries hne
    induction entries with
    | nil => rfl
    | cons entry rest ih =>
      obtain ⟨id, e⟩ := entry
      by_cases hid : id = d.identifier
      · have hne' : (identifier == id) = false := by simpa [hid] using Ne.symm hne
        rw [List.filter_cons_of_neg (by simp [hid]), List.lookup_cons, hne', ih]
      · rw [List.filter_cons_of_pos (by simp [hid]), List.lookup_cons, List.lookup_cons, ih]
  by_cases he : d.identifier = identifier
  · rw [if_pos he, Cache.get?, Cache.put, List.lookup_cons, he, beq_self_eq_true]
  · have hne : (identifier == d.identifier) = false := by simpa using Ne.symm he
    rw [if_neg he, Cache.get?, Cache.put, List.lookup_cons, hne]
    exact hfilter c.entries he

lemma momentsOf_concat :
    momentsOf (h ++ [w]) = momentsOf h ++ [⟨w.state.broker, deedAt w.state w.action⟩] := by
  rw [momentsOf, List.map_append]
  rfl

end Lists

/-- The deed is done with a single subscription, if it is any. -/
def single : Deed Datagram → Bool
  | .accepted _ | .applied _ | .delivered _ => false
  | _ => true

section Steps

variable {s s' : State} {action : Action} {events : List Event} {h : List Visit}
  {id : SubscriberId}

lemma single_leaving (b : Broker Datagram) : single (leaving b id) = true := by
  unfold leaving
  split <;> rfl

lemma single_watching (s : State) (id : SubscriberId) : single (watching s id) = true := by
  unfold watching
  split
  · exact single_leaving _
  · split
    · rfl
    · exact single_leaving _

lemma single_watcher (s : State) (w : Watcher) : single (deedAt s w.action) = true := by
  rw [deedAt_action]
  cases w.feed s with
  | none => rfl
  | some id => exact single_watching s id

lemma single_filtering (s : State) (c : Call) (f : Filter) : single (filtering s c f) = true := by
  unfold filtering
  split
  · exact single_leaving _
  · split
    · rfl
    · exact single_leaving _

lemma single_deed (hdecoder : action ≠ .stepDecoder) (hbroker : action ≠ .stepBroker) :
    single (deedAt s action) = true := by
  cases action with
  | stepDecoder => exact absurd rfl hdecoder
  | stepBroker => exact absurd rfl hbroker
  | stepCacheKeeper => exact single_watcher s .cacheKeeper
  | stepLogger => exact single_watcher s .logger
  | stepCall n =>
    simp only [deedAt]
    split <;> rfl
  | stepFilter n =>
    simp only [deedAt]
    split
    · rename_i c _
      cases c.filter with
      | none => rfl
      | some f => exact single_filtering s c f
    · rfl
  | unsubscribe j => exact single_leaving _
  | receive j =>
    simp only [deedAt, looking]
    split <;> rfl
  | _ => rfl

lemma accepted_of_single {deed : Deed Datagram} (h : single deed = true) :
    accepted? deed = none := by
  cases deed with
  | accepted m => cases h
  | _ => rfl

lemma delivered_of_single {deed : Deed Datagram} (h : single deed = true) :
    delivered? deed = none := by
  cases deed with
  | delivered m => cases h
  | _ => rfl

lemma published_step (hs : s.step action = some (s', events)) :
    publishedBy events = (accepted? (deedAt s action)).toList := by
  by_cases hdecoder : action = .stepDecoder
  · subst hdecoder
    rw [(decoder_deed (decoderStep_stepDecoder hs)).2]
    cases accepted? (deedAt s .stepDecoder) <;> rfl
  · have hnone : accepted? (deedAt s action) = none := by
      by_cases hbroker : action = .stepBroker
      · subst hbroker
        obtain ⟨turn, -, hdeed⟩ := deed_of_turn hs
        rw [hdeed]
        cases turn <;> rfl
      · exact accepted_of_single (single_deed hdecoder hbroker)
    rw [hnone, publishedBy, Option.toList_none, List.filterMap_eq_nil_iff]
    intro e he
    cases source_step hs he with
    | decoded => exact absurd rfl hdecoder
    | received external | dialed external | read external =>
      cases e <;> first | rfl | cases external
    | _ => rfl

lemma added_roomy (hsound : Sound s.broker) (hs : s.step action = some (s', events))
    (held : s.broker.isHeld id = true)
    (hroom : ∀ e ∈ events, delivers e = true → (unread s.broker id).length < subscriberCapacity) :
    added id ⟨s, action, s', events⟩ = (delivered? (deedAt s action)).toList := by
  have hm := (changes_step hs).move
  cases hd : delivered? (deedAt s action) with
  | none => exact List.drop_eq_nil_of_le (unread_length_move hm hd)
  | some d =>
    have hbroker : action = .stepBroker := by
      by_contra hn
      by_cases hdecoder : action = .stepDecoder
      · subst hdecoder
        simp only [deedAt] at hd
        split at hd
        · split at hd <;> cases hd
        · cases hd
      · rw [delivered_of_single (single_deed hdecoder hn)] at hd
        cases hd
    subst hbroker
    obtain ⟨turn, rfl, hdeed⟩ := deed_of_turn hs
    rw [hdeed] at hd hm
    cases turn with
    | delivered m =>
      cases hd
      have hlt := hroom _ (List.mem_singleton_self _) rfl
      rw [added, unread_delivered hsound hm held, pushed, if_pos hlt, List.drop_left]
      rfl
    | applied request => cases hd
    | stopped => cases hd

lemma unread_of_rest (hfeed : s.cacheFeed = some id) (hrest : s.stepCacheKeeper = none) :
    unread s.broker id = [] := by
  rcases watch_cases s id with ⟨d, rest, -, -, hw⟩ | ⟨hq, -⟩ | ⟨-, hw⟩
  · by_cases hd : d.isResponse = true <;> simp [State.stepCacheKeeper, hfeed, hw, hd] at hrest
  · exact hq
  · simp [State.stepCacheKeeper, hfeed, hw] at hrest

lemma keeper_takes (hc : Current h s) (hs : s.stepCacheKeeper = some (s', events)) :
    ∃ d rest, unread s.broker 0 = d :: rest ∧ deedAt s .stepCacheKeeper = .took 0 d ∧
      s' = { s with
        broker := (s.broker.receive 0).1
        cache := if d.isResponse then s.cache.put d s.now else s.cache } := by
  cases watcherStep_stepCacheKeeper hs with
  | takes id d rest feed cancelled queue =>
    cases feed.symm.trans hc.feed
    exact ⟨d, rest, queue, (deedAt_watcher feed).trans (watching_took cancelled queue), rfl⟩
  | ends id feed why =>
    cases feed.symm.trans hc.feed
    rcases why with hcancelled | ⟨-, hunfed⟩
    · rw [hc.working.cancelled] at hcancelled
      cases hcancelled
    · -- the loop runs and so knows the keeper
      rw [isFed_of_held hc.holdings.sound (not_stopped hc.working.loop) hc.held] at hunfed
      cases hunfed

lemma cached_put (hcached : ∀ identifier, (s.cache.get? identifier).map (·.datagram) =
      lastResponse identifier (takenFrom 0 h)) (d : Datagram) (identifier : Identifier) :
    ((if d.isResponse then s.cache.put d s.now else s.cache).get? identifier).map (·.datagram) =
      lastResponse identifier (takenFrom 0 h ++ [d]) := by
  rw [lastResponse_concat]
  by_cases hd : d.isResponse = true
  · rw [if_pos hd, get?_put]
    by_cases he : d.identifier = identifier
    · rw [if_pos he, if_pos ⟨hd, he⟩]
      rfl
    · rw [if_neg he, if_neg fun hn => he hn.2, hcached]
  · rw [if_neg hd, if_neg fun hn => hd hn.1, hcached]

/-- Every step that does not cancel the connection leaves the keeper at work. -/
theorem current_step (hc : Current h s) (hs : s.step action = some (s', events))
    (hcancels : cancels action = false) :
    Current (h ++ [⟨s, action, s', events⟩]) s' := by
  have hm := (changes_step hs).move
  have hreads : feedOf s .cacheKeeper = some 0 := hc.feed
  have huntouched : action ≠ .stepCacheKeeper → touched? (deedAt s action) ≠ some 0 :=
    fun hn ht => hn (touched_by_reader hc.holdings hs hreads ht)
  refine ⟨(traffic_step hc.working hs hcancels).1, holdings_step hc.holdings hs, ?_, ?_, ?_, ?_, ?_,
    ?_⟩
  · by_cases hkeeper : action = .stepCacheKeeper
    · subst hkeeper
      obtain ⟨d, rest, -, -, rfl⟩ := keeper_takes hc hs
      exact hc.feed
    · rw [((changes_step hs).keeper hkeeper).2, hc.feed]
  · by_cases hkeeper : action = .stepCacheKeeper
    · subst hkeeper
      obtain ⟨d, rest, hq, -, rfl⟩ := keeper_takes hc hs
      exact (isHeld_receive hq 0).trans hc.held
    · rw [isHeld_move hm (hc.holdings.made _ _ hreads) (huntouched hkeeper), hc.held]
  · refine balanced_step hc.balanced hs fun hleft => ?_
    have hkeeper : action = .stepCacheKeeper := by
      by_contra hn
      exact huntouched hn (congrArg touched? hleft)
    subst hkeeper
    obtain ⟨d, rest, -, hdeed, -⟩ := keeper_takes hc hs
    cases hdeed.symm.trans hleft
  · intro identifier
    rw [takenFrom_concat]
    by_cases hkeeper : action = .stepCacheKeeper
    · subst hkeeper
      obtain ⟨d, rest, -, hdeed, rfl⟩ := keeper_takes hc hs
      rw [hdeed, took?, if_pos rfl]
      exact cached_put hc.cached d identifier
    · rw [((changes_step hs).keeper hkeeper).1, took_of_untouched (huntouched hkeeper),
        Option.toList_none, List.append_nil]
      exact hc.cached identifier
  · rw [List.flatMap_append, List.flatMap_singleton, publishedBy, List.filterMap_append,
      momentsOf_concat, acceptedIn_concat, ← hc.published, ← published_step hs]
    rfl
  · intro hroomy
    have hbefore : Roomy 0 h := fun w hw => hroomy w (List.mem_append_left _ hw)
    have hlast := hroomy _ (List.mem_append_right _ (List.mem_singleton_self _))
    have hadded := added_roomy hc.holdings.sound hs hc.held hlast
    rw [arrivals_concat, hadded, List.map_append, hc.roomy hbefore, momentsOf_concat,
      deliveredIn_concat, List.map_map]
    exact congrArg _ (List.map_id _)

end Steps

lemma course_visits {start s : State} {actions : List Action} {events : List Event}
    (hr : start.run actions = some (s, events)) :
    Course start.broker (momentsOf (visitsOf start actions)) s.broker := by
  refine visits_induction (P := fun h s => Course start.broker (momentsOf h) s.broker) .nil ?_ hr
  intro h s action s' events hcourse hs
  rw [momentsOf_concat]
  exact .snoc hcourse (changes_step hs).move

lemma current_start (settings : ConnectionBuilder) (now : Instant) :
    Current [] (State.start settings now false) := by
  obtain ⟨hfresh, hfeed, hheld, -, -⟩ := start_broker settings now false
  refine ⟨working_start settings now, holdings_start settings now false, hfeed, hheld, ?_,
    fun _ => rfl, rfl, fun _ => rfl⟩
  rw [Balanced, hfresh.unread]
  rfl

theorem current_run (settings : ConnectionBuilder) (now : Instant) {actions : List Action}
    {s : State} {events : List Event}
    (hrun : (State.start settings now false).run actions = some (s, events))
    (hc : ∀ action ∈ actions, cancels action = false) :
    Current (visitsOf (State.start settings now false) actions) s := by
  have hall := visits_induction
    (P := fun h s => (∀ w ∈ h, cancels w.action = false) → Current h s)
    (fun _ => current_start settings now) ?_ hrun
  · exact hall fun w hw => hc _ (action_mem hw)
  · intro h s action s' events ih hs hc
    exact current_step (ih fun w hw => hc w (List.mem_append_left _ hw)) hs
      (hc _ (List.mem_append_right _ (List.mem_singleton_self _)))

/-- When the loop and the cache keeper of a connection that is not cancelled have nothing left to
do, the cache holds for each identifier the last response that found room in the queue of the
keeper. If no delivery found that queue full, it is the last response that the decoder published. -/
theorem cache_current (settings : ConnectionBuilder) (now : Instant) (actions : List Action)
    (s : State) (events : List Event)
    (hrun : (State.start settings now false).run actions = some (s, events))
    (hc : ∀ action ∈ actions, cancels action = false) (hbroker : s.stepBroker = none)
    (hkeeper : s.stepCacheKeeper = none) :
    let h := visitsOf (State.start settings now false) actions
    (∀ identifier, (s.cache.get? identifier).map (·.datagram) =
      lastResponse identifier ((arrivals 0 h).map (·.2))) ∧
    (Roomy 0 h → ∀ identifier, (s.cache.get? identifier).map (·.datagram) =
      lastResponse identifier (publishedBy events)) := by
  intro h
  have hcurrent : Current h s := current_run settings now hrun hc
  have hworking := hcurrent.working
  have hempty := unread_of_rest hcurrent.feed hkeeper
  have harrived : (arrivals 0 h).map (·.2) = takenFrom 0 h := by
    rw [hcurrent.balanced, hempty, List.append_nil]
  refine ⟨fun identifier => by rw [harrived, hcurrent.cached], fun hroomy identifier => ?_⟩
  have hpending : s.broker.pending = none := by
    cases hp : s.broker.pending with
    | none => rfl
    | some d =>
      simp only [State.stepBroker, Broker.turn, hworking.loop, hworking.cancelled, hp,
        Option.map_eq_none_iff] at hbroker
      cases hr : s.broker.requests <;> simp [hr] at hbroker
  have hdelivered := (delivered_of_accepted (start_broker settings now false).1
    (course_visits hrun)).2 (not_stopped hworking.loop)
  rw [hpending, Option.toList_none, List.append_nil] at hdelivered
  rw [hcurrent.cached, ← harrived, hcurrent.roomy hroomy, ← hdelivered, ← hcurrent.published,
    events_eq hrun]

/-- Six responses of one identifier come in one chunk. Behind each delivery, the given actions
happen. -/
def burst (between : List Action) : List Action :=
  let responses := (List.range 6).map fun n => (⟨.response, ⟨0x3E⟩, [.ofNat n]⟩ : Datagram)
  [.stepBroker, .read (.bytes (responses.flatMap Datagram.encode)), .stepReceiver 0,
    .stepReceiver 0, .stepReporter, .stepDecoder] ++
    responses.flatMap fun _ => [.stepDecoder, .stepBroker] ++ between

/-- A keeper that reads in between has the last response in the end. -/
theorem keeper_keeps_up :
    let start := State.start (.ofHost "inverter") 0 false
    let actions := burst [.stepCacheKeeper]
    (∀ action ∈ actions, cancels action = false) ∧ Roomy 0 (visitsOf start actions) ∧
      ∃ s events, start.run actions = some (s, events) ∧ s.stepBroker = none ∧
        s.stepCacheKeeper = none ∧ (s.cache.get? ⟨0x3E⟩).map (·.datagram) =
          some ⟨.response, ⟨0x3E⟩, [5]⟩ := by
  intro start actions
  have hc : ∀ action ∈ actions, cancels action = false := by decide +kernel
  have hroomy : Roomy 0 (visitsOf start actions) := by decide +kernel
  have hsome : (start.run actions).isSome = true := by decide +kernel
  have hend : ∀ r ∈ start.run actions, r.1.stepBroker = none ∧ r.1.stepCacheKeeper = none ∧
      lastResponse ⟨0x3E⟩ (publishedBy r.2) = some ⟨.response, ⟨0x3E⟩, [5]⟩ := by decide +kernel
  obtain ⟨⟨s, events⟩, hrun⟩ := Option.isSome_iff_exists.mp hsome
  obtain ⟨hbroker, hkeeper, hlast⟩ := hend _ hrun
  have hcurrent := (cache_current _ _ actions s events hrun hc hbroker hkeeper).2 hroomy ⟨0x3E⟩
  exact ⟨hc, hroomy, s, events, hrun, hbroker, hkeeper, hcurrent.trans hlast⟩

/-- A keeper that reads only afterwards misses the last response: in the end all tasks wait, and
the cache holds the response before it. -/
theorem burst_leaves_older_response :
    let start := State.start (.ofHost "inverter") 0 false
    let actions := burst [] ++ List.replicate 5 .stepCacheKeeper
    (∀ action ∈ actions, cancels action = false) ∧
      ∃ s events, start.run actions = some (s, events) ∧ Resting s ∧
        (s.cache.get? ⟨0x3E⟩).map (·.datagram) = some ⟨.response, ⟨0x3E⟩, [4]⟩ ∧
        lastResponse ⟨0x3E⟩ (publishedBy events) = some ⟨.response, ⟨0x3E⟩, [5]⟩ := by
  intro start actions
  have hc : ∀ action ∈ actions, cancels action = false := by decide +kernel
  have hsome : (start.run actions).isSome = true := by decide +kernel
  have hend : ∀ r ∈ start.run actions, Resting r.1 ∧
      (r.1.cache.get? ⟨0x3E⟩).map (·.datagram) = some ⟨.response, ⟨0x3E⟩, [4]⟩ ∧
      lastResponse ⟨0x3E⟩ (publishedBy r.2) = some ⟨.response, ⟨0x3E⟩, [5]⟩ := by decide +kernel
  obtain ⟨⟨s, events⟩, hrun⟩ := Option.isSome_iff_exists.mp hsome
  exact ⟨hc, s, events, hrun, hend _ hrun⟩

end InverterLink.Proofs
