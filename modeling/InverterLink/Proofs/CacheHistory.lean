import InverterLink.Proofs.Cancellation
import InverterLink.Proofs.EventSources

/-!
# How the cache changes

The cache keeper stores the responses that it takes out of its queue, one after the other. What it
takes was delivered in the same order, and what is delivered was published in the same order. So
every entry is a response, and with each change it becomes a later one: the datagrams stored in a
run, of whatever sockets, are found in the same order among those that the decoder published. All
this holds of a connection that is cancelled as well.
-/

namespace InverterLink.Proofs
open Connection

/-- The datagram that an event stores. -/
def stored? : Event → Option Datagram
  | .stored d => some d
  | _ => none

/-- What a visit stores, and when. -/
def storesAt (w : Visit) : List (Instant × Datagram) :=
  (w.events.filterMap stored?).map fun d => (w.state.now, d)

/-- Everything that the cache keeper has stored, and when. -/
def storesIn (h : List Visit) : List (Instant × Datagram) := h.flatMap storesAt

/-- The entry that the last datagram of an identifier leaves. -/
def lastStore (identifier : Identifier) (stores : List (Instant × Datagram)) : Option CacheEntry :=
  (stores.filter (·.2.identifier = identifier)).getLast?.map fun x => ⟨x.2, x.1⟩

section Moves

variable {μ : Type} {b₀ b : Broker μ} {h : List (Moment μ)}

lemma got_of_delivered (hf : Fresh b₀) (hc : Course b₀ h b) (id : SubscriberId) :
    (takenBy id h ++ unread b id).Sublist (deliveredIn h) := by
  induction hc with
  | nil =>
    rw [hf.unread]
    exact List.Sublist.refl _
  | @snoc h b b' deed _ move ih =>
    -- the queue as it was, less what is given up with it
    have hkept : took? id deed = none → delivered? deed = none →
        (unread b' id).Sublist (unread b id) →
        (takenBy id (h ++ [(⟨b, deed⟩ : Moment μ)]) ++ unread b' id).Sublist
          (deliveredIn (h ++ [(⟨b, deed⟩ : Moment μ)])) := by
      intro htook hdelivered hqueue
      rw [takenBy_concat, deliveredIn_concat, htook, hdelivered, Option.toList_none,
        List.append_nil, List.append_nil]
      exact (hqueue.append_left _).trans ih
    cases move with
    | start => exact hkept rfl rfl (by rw [unread_of_queues (start_queues b)])
    | join => exact hkept rfl rfl (by rw [unread_subscribe])
    | leave j held =>
      refine hkept rfl rfl ?_
      rw [unread_release held]
      split
      · exact List.nil_sublist _
      · exact List.Sublist.refl _
    | take j m rest queue =>
      by_cases he : j = id
      · subst he
        rw [takenBy_concat, deliveredIn_concat, unread_receive queue, if_pos rfl, took?, if_pos rfl,
          List.append_assoc]
        rw [queue] at ih
        simpa [delivered?] using ih
      · exact hkept (if_neg he) rfl (by rw [unread_receive queue, if_neg he])
    | deliver m phase requests pending =>
      have hpushed : (unread ({ b with pending := none }.deliver m) id).Sublist
          (unread b id ++ [m]) := by
        have hqueue : unread ({ b with pending := none } : Broker μ) id = unread b id := rfl
        rw [unread_deliver, hqueue]
        split
        · rw [pushed_eq]
          refine List.Sublist.append_left ?_ _
          split
          · exact List.Sublist.refl _
          · exact List.nil_sublist _
        · exact List.sublist_append_left _ _
      rw [takenBy_concat, deliveredIn_concat]
      simp only [took?, delivered?, Option.toList_none, Option.toList_some, List.append_nil]
      have hmore := hpushed.append_left (takenBy id h)
      rw [← List.append_assoc] at hmore
      exact hmore.trans (ih.append_right [m])
    | _ => exact hkept rfl rfl (List.Sublist.refl _)

end Moves

section Lists

variable {h : List Visit} {w : Visit} {identifier : Identifier}
  {stores : List (Instant × Datagram)}

lemma storesIn_concat : storesIn (h ++ [w]) = storesIn h ++ storesAt w := by
  rw [storesIn, List.flatMap_append, List.flatMap_singleton]
  rfl

lemma lastStore_concat (x : Instant × Datagram) :
    lastStore identifier (stores ++ [x]) =
      if x.2.identifier = identifier then some ⟨x.2, x.1⟩ else lastStore identifier stores := by
  rw [lastStore, List.filter_append, List.getLast?_append]
  by_cases hx : x.2.identifier = identifier
  · simp [hx]
  · simp [hx, lastStore]

end Lists

section Steps

variable {s s' : State} {action : Action} {events : List Event} {h : List Visit}

lemma keeper_stores (h : s.stepCacheKeeper = some (s', events)) :
    (s'.cache = s.cache ∧ events = []) ∨
      ∃ id d, s.cacheFeed = some id ∧ deedAt s .stepCacheKeeper = .took id d ∧
        d.isResponse = true ∧ s'.cache = s.cache.put d s.now ∧ events = [.stored d] := by
  cases watcherStep_stepCacheKeeper h with
  | takes id d rest feed cancelled queue =>
    have hdeed : deedAt s .stepCacheKeeper = .took id d :=
      (deedAt_watcher feed).trans (watching_took cancelled queue)
    simp only [Watcher.cache, Watcher.shows]
    by_cases hd : d.isResponse = true
    · rw [if_pos hd, if_pos hd]
      exact .inr ⟨id, d, feed, hdeed, hd, rfl, rfl⟩
    · rw [if_neg hd, if_neg hd]
      exact .inl ⟨rfl, rfl⟩
  | ends => exact .inl ⟨rfl, rfl⟩

lemma store_cases (hs : s.step action = some (s', events)) :
    (s'.cache = s.cache ∧ events.filterMap stored? = []) ∨
      ∃ id d, s.cacheFeed = some id ∧ deedAt s action = .took id d ∧ d.isResponse = true ∧
        s'.cache = s.cache.put d s.now ∧ events = [.stored d] := by
  by_cases hkeeper : action = .stepCacheKeeper
  · subst hkeeper
    exact (keeper_stores hs).imp_left fun ⟨hcache, he⟩ => ⟨hcache, he ▸ rfl⟩
  · refine .inl ⟨((changes_step hs).keeper hkeeper).1, List.filterMap_eq_nil_iff.mpr fun e he => ?_⟩
    cases source_step hs he with
    | stored d => exact absurd rfl hkeeper
    | received h | dialed h | read h => cases e <;> first | rfl | cases h
    | _ => rfl

/-- The cache goes by what the keeper has stored, and the keeper by what it has taken. -/
structure Kept (h : List Visit) (s : State) : Prop where
  feed : s.cacheFeed = some 0 ∨ s.cacheFeed = none
  entries : ∀ identifier, s.cache.get? identifier = lastStore identifier (storesIn h)
  sound : ∀ p ∈ s.cache.entries, p.2.datagram.isResponse = true ∧ p.2.datagram.identifier = p.1
  responses : ∀ x ∈ storesIn h, x.2.isResponse = true ∧ x.1 ≤ s.now
  ordered : (storesIn h).Pairwise fun x y => x.1 ≤ y.1
  taken : ((storesIn h).map (·.2)).Sublist (takenFrom 0 h)
  published : publishedBy (h.flatMap (·.events)) = acceptedIn (momentsOf h)

lemma mem_put {c : Cache} {d : Datagram} {now : Instant} {p : Identifier × CacheEntry}
    (hp : p ∈ (c.put d now).entries) : p = (d.identifier, ⟨d, now⟩) ∨ p ∈ c.entries :=
  (List.mem_cons.mp hp).imp_right List.mem_of_mem_filter

theorem kept_step (hk : Kept h s) (hs : s.step action = some (s', events)) :
    Kept (h ++ [⟨s, action, s', events⟩]) s' := by
  have hnow := now_step hs
  have hfeed : s'.cacheFeed = some 0 ∨ s'.cacheFeed = none := by
    rcases (changes_step hs).feeds.1 with he | he
    · exact he ▸ hk.feed
    · exact .inr he
  have hpublished : publishedBy ((h ++ [(⟨s, action, s', events⟩ : Visit)]).flatMap (·.events)) =
      acceptedIn (momentsOf (h ++ [⟨s, action, s', events⟩])) := by
    rw [List.flatMap_append, List.flatMap_singleton, publishedBy_append, hk.published,
      published_step hs, momentsOf_concat, acceptedIn_concat]
  rcases store_cases hs with ⟨hcache, hnone⟩ | ⟨id, d, hid, hdeed, hd, hcache, rfl⟩
  · have hsame : storesIn (h ++ [⟨s, action, s', events⟩]) = storesIn h := by
      rw [storesIn_concat, storesAt, hnone]
      exact List.append_nil _
    refine ⟨hfeed, ?_, ?_, ?_, ?_, ?_, hpublished⟩
    · rw [hcache, hsame]
      exact hk.entries
    · rw [hcache]
      exact hk.sound
    · rw [hsame]
      exact fun x hx => ⟨(hk.responses x hx).1, (hk.responses x hx).2.trans hnow⟩
    · rw [hsame]
      exact hk.ordered
    · rw [hsame, takenFrom_concat]
      exact hk.taken.trans (List.sublist_append_left _ _)
  · have hnew : storesIn (h ++ [⟨s, action, s', [.stored d]⟩]) = storesIn h ++ [(s.now, d)] :=
      storesIn_concat
    have hzero : id = 0 := by
      rcases hk.feed with hf | hf
      · exact Option.some.inj (hid.symm.trans hf)
      · cases hid.symm.trans hf
    refine ⟨hfeed, fun identifier => ?_, fun p hp => ?_, fun x hx => ?_, ?_, ?_, hpublished⟩
    · rw [hcache, hnew, get?_put, lastStore_concat, hk.entries]
    · rw [hcache] at hp
      rcases mem_put hp with rfl | hp
      · exact ⟨hd, rfl⟩
      · exact hk.sound p hp
    · rw [hnew, List.mem_append, List.mem_singleton] at hx
      rcases hx with hx | rfl
      · exact ⟨(hk.responses x hx).1, (hk.responses x hx).2.trans hnow⟩
      · exact ⟨hd, hnow⟩
    · rw [hnew, List.pairwise_append]
      refine ⟨hk.ordered, List.pairwise_singleton _ _, fun x hx y hy => ?_⟩
      rw [List.mem_singleton.mp hy]
      exact (hk.responses x hx).2
    · rw [hnew, List.map_append, takenFrom_concat, hdeed, hzero, took?, if_pos rfl]
      exact hk.taken.append (List.Sublist.refl _)

lemma kept_start (settings : ConnectionBuilder) (now : Instant) (cancelled : Bool) :
    Kept [] (State.start settings now cancelled) :=
  ⟨.inl (start_broker settings now cancelled).2.1, fun _ => rfl, nofun, nofun,
    List.Pairwise.nil, List.Sublist.refl _, rfl⟩

/-- What a run stores is found in the same order in what it publishes. -/
theorem stores_of_published (settings : ConnectionBuilder) (now : Instant) (cancelled : Bool)
    {actions : List Action}
    (hrun : (State.start settings now cancelled).run actions = some (s, events))
    (hk : Kept (visitsOf (State.start settings now cancelled) actions) s) :
    ((storesIn (visitsOf (State.start settings now cancelled) actions)).map (·.2)).Sublist
      (publishedBy events) := by
  have hfresh := (start_broker settings now cancelled).1
  have hcourse := course_visits hrun
  have haccepted := (delivered_of_accepted hfresh hcourse).1
  rw [events_eq hrun, hk.published]
  exact hk.taken.trans <| (List.sublist_append_left _ _).trans <|
    (got_of_delivered hfresh hcourse 0).trans <|
    (List.sublist_append_left _ _).trans haccepted.sublist

end Steps

/-- At any time of any run, the entry of an identifier is the last datagram stored for it, with the
time of storing, and all entries are responses under their own identifiers. The datagrams stored are
responses, found in the same order at ever later places among those that the decoder published, and
the times of storing do not go back. A step leaves an entry as it is, or stores a response for it at
the time of the step; no other datagram changes an entry, and none is removed. -/
theorem cache_never_goes_back (settings : ConnectionBuilder) (now : Instant) (cancelled : Bool)
    (actions : List Action) (s : State) (events : List Event)
    (hrun : (State.start settings now cancelled).run actions = some (s, events)) :
    let stores := storesIn (visitsOf (State.start settings now cancelled) actions)
    (∀ identifier, s.cache.get? identifier = lastStore identifier stores) ∧
    (∀ p ∈ s.cache.entries, p.2.datagram.identifier = p.1 ∧
      (p.2.datagram.command = .response ∨ p.2.datagram.command = .longResponse)) ∧
    (∀ x ∈ stores, x.2.isResponse = true) ∧
    (∃ place : ℕ ↪o ℕ, ∀ i, (stores.map (·.2))[i]? = (publishedBy events)[place i]?) ∧
    stores.Pairwise (fun x y => x.1 ≤ y.1) ∧
    ∀ action s' more, s.step action = some (s', more) → ∀ identifier,
      s'.cache.get? identifier = s.cache.get? identifier ∨
        ∃ d, more = [.stored d] ∧ d.isResponse = true ∧ d.identifier = identifier ∧
          s'.cache.get? identifier = some ⟨d, s.now⟩ := by
  intro stores
  have hk : Kept (visitsOf (State.start settings now cancelled) actions) s :=
    visits_induction (P := Kept) (kept_start settings now cancelled)
      (fun _ _ _ _ _ hk hs => kept_step hk hs) hrun
  refine ⟨hk.entries, fun p hp => ?_, fun x hx => (hk.responses x hx).1, ?_, hk.ordered, ?_⟩
  · obtain ⟨hresponse, hidentifier⟩ := hk.sound p hp
    refine ⟨hidentifier, ?_⟩
    rw [Datagram.isResponse] at hresponse
    cases hc : p.2.datagram.command with
    | response => exact .inl rfl
    | longResponse => exact .inr rfl
    | _ => simp [hc, Command.isResponse] at hresponse
  · exact List.sublist_iff_exists_orderEmbedding_getElem?_eq.mp
      (stores_of_published settings now cancelled hrun hk)
  · intro action s' more hs identifier
    rcases store_cases hs with ⟨hcache, -⟩ | ⟨id, d, -, -, hd, hcache, rfl⟩
    · exact .inl (by rw [hcache])
    · rw [hcache, get?_put]
      by_cases he : d.identifier = identifier
      · exact .inr ⟨d, rfl, hd, he, if_pos he⟩
      · exact .inl (if_neg he)

/-- A chunk arrives, and the keeper looks at each of the datagrams that it holds. -/
def arrival (datagrams : List Datagram) : List Action :=
  [.read (.bytes (datagrams.flatMap Datagram.encode)), .stepReceiver 0, .stepReceiver 0,
    .stepReporter, .stepDecoder] ++
    datagrams.flatMap fun _ => [.stepDecoder, .stepBroker, .stepCacheKeeper]

/-- The device closes its socket, and another one is dialed. -/
def redial : List Action :=
  [.read .endOfStream, .stepReceiver 0, .stepReceiver 0, .stepReceiver 0, .dialed (.ok ()),
    .stepReceiver 0, .stepReceiver 0, .stepDecoder]

/-- A response, a read request for the same identifier and, by another socket, a newer response: the
entry is the newer response, under the time at which it came, and the request has left no trace. -/
theorem newer_response_replaces_entry :
    let older : Datagram := ⟨.response, ⟨0x3E⟩, [1]⟩
    let newer : Datagram := ⟨.response, ⟨0x3E⟩, [2]⟩
    let start := State.start (.ofHost "inverter") 0 false
    let actions := [.stepBroker] ++ arrival [older, .read ⟨0x3E⟩] ++ [.wait 5] ++ redial ++
      arrival [newer]
    ∃ s events, start.run actions = some (s, events) ∧
      publishedBy events = [older, .read ⟨0x3E⟩, newer] ∧
      storesIn (visitsOf start actions) = [(0, older), (5, newer)] ∧
      s.cache.get? ⟨0x3E⟩ = some ⟨newer, 5⟩ := by
  intro older newer start actions
  have hsome : (start.run actions).isSome = true := by decide +kernel
  have hpublished : ∀ r ∈ start.run actions,
      publishedBy r.2 = [older, .read ⟨0x3E⟩, newer] := by decide +kernel
  have hstores : storesIn (visitsOf start actions) = [(0, older), (5, newer)] := by decide +kernel
  obtain ⟨⟨s, events⟩, hrun⟩ := Option.isSome_iff_exists.mp hsome
  have hentry := (cache_never_goes_back _ _ _ actions s events hrun).1 ⟨0x3E⟩
  rw [hstores] at hentry
  exact ⟨s, events, hrun, hpublished _ hrun, hstores, hentry⟩

end InverterLink.Proofs
