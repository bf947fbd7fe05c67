import InverterLink.Proofs.ConnectionSteps

/-!
# Where events come from

Each event of a connection is shown by an action of one kind, or of two: a socket is given up by the
receiver or by a call whose write fails, and users subscribe and receive just as queries do.
`Source` lists the pairs, so whoever meets an event in a run knows what was done there.
-/

namespace InverterLink.Proofs
open Connection

/-- The event is one of the receiver, its dials and its sockets. -/
def external : Event → Bool
  | .dialStarted _ | .dialFailed _ | .installed _ | .released _ | .read _ _ | .readFailed _ _ =>
    true
  | _ => false

/-- The action may show the event. -/
inductive Source : Action → Event → Prop where
  | received {draw : Draw} {e : Event} (external : external e = true) :
    Source (.stepReceiver draw) e
  | dialed {result : LinkResult Unit} {e : Event} (external : external e = true) :
    Source (.dialed result) e
  | read {result : ReadResult} {e : Event} (external : external e = true) : Source (.read result) e
  | decoded (d : Datagram) : Source .stepDecoder (.published d)
  | turned (turn : Turn Datagram) : Source .stepBroker (.turned turn)
  | stored (d : Datagram) : Source .stepCacheKeeper (.stored d)
  | logged (d : Datagram) : Source .stepLogger (.logged d)
  | reported (error : LinkError) : Source .stepReporter (.reported error)
  | began (job : Job) (n : CallId) : Source (.call job) (.called n)
  | joined (n : CallId) (id : SubscriberId) : Source (.stepCall n) (.subscribed id)
  | filtered (n : CallId) (id : SubscriberId) (result : Received Datagram) :
    Source (.stepFilter n) (.received id result)
  | wrote (n : CallId) (count : Nat) (socket : SocketId) (bytes : List UInt8) :
    Source (.wrote n count) (.wrote n socket bytes)
  | failed (n : CallId) (error : IoError) (socket : SocketId) (shown : LinkError) :
    Source (.refused n error) (.writeFailed n socket shown)
  | gaveUp (n : CallId) (error : IoError) (socket : SocketId) :
    Source (.refused n error) (.released socket)
  | finished {action : Action} (n : CallId) (result : LinkResult Outcome)
    (own : action = .stepCall n ∨ action = .flushed n ∨ ∃ error, action = .refused n error) :
    Source action (.finished n result)
  | subscribed (id : SubscriberId) : Source .subscribe (.subscribed id)
  | took (id : SubscriberId) (result : Received Datagram) :
    Source (.receive id) (.received id result)

section Steps

variable {s s' : State} {action : Action} {events : List Event} {e : Event} {n : CallId} {c : Call}

lemma source_receiver (hm : ReceiverStep s action s' events) (he : e ∈ events) :
    Source action e := by
  cases hm with
  | calledOff | loses | forwards | announces | refused | acknowledges | reports | excuses | wakes
    | connects => cases he
  | disconnects | closes =>
    exact .received (forall_released s (P := (external · = true)) (fun _ => rfl) e he)
  | dials | installs =>
    rw [List.mem_singleton.mp he]
    exact .received rfl
  | misses =>
    rw [List.mem_singleton.mp he]
    exact .dialed rfl
  | reads | fails =>
    rw [List.mem_singleton.mp he]
    exact .read rfl

lemma source_decoder (hm : DecoderStep s s' events) (he : e ∈ events) :
    Source .stepDecoder e := by
  cases hm with
  | calledOff | takes | ends | rests | refused => cases he
  | publishes d =>
    rw [List.mem_singleton.mp he]
    exact .decoded d

lemma source_shows {w : Watcher} {d : Datagram} (he : e ∈ w.shows d) : Source w.action e := by
  cases w with
  | cacheKeeper =>
    simp only [Watcher.shows] at he
    split at he
    · rw [List.mem_singleton.mp he]
      exact .stored d
    · cases he
  | logger =>
    rw [List.mem_singleton.mp he]
    exact .logged d

lemma source_watcher {w : Watcher} (hm : WatcherStep s w s' events) (he : e ∈ events) :
    Source w.action e := by
  cases hm with
  | takes _ d => exact source_shows he
  | ends => cases he

lemma source_reporter (hm : ReporterStep s s' events) (he : e ∈ events) :
    Source .stepReporter e := by
  cases hm with
  | calledOff | hears | ends => cases he
  | passesOn error =>
    split at he
    · rw [List.mem_singleton.mp he]
      exact .reported error
    · cases he

lemma source_callMove (hm : CallMove s n c action s' events) (he : e ∈ events) :
    Source action e := by
  cases hm with
  | advance _ phase writer _ step =>
    cases step with
    | served | barred | unplugged | answered | expired =>
      rw [List.mem_singleton.mp he]
      exact .finished _ _ (.inl rfl)
    | sent =>
      rw [List.mem_singleton.mp he]
      exact .finished _ _ (.inr (.inl rfl))
    | wrote =>
      rw [List.mem_singleton.mp he]
      exact .wrote ..
    | missed | passed | locked | written | asked | dropped => cases he
  | fail socket error phase =>
    simp only [List.mem_cons, List.mem_append, List.mem_map, List.not_mem_nil, or_false] at he
    rcases he with rfl | ⟨k, -, rfl⟩ | rfl
    · exact .failed ..
    · exact .gaveUp ..
    · exact .finished _ _ (.inr (.inr ⟨error, rfl⟩))
  | join phase =>
    rw [List.mem_singleton.mp he]
    exact .joined ..

lemma source_filterMove {f : Filter} (hm : FilterMove s n c f s' events) (he : e ∈ events) :
    Source (.stepFilter n) e := by
  cases hm with
  | look d rest phase queue =>
    rw [List.mem_singleton.mp he]
    exact .filtered ..
  | close => cases he

/-- Every event of a step has its source in the action. -/
theorem source_step (hs : s.step action = some (s', events)) (he : e ∈ events) :
    Source action e := by
  cases transition_step hs with
  | receiver hm => exact source_receiver hm he
  | decoder hm => exact source_decoder hm he
  | loop b turn =>
    rw [List.mem_singleton.mp he]
    exact .turned turn
  | watcher w own hm =>
    rw [own]
    exact source_watcher hm he
  | reporter hm => exact source_reporter hm he
  | call _ hm => exact source_callMove hm he
  | filter _ _ _ hm => exact source_filterMove hm he
  | begin job =>
    rw [List.mem_singleton.mp he]
    exact .began ..
  | subscribe =>
    rw [List.mem_singleton.mp he]
    exact .subscribed _
  | receive id =>
    rw [List.mem_singleton.mp he]
    exact .took ..
  | unsubscribe | shutdown | cancelParent | wait => cases he

end Steps
end InverterLink.Proofs
