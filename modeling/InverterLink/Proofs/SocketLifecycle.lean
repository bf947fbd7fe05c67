import InverterLink.Proofs.ConnectionMoves
import InverterLink.Proofs.SocketStreams

/-!
# The life of a socket

A socket is dropped from two sides: by the receiver, when it cannot be read, and by any call that
cannot write to it. Whoever comes first, the connection always knows which socket it has: there is
at most one, the one installed last, and every other one is given up. `Standing` says so, together
with where the receiver is.
-/

namespace InverterLink.Proofs
open Connection

/-- The receiver has given its socket up, and no other one is installed yet. -/
def socketless : ReceiverPhase → Bool
  | .reporting _ | .redialing _ | .dialing _ | .installing | .excusing _ _ | .pausing _ _
  | .stopped | .broken _ => true
  | _ => false

/-- What a connection knows about its sockets is so. -/
structure Standing (s : State) : Prop where
  flag : s.connected = s.live.isSome
  newest : ∀ k, s.live = some k → k + 1 = s.sockets ∧ k ∉ s.released
  past : ∀ k ∈ s.released, k < s.sockets
  givenUp : ∀ k < s.sockets, s.live ≠ some k → k ∈ s.released
  held : ∀ k, s.receiver.socket? = some k → k + 1 = s.sockets
  idle : socketless s.receiver = true → s.live = none

/-- A step keeps the standing of a connection, and installs a socket only where none is live. -/
structure Upkeep (s s' : State) (events : List Event) : Prop where
  standing : Standing s'
  sockets : List.range s'.sockets = List.range s.sockets ++ events.filterMap installed?
  install : ∀ k, .installed k ∈ events → s.live = none ∧ s'.live = some k

section Steps

variable {s s' : State} {events : List Event}

lemma upkeep_of_standing (h : Standing s') (hsockets : s'.sockets = s.sockets)
    (he : ∀ e ∈ events, installed? e = none) : Upkeep s s' events := by
  refine ⟨h, ?_, fun k hk => ?_⟩
  · rw [hsockets, List.filterMap_eq_nil_iff.mpr he, List.append_nil]
  · cases he _ hk

lemma held_kept {r : ReceiverPhase} (h : Standing s)
    (hheld : r.socket? = none ∨ r.socket? = s.receiver.socket?) (k : SocketId)
    (hk : r.socket? = some k) : k + 1 = s.sockets := by
  rcases hheld with hnone | hsame
  · rw [hnone] at hk
    cases hk
  · exact h.held k (hsame.symm.trans hk)

/-- A step that leaves the sockets alone. The receiver may let go of its socket, and goes without
one only if there is none. -/
lemma upkeep_on {r : ReceiverPhase} (h : Standing s)
    (hs : s'.sockets = s.sockets ∧ s'.live = s.live ∧ s'.connected = s.connected ∧
      s'.released = s.released ∧ s'.receiver = r)
    (hheld : r.socket? = none ∨ r.socket? = s.receiver.socket?)
    (hidle : socketless r = false ∨ s.live = none) (he : ∀ e ∈ events, installed? e = none) :
    Upkeep s s' events := by
  obtain ⟨hsockets, hlive, hconnected, hreleased, hreceiver⟩ := hs
  refine upkeep_of_standing ⟨?_, ?_, ?_, ?_, ?_, ?_⟩ hsockets he
  · rw [hconnected, hlive, h.flag]
  · rw [hlive, hsockets, hreleased]
    exact h.newest
  · rw [hreleased, hsockets]
    exact h.past
  · rw [hsockets, hlive, hreleased]
    exact h.givenUp
  · rw [hreceiver, hsockets]
    exact held_kept h hheld
  · intro hr
    rw [hreceiver] at hr
    rw [hlive]
    refine hidle.resolve_left fun hn => ?_
    rw [hn] at hr
    cases hr

lemma upkeep_aside (h : Standing s)
    (hs : s'.sockets = s.sockets ∧ s'.live = s.live ∧ s'.connected = s.connected ∧
      s'.released = s.released ∧ s'.receiver = s.receiver)
    (he : ∀ e ∈ events, installed? e = none) : Upkeep s s' events := by
  refine upkeep_on h hs (.inr rfl) ?_ he
  cases hr : socketless s.receiver with
  | false => exact .inl rfl
  | true => exact .inr (h.idle hr)

lemma upkeep_disconnect {r : ReceiverPhase} (h : Standing s)
    (hs : s'.sockets = s.sockets ∧ s'.live = none ∧ s'.connected = false ∧
      s'.released = s.live.toList ++ s.released ∧ s'.receiver = r)
    (hheld : r.socket? = none ∨ r.socket? = s.receiver.socket?)
    (he : ∀ e ∈ events, installed? e = none) : Upkeep s s' events := by
  obtain ⟨hsockets, hlive, hconnected, hreleased, hreceiver⟩ := hs
  refine upkeep_of_standing ⟨?_, ?_, ?_, ?_, ?_, ?_⟩ hsockets he
  · rw [hconnected, hlive]
    rfl
  · intro k hk
    rw [hlive] at hk
    cases hk
  · intro k hk
    rw [hreleased, List.mem_append, Option.mem_toList] at hk
    rw [hsockets]
    rcases hk with hk | hk
    · rw [← (h.newest k hk).1]
      exact Nat.lt_succ_self k
    · exact h.past k hk
  · intro k hk _
    rw [hsockets] at hk
    rw [hreleased, List.mem_append, Option.mem_toList]
    by_cases hn : s.live = some k
    · exact .inl hn
    · exact .inr (h.givenUp k hk hn)
  · rw [hreceiver, hsockets]
    exact held_kept h hheld
  · exact fun _ => hlive

lemma standing_install (h : Standing s) (hnone : s.live = none) :
    Standing { s.install.1 with receiver := .announcing s.sockets } := by
  constructor
  · rfl
  · rintro k ⟨⟩
    exact ⟨rfl, fun hk => Nat.lt_irrefl _ (h.past _ hk)⟩
  · exact fun k hk => Nat.lt_succ_of_lt (h.past k hk)
  · intro k hk hne
    have hlt : k < s.sockets := by
      refine Nat.lt_of_le_of_ne (Nat.lt_succ_iff.mp hk) ?_
      rintro rfl
      exact hne rfl
    exact h.givenUp k hlt (by simp [hnone])
  · rintro k ⟨⟩
    rfl
  · intro hn
    cases hn

lemma uninstalled_of_keepsCore (h : KeepsCore s s' events) : ∀ e ∈ events, installed? e = none :=
  fun e he => installed_of_unfed (quiet_unseen (h.quiet e he)).1

lemma none_of_gone {k : SocketId} (h : Standing s) (hr : s.receiver = .reading k)
    (hk : k ∈ s.released) : s.live = none := by
  cases hl : s.live with
  | none => rfl
  | some j =>
    obtain ⟨hj, hout⟩ := h.newest j hl
    have hheld := h.held k (by rw [hr]; rfl)
    have he : j = k := Nat.succ.inj (hj.trans hheld.symm)
    exact absurd (he ▸ hk) hout

theorem upkeep_receiver {action : Action} (h : Standing s)
    (hm : ReceiverStep s action s' events) : Upkeep s s' events := by
  have hnone : ∀ r, s.receiver = r → socketless r = true → s.live = none :=
    fun r hr hidle => h.idle (hr ▸ hidle)
  cases hm with
  | calledOff | refused =>
    exact upkeep_on h ⟨rfl, rfl, rfl, rfl, rfl⟩ (.inl rfl) (.inl rfl) (by simp)
  | fails =>
    exact upkeep_on h ⟨rfl, rfl, rfl, rfl, rfl⟩ (.inl rfl) (.inl rfl) (by simp [installed?])
  -- the receiver keeps its socket
  | forwards _ _ _ phase | announces _ _ phase | acknowledges _ _ phase =>
    exact upkeep_on h ⟨rfl, rfl, rfl, rfl, rfl⟩ (.inr (by rw [phase]; rfl)) (.inl rfl) (by simp)
  | reads _ _ phase =>
    exact upkeep_on h ⟨rfl, rfl, rfl, rfl, rfl⟩ (.inr (by rw [phase]; rfl)) (.inl rfl)
      (by simp [installed?])
  -- the socket was given up before
  | loses draw k phase cancelled gone =>
    exact upkeep_on h ⟨rfl, rfl, rfl, rfl, rfl⟩ (.inl rfl) (.inr (none_of_gone h phase gone))
      (by simp)
  | reports _ _ phase | wakes _ _ _ phase | connects _ phase =>
    exact upkeep_on h ⟨rfl, rfl, rfl, rfl, rfl⟩ (.inl rfl) (.inr (hnone _ phase rfl)) (by simp)
  | dials _ _ phase | misses _ _ phase =>
    exact upkeep_on h ⟨rfl, rfl, rfl, rfl, rfl⟩ (.inl rfl) (.inr (hnone _ phase rfl))
      (by simp [installed?])
  | excuses draw b error next phase room paused =>
    exact upkeep_on h ⟨rfl, rfl, rfl, rfl, rfl⟩ (.inl (phase_of_paused paused).1)
      (.inr (hnone _ phase rfl)) (by simp)
  | disconnects | closes =>
    exact upkeep_disconnect h ⟨rfl, rfl, rfl, rfl, rfl⟩ (.inl rfl)
      (forall_released s fun _ => rfl)
  | installs draw phase writer =>
    refine ⟨standing_install h (hnone _ phase rfl), List.range_succ, fun k hk => ?_⟩
    cases List.mem_singleton.mp hk
    exact ⟨hnone _ phase rfl, rfl⟩

lemma upkeep_decoder (h : Standing s) (hm : DecoderStep s s' events) : Upkeep s s' events := by
  cases hm with
  | publishes => exact upkeep_aside h ⟨rfl, rfl, rfl, rfl, rfl⟩ (by simp [installed?])
  | _ => exact upkeep_aside h ⟨rfl, rfl, rfl, rfl, rfl⟩ (by simp)

lemma upkeep_watcher {w : Watcher} (h : Standing s) (hm : WatcherStep s w s' events) :
    Upkeep s s' events := by
  have he := uninstalled_of_keepsCore (keepsCore_watcher hm)
  cases hm with
  | _ => exact upkeep_aside h ⟨rfl, rfl, rfl, rfl, rfl⟩ he

lemma upkeep_reporter (h : Standing s) (hm : ReporterStep s s' events) : Upkeep s s' events := by
  have he := uninstalled_of_keepsCore (keepsCore_reporter hm)
  cases hm with
  | _ => exact upkeep_aside h ⟨rfl, rfl, rfl, rfl, rfl⟩ he

lemma upkeep_callMove {n : CallId} {c : Call} {action : Action} (h : Standing s)
    (hm : CallMove s n c action s' events) : Upkeep s s' events := by
  have he := uninstalled_of_keepsCore (keepsCore_callMove hm)
  cases hm with
  | advance | join => exact upkeep_aside h ⟨rfl, rfl, rfl, rfl, rfl⟩ he
  | fail => exact upkeep_disconnect h ⟨rfl, rfl, rfl, rfl, rfl⟩ (.inr rfl) he

lemma upkeep_filterMove {n : CallId} {c : Call} {f : Filter} (h : Standing s)
    (hm : FilterMove s n c f s' events) : Upkeep s s' events := by
  have he := uninstalled_of_keepsCore (keepsCore_filterMove hm)
  cases hm with
  | _ => exact upkeep_aside h ⟨rfl, rfl, rfl, rfl, rfl⟩ he

/-- Every step keeps the standing of a connection. -/
theorem upkeep_step {action : Action} (h : Standing s)
    (hs : s.step action = some (s', events)) : Upkeep s s' events := by
  cases transition_step hs with
  | receiver hm => exact upkeep_receiver h hm
  | decoder hm => exact upkeep_decoder h hm
  | watcher w own hm => exact upkeep_watcher h hm
  | reporter hm => exact upkeep_reporter h hm
  | call _ hm => exact upkeep_callMove h hm
  | filter _ _ _ hm => exact upkeep_filterMove h hm
  | loop | begin | subscribe | receive =>
    exact upkeep_aside h ⟨rfl, rfl, rfl, rfl, rfl⟩ (by simp [installed?])
  | unsubscribe | shutdown | cancelParent | wait =>
    exact upkeep_aside h ⟨rfl, rfl, rfl, rfl, rfl⟩ (by simp)

lemma standing_start (settings : ConnectionBuilder) (now : Instant) (cancelled : Bool) :
    Standing (State.start settings now cancelled) where
  flag := rfl
  newest := by
    rintro k ⟨⟩
    exact ⟨rfl, nofun⟩
  past := nofun
  givenUp k hk hne := by
    have hk : k = 0 := Nat.lt_one_iff.mp hk
    rw [hk] at hne
    exact absurd rfl hne
  held := by
    rintro k ⟨⟩
    rfl
  idle := nofun

/-- Every run keeps the standing of a connection, and numbers its sockets in the order of their
installation. -/
theorem standing_run {start : State} {actions : List Action} (h : Standing start)
    (hfirst : socketsOf [] = List.range start.sockets)
    (hr : start.run actions = some (s, events)) :
    Standing s ∧ socketsOf events = List.range s.sockets := by
  refine passages_induction (P := fun _ seen s => Standing s ∧
    socketsOf seen = List.range s.sockets) ⟨h, hfirst⟩ ?_ hr
  intro _ seen s action s' shown ⟨h, hseen⟩ hs
  have hup := upkeep_step h hs
  refine ⟨hup.standing, ?_⟩
  rw [hup.sockets, ← hseen, socketsOf, List.filterMap_append]
  rfl

end Steps

/-- At any time, a connection says that it is connected exactly if it has a socket, which then is
the one installed last and is open unless the connection is cancelled; all others are closed. While
the receiver dials there is no socket, and the next step installs one only where there is none. -/
theorem sockets_in_order (settings : ConnectionBuilder) (now : Instant) (cancelled : Bool)
    (actions : List Action) (s : State) (events : List Event)
    (hrun : (State.start settings now cancelled).run actions = some (s, events)) :
    (s.connected = true ↔ ∃ k, s.live = some k) ∧
    (∀ k, s.live = some k → (socketsOf events).getLast? = some k ∧
      (s.isClosed k = true → s.cancelled = true)) ∧
    (∀ k ∈ socketsOf events, s.live ≠ some k → s.isClosed k = true) ∧
    (∀ backoff, s.receiver = .dialing backoff → s.live = none) ∧
    ∀ action s' more, s.step action = some (s', more) → ∀ k, .installed k ∈ more →
      s.live = none ∧ s'.live = some k := by
  have hfirst : socketsOf [] = List.range (State.start settings now cancelled).sockets := rfl
  obtain ⟨h, hsockets⟩ := standing_run (standing_start settings now cancelled) hfirst hrun
  refine ⟨?_, ?_, ?_, ?_, ?_⟩
  · rw [h.flag, Option.isSome_iff_exists]
  · intro k hk
    obtain ⟨hlast, hopen⟩ := h.newest k hk
    refine ⟨?_, fun hclosed => ?_⟩
    · rw [hsockets, ← hlast, List.range_succ, List.getLast?_concat]
    · simpa [State.isClosed, hopen] using hclosed
  · intro k hk hne
    rw [hsockets, List.mem_range] at hk
    simp [State.isClosed, h.givenUp k hk hne]
  · intro backoff hr
    exact h.idle (by rw [hr]; rfl)
  · intro action s' more hs
    exact (upkeep_step h hs).install

/-- A call cannot write to the first socket. The receiver, which only reads from it, notices that it
was given up and dials. -/
def refusedWrite : List Action :=
  [.call (.send [0x2B]), .stepCall 0, .stepCall 0, .refused 0 ⟨.brokenPipe, none⟩,
    .stepReceiver 0, .stepReceiver 0, .dialed (.ok ())]

/-- The socket that comes next takes the place of none. -/
theorem refused_write_makes_room :
    let start := State.start (.ofHost "inverter") 0 false
    ∃ s events s' more, start.run refusedWrite = some (s, events) ∧ s.connected = false ∧
      s.isClosed 0 = true ∧ s.step (.stepReceiver 0) = some (s', more) ∧
      .installed 1 ∈ more ∧ s.live = none ∧ s'.live = some 1 := by
  intro start
  have hsome : (start.run refusedWrite).isSome = true := by decide +kernel
  obtain ⟨⟨s, events⟩, hrun⟩ := Option.isSome_iff_exists.mp hsome
  have hend : ∀ r ∈ start.run refusedWrite, r.1.live = none ∧ 0 ∈ socketsOf r.2 ∧
      (r.1.step (.stepReceiver 0)).isSome = true ∧
      ∀ next ∈ r.1.step (.stepReceiver 0), .installed 1 ∈ next.2 := by decide +kernel
  obtain ⟨hlive, hmem, hnext, hinstalled⟩ := hend _ hrun
  obtain ⟨⟨s', more⟩, hs⟩ := Option.isSome_iff_exists.mp hnext
  obtain ⟨hflag, -, hclosed, -, hstep⟩ := sockets_in_order _ _ _ refusedWrite s events hrun
  have hconnected : s.connected = false := by
    rw [← Bool.not_eq_true, hflag, hlive]
    rintro ⟨k, ⟨⟩⟩
  refine ⟨s, events, s', more, hrun, hconnected, ?_, hs, hinstalled _ hs, ?_⟩
  · exact hclosed 0 hmem (by rw [hlive]; nofun)
  · exact hstep _ s' more hs 1 (hinstalled _ hs)

end InverterLink.Proofs
