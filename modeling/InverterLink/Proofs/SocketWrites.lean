import InverterLink.Proofs.Cancellation
import InverterLink.Proofs.EventSources

/-!
# Who writes to a socket

A call that locks the write side of the socket is handed the socket and writes its frame, and
nobody else writes meanwhile. So the device sees, one behind the other, the frames of the calls
that were handed its socket, in the order in which they were. Only a call that breaks off, since the
socket refuses its bytes or its caller loses interest, leaves a part of its frame behind.
-/

namespace InverterLink.Proofs
open Connection

/-- A call that was handed a socket, and what it has to write to it. -/
structure Grant where
  call : CallId
  socket : SocketId
  frame : List UInt8
  deriving DecidableEq

/-- What is handed over in a visit: a call has locked the write side after it, and nobody had
before. -/
def grantAt (w : Visit) : Option Grant := do
  let n ← w.next.writer
  let c ← w.next.calls[n]?
  match w.state.writer, c.phase with
  | none, .writing socket frame => some ⟨n, socket, frame⟩
  | _, _ => none

/-- Which calls were handed a socket, in this order. -/
def grantsIn (h : List Visit) : List Grant := h.filterMap grantAt

/-- Which calls were handed this socket, in this order. -/
def grantsOn (k : SocketId) (h : List Visit) : List Grant := (grantsIn h).filter (·.socket = k)

/-- The bytes that an event brings to the device of a socket. -/
def carriedTo (k : SocketId) : Event → List UInt8
  | .wrote _ socket bytes => if socket = k then bytes else []
  | _ => []

/-- All bytes that the device of a socket sees. -/
def seenOn (k : SocketId) (events : List Event) : List UInt8 := events.flatMap (carriedTo k)

/-- Some bytes are written. -/
def isWrite : Event → Bool
  | .wrote .. => true
  | _ => false

/-- A call in this phase has locked the write side of this socket. -/
def locks (k : SocketId) : CallPhase → Bool
  | .writing socket _ | .flushing socket => socket = k
  | _ => false

/-- A call that writes to this socket breaks off: its bytes are refused, or it is dropped. -/
def breaksOff (k : SocketId) (w : Visit) : Bool :=
  match w.action with
  | .refused n _ | .dropCall n => (w.state.calls[n]?).any fun c => locks k c.phase
  | _ => false

/-- What is still to be written in a phase. -/
def unwritten (k : SocketId) : CallPhase → List UInt8
  | .writing socket rest => if socket = k then rest else []
  | _ => []

/-- What whoever has locked the write side of this socket has still to write. -/
def unsent (k : SocketId) (s : State) : List UInt8 :=
  (s.writer.bind (s.calls[·]?)).elim [] fun c => unwritten k c.phase

/-- What was still to be written and what is handed over in a visit is written in it, or still to be
written. -/
def Carried (k : SocketId) (w : Visit) : Prop :=
  seenOn k w.events ++ unsent k w.next =
    unsent k w.state ++ ((grantAt w).toList.filter (·.socket = k)).flatMap (·.frame)

/-- The job of a call, and where the call is. -/
def outline (s : State) (n : CallId) : Option (Job × CallPhase) :=
  (s.calls[n]?).map fun c => (c.job, c.phase)

/-- The call that makes a step, or whose socket or caller does. -/
def actor : Action → Option CallId
  | .stepCall n | .wrote n _ | .refused n _ | .flushed n | .dropCall n => some n
  | _ => none

/-- A step of none of the calls: it may begin one, and keeps the outlines of the others, and the
lock. -/
structure KeepsOutlines (s : State) (action : Action) (s' : State) (events : List Event) :
    Prop where
  writer : s'.writer = s.writer
  outline : ∀ n, outline s' n = outline s n ∨
    outline s n = none ∧ ∃ job, outline s' n = some (job, job.first)
  actor : actor action = none
  unwritten : ∀ e ∈ events, isWrite e = false

/-- Nobody writes but the one that has locked the write side. -/
def Owned (s : State) : Prop :=
  ∀ n c, s.calls[n]? = some c → holdsLock c.phase = true → s.writer = some n

section Lists

variable {h : List Visit} {w : Visit} {k : SocketId} {events more : List Event}

lemma carriedTo_unwritten {e : Event} (he : isWrite e = false) : carriedTo k e = [] := by
  cases e with
  | wrote => cases he
  | _ => rfl

lemma grantsIn_concat : grantsIn (h ++ [w]) = grantsIn h ++ (grantAt w).toList := by
  rw [grantsIn, List.filterMap_append, List.filterMap_cons, List.filterMap_nil]
  cases grantAt w <;> rfl

lemma seenOn_append : seenOn k (events ++ more) = seenOn k events ++ seenOn k more :=
  List.flatMap_append

lemma seenOn_concat :
    seenOn k ((h ++ [w]).flatMap (·.events)) =
      seenOn k (h.flatMap (·.events)) ++ seenOn k w.events := by
  rw [List.flatMap_append, List.flatMap_singleton, seenOn_append]

lemma grantAt_none (hw : ∀ n, w.next.writer = some n → w.state.writer = some n) :
    grantAt w = none := by
  cases hn : w.next.writer with
  | none => simp [grantAt, hn]
  | some n => cases hc : w.next.calls[n]? <;> simp [grantAt, hn, hw n hn]

end Lists

section Steps

variable {s s' : State} {action : Action} {events : List Event} {h : List Visit} {n m : CallId}
  {c : Call} {k : SocketId}

lemma modify_phase {calls : List Call} (hc : calls[n]? = some c) (phase : CallPhase) :
    (calls.modify n fun c => { c with phase })[n]? = some { c with phase } := by
  rw [List.getElem?_modify_eq, hc]
  rfl

lemma unlock_other (hl : Locked s) (hc : s.calls[n]? = some c) (hfree : holdsLock c.phase = false) :
    (s.unlock n).writer = s.writer := by
  unfold State.unlock
  split
  · rename_i hw
    obtain ⟨c', hc', hlock⟩ := hl n hw
    cases hc.symm.trans hc'
    rw [hfree] at hlock
    cases hlock
  · rfl

lemma unlock_own (hw : s.writer = some n) : (s.unlock n).writer = none := by
  rw [State.unlock, if_pos hw]

lemma grantAt_locked {frame : List UInt8} {w : Visit} (hbefore : w.state.writer = none)
    (hafter : w.next.writer = some n) (hc : w.next.calls[n]? = some c)
    (hphase : c.phase = .writing k frame) : grantAt w = some ⟨n, k, frame⟩ := by
  simp [grantAt, hbefore, hafter, hc, hphase]

lemma grantAt_callMove (hc : s.calls[n]? = some c) (hm : CallMove s n c action s' events) :
    grantAt ⟨s, action, s', events⟩ = none ∨
      ∃ k, action = .stepCall n ∧ c.phase = .locking ∧ s.live = some k ∧
        grantAt ⟨s, action, s', events⟩ = some ⟨n, k, c.job.frame⟩ := by
  cases hm with
  | advance _ phase writer _ step =>
    cases step with
    | locked k before writer live =>
      exact .inr ⟨k, rfl, before, live, grantAt_locked writer rfl (modify_phase hc _) rfl⟩
    | missed | passed | written | wrote => exact .inl (grantAt_none fun _ hn => hn)
    | _ => exact .inl (grantAt_none fun _ hn => (unlock_writer hn).1)
  | fail socket error phase => exact .inl (grantAt_none fun _ hn => (unlock_writer hn).1)
  | join phase => exact .inl (grantAt_none fun _ hn => hn)

lemma unsent_own (hw : s.writer = some n) (hc : s.calls[n]? = some c) :
    unsent k s = unwritten k c.phase := by
  simp [unsent, hw, hc]

lemma unsent_free (hw : s.writer = none) : unsent k s = [] := by
  simp [unsent, hw]

lemma unsent_other (hl : Locked s) (hc : s.calls[n]? = some c) (hfree : holdsLock c.phase = false)
    (hwriter : s'.writer = s.writer) (hcalls : ∀ m, n ≠ m → s'.calls[m]? = s.calls[m]?) :
    unsent k s' = unsent k s := by
  cases hw : s.writer with
  | none => rw [unsent_free hw, unsent_free (hwriter.trans hw)]
  | some m =>
    obtain ⟨c', hc', hlock⟩ := hl m hw
    have hne : n ≠ m := by
      rintro rfl
      cases hc.symm.trans hc'
      rw [hfree] at hlock
      cases hlock
    rw [unsent_own hw hc', unsent_own (hwriter.trans hw) ((hcalls m hne).trans hc')]

lemma unwritten_of_unlocked {phase : CallPhase} (hk : locks k phase = false) :
    unwritten k phase = [] := by
  cases phase with
  | writing socket rest => exact if_neg (by simpa [locks] using hk)
  | _ => rfl

lemma holdsLock_of_writesTo {phase : CallPhase} {socket : SocketId} (hp : writesTo socket phase) :
    holdsLock phase = true := by
  cases phase with
  | writing | flushing => rfl
  | _ => exact hp.elim

lemma carried_ungranted (hwriter : ∀ m, s'.writer = some m → s.writer = some m)
    (hsame : seenOn k events ++ unsent k s' = unsent k s) :
    Carried k ⟨s, action, s', events⟩ := by
  rw [Carried, grantAt_none hwriter]
  exact hsame.trans (List.append_nil _).symm

lemma carried_unlocked (hl : Locked s) (hc : s.calls[n]? = some c)
    (hm : CallMove s n c action s' events) (hfree : holdsLock c.phase = false)
    (hwriter : s'.writer = s.writer) (hseen : seenOn k events = []) :
    Carried k ⟨s, action, s', events⟩ := by
  refine carried_ungranted (fun m hw => hwriter ▸ hw) ?_
  rw [hseen, List.nil_append]
  exact unsent_other hl hc hfree hwriter fun m hne => calls_callMove hm hne

lemma carried_unlocking (ho : Owned s) (hc : s.calls[n]? = some c)
    (hlock : holdsLock c.phase = true) (hwriter : s'.writer = (s.unlock n).writer)
    (hrest : unwritten k c.phase = []) (hseen : seenOn k events = []) :
    Carried k ⟨s, action, s', events⟩ := by
  have hown := ho n c hc hlock
  have hnone : s'.writer = none := hwriter.trans (unlock_own hown)
  refine carried_ungranted (fun m hw => ?_) ?_
  · cases hnone.symm.trans hw
  · rw [hseen, unsent_free hnone, unsent_own hown hc, hrest, List.append_nil]

lemma carried_writing {phase : CallPhase} (ho : Owned s) (hc : s.calls[n]? = some c)
    (hlock : holdsLock c.phase = true) (hwriter : s'.writer = s.writer)
    (hcall : s'.calls[n]? = some { c with phase })
    (hsame : seenOn k events ++ unwritten k phase = unwritten k c.phase) :
    Carried k ⟨s, action, s', events⟩ := by
  have hown := ho n c hc hlock
  refine carried_ungranted (fun m hw => hwriter ▸ hw) ?_
  rw [unsent_own hown hc, unsent_own (hwriter.trans hown) hcall, hsame]

/-- What is handed over in a step of a call is written in it or still to be written, unless the call
breaks off. -/
lemma carried_callMove (hl : Locked s) (ho : Owned s) (hc : s.calls[n]? = some c)
    (hm : CallMove s n c action s' events) (hk : breaksOff k ⟨s, action, s', events⟩ = false) :
    Carried k ⟨s, action, s', events⟩ := by
  have hmove := hm
  cases hm with
  | advance _ phase writer _ step =>
    cases step with
    | locked j before writer live =>
      have hcall := modify_phase hc (.writing j c.job.frame)
      rw [Carried, grantAt_locked writer rfl hcall rfl, unsent_free writer, unsent_own rfl hcall]
      by_cases hj : j = k <;> simp [hj, unwritten, seenOn]
    | written j before =>
      refine carried_writing ho hc (by rw [before]; rfl) rfl (modify_phase hc _) ?_
      simp [before, unwritten, seenOn]
    | wrote j rest count before least most =>
      refine carried_writing ho hc (by rw [before]; rfl) rfl (modify_phase hc _) ?_
      by_cases hj : j = k <;> simp [hj, before, unwritten, seenOn, carriedTo]
    | sent _ _ before | asked _ _ before =>
      have hlock : holdsLock c.phase = true := by rw [before]; rfl
      have hdone : unwritten k c.phase = [] := by rw [before]; rfl
      exact carried_unlocking ho hc hlock rfl hdone rfl
    | dropped before =>
      cases hlock : holdsLock c.phase with
      | false => exact carried_unlocked hl hc hmove hlock (unlock_other hl hc hlock) rfl
      | true =>
        have hk : locks k c.phase = false := by simpa [breaksOff, hc] using hk
        exact carried_unlocking ho hc hlock rfl (unwritten_of_unlocked hk) rfl
    | missed _ before | passed before =>
      exact carried_unlocked hl hc hmove (by rw [before]; rfl) rfl rfl
    | served _ _ before | barred before | unplugged before | answered _ _ before
    | expired _ before =>
      have hfree : holdsLock c.phase = false := by rw [before]; rfl
      exact carried_unlocked hl hc hmove hfree (unlock_other hl hc hfree) rfl
  | fail socket error phase =>
    have hk : locks k c.phase = false := by simpa [breaksOff, hc] using hk
    refine carried_unlocking ho hc (holdsLock_of_writesTo phase) rfl (unwritten_of_unlocked hk) ?_
    simp [seenOn, carriedTo, List.flatMap_map]
  | join phase => exact carried_unlocked hl hc hmove (by rw [phase]; rfl) rfl rfl

lemma outline_eq (hc : s.calls[n]? = some c) : outline s n = some (c.job, c.phase) := by
  rw [outline, hc]
  rfl

lemma outline_filterMove {f : Filter} (hm : FilterMove s m c f s' events) (n : CallId) :
    outline s' n = outline s n := by
  cases hm with
  | _ =>
    simp only [outline, State.updateFilter, State.updateCall, State.endFilter,
      List.getElem?_modify]
    split
    · cases s.calls[n]? <;> rfl
    · simp

lemma outline_begin (s : State) (job : Job) (n : CallId) :
    outline (s.call job).1 n = outline s n ∨
      outline s n = none ∧ ∃ new, outline (s.call job).1 n = some (new, new.first) := by
  by_cases hn : n < s.calls.length
  · left
    simp only [outline, State.call]
    rw [List.getElem?_append_left hn]
  · have hnone : outline s n = none := by
      rw [outline, List.getElem?_eq_none (Nat.not_lt.mp hn)]
      rfl
    simp only [outline, State.call] at hnone ⊢
    rw [List.getElem?_append_right (Nat.not_lt.mp hn), List.getElem?_singleton]
    split
    · exact .inr ⟨hnone, job, rfl⟩
    · exact .inl hnone.symm

lemma actor_callMove (hm : CallMove s n c action s' events) : actor action = some n := by
  cases hm with
  | advance _ phase writer _ step => cases step <;> rfl
  | _ => rfl

lemma callMove_of_actor (hs : s.step action = some (s', events)) (ha : actor action = some n) :
    ∃ c, s.calls[n]? = some c ∧ CallMove s n c action s' events := by
  cases action with
  | stepCall =>
    cases ha
    exact callMove_stepCall hs
  | wrote =>
    cases ha
    exact callMove_wrote hs
  | refused =>
    cases ha
    exact callMove_refused hs
  | flushed =>
    cases ha
    exact callMove_flushed hs
  | dropCall =>
    cases ha
    exact callMove_dropCall hs
  | _ => cases ha

/-- A step is one of a call, or leaves the calls and the lock alone. -/
theorem keepsOutlines_step (hs : s.step action = some (s', events)) :
    (∃ n c, s.calls[n]? = some c ∧ CallMove s n c action s' events) ∨
      KeepsOutlines s action s' events := by
  cases ha : actor action with
  | some n =>
    obtain ⟨c, hc, hm⟩ := callMove_of_actor hs ha
    exact .inl ⟨n, c, hc, hm⟩
  | none =>
    have hcall : ¬ ∃ n c, s.calls[n]? = some c ∧ CallMove s n c action s' events := by
      rintro ⟨n, c, -, hm⟩
      cases ha.symm.trans (actor_callMove hm)
    refine .inr ⟨(changes_step hs).writer.resolve_right hcall, fun n => ?_, ha, fun e he => ?_⟩
    · cases stepped_step hs with
      | call hc move => exact absurd ⟨_, _, hc, move⟩ hcall
      | filter hc hf running move => exact .inl (outline_filterMove move n)
      | begin job => exact outline_begin s job n
      | beside kept => exact .inl (by rw [outline, kept.calls, outline])
    · cases source_step hs he with
      | wrote => cases ha
      | received external | dialed external | read external =>
        cases e <;> first | rfl | cases external
      | _ => rfl

lemma writer_callMove (hm : CallMove s n c action s' events) (hne : n ≠ m)
    (hw : s.writer = some m) : s'.writer = some m := by
  have hunlock : (s.unlock n).writer = some m := by
    rw [State.unlock, if_neg (by simpa [hw] using hne.symm)]
    exact hw
  cases hm with
  | advance _ phase writer _ step =>
    cases step with
    | locked k before free => cases free.symm.trans hw
    | missed | passed | written | wrote => exact hw
    | _ => exact hunlock
  | fail socket error phase => exact hunlock
  | join phase => exact hw

lemma owned_callMove (ho : Owned s) (hc : s.calls[n]? = some c)
    (hm : CallMove s n c action s' events) : Owned s' := by
  have hown : holdsLock c.phase = true → s.writer = some n := ho n c hc
  intro m c' hc' hlock
  by_cases hne : n = m
  · subst hne
    cases hm with
    | advance _ phase writer _ step =>
      cases (modify_phase hc phase).symm.trans hc'
      cases step with
      | locked => rfl
      | written _ before | wrote _ _ _ before => exact hown (by rw [before]; rfl)
      | _ => cases hlock
    | fail socket error phase =>
      cases (modify_phase hc _).symm.trans hc'
      cases hlock
    | join phase =>
      have hphase : c'.phase = .checking := by
        obtain ⟨hn, -⟩ | ⟨-, c₀, -, rfl⟩ := modify_cases hc'
        · exact absurd rfl hn
        · rfl
      rw [hphase] at hlock
      cases hlock
  · exact writer_callMove hm hne (ho m c' ((calls_callMove hm hne).symm.trans hc') hlock)

lemma call_of_outline {job : Job} {phase : CallPhase} (h : outline s n = some (job, phase)) :
    ∃ c, s.calls[n]? = some c ∧ c.job = job ∧ c.phase = phase := by
  simp only [outline, Option.map_eq_some_iff, Prod.mk.injEq] at h
  exact h

theorem owned_step (ho : Owned s) (hs : s.step action = some (s', events)) : Owned s' := by
  rcases keepsOutlines_step hs with ⟨n, c, hc, hm⟩ | kept
  · exact owned_callMove ho hc hm
  intro n c' hc' hlock
  rw [kept.writer]
  have houtline := outline_eq hc'
  rcases kept.outline n with he | ⟨-, job, he⟩
  · obtain ⟨c, hc, -, hphase⟩ := call_of_outline (he.symm.trans houtline)
    exact ho n c hc (by rw [hphase]; exact hlock)
  · -- a call does not begin with the lock
    obtain ⟨-, hphase⟩ := Prod.mk.inj (Option.some.inj (he.symm.trans houtline))
    rw [← hphase] at hlock
    cases job <;> cases hlock

lemma carried_step (hl : Locked s) (ho : Owned s) (hs : s.step action = some (s', events))
    (hk : breaksOff k ⟨s, action, s', events⟩ = false) : Carried k ⟨s, action, s', events⟩ := by
  rcases keepsOutlines_step hs with ⟨n, c, hc, hm⟩ | kept
  · exact carried_callMove hl ho hc hm hk
  have hseen : seenOn k events = [] :=
    List.flatMap_eq_nil_iff.mpr fun e he => carriedTo_unwritten (kept.unwritten e he)
  refine carried_ungranted (fun m hw => kept.writer ▸ hw) ?_
  rw [hseen, List.nil_append]
  cases hw : s.writer with
  | none => rw [unsent_free hw, unsent_free (kept.writer.trans hw)]
  | some n =>
    obtain ⟨c, hc, -⟩ := hl n hw
    have houtline : outline s' n = some (c.job, c.phase) := by
      rw [← outline_eq hc]
      exact (kept.outline n).resolve_right fun hn => by simp [outline_eq hc] at hn
    obtain ⟨c', hc', -, hphase⟩ := call_of_outline houtline
    rw [unsent_own hw hc, unsent_own (kept.writer.trans hw) hc', hphase]

/-- What was handed over on a socket: all of it has been written, but for what is still to be
written. -/
structure Aired (k : SocketId) (h : List Visit) (s : State) : Prop where
  locked : Locked s
  owned : Owned s
  carried : (∀ w ∈ h, breaksOff k w = false) →
    seenOn k (h.flatMap (·.events)) ++ unsent k s = (grantsOn k h).flatMap (·.frame)

theorem aired_step (ha : Aired k h s) (hs : s.step action = some (s', events)) :
    Aired k (h ++ [⟨s, action, s', events⟩]) s' := by
  refine ⟨locked_step ha.locked hs, owned_step ha.owned hs, fun hk => ?_⟩
  have hstep := carried_step (k := k) ha.locked ha.owned hs
    (hk _ (List.mem_append_right _ (List.mem_singleton_self _)))
  have hbefore := ha.carried fun w hw => hk w (List.mem_append_left _ hw)
  rw [seenOn_concat, List.append_assoc, hstep, ← List.append_assoc, hbefore, grantsOn, grantsOn,
    grantsIn_concat, List.filter_append, List.flatMap_append]

lemma aired_start (settings : ConnectionBuilder) (now : Instant) (cancelled : Bool) (k : SocketId) :
    Aired k [] (State.start settings now cancelled) :=
  ⟨nofun, nofun, fun _ => rfl⟩

end Steps
end InverterLink.Proofs
