import InverterLink.Proofs.ConnectionTraffic
import InverterLink.Proofs.Corruption
import InverterLink.Proofs.Runs

/-!
# The sockets of a connection, one by one

A connection goes through sockets as they break. What it publishes is what a fresh decoder finds
in the bytes of each of them, one socket after the other: a frame that broke off with its socket
leaves nothing behind. `Orderly` says so of the items that the receiver has sent to the decoder,
`Accounted` says where those items are.
-/

namespace InverterLink.Proofs
open Connection

/-- What the decoder makes of some items. -/
def handleAll (parser : Decoder) : List Inbound → Decoder × List Datagram
  | [] => (parser, [])
  | item :: rest =>
    let (parser, datagrams) := handle parser item
    let (parser, more) := handleAll parser rest
    (parser, datagrams ++ more)

/-- What an event shows that the decoder is to get. -/
def fed? : Event → Option Inbound
  | .installed _ => some .restart
  | .read _ bytes => some (.chunk bytes)
  | _ => none

/-- The socket that an event installs. -/
def installed? : Event → Option SocketId
  | .installed k => some k
  | _ => none

/-- The datagram that an event publishes. -/
def published? : Event → Option Datagram
  | .published d => some d
  | _ => none

/-- The bytes that an event reads from a socket. -/
def chunkFrom (k : SocketId) : Event → List UInt8
  | .read k' bytes => if k' = k then bytes else []
  | _ => []

/-- Everything that the decoder is to get in a run. -/
def fedBy (events : List Event) : List Inbound := events.filterMap fed?

/-- The sockets of a run in the order of their installation. The first one is there at the
start. -/
def socketsOf (events : List Event) : List SocketId := 0 :: events.filterMap installed?

/-- The datagrams that a run publishes. -/
def publishedBy (events : List Event) : List Datagram := events.filterMap published?

/-- The bytes that a run reads from a socket. -/
def bytesFrom (k : SocketId) (events : List Event) : List UInt8 := events.flatMap (chunkFrom k)

/-- What a fresh decoder finds on each socket of a run, one socket after the other. -/
def socketwise (events : List Event) : List Datagram :=
  (socketsOf events).flatMap fun k => readFresh (bytesFrom k events)

/-- The items that the decoder takes in a run. -/
def takenIn (s : State) : List Action → List Inbound
  | [] => []
  | action :: rest =>
    taken s action ++
      match s.step action with
      | some (s', _) => takenIn s' rest
      | none => []

/-- Nothing is on the way from the sockets to the broker. -/
def Drained (s : State) : Prop :=
  inHand s.receiver = [] ∧ s.inbound = [] ∧ unpublished s.decoder = []

instance (s : State) : Decidable (Drained s) :=
  inferInstanceAs (Decidable (_ ∧ _ ∧ _))

lemma handleAll_append (parser : Decoder) (first second : List Inbound) :
    handleAll parser (first ++ second) =
      ((handleAll (handleAll parser first).1 second).1,
        (handleAll parser first).2 ++ (handleAll (handleAll parser first).1 second).2) := by
  induction first generalizing parser with
  | nil => rfl
  | cons item rest ih => simp [handleAll, ih]

lemma handleAll_concat (parser : Decoder) (items : List Inbound) (item : Inbound) :
    handleAll parser (items ++ [item]) =
      ((handle (handleAll parser items).1 item).1,
        (handleAll parser items).2 ++ (handle (handleAll parser items).1 item).2) := by
  simp [handleAll_append, handleAll]

lemma readFresh_append (first second : List UInt8) :
    readFresh (first ++ second) =
      readFresh first ++ ((({} : Decoder).decode first).1.decode second).2 := by
  rw [readFresh, decode_append]
  rfl

lemma essence_reset (p : Decoder) : essence p.reset = essence {} :=
  essence_fresh rfl rfl

/-- The items of a run so far bring the decoder as far as a fresh one on each socket. -/
structure Orderly (log : List Event) (sockets : Nat) : Prop where
  installed : socketsOf log = List.range sockets
  unread : ∀ k, sockets ≤ k → bytesFrom k log = []
  datagrams : (handleAll {} (fedBy log)).2 = socketwise log
  parser : ∀ k, k + 1 = sockets →
    essence (handleAll {} (fedBy log)).1 = essence (({} : Decoder).decode (bytesFrom k log)).1

section Orderly

variable {log : List Event} {sockets : Nat}

lemma orderly_start : Orderly [] 1 where
  installed := rfl
  unread _ _ := rfl
  datagrams := rfl
  parser _ _ := rfl

lemma quiet_unseen {e : Event} (h : Quiet e) : fed? e = none ∧ published? e = none := by
  cases e <;> first | exact ⟨rfl, rfl⟩ | exact h.elim

lemma installed_of_unfed {e : Event} (h : fed? e = none) : installed? e = none := by
  cases e <;> first | rfl | cases h

lemma chunk_of_unfed {e : Event} (h : fed? e = none) (k : SocketId) : chunkFrom k e = [] := by
  cases e <;> first | rfl | cases h

lemma orderly_unfed (h : Orderly log sockets) {events : List Event}
    (hq : ∀ e ∈ events, fed? e = none) : Orderly (log ++ events) sockets := by
  have hfed : fedBy (log ++ events) = fedBy log := by
    simpa [fedBy] using hq
  have hsockets : socketsOf (log ++ events) = socketsOf log := by
    simpa [socketsOf] using fun e he => installed_of_unfed (hq e he)
  have hbytes : ∀ k, bytesFrom k (log ++ events) = bytesFrom k log := by
    intro k
    simpa [bytesFrom] using fun e he => chunk_of_unfed (hq e he) k
  constructor
  · rw [hsockets, h.installed]
  · intro k hk
    rw [hbytes, h.unread k hk]
  · simp only [socketwise, hsockets, hbytes]
    rw [hfed, h.datagrams, socketwise]
  · intro k hk
    rw [hfed, hbytes, h.parser k hk]

lemma orderly_installed (h : Orderly log sockets) :
    Orderly (log ++ [.installed sockets]) (sockets + 1) := by
  have hfed : fedBy (log ++ [.installed sockets]) = fedBy log ++ [.restart] := by
    simp [fedBy, fed?]
  have hsockets : socketsOf (log ++ [.installed sockets]) = socketsOf log ++ [sockets] := by
    simp [socketsOf, installed?]
  have hbytes : ∀ k, bytesFrom k (log ++ [.installed sockets]) = bytesFrom k log := by
    intro k
    simp [bytesFrom, chunkFrom]
  constructor
  · rw [hsockets, h.installed, List.range_succ]
  · intro k hk
    rw [hbytes, h.unread k (by omega)]
  · have hnone : readFresh (bytesFrom sockets log) = [] := by
      rw [h.unread sockets (le_refl _)]
      rfl
    simp only [socketwise, hsockets, hbytes, List.flatMap_append]
    rw [hfed, handleAll_concat, h.datagrams]
    simp [handle, hnone, socketwise]
  · intro k hk
    have hk : k = sockets := by omega
    rw [hfed, handleAll_concat, hbytes, hk, h.unread sockets (le_refl _)]
    exact essence_reset _

lemma orderly_read {k : SocketId} (h : Orderly log (k + 1)) (bytes : List UInt8) :
    Orderly (log ++ [.read k bytes]) (k + 1) := by
  have hfed : fedBy (log ++ [.read k bytes]) = fedBy log ++ [.chunk bytes] := by
    simp [fedBy, fed?]
  have hsockets : socketsOf (log ++ [.read k bytes]) = socketsOf log := by
    simp [socketsOf, installed?]
  have hnew : bytesFrom k (log ++ [.read k bytes]) = bytesFrom k log ++ bytes := by
    simp [bytesFrom, chunkFrom]
  have hold : ∀ j, j ≠ k → bytesFrom j (log ++ [.read k bytes]) = bytesFrom j log := by
    intro j hj
    simp [bytesFrom, chunkFrom, hj.symm]
  -- the decoder may keep fields of older sockets, but the bytes do not bring them to light
  obtain ⟨hd, he⟩ := decode_congr (h.parser k rfl) bytes
  constructor
  · rw [hsockets, h.installed]
  · intro j hj
    rw [hold j (Nat.ne_of_gt hj), h.unread j hj]
  · have hbefore :
        (List.range k).flatMap (fun j => readFresh (bytesFrom j (log ++ [.read k bytes]))) =
          (List.range k).flatMap fun j => readFresh (bytesFrom j log) := by
      refine List.flatMap_congr fun j hj => ?_
      rw [hold j (List.mem_range.mp hj).ne]
    rw [hfed, handleAll_concat, h.datagrams, socketwise, socketwise, hsockets, h.installed,
      List.range_succ, List.flatMap_append, List.flatMap_append, hbefore]
    simp only [List.flatMap_singleton, hnew, readFresh_append, handle, hd, List.append_assoc]
  · intro j hj
    have hj : j = k := by omega
    rw [hfed, handleAll_concat, hj, hnew, decode_append]
    exact he

end Orderly

/-- Where everything is that a run has read: the decoder has taken it, or it waits, or the receiver
holds it. -/
structure Accounted (p : Pipe) (seen : List Inbound) (log : List Event) : Prop where
  orderly : Orderly log p.sockets
  current : ∀ k, p.current = some k → k + 1 = p.sockets
  conveyed : seen ++ p.inbound ++ p.hand = fedBy log
  decoded : handleAll {} seen = (p.parser, publishedBy log ++ p.unpublished)

section Runs

variable {p p' : Pipe} {seen items : List Inbound} {log events : List Event}

lemma fedBy_append (first second : List Event) :
    fedBy (first ++ second) = fedBy first ++ fedBy second := List.filterMap_append

lemma publishedBy_append (first second : List Event) :
    publishedBy (first ++ second) = publishedBy first ++ publishedBy second :=
  List.filterMap_append

lemma fedBy_quiet (h : ∀ e ∈ events, Quiet e) : fedBy events = [] := by
  simpa [fedBy] using fun e he => (quiet_unseen (h e he)).1

lemma publishedBy_quiet (h : ∀ e ∈ events, Quiet e) : publishedBy events = [] := by
  simpa [publishedBy] using fun e he => (quiet_unseen (h e he)).2

/-- Traffic loses nothing, doubles nothing and keeps the order. -/
lemma accounted_traffic (h : Accounted p seen log) (ht : Traffic p items events p') :
    Accounted p' (seen ++ items) (log ++ events) := by
  have hc := h.conveyed
  have hd := h.decoded
  cases ht with
  | aside _ hq =>
    constructor
    · exact orderly_unfed h.orderly fun e he => (quiet_unseen (hq e he)).1
    · exact h.current
    · rw [fedBy_append, fedBy_quiet hq, ← hc]
      simp
    · rw [publishedBy_append, publishedBy_quiet hq]
      simpa using hd
  | leave _ hand hq =>
    constructor
    · exact orderly_unfed h.orderly fun e he => (quiet_unseen (hq e he)).1
    · nofun
    · rw [fedBy_append, fedBy_quiet hq, ← hc]
      simp
    · rw [publishedBy_append, publishedBy_quiet hq]
      simpa using hd
  | install hand =>
    constructor
    · exact orderly_installed h.orderly
    · rintro k ⟨⟩
      rfl
    · have hf : fedBy [.installed p.sockets] = [.restart] := rfl
      rw [fedBy_append, hf, ← hc, hand]
      simp
    · have hn : publishedBy [.installed p.sockets] = [] := rfl
      rw [publishedBy_append, hn]
      simpa using hd
  | read k bytes current hand =>
    have hk := h.current k current
    constructor
    · have ho := h.orderly
      rw [← hk] at ho ⊢
      exact orderly_read ho bytes
    · exact h.current
    · have hf : fedBy [.read k bytes] = [.chunk bytes] := rfl
      rw [fedBy_append, hf, ← hc, hand]
      simp
    · have hn : publishedBy [.read k bytes] = [] := rfl
      rw [publishedBy_append, hn]
      simpa using hd
  | push =>
    constructor
    · simpa using h.orderly
    · exact h.current
    · simpa using hc
    · simpa using hd
  | take item rest inbound unpublished =>
    constructor
    · simpa using h.orderly
    · exact h.current
    · rw [inbound] at hc
      simpa using hc
    · rw [handleAll_concat, hd, unpublished]
      simp
  | publish d rest unpublished =>
    constructor
    · exact orderly_unfed h.orderly (by simp [fed?])
    · exact h.current
    · have hn : fedBy [.published d] = [] := rfl
      rw [fedBy_append, hn]
      simpa using hc
    · have hp : publishedBy [.published d] = [d] := rfl
      rw [publishedBy_append, hp]
      simpa [unpublished] using hd

/-- A run loses nothing, doubles nothing and keeps the order. -/
theorem accounted_run {s s' : State} {actions : List Action} (hw : Working s)
    (h : Accounted (pipe s) seen log) (hr : s.run actions = some (s', events))
    (hc : ∀ action ∈ actions, cancels action = false) :
    Accounted (pipe s') (seen ++ takenIn s actions) (log ++ events) := by
  induction actions generalizing s seen log events with
  | nil =>
    cases hr
    simpa [takenIn] using h
  | cons action rest ih =>
    obtain ⟨s₁, before, behind, hs, hrest, rfl⟩ := run_cases hr
    obtain ⟨hw₁, ht⟩ := traffic_step hw hs (hc action (by simp))
    have hrun := ih hw₁ (accounted_traffic h ht) hrest fun a ha => hc a (by simp [ha])
    simpa [takenIn, hs] using hrun

lemma working_start (settings : ConnectionBuilder) (now : Instant) :
    Working (State.start settings now false) := by
  have hb : brokerLife (State.start settings now false).broker = (.running, 1) := by
    obtain ⟨config, reportsErrors, logs, endpoint⟩ := settings
    cases logs <;> rfl
  simp only [brokerLife, Prod.mk.injEq] at hb
  constructor
  · rfl
  · exact hb.1
  · simp [hb.2]
  all_goals
    intro h
    cases h

lemma accounted_start (settings : ConnectionBuilder) (now : Instant) (cancelled : Bool) :
    Accounted (pipe (State.start settings now cancelled)) [] [] where
  orderly := orderly_start
  current := by
    rintro k ⟨⟩
    rfl
  conveyed := rfl
  decoded := rfl

/-- Until it is cancelled, a connection publishes what a fresh decoder finds on each of its
sockets, in the order of their installation. What has been read and what the decoder has taken
differ by what is still on the way, and so do what is to be published and what has been. -/
theorem sockets_kept_apart (settings : ConnectionBuilder) (now : Instant) (actions : List Action)
    (s : State) (events : List Event)
    (hrun : (State.start settings now false).run actions = some (s, events))
    (hc : ∀ action ∈ actions, cancels action = false) :
    socketsOf events = List.range s.sockets ∧
      takenIn (State.start settings now false) actions ++ s.inbound ++ inHand s.receiver =
        fedBy events ∧
      publishedBy events ++ unpublished s.decoder ++
          (handleAll s.parser (s.inbound ++ inHand s.receiver)).2 = socketwise events ∧
      (Drained s → publishedBy events = socketwise events) := by
  have h := accounted_run (working_start settings now) (accounted_start settings now false) hrun hc
  simp only [List.nil_append] at h
  have hd := h.orderly.datagrams
  rw [← h.conveyed, List.append_assoc, handleAll_append, h.decoded] at hd
  refine ⟨h.orderly.installed, h.conveyed, hd, ?_⟩
  rintro ⟨hhand, hinbound, hunpublished⟩
  have hi : (pipe s).inbound ++ (pipe s).hand = [] := by simp [pipe, hhand, hinbound]
  have hu : (pipe s).unpublished = [] := hunpublished
  rw [hi, hu] at hd
  simpa [handleAll] using hd

/-- A frame breaks off with its socket, behind an escape mark; the next socket brings a frame. -/
def brokenOff : List Action :=
  [.read (.bytes [0x2B, 0x05, 0x2D]), .stepReceiver 0, .stepReceiver 0, .read .endOfStream,
    .stepReceiver 0, .stepReceiver 0, .stepReceiver 0, .dialed (.ok ()), .stepReceiver 0,
    .stepDecoder, .stepReceiver 0,
    .read (.bytes (Datagram.encode ⟨.response, ⟨0x3E⟩, [0x2B]⟩)), .stepReceiver 0,
    .stepReceiver 0, .stepDecoder, .stepDecoder, .stepDecoder]

/-- What broke off does not touch the frame of the next socket. -/
theorem broken_off_frame_leaves_nothing :
    let start := State.start (.ofHost "inverter") 0 false
    (∀ action ∈ brokenOff, cancels action = false) ∧
      ∃ s events, start.run brokenOff = some (s, events) ∧ s.sockets = 2 ∧ Drained s ∧
        publishedBy events = socketwise events ∧
        publishedBy events = [(⟨.response, ⟨0x3E⟩, [0x2B]⟩ : Datagram)] := by
  intro start
  have hc : ∀ action ∈ brokenOff, cancels action = false := by decide
  have hsome : (start.run brokenOff).isSome = true := by decide +kernel
  have hend : ∀ r ∈ start.run brokenOff, r.1.sockets = 2 ∧ Drained r.1 ∧
      publishedBy r.2 = [(⟨.response, ⟨0x3E⟩, [0x2B]⟩ : Datagram)] := by decide +kernel
  obtain ⟨⟨s, events⟩, hrun⟩ := Option.isSome_iff_exists.mp hsome
  obtain ⟨hsockets, hdrained, hpublished⟩ := hend _ hrun
  have h := (sockets_kept_apart _ _ brokenOff s events hrun hc).2.2.2 hdrained
  exact ⟨hc, s, events, hrun, hsockets, hdrained, h, hpublished⟩

end Runs
end InverterLink.Proofs
