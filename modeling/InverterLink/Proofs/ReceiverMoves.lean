import InverterLink.Proofs.EventSources
import InverterLink.Proofs.FailureReports

/-!
# The moves of the receiver

The receiver either works on a socket, or it redials, or it is done. `ReceiverMove` says what a step
of a connection can make of it: redialing is a loop of its own, with a backoff that nobody else
uses, which is entered anew after each socket and left for good when it is called off.
-/

namespace InverterLink.Proofs
open Connection

/-- The phase belongs to a redial, or to what comes when it is called off. -/
def redials : ReceiverPhase → Bool
  | .redialing _ | .dialing _ | .excusing _ _ | .pausing _ _ => true
  | .closing | .stopped | .broken _ => true
  | _ => false

/-- The backoff of a redial. -/
def backoff? : ReceiverPhase → Option Backoff
  | .redialing b | .dialing b | .excusing b _ | .pausing b _ => some b
  | _ => none

/-- What becomes of the receiver in a step. -/
inductive ReceiverMove (s : State) (action : Action) : ReceiverPhase → Prop where
  | stays (r : ReceiverPhase) (same : s.receiver = r) : ReceiverMove s action r
  | begins (working : redials s.receiver = false) :
    ReceiverMove s action (.redialing (.begin s.config.backoff s.now))
  | works (r : ReceiverPhase) (working : redials s.receiver = false)
    (plain : redials r = false ∨ r = .closing) : ReceiverMove s action r
  | dials (b : Backoff) (draw : Draw) (phase : s.receiver = .redialing b)
    (act : action = .stepReceiver draw) : ReceiverMove s action (.dialing b)
  | fails (b : Backoff) (error : LinkError) (phase : s.receiver = .dialing b) :
    ReceiverMove s action (.excusing b error)
  | succeeds (b : Backoff) (phase : s.receiver = .dialing b) (act : action = .dialed (.ok ())) :
    ReceiverMove s action .installing
  | sleeps (b b' : Backoff) (error : LinkError) (draw : Draw) (delay : Duration)
    (phase : s.receiver = .excusing b error) (asked : b.next s.now draw = (b', .ok (some delay))) :
    ReceiverMove s action (.pausing b' (s.now + delay.nanos))
  | givesUp (b b' : Backoff) (error : LinkError) (draw : Draw)
    (phase : s.receiver = .excusing b error) (asked : b.next s.now draw = (b', .ok none)) :
    ReceiverMove s action (.redialing (b'.reset s.now))
  | breaks (b b' : Backoff) (error : LinkError) (draw : Draw) (fault : Fault)
    (phase : s.receiver = .excusing b error) (asked : b.next s.now draw = (b', .error fault)) :
    ReceiverMove s action (.broken fault)
  | wakes (b : Backoff) (deadline : Instant) (phase : s.receiver = .pausing b deadline)
    (due : deadline ≤ s.now) : ReceiverMove s action (.redialing b)
  | leaves (r : ReceiverPhase) (redialing : redials s.receiver = true)
    (gone : r = .closing ∨ r = .stopped) : ReceiverMove s action r

section Moves

variable {s s' : State} {action : Action} {events : List Event} {r : ReceiverPhase}

lemma backoff_of_working (h : redials r = false ∨ r = .closing) :
    backoff? r = none ∧ ∀ fault, r ≠ .broken fault := by
  rcases h with h | rfl
  · constructor
    · cases r with
      | redialing | dialing | excusing | pausing => cases h
      | _ => rfl
    · rintro fault rfl
      cases h
  · refine ⟨rfl, fun fault he => ?_⟩
    cases he

lemma receiverMove_paused {b : Backoff} {error : LinkError} {draw : Draw}
    (hr : s.receiver = .excusing b error) (h : Paused s b draw r) : ReceiverMove s action r := by
  cases h with
  | sleeps b' delay asked => exact .sleeps b b' error draw delay hr asked
  | givesUp b' asked => exact .givesUp b b' error draw hr asked
  | breaks b' fault asked => exact .breaks b b' error draw fault hr asked

lemma receiverMove_calledOff (h : heeds s.receiver = true) : ReceiverMove s action .closing := by
  cases hr : s.receiver with
  | reading k => exact .works .closing (by rw [hr]; rfl) (.inr rfl)
  | redialing | dialing | pausing => exact .leaves .closing (by rw [hr]; rfl) (.inl rfl)
  | _ =>
    rw [hr] at h
    cases h

lemma working_of_inHand {item : Inbound} (h : inHand r = [item]) : redials r = false := by
  cases r with
  | forwarding | announcing => rfl
  | _ => cases h

lemma receiverMove_receiver (hm : ReceiverStep s action s' events) :
    ReceiverMove s action s'.receiver := by
  cases hm with
  | calledOff draw phase cancelled => exact receiverMove_calledOff phase
  | loses draw k phase | reports draw error phase => exact .begins (by rw [phase]; rfl)
  | refused draw item hand decoder => exact .works .closing (working_of_inHand hand) (.inr rfl)
  | forwards draw k bytes phase | announces draw k phase | acknowledges draw k phase
    | disconnects draw error phase | installs draw phase | reads k chunk phase
    | fails k result error phase => exact .works _ (by rw [phase]; rfl) (.inl rfl)
  | dials draw b phase cancelled => exact .dials b draw phase rfl
  | excuses draw b error next phase room paused => exact receiverMove_paused phase paused
  | wakes draw b deadline phase cancelled due => exact .wakes b deadline phase due
  | closes draw phase writer => exact .leaves .stopped (by rw [phase]; rfl) (.inr rfl)
  | connects b phase cancelled => exact .succeeds b phase rfl
  | misses b error phase cancelled => exact .fails b error phase

lemma receiver_of_reporter (hm : ReporterStep s s' events) : s'.receiver = s.receiver := by
  cases hm <;> rfl

theorem receiverMove_step (hs : s.step action = some (s', events)) :
    ReceiverMove s action s'.receiver := by
  cases ha : tells action with
  | false => exact .stays _ (keepsOnTheWay_step hs ha).receiver.symm
  | true =>
    rcases tells_cases hs ha with hm | hm
    · exact receiverMove_receiver hm
    · exact .stays _ (receiver_of_reporter hm).symm

lemma clock_or_move (hs : s.step action = some (s', events)) :
    (s.now ≤ s'.now ∧ s'.receiver = s.receiver) ∨
      (s'.now = s.now ∧ ReceiverMove s action s'.receiver) := by
  by_cases ha : ∃ time, action = .wait time
  · obtain ⟨time, rfl⟩ := ha
    obtain ⟨hlater, rfl, -⟩ := wait_cases hs
    exact .inl ⟨hlater, rfl⟩
  · rw [not_exists] at ha
    exact .inr ⟨(changes_step hs).clock ha, receiverMove_step hs⟩

/-- When a dial began. -/
def dialTime? : Event → Option Instant
  | .dialStarted time => some time
  | _ => none

/-- When the dials began, in order. -/
def dialTimes (events : List Event) : List Instant := events.filterMap dialTime?

lemma dialTimes_append (first second : List Event) :
    dialTimes (first ++ second) = dialTimes first ++ dialTimes second :=
  List.filterMap_append

lemma dialTimes_none (h : ∀ e ∈ events, dialTime? e = none) : dialTimes events = [] :=
  List.filterMap_eq_nil_iff.mpr h

lemma dialTimes_receiver (hm : ReceiverStep s action s' events) :
    (∃ b, s.receiver = .redialing b ∧ s'.receiver = .dialing b ∧ dialTimes events = [s.now]) ∨
      ((∀ b, s'.receiver ≠ .dialing b) ∧ dialTimes events = []) := by
  cases hm with
  | dials draw b phase cancelled => exact .inl ⟨b, phase, rfl, rfl⟩
  | disconnects draw error phase | closes draw phase =>
    exact .inr ⟨nofun, dialTimes_none (forall_released s fun _ => rfl)⟩
  | excuses draw b error next phase room paused =>
    refine .inr ⟨?_, rfl⟩
    cases paused <;> nofun
  | _ => exact .inr ⟨nofun, rfl⟩

lemma dialTime_of_source {e : Event} (h : Source action e) (ha : tells action = false) :
    dialTime? e = none := by
  cases h with
  | received | dialed | read => cases ha
  | _ => rfl

lemma dialTimes_step (hs : s.step action = some (s', events)) :
    (∃ b, s.receiver = .redialing b ∧ s'.receiver = .dialing b ∧ dialTimes events = [s.now]) ∨
      ((∀ b b', s.receiver = .redialing b → s'.receiver ≠ .dialing b') ∧
        dialTimes events = []) := by
  have hstays : s'.receiver = s.receiver → ∀ b b', s.receiver = .redialing b →
      s'.receiver ≠ .dialing b' := by
    intro hsame b b' hr
    rw [hsame, hr]
    nofun
  cases ha : tells action with
  | false =>
    exact .inr ⟨hstays (keepsOnTheWay_step hs ha).receiver,
      dialTimes_none fun e he => dialTime_of_source (source_step hs he) ha⟩
  | true =>
    rcases tells_cases hs ha with hm | hm
    · rcases dialTimes_receiver hm with hdials | ⟨hnot, hnone⟩
      · exact .inl hdials
      · exact .inr ⟨fun _ b _ => hnot b, hnone⟩
    · refine .inr ⟨hstays (receiver_of_reporter hm), dialTimes_none fun e he => ?_⟩
      cases source_reporter hm he with
      | _ => rfl

end Moves

end InverterLink.Proofs
