import InverterLink.Proofs.ConnectionVisits
import InverterLink.Proofs.Delays
import InverterLink.Proofs.ReceiverMoves
import InverterLink.Proofs.Rounding
import Mathlib

/-!
# The pace of a redial

A redial dials, sleeps and starts its backoff over. The beats of a run say when. If the delays are
positive and do not shrink, and the first one fits into the time of the backoff, a redial can dial
twice at one instant, when its backoff has been started over, but not three times. If the first
delay does not fit, nothing keeps a redial from dialing again and again at the same instant.
-/

namespace InverterLink.Proofs
open Backoff Connection

/-- What a redial does. -/
inductive Beat where
  | dialed (time : Instant)
  /-- A sleep begins, and lasts up to the deadline. -/
  | slept (time deadline : Instant)
  /-- The backoff gives up and is started over. -/
  | gaveUp (time : Instant)
  deriving DecidableEq

def beatOf (now : Instant) : ReceiverPhase → ReceiverPhase → Option Beat
  | .redialing _, .dialing _ => some (.dialed now)
  | .excusing _ _, .pausing _ deadline => some (.slept now deadline)
  | .excusing _ _, .redialing _ => some (.gaveUp now)
  | _, _ => none

/-- The beats of a redial, in order. -/
def beatsOf (h : List Visit) : List Beat :=
  h.filterMap fun w => beatOf w.state.now w.state.receiver w.next.receiver

/-- Delays are not spread and positive, and their factor is at least one. -/
structure Growing (policy : BackoffPolicy) : Prop where
  plain : Unspread policy
  initial : 0 < policy.initialInterval.nanos
  ceiling : 0 < policy.maxInterval.nanos
  factor : 1 ≤ policy.multiplier.toRat

instance (policy : BackoffPolicy) : Decidable (Growing policy) :=
  decidable_of_iff (Unspread policy ∧ 0 < policy.initialInterval.nanos ∧
      0 < policy.maxInterval.nanos ∧ 1 ≤ policy.multiplier.toRat)
    ⟨fun h => ⟨h.1, h.2.1, h.2.2.1, h.2.2.2⟩, fun h => ⟨h.plain, h.initial, h.ceiling, h.factor⟩⟩

/-- The first delay of a series fits into its time. -/
def Lasting (policy : BackoffPolicy) : Prop :=
  policy.maxElapsedTime = .zero ∨ policy.initialInterval ≤ policy.maxElapsedTime

instance (policy : BackoffPolicy) : Decidable (Lasting policy) :=
  inferInstanceAs (Decidable (_ ∨ _))

/-! ### The backoff of a redial -/

/-- A backoff of the policy whose next delay is positive. -/
def Fit (policy : BackoffPolicy) (b : Backoff) : Prop := b.policy = policy ∧ 0 < b.interval.nanos

section Fitting

variable {policy : BackoffPolicy} {b b' : Backoff} {now : Instant} {draw : Draw}

lemma fit_begin (hg : Growing policy) (now : Instant) : Fit policy (.begin policy now) :=
  ⟨rfl, hg.initial⟩

lemma grow_pos {interval grown : Duration} (hg : Growing policy) (hinterval : 0 < interval.nanos)
    (h : grow policy interval = .ok grown) : 0 < grown.nanos := by
  obtain ⟨scaled, hscaled, rfl⟩ := grow_cases h
  rw [min_nanos]
  exact lt_min (scale_pos hinterval hg.factor hscaled) hg.ceiling

lemma fit_next {delay? : Option Duration} (hg : Growing policy) (hf : Fit policy b)
    (h : b.next now draw = (b', .ok delay?)) : Fit policy b' := by
  obtain ⟨hsame, hinterval⟩ := hf
  have hplain : Unspread b.policy := by
    rw [hsame]
    exact hg.plain
  obtain ⟨-, ⟨grown, hgrown, rfl⟩ | ⟨fault, -, -, he⟩⟩ := asked_unspread hplain (asked_of_next h)
  · rw [hsame] at hgrown
    exact ⟨hsame, grow_pos hg hinterval hgrown⟩
  · cases he

lemma sleep_pos {delay : Duration} (hg : Growing policy) (hf : Fit policy b)
    (h : b.next now draw = (b', .ok (some delay))) : 0 < delay.nanos := by
  have hplain : Unspread b.policy := by
    rw [hf.1]
    exact hg.plain
  rw [(asked_unspread hplain (asked_of_next h)).1 delay rfl]
  exact hf.2

lemma first_granted (hg : Growing policy) (hl : Lasting policy) :
    (Backoff.begin policy now).next now draw ≠ (b', .ok none) := by
  intro h
  cases asked_of_next h with
  | refused delay grown spread growth hlimited hexceeds =>
    have hplain : Unspread (Backoff.begin policy now).policy := hg.plain
    rw [randomize_unspread hplain] at spread
    cases spread
    have hfits : policy.initialInterval.nanos ≤ policy.maxElapsedTime.nanos :=
      hl.resolve_left hlimited
    have hzero : ((Backoff.begin policy now).elapsed now).nanos = 0 := by
      rw [Backoff.elapsed, between_nanos]
      change min (now - now) _ = 0
      rw [Nat.sub_self, Nat.zero_min]
    rw [hzero, Nat.zero_add] at hexceeds
    exact absurd hexceeds (Nat.not_lt.mpr hfits)

lemma first_refused {start : Instant} {delay : Duration} (hplain : Unspread policy)
    (hshort : ¬ Lasting policy) :
    (Backoff.begin policy start).next now draw ≠ (b', .ok (some delay)) := by
  intro h
  cases asked_of_next h with
  | granted _ grown spread growth hfits =>
    have hplain : Unspread (Backoff.begin policy start).policy := hplain
    rw [randomize_unspread hplain] at spread
    cases spread
    refine hshort (hfits.imp_right fun hsum => ?_)
    exact (Nat.le_add_left _ _).trans hsum

end Fitting

/-! ### The beats and the receiver -/

def pauses : ReceiverPhase → Bool
  | .pausing _ _ => true
  | _ => false

/-- Every sleep takes time, and whoever dials after it waits for its end; and whoever dials twice at
an instant has started the backoff over in between, and nothing else. -/
structure Spaced (beats : List Beat) : Prop where
  sleeps : ∀ (before after : List Beat) (time deadline : Instant),
    beats = before ++ .slept time deadline :: after →
    time < deadline ∧ ∀ t, .dialed t ∈ after → deadline ≤ t
  pairs : ∀ (before mid after : List Beat) (t : Instant),
    beats = before ++ .dialed t :: mid ++ .dialed t :: after → mid = [.gaveUp t]

/-- Where a redial is that keeps its pace. What it dialed at this very instant tells how far it has
come: behind it are at most a fresh backoff and one more dial. -/
structure Tempo (policy : BackoffPolicy) (beats : List Beat) (now : Instant)
    (r : ReceiverPhase) : Prop where
  spaced : Spaced beats
  redialing : redials r = true
  fit : ∀ b, backoff? r = some b → Fit policy b
  past : ∀ t, .dialed t ∈ beats → t ≤ now
  rested : ∀ time deadline, .slept time deadline ∈ beats →
    deadline ≤ now ∨ (∃ b, r = .pausing b deadline) ∨ backoff? r = none
  waking : ∀ b deadline, r = .pausing b deadline → .dialed now ∈ beats → now < deadline
  turning : ∀ b, r = .redialing b → ∀ before mid, beats = before ++ .dialed now :: mid →
    mid = [.gaveUp now] ∧ b = .begin policy now
  trying : ∀ b, r = .dialing b ∨ (∃ error, r = .excusing b error) →
    ∀ before mid, beats = before ++ .dialed now :: mid →
      mid = [] ∨ mid = [.gaveUp now, .dialed now] ∧ b = .begin policy now

section Pace

variable {policy : BackoffPolicy} {beats : List Beat} {now time : Instant} {r r' : ReceiverPhase}
  {s s' : State} {action : Action} {events : List Event}

lemma tempo_begin (hg : Growing policy) (now : Instant) :
    Tempo policy [] now (.redialing (.begin policy now)) := by
  refine ⟨⟨by simp, by simp⟩, rfl, fun b hb => ?_, nofun, nofun, nofun, by simp, by simp⟩
  cases hb
  exact fit_begin hg now

lemma beatOf_self (now : Instant) (r : ReceiverPhase) : beatOf now r r = none := by
  cases r <;> rfl

lemma beatOf_gone (now : Instant) (r : ReceiverPhase) (gone : r' = .closing ∨ r' = .stopped) :
    beatOf now r r' = none := by
  rcases gone with rfl | rfl <;> cases r <;> rfl

lemma spaced_dialed (h : Spaced beats)
    (hrested : ∀ time deadline, .slept time deadline ∈ beats → deadline ≤ now)
    (hlast : ∀ before mid, beats = before ++ .dialed now :: mid → mid = [.gaveUp now]) :
    Spaced (beats ++ [.dialed now]) := by
  constructor
  · intro before after time deadline he
    rcases cut_concat he with ⟨-, hlast, -⟩ | ⟨rest, rfl, hbefore⟩
    · cases hlast
    · obtain ⟨hpositive, hafter⟩ := h.sleeps before rest time deadline hbefore
      refine ⟨hpositive, fun t ht => ?_⟩
      rcases List.mem_append.mp ht with ht | ht
      · exact hafter t ht
      · cases List.mem_singleton.mp ht
        exact hrested time deadline (by simp [hbefore])
  · intro before mid after t he
    rcases cut_concat he with ⟨-, hnew, hbefore⟩ | ⟨rest, -, hbefore⟩
    · cases hnew
      exact hlast before mid hbefore
    · exact h.pairs before mid rest t hbefore

lemma spaced_other {beat : Beat} (h : Spaced beats) (hbeat : ∀ t, beat ≠ .dialed t)
    (hsleep : ∀ time deadline, beat = .slept time deadline → time < deadline) :
    Spaced (beats ++ [beat]) := by
  constructor
  · intro before after time deadline he
    rcases cut_concat he with ⟨rfl, hnew, -⟩ | ⟨rest, rfl, hbefore⟩
    · exact ⟨hsleep time deadline hnew, nofun⟩
    · obtain ⟨hpositive, hafter⟩ := h.sleeps before rest time deadline hbefore
      refine ⟨hpositive, fun t ht => ?_⟩
      rcases List.mem_append.mp ht with ht | ht
      · exact hafter t ht
      · exact absurd (List.mem_singleton.mp ht).symm (hbeat t)
  · intro before mid after t he
    rcases cut_concat he with ⟨-, hnew, -⟩ | ⟨rest, -, hbefore⟩
    · exact absurd hnew (hbeat t)
    · exact h.pairs before mid rest t hbefore

lemma tempo_wait (ht : Tempo policy beats now r) (hle : now ≤ time) :
    Tempo policy beats time r := by
  have hnow : ∀ before mid, beats = before ++ .dialed time :: mid → time = now := by
    intro before mid he
    exact Nat.le_antisymm (ht.past time (by simp [he])) hle
  refine ⟨ht.spaced, ht.redialing, ht.fit, fun t hmem => (ht.past t hmem).trans hle,
    fun start deadline hmem => (ht.rested start deadline hmem).imp_left (le_trans · hle),
    fun b deadline hr hmem => ?_, fun b hr before mid he => ?_, fun b hr before mid he => ?_⟩
  · obtain rfl : time = now := Nat.le_antisymm (ht.past time hmem) hle
    exact ht.waking b deadline hr hmem
  · obtain rfl := hnow before mid he
    exact ht.turning b hr before mid he
  · obtain rfl := hnow before mid he
    exact ht.trying b hr before mid he

lemma awake_rested {b : Backoff} (ht : Tempo policy beats now r) (hb : backoff? r = some b)
    (hr : pauses r = false) : ∀ time deadline, .slept time deadline ∈ beats → deadline ≤ now := by
  intro time deadline hmem
  rcases ht.rested time deadline hmem with h | ⟨_, rfl⟩ | hnone
  · exact h
  · cases hr
  · rw [hb] at hnone
    cases hnone

lemma tempo_dials {b : Backoff} (ht : Tempo policy beats now (.redialing b)) :
    Tempo policy (beats ++ [.dialed now]) now (.dialing b) := by
  have hrested := awake_rested ht rfl rfl
  refine ⟨spaced_dialed ht.spaced hrested fun before mid he => (ht.turning b rfl before mid he).1,
    rfl, ht.fit, fun t hmem => ?_, fun time deadline hmem => ?_, nofun, nofun,
    fun b' hb before mid he => ?_⟩
  · rcases List.mem_append.mp hmem with h | h
    · exact ht.past t h
    · cases List.mem_singleton.mp h
      exact le_rfl
  · rcases List.mem_append.mp hmem with h | h
    · exact .inl (hrested time deadline h)
    · cases List.mem_singleton.mp h
  · obtain rfl : b = b' := by
      rcases hb with hb | ⟨_, hb⟩ <;> cases hb
      rfl
    rcases cut_concat he with ⟨rfl, -, -⟩ | ⟨rest, rfl, hbefore⟩
    · exact .inl rfl
    · obtain ⟨rfl, hfresh⟩ := ht.turning b rfl before rest hbefore
      exact .inr ⟨rfl, hfresh⟩

lemma tempo_sleeps {b b' : Backoff} {error : LinkError} {draw : Draw} {delay : Duration}
    (hg : Growing policy) (ht : Tempo policy beats now (.excusing b error))
    (hasked : b.next now draw = (b', .ok (some delay))) :
    Tempo policy (beats ++ [.slept now (now + delay.nanos)]) now
      (.pausing b' (now + delay.nanos)) := by
  have hfit := ht.fit b rfl
  have hlater : now < now + delay.nanos := Nat.lt_add_of_pos_right (sleep_pos hg hfit hasked)
  refine ⟨spaced_other ht.spaced nofun ?_, rfl, ?_, fun t hmem => ?_, fun time deadline hmem => ?_,
    ?_, nofun, nofun⟩
  · intro time deadline he
    cases he
    exact hlater
  · intro b₁ hb
    cases hb
    exact fit_next hg hfit hasked
  · rcases List.mem_append.mp hmem with h | h
    · exact ht.past t h
    · cases List.mem_singleton.mp h
  · rcases List.mem_append.mp hmem with h | h
    · exact .inl (awake_rested ht rfl rfl time deadline h)
    · cases List.mem_singleton.mp h
      exact .inr (.inl ⟨b', rfl⟩)
  · intro b₁ deadline hr _
    cases hr
    exact hlater

lemma tempo_givesUp {b b' : Backoff} {error : LinkError} {draw : Draw} (hg : Growing policy)
    (hl : Lasting policy) (ht : Tempo policy beats now (.excusing b error))
    (hasked : b.next now draw = (b', .ok none)) :
    Tempo policy (beats ++ [.gaveUp now]) now (.redialing (b'.reset now)) := by
  have hfit := ht.fit b rfl
  have hfresh : b'.reset now = .begin policy now :=
    congrArg (Backoff.begin · now) (fit_next hg hfit hasked).1
  refine ⟨spaced_other ht.spaced nofun nofun, rfl, ?_, fun t hmem => ?_,
    fun time deadline hmem => ?_, nofun, fun b₁ hb before mid he => ?_, ?_⟩
  · intro b₁ hb
    cases hb
    rw [hfresh]
    exact fit_begin hg now
  · rcases List.mem_append.mp hmem with h | h
    · exact ht.past t h
    · cases List.mem_singleton.mp h
  · rcases List.mem_append.mp hmem with h | h
    · exact .inl (awake_rested ht rfl rfl time deadline h)
    · cases List.mem_singleton.mp h
  · cases hb
    rcases cut_concat he with ⟨-, hnew, -⟩ | ⟨rest, rfl, hbefore⟩
    · cases hnew
    · -- a backoff that was just started over does not give up
      rcases ht.trying b (.inr ⟨error, rfl⟩) before rest hbefore with rfl | ⟨-, rfl⟩
      · exact ⟨rfl, hfresh⟩
      · exact absurd hasked (first_granted hg hl)
  · rintro b₁ (hb | ⟨_, hb⟩) <;> cases hb

lemma tempo_fails {b : Backoff} (error : LinkError) (ht : Tempo policy beats now (.dialing b)) :
    Tempo policy beats now (.excusing b error) := by
  refine ⟨ht.spaced, rfl, ht.fit, ht.past,
    fun time deadline hmem => .inl (awake_rested ht rfl rfl time deadline hmem), nofun, nofun,
    fun b' hb => ?_⟩
  rcases hb with hb | ⟨_, hb⟩
  · cases hb
  · cases hb
    exact ht.trying b (.inl rfl)

lemma tempo_wakes {b : Backoff} {deadline : Instant}
    (ht : Tempo policy beats now (.pausing b deadline)) (hdue : deadline ≤ now) :
    Tempo policy beats now (.redialing b) := by
  refine ⟨ht.spaced, rfl, ht.fit, ht.past, fun time deadline' hmem => ?_, nofun,
    fun b' _ before mid he => ?_, ?_⟩
  · rcases ht.rested time deadline' hmem with h | ⟨_, h⟩ | h
    · exact .inl h
    · cases h
      exact .inl hdue
    · cases h
  · have hlater := ht.waking b deadline rfl (by simp [he])
    exact absurd hlater (Nat.not_lt.mpr hdue)
  · rintro b' (hb | ⟨_, hb⟩) <;> cases hb

lemma tempo_ended (ht : Tempo policy beats now r) (hredials : redials r' = true)
    (hnone : backoff? r' = none) : Tempo policy beats now r' := by
  have hno : ∀ b, backoff? r' ≠ some b := by
    intro b hb
    rw [hnone] at hb
    cases hb
  refine ⟨ht.spaced, hredials, fun b hb => absurd hb (hno b), ht.past,
    fun _ _ _ => .inr (.inr hnone), fun b _ hr => absurd (congrArg backoff? hr) (hno b),
    fun b hr => absurd (congrArg backoff? hr) (hno b), fun b hr => ?_⟩
  rcases hr with hr | ⟨_, hr⟩
  · exact absurd (congrArg backoff? hr) (hno b)
  · exact absurd (congrArg backoff? hr) (hno b)

lemma tempo_move (hg : Growing policy) (hl : Lasting policy)
    (ht : Tempo policy beats s.now s.receiver) (ha : action ≠ .dialed (.ok ()))
    (hm : ReceiverMove s action r') :
    Tempo policy (beats ++ (beatOf s.now s.receiver r').toList) s.now r' := by
  cases hm with
  | stays _ same =>
    rw [same] at ht ⊢
    rw [beatOf_self]
    simpa using ht
  | begins working =>
    rw [ht.redialing] at working
    cases working
  | works _ working =>
    rw [ht.redialing] at working
    cases working
  | dials b draw phase =>
    rw [phase] at ht ⊢
    exact tempo_dials ht
  | fails b error phase =>
    rw [phase] at ht ⊢
    change Tempo policy (beats ++ []) s.now _
    rw [List.append_nil]
    exact tempo_fails error ht
  | succeeds b phase act => exact absurd act ha
  | sleeps b b' error draw delay phase asked =>
    rw [phase] at ht ⊢
    exact tempo_sleeps hg ht asked
  | givesUp b b' error draw phase asked =>
    rw [phase] at ht ⊢
    exact tempo_givesUp hg hl ht asked
  | breaks b b' error draw fault phase asked =>
    have hquiet : beatOf s.now s.receiver (.broken fault) = none := by rw [phase]; rfl
    rw [hquiet, Option.toList_none, List.append_nil]
    exact tempo_ended ht rfl rfl
  | wakes b deadline phase due =>
    rw [phase] at ht ⊢
    change Tempo policy (beats ++ []) s.now _
    rw [List.append_nil]
    exact tempo_wakes ht due
  | leaves r' redialing gone =>
    rw [beatOf_gone _ _ gone, Option.toList_none, List.append_nil]
    rcases gone with rfl | rfl
    · exact tempo_ended ht rfl rfl
    · exact tempo_ended ht rfl rfl

end Pace

/-! ### Redials in a hurry -/

/-- Time passes in this visit only if the receiver sleeps. -/
def Hurried (w : Visit) : Prop := w.next.now = w.state.now ∨ pauses w.state.receiver = true

instance (w : Visit) : Decidable (Hurried w) := inferInstanceAs (Decidable (_ ∨ _))

/-- There is a sleep among the beats. -/
def Sleeps (beats : List Beat) : Prop := ∃ time deadline, .slept time deadline ∈ beats

/-- Whoever has not slept since a dial is still at the same instant, as was every dial since. -/
structure Awake (beats : List Beat) (now : Instant) : Prop where
  since : ∀ before t mid, beats = before ++ .dialed t :: mid → t = now ∨ Sleeps mid
  between : ∀ (before mid after : List Beat) (t t' : Instant),
    beats = before ++ .dialed t :: mid ++ .dialed t' :: after → t = t' ∨ Sleeps mid

/-- A receiver that sleeps has not dialed since. -/
def Asleep (beats : List Beat) (r : ReceiverPhase) : Prop :=
  pauses r = true → ∀ before t mid, beats = before ++ .dialed t :: mid → Sleeps mid

section Hurry

variable {beats more : List Beat} {now : Instant} {r r' : ReceiverPhase} {s s' : State}
  {action : Action} {events : List Event} {h : List Visit} {policy : BackoffPolicy}

lemma sleeps_append (hb : Sleeps beats) : Sleeps (beats ++ more) :=
  let ⟨time, deadline, hmem⟩ := hb
  ⟨time, deadline, List.mem_append_left _ hmem⟩

lemma beatOf_dialed {t : Instant} (hb : beatOf now r r' = some (.dialed t)) : t = now := by
  unfold beatOf at hb
  split at hb <;> cases hb
  rfl

lemma awake_concat {beat : Beat} (ha : Awake beats now) (hbeat : ∀ t, beat = .dialed t → t = now) :
    Awake (beats ++ [beat]) now := by
  constructor
  · intro before t mid he
    rcases cut_concat he with ⟨rfl, hnew, -⟩ | ⟨rest, rfl, hbefore⟩
    · exact .inl (hbeat t hnew)
    · exact (ha.since before t rest hbefore).imp_right sleeps_append
  · intro before mid after t t' he
    rcases cut_concat he with ⟨-, hnew, hbefore⟩ | ⟨rest, -, hbefore⟩
    · rw [hbeat t' hnew]
      exact ha.since before t mid hbefore
    · exact ha.between before mid rest t t' hbefore

lemma awake_beat (ha : Awake beats now) :
    Awake (beats ++ (beatOf now r r').toList) now := by
  cases hb : beatOf now r r' with
  | none => simpa using ha
  | some beat =>
    refine awake_concat ha fun t he => ?_
    rw [he] at hb
    exact beatOf_dialed hb

lemma not_pausing (hnone : backoff? r = none) : pauses r = false := by
  cases r with
  | pausing => cases hnone
  | _ => rfl

lemma asleep_move (ha : Asleep beats s.receiver) (hm : ReceiverMove s action r') :
    Asleep (beats ++ (beatOf s.now s.receiver r').toList) r' := by
  intro hpauses before t mid he
  cases hm with
  | stays _ same =>
    rw [same, beatOf_self, Option.toList_none, List.append_nil] at he
    exact ha (by rwa [same]) before t mid he
  | works _ _ plain =>
    rw [not_pausing (backoff_of_working plain).1] at hpauses
    cases hpauses
  | sleeps b₁ b₂ error draw delay phase =>
    rw [phase] at he
    rcases cut_concat he with ⟨-, hnew, -⟩ | ⟨rest, rfl, -⟩
    · cases hnew
    · exact ⟨_, _, List.mem_append_right _ (List.mem_singleton_self _)⟩
  | leaves _ _ gone => rcases gone with rfl | rfl <;> cases hpauses
  | begins | dials | fails | succeeds | givesUp | breaks | wakes => cases hpauses

end Hurry

/-! ### Runs of a redial -/

section Runs

variable {s s' : State} {action : Action} {actions : List Action} {events : List Event}
  {h : List Visit} {policy : BackoffPolicy}

lemma beatsOf_concat (h : List Visit) (w : Visit) : beatsOf (h ++ [w]) =
    beatsOf h ++ (beatOf w.state.now w.state.receiver w.next.receiver).toList := by
  rw [beatsOf, List.filterMap_append, ← beatsOf, List.filterMap_cons, List.filterMap_nil]
  cases beatOf w.state.now w.state.receiver w.next.receiver <;> rfl

lemma tempo_step (hg : Growing policy) (hl : Lasting policy)
    (ht : Tempo policy (beatsOf h) s.now s.receiver) (ha : action ≠ .dialed (.ok ()))
    (hs : s.step action = some (s', events)) :
    Tempo policy (beatsOf (h ++ [⟨s, action, s', events⟩])) s'.now s'.receiver := by
  rw [beatsOf_concat]
  rcases clock_or_move hs with ⟨hlater, hsame⟩ | ⟨hnow, hmove⟩
  · rw [hsame, beatOf_self, Option.toList_none, List.append_nil]
    exact tempo_wait ht hlater
  · rw [hnow]
    exact tempo_move hg hl ht ha hmove

lemma awake_step (ha : Awake (beatsOf h) s.now) (has : Asleep (beatsOf h) s.receiver)
    (hw : Hurried ⟨s, action, s', events⟩) (hs : s.step action = some (s', events)) :
    Awake (beatsOf (h ++ [⟨s, action, s', events⟩])) s'.now ∧
      Asleep (beatsOf (h ++ [⟨s, action, s', events⟩])) s'.receiver := by
  rw [beatsOf_concat]
  rcases clock_or_move hs with ⟨-, hsame⟩ | ⟨hnow, hmove⟩
  · rw [hsame, beatOf_self, Option.toList_none, List.append_nil]
    rcases hw with hnow | hpauses
    · replace hnow : s'.now = s.now := hnow
      rw [hnow]
      exact ⟨ha, has⟩
    · exact ⟨⟨fun before t mid he => .inr (has hpauses before t mid he), ha.between⟩, has⟩
  · rw [hnow]
    exact ⟨awake_beat ha, asleep_move has hmove⟩

lemma unanswered (hfailing : .dialed (.ok ()) ∉ actions) :
    ∀ w ∈ visitsOf s actions, w.action ≠ .dialed (.ok ()) := by
  intro w hw he
  rw [← he] at hfailing
  exact hfailing (action_mem hw)

/-- When a dial began. -/
def dialedAt? : Beat → Option Instant
  | .dialed time => some time
  | _ => none

lemma dialedAt_beatOf {now : Instant} {r r' : ReceiverPhase}
    (hno : ∀ b b', r = .redialing b → r' ≠ .dialing b') :
    (beatOf now r r').toList.filterMap dialedAt? = [] := by
  unfold beatOf
  split
  next b b' => exact absurd rfl (hno b b' rfl)
  all_goals rfl

lemma dials_shown (hr : s.run actions = some (s', events)) :
    (beatsOf (visitsOf s actions)).filterMap dialedAt? = dialTimes events := by
  rw [events_eq hr]
  refine visits_induction (P := fun h _ =>
    (beatsOf h).filterMap dialedAt? = dialTimes (h.flatMap (·.events))) rfl ?_ hr
  intro h s action s' events hh hs
  rw [beatsOf_concat, List.filterMap_append, hh, List.flatMap_append, dialTimes_append,
    List.flatMap_singleton]
  congr 1
  rcases dialTimes_step hs with ⟨b, hb, hb', hshown⟩ | ⟨hno, hshown⟩
  · rw [hshown, hb, hb']
    rfl
  · rw [hshown]
    exact dialedAt_beatOf hno

lemma count_dials (beats : List Beat) (t : Instant) :
    (beats.filterMap dialedAt?).count t = beats.count (.dialed t) := by
  rw [List.count_filterMap, List.count]
  congr 1
  funext beat
  cases beat <;> simp [dialedAt?]

/-- Two dials at an instant leave no room for a third one. -/
lemma dials_at_most_twice {beats : List Beat} (hs : Spaced beats) (t : Instant) :
    beats.count (.dialed t) ≤ 2 := by
  by_contra hmany
  rw [Nat.not_le] at hmany
  obtain ⟨before, rest, rfl, hbefore⟩ := List.eq_append_cons_of_mem
    (List.count_pos_iff.mp (Nat.zero_lt_of_lt hmany))
  rw [List.count_append, List.count_eq_zero_of_not_mem hbefore, List.count_cons_self] at hmany
  obtain ⟨mid, rest, rfl, hmid⟩ := List.eq_append_cons_of_mem
    (List.count_pos_iff.mp (show 0 < rest.count (.dialed t) by omega))
  rw [List.count_append, List.count_eq_zero_of_not_mem hmid, List.count_cons_self] at hmany
  obtain ⟨mid', after, rfl⟩ := List.append_of_mem
    (List.count_pos_iff.mp (show 0 < rest.count (.dialed t) by omega))
  have hlast := hs.pairs before (mid ++ .dialed t :: mid') after t (by simp)
  have hmem : Beat.dialed t ∈ [Beat.gaveUp t] := by
    rw [← hlast]
    simp
  cases List.mem_singleton.mp hmem

end Runs

/-- A redial whose dials fail does not spin. Its beats show all its dials. Whoever dials twice at
one instant has given up and started the backoff over in between, and done nothing else; so there is
no third dial at that instant. Every sleep takes time, and the next dial waits for its end. If time
passes only while the receiver sleeps, it sleeps between any dial and the second one after it. -/
theorem redial_pace (s : State) (actions : List Action) (s' : State) (events : List Event)
    (hgrowing : Growing s.config.backoff) (hlasting : Lasting s.config.backoff)
    (hfailing : .dialed (.ok ()) ∉ actions)
    (hrun : s.startRedial.run actions = some (s', events)) :
    let h := visitsOf s.startRedial actions
    (beatsOf h).filterMap dialedAt? = dialTimes events ∧
    (∀ (before mid after : List Beat) (t : Instant),
      beatsOf h = before ++ .dialed t :: mid ++ .dialed t :: after → mid = [.gaveUp t]) ∧
    (∀ t, (dialTimes events).count t ≤ 2) ∧
    (∀ (before after : List Beat) (time deadline : Instant),
      beatsOf h = before ++ .slept time deadline :: after →
      time < deadline ∧ ∀ t, .dialed t ∈ after → deadline ≤ t) ∧
    ((∀ w ∈ h, Hurried w) → ∀ (before mid mid' after : List Beat) (t t' t'' : Instant),
      beatsOf h = before ++ .dialed t :: mid ++ .dialed t' :: mid' ++ .dialed t'' :: after →
      ∃ time deadline, .slept time deadline ∈ mid ++ mid') := by
  intro h
  have htempo : Tempo s.config.backoff (beatsOf h) s'.now s'.receiver :=
    visits_induction_of (P := fun h s' => Tempo s.config.backoff (beatsOf h) s'.now s'.receiver)
      (tempo_begin hgrowing s.now)
      (fun _ _ _ _ _ ht hact hs => tempo_step hgrowing hlasting ht hact hs)
      (unanswered hfailing) hrun
  have hspaced := htempo.spaced
  have hawake (hhurried : ∀ w ∈ h, Hurried w) :
      Awake (beatsOf h) s'.now ∧ Asleep (beatsOf h) s'.receiver :=
    visits_induction_of
      (P := fun h s' => Awake (beatsOf h) s'.now ∧ Asleep (beatsOf h) s'.receiver)
      ⟨⟨by simp [beatsOf], by simp [beatsOf]⟩, by simp [Asleep, beatsOf]⟩
      (fun _ _ _ _ _ ha hw hs => awake_step ha.1 ha.2 hw hs) hhurried hrun
  refine ⟨dials_shown hrun, hspaced.pairs, ?_, hspaced.sleeps, ?_⟩
  · intro t
    rw [← dials_shown hrun, count_dials]
    exact dials_at_most_twice hspaced t
  · intro hhurried before mid mid' after t t' t'' he
    have hbetween := (hawake hhurried).1.between
    rcases hbetween before mid (mid' ++ .dialed t'' :: after) t t' (by simp [he]) with
      rfl | ⟨time, deadline, hmem⟩
    · rcases hbetween (before ++ .dialed t :: mid) mid' after t t'' he with
        rfl | ⟨time, deadline, hmem⟩
      · -- three dials at one instant
        have hlast := hspaced.pairs before (mid ++ .dialed t :: mid') after t (by simp [he])
        have hdial : Beat.dialed t ∈ [Beat.gaveUp t] := by
          rw [← hlast]
          simp
        cases List.mem_singleton.mp hdial
      · exact ⟨time, deadline, List.mem_append_right _ hmem⟩
    · exact ⟨time, deadline, List.mem_append_left _ hmem⟩

/-- A connection that has lost its first socket, and redials with this policy. -/
def lost (policy : BackoffPolicy) : State :=
  { State.start { config := { host := "inverter", backoff := policy } } 0 false with
    live := none, connected := false, released := [0] }

/-- A dial that is refused, and what the receiver makes of it. -/
def refusedDial : List Action :=
  [.stepReceiver 0, .dialed (.error (.connection ⟨.connectionRefused, none⟩)), .stepReceiver 0]

/-- The receiver sleeps until a time in milliseconds. -/
def sleepTo (millis : Nat) : List Action := [.wait (millis * nanosPerMilli), .stepReceiver 0]

/-- Three refused dials with two sleeps, a fresh backoff, and two more dials. -/
def refusedFourTimes : List Action :=
  refusedDial ++ sleepTo 10 ++ refusedDial ++ sleepTo 30 ++ refusedDial ++ refusedDial ++
    sleepTo 40 ++ [.stepReceiver 0]

/-- The backoff gives up after 30 ms, and the redial goes on at once, but only this time. -/
theorem fresh_backoff_dials_twice :
    Growing brief ∧ Lasting brief ∧ .dialed (.ok ()) ∉ refusedFourTimes ∧
      ∃ s' events, (lost brief).startRedial.run refusedFourTimes = some (s', events) ∧
        dialTimes events = [0, 10 * nanosPerMilli, 30 * nanosPerMilli, 30 * nanosPerMilli,
          40 * nanosPerMilli] ∧
        (∀ t, (dialTimes events).count t ≤ 2) ∧
        ∃ time deadline, .slept time deadline ∈
          [Beat.gaveUp (30 * nanosPerMilli)] ++
            [.slept (30 * nanosPerMilli) (40 * nanosPerMilli)] := by
  have hgrowing : Growing brief := by decide +kernel
  have hlasting : Lasting brief := by decide
  have hfailing : Action.dialed (.ok ()) ∉ refusedFourTimes := by
    simp [refusedFourTimes, refusedDial, sleepTo]
  have hclock : ∀ w ∈ visitsOf (lost brief).startRedial refusedFourTimes, Hurried w := by
    decide +kernel
  have hbeats : beatsOf (visitsOf (lost brief).startRedial refusedFourTimes) =
      [Beat.dialed 0, Beat.slept 0 (10 * nanosPerMilli), Beat.dialed (10 * nanosPerMilli),
        Beat.slept (10 * nanosPerMilli) (30 * nanosPerMilli)] ++
      Beat.dialed (30 * nanosPerMilli) :: [Beat.gaveUp (30 * nanosPerMilli)] ++
      Beat.dialed (30 * nanosPerMilli) ::
        [Beat.slept (30 * nanosPerMilli) (40 * nanosPerMilli)] ++
      Beat.dialed (40 * nanosPerMilli) :: [] := by decide +kernel
  have hsome : ((lost brief).startRedial.run refusedFourTimes).isSome = true := by decide +kernel
  obtain ⟨⟨s', events⟩, hrun⟩ := Option.isSome_iff_exists.mp hsome
  obtain ⟨hdials, -, htwice, -, hslept⟩ :=
    redial_pace (lost brief) refusedFourTimes s' events hgrowing hlasting hfailing hrun
  have hsleep := hslept hclock _ _ _ _ _ _ _ hbeats
  refine ⟨hgrowing, hlasting, hfailing, s', events, hrun, ?_, htwice, hsleep⟩
  rw [← hdials, hbeats]
  rfl

/-! ### A time too short for the first delay -/

/-- A redial that has never slept, and has a backoff that was not asked before. -/
structure Restless (policy : BackoffPolicy) (beats : List Beat) (r : ReceiverPhase) : Prop where
  redialing : redials r = true
  fresh : ∀ b, backoff? r = some b → ∃ start, b = .begin policy start
  unslept : ¬ Sleeps beats

lemma restless_move {policy : BackoffPolicy} {beats : List Beat} {s : State} {action : Action}
    {r' : ReceiverPhase} (hplain : Unspread policy) (hshort : ¬ Lasting policy)
    (ht : Restless policy beats s.receiver) (ha : action ≠ .dialed (.ok ()))
    (hm : ReceiverMove s action r') :
    Restless policy (beats ++ (beatOf s.now s.receiver r').toList) r' := by
  have hquiet : ∀ beat, (∀ time deadline, beat ≠ .slept time deadline) →
      ¬ Sleeps (beats ++ [beat]) := by
    rintro beat hbeat ⟨time, deadline, hmem⟩
    rcases List.mem_append.mp hmem with h | h
    · exact ht.unslept ⟨time, deadline, h⟩
    · exact hbeat time deadline (List.mem_singleton.mp h).symm
  have hstill : ¬ Sleeps (beats ++ []) := by
    rw [List.append_nil]
    exact ht.unslept
  have hfresh := ht.fresh
  cases hm with
  | stays _ same =>
    rw [same] at ht ⊢
    rw [beatOf_self]
    exact ⟨ht.redialing, ht.fresh, hstill⟩
  | begins working =>
    rw [ht.redialing] at working
    cases working
  | works _ working =>
    rw [ht.redialing] at working
    cases working
  | dials b draw phase =>
    rw [phase] at hfresh ⊢
    exact ⟨rfl, hfresh, hquiet _ nofun⟩
  | fails b error phase =>
    rw [phase] at hfresh ⊢
    exact ⟨rfl, hfresh, hstill⟩
  | succeeds b phase act => exact absurd act ha
  | sleeps b b' error draw delay phase asked =>
    rw [phase] at hfresh
    obtain ⟨start, rfl⟩ := hfresh b rfl
    exact absurd asked (first_refused hplain hshort)
  | givesUp b b' error draw phase asked =>
    rw [phase] at hfresh ⊢
    obtain ⟨start, rfl⟩ := hfresh b rfl
    have hpolicy : b'.policy = policy := (asked_series (asked_of_next asked)).1
    refine ⟨rfl, fun b hb => ⟨s.now, ?_⟩, hquiet _ nofun⟩
    cases hb
    rw [Backoff.reset, hpolicy]
  | breaks b b' error draw fault phase asked =>
    rw [phase]
    exact ⟨rfl, nofun, hstill⟩
  | wakes b deadline phase due =>
    rw [phase] at hfresh ⊢
    exact ⟨rfl, hfresh, hstill⟩
  | leaves r' redialing gone =>
    rw [beatOf_gone _ _ gone]
    rcases gone with rfl | rfl
    · exact ⟨rfl, nofun, hstill⟩
    · exact ⟨rfl, nofun, hstill⟩

/-- If the first delay does not fit into the time of the backoff, a redial never sleeps: after every
dial that fails it gives up and goes on at once. -/
theorem redial_never_sleeps (s : State) (actions : List Action) (s' : State) (events : List Event)
    (hplain : Unspread s.config.backoff) (hshort : ¬ Lasting s.config.backoff)
    (hfailing : .dialed (.ok ()) ∉ actions)
    (hrun : s.startRedial.run actions = some (s', events)) :
    ¬ Sleeps (beatsOf (visitsOf s.startRedial actions)) := by
  have hrestless : Restless s.config.backoff (beatsOf (visitsOf s.startRedial actions))
      s'.receiver := by
    refine visits_induction_of
      (P := fun h s' => Restless s.config.backoff (beatsOf h) s'.receiver) ⟨rfl, ?_, nofun⟩ ?_
      (unanswered hfailing) hrun
    · intro b hb
      cases hb
      exact ⟨s.now, rfl⟩
    · intro h s₁ action s₂ shown ht hact hs
      rw [beatsOf_concat]
      exact restless_move hplain hshort ht hact (receiverMove_step hs)
  exact hrestless.unslept

/-- The first delay is half a second, and the time of a series five milliseconds. -/
def impatient : BackoffPolicy :=
  { randomizationFactor := .zero, maxElapsedTime := .ofMillis 5 }

/-- Three dials at one instant, with nothing between them but fresh backoffs. -/
theorem short_time_spins :
    Growing impatient ∧ .dialed (.ok ()) ∉ refusedDial ++ refusedDial ++ refusedDial ∧
      ∃ s' events, (lost impatient).startRedial.run (refusedDial ++ refusedDial ++ refusedDial) =
          some (s', events) ∧
        dialTimes events = [0, 0, 0] ∧
        beatsOf (visitsOf (lost impatient).startRedial
          (refusedDial ++ refusedDial ++ refusedDial)) =
          [.dialed 0, .gaveUp 0, .dialed 0, .gaveUp 0, .dialed 0, .gaveUp 0] := by
  have hgrowing : Growing impatient := by decide +kernel
  have hdials : ((lost impatient).startRedial.run (refusedDial ++ refusedDial ++ refusedDial)).map
      (fun r => dialTimes r.2) = some [0, 0, 0] := by decide +kernel
  obtain ⟨⟨s', events⟩, hrun, htimes⟩ := Option.map_eq_some_iff.mp hdials
  refine ⟨hgrowing, by simp [refusedDial], s', events, hrun, htimes, ?_⟩
  decide +kernel

end InverterLink.Proofs
