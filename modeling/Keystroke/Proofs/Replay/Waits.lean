import Keystroke.Proofs.Binary64
import Keystroke.Proofs.Feed
import Keystroke.Replay

namespace Keystroke

namespace Speed

def positive : Speed → Bool
  | whole n => 0 < n
  | real x => x.positive

def isNaN : Speed → Bool
  | whole _ => false
  | real x => x.isNaN

def value? : Speed → Option Binary64
  | whole n => Binary64.ofInt? n
  | real x => some x

theorem positive_of_value? {speed : Speed} (hs : speed.positive = true) {x : Binary64}
    (h : speed.value? = some x) : x.positive = true := by
  cases speed with
  | whole n => exact Binary64.positive_of_ofInt? (of_decide_eq_true hs) h
  | real y =>
      cases h
      exact hs

theorem nonpositive_eq_false_iff {speed : Speed} :
    speed.nonpositive = false ↔ speed.positive = true ∨ speed.isNaN = true := by
  cases speed with
  | whole n => simp [nonpositive, positive, isNaN]
  | real x => exact Binary64.nonpositive_eq_false_iff

theorem exists_nan {speed : Speed} (h : speed.isNaN = true) :
    ∃ negative, speed = .real (.nan negative) := by
  cases speed with
  | whole n => cases h
  | real x =>
      cases x with
      | nan negative => exact ⟨negative, rfl⟩
      | infinite | finite => cases h

end Speed

theorem Replayer.make_eq_ok_iff {events : List Event} {speed : Speed} {r : Replayer} :
    make events speed = .ok r ↔ r.events = events ∧ r.speed = speed := by
  rw [make]
  constructor
  · intro h
    split at h
    · cases h
      exact ⟨rfl, rfl⟩
    · cases h
  · rintro ⟨rfl, rfl⟩
    rw [dif_pos r.speed_ok]

theorem Replayer.exists_make (events : List Event) {speed : Speed} (hs : speed.positive = true) :
    ∃ r, make events speed = .ok r := by
  have h := Speed.nonpositive_eq_false_iff.2 (.inl hs)
  exact ⟨⟨events, speed, h⟩, make_eq_ok_iff.2 ⟨rfl, rfl⟩⟩

namespace Replay

/-- The milliseconds from one event to the next. Time that goes backwards counts as none. -/
def gap (a b : Event) : Nat := (b.time - a.time).toNat

theorem wait_of_tooLarge {speed : Speed} {n : Nat} (h : Binary64.ofQuotient? false n 1000 = none) :
    wait speed n = .error .gapTooLarge := by
  simp only [wait, h]

/-- What a wait can come to: the gap in seconds, rounded, by the speed, or one of two failures. -/
theorem wait_cases (speed : Speed) (n : Nat) :
    (∃ r x, speed.value? = some x ∧ wait speed n = .ok (.finite false r / x)) ∨
      wait speed n = .error .gapTooLarge ∨ wait speed n = .error .speedTooLarge := by
  cases hq : Binary64.ofQuotient? false n 1000 with
  | none => exact .inr (.inl (wait_of_tooLarge hq))
  | some seconds =>
      obtain ⟨r, -, rfl⟩ := Binary64.exists_of_ofRank? hq
      cases speed with
      | real x => exact .inl ⟨r, x, rfl, by simp only [wait, hq]⟩
      | whole z =>
          cases hz : Binary64.ofInt? z with
          | none => exact .inr (.inr (by simp only [wait, hq, hz]))
          | some x => exact .inl ⟨r, x, hz, by simp only [wait, hq, hz]⟩

theorem eq_tooLarge_of_wait {speed : Speed} {n : Nat} {error : Error} (h : wait speed n = .error error) :
    error = .gapTooLarge ∨ error = .speedTooLarge := by
  rcases wait_cases speed n with ⟨r, x, -, hw⟩ | hw | hw
  · rw [hw] at h
    cases h
  · rw [hw] at h
    cases h
    exact .inl rfl
  · rw [hw] at h
    cases h
    exact .inr rfl

theorem nonnegative_of_wait {speed : Speed} (hs : speed.positive = true) {n : Nat} {w : Binary64}
    (h : wait speed n = .ok w) : w.nonnegative = true := by
  rcases wait_cases speed n with ⟨r, x, hx, hw⟩ | hw | hw
  · rw [hw] at h
    cases h
    exact Binary64.nonnegative_div (Speed.positive_of_value? hs hx)
  · rw [hw] at h
    cases h
  · rw [hw] at h
    cases h

theorem wait_nan {negative : Bool} {n : Nat} {seconds : Binary64}
    (h : Binary64.ofQuotient? false n 1000 = some seconds) :
    wait (.real (.nan negative)) n = .ok (.nan negative) := by
  obtain ⟨r, -, rfl⟩ := Binary64.exists_of_ofRank? h
  simp only [wait, h]
  rfl

section

variable {speed : Speed} {a b : Event}

theorem stepsAfter_of_error {error : Error} (h : wait speed (gap a b) = .error error) (es : List Event) :
    stepsAfter speed a.time (b :: es) = ⟨[], some error⟩ := by
  rw [gap] at h
  simp only [stepsAfter, h]

theorem stepsAfter_of_nan {w : Binary64} (h : wait speed (gap a b) = .ok w) (hw : w.isNaN = true)
    (es : List Event) : stepsAfter speed a.time (b :: es) = ⟨[.wait w], some .waitIsNaN⟩ := by
  rw [gap] at h
  simp only [stepsAfter, h, if_pos hw]

theorem stepsAfter_of_ok {w : Binary64} (h : wait speed (gap a b) = .ok w) (hw : w.isNaN = false)
    (es : List Event) :
    stepsAfter speed a.time (b :: es) = (steps speed (b :: es)).cons (.wait w) := by
  rw [gap] at h
  simp only [stepsAfter, h, hw, Bool.false_eq_true, if_false, steps]

end

structure Usable (f : Feed Step Error) : Prop where
  waits : ∀ w, .wait w ∈ f.items → w.isNaN = false ∧ w.nonnegative = true
  failure : ∀ error ∈ f.failure, error = .gapTooLarge ∨ error = .speedTooLarge

theorem usable_nil : Usable ⟨[], none⟩ := ⟨nofun, nofun⟩

theorem Usable.cons_event {f : Feed Step Error} (h : Usable f) (e : Event) :
    Usable (f.cons (.event e)) where
  waits w hw := by
    rcases List.mem_cons.1 hw with hw | hw
    · cases hw
    · exact h.waits w hw
  failure := h.failure

theorem Usable.cons_wait {f : Feed Step Error} (h : Usable f) {w : Binary64}
    (hw : w.nonnegative = true) : Usable (f.cons (.wait w)) where
  waits x hx := by
    rcases List.mem_cons.1 hx with hx | hx
    · cases hx
      exact ⟨Binary64.isNaN_of_nonnegative hw, hw⟩
    · exact h.waits x hx
  failure := h.failure

theorem Usable.stopAfter {f : Feed Step Error} (h : Usable f) (n : Option Nat) :
    Usable (f.stopAfter Step.isEvent n) := by
  rcases Feed.stopAfter_cases Step.isEvent n f with hf | ⟨items, hp, hf⟩
  · rwa [hf]
  · rw [hf]
    exact ⟨fun w hw => h.waits w (hp.subset hw), nofun⟩

theorem usable_stepsAfter {speed : Speed} (hs : speed.positive = true) (a : Event) (es : List Event) :
    Usable (stepsAfter speed a.time es) := by
  induction es generalizing a with
  | nil => exact usable_nil
  | cons b es ih =>
      cases hw : wait speed (gap a b) with
      | error error =>
          rw [stepsAfter_of_error hw]
          exact ⟨nofun, by rintro _ ⟨⟩; exact eq_tooLarge_of_wait hw⟩
      | ok w =>
          have hn := nonnegative_of_wait hs hw
          rw [stepsAfter_of_ok hw (Binary64.isNaN_of_nonnegative hn)]
          exact ((ih b).cons_event b).cons_wait hn

theorem usable_steps {speed : Speed} (hs : speed.positive = true) (es : List Event) :
    Usable (steps speed es) := by
  cases es with
  | nil => exact usable_nil
  | cons a es => exact (usable_stepsAfter hs a es).cons_event a

def ReachesGap (events : List Event) (taken : Option Nat) : Prop :=
  (∀ n ∈ taken, 2 ≤ n) ∧ ∃ a b rest seconds, events = a :: b :: rest ∧
    Binary64.ofQuotient? false (gap a b) 1000 = some seconds

theorem steps_nan {a b : Event} {seconds : Binary64} {negative : Bool}
    (h : Binary64.ofQuotient? false (gap a b) 1000 = some seconds) (rest : List Event) :
    steps (.real (.nan negative)) (a :: b :: rest) =
      ⟨[.event a, .wait (.nan negative)], some .waitIsNaN⟩ := by
  rw [steps, stepsAfter_of_nan (wait_nan h) rfl]
  rfl

theorem stopAfter_nan {a b : Event} {rest : List Event} {seconds : Binary64} {negative : Bool}
    {taken : Option Nat} (hq : Binary64.ofQuotient? false (gap a b) 1000 = some seconds)
    (ht : ∀ n ∈ taken, 2 ≤ n) :
    (steps (.real (.nan negative)) (a :: b :: rest)).stopAfter Step.isEvent taken =
      ⟨[.event a, .wait (.nan negative)], some .waitIsNaN⟩ := by
  rw [steps_nan hq]
  cases taken with
  | none => rfl
  | some n => exact Feed.stopAfter_of_countP_lt (ht n rfl)

theorem usable_of_not_reachesGap {speed : Speed} (hs : speed.isNaN = true) {events : List Event}
    {taken : Option Nat} (h : ¬ ReachesGap events taken) :
    Usable ((steps speed events).stopAfter Step.isEvent taken) := by
  rcases events with _ | ⟨a, _ | ⟨b, rest⟩⟩
  · exact usable_nil.stopAfter taken
  · exact (usable_nil.cons_event a).stopAfter taken
  -- There is a second event, so its gap is too large or the consumer stops before its wait.
  cases hq : Binary64.ofQuotient? false (gap a b) 1000 with
  | none =>
      rw [steps, stepsAfter_of_error (wait_of_tooLarge hq)]
      have hf : Usable ⟨[], some .gapTooLarge⟩ := ⟨nofun, by rintro _ ⟨⟩; exact .inl rfl⟩
      exact (hf.cons_event a).stopAfter taken
  | some seconds =>
      have hreach : (∀ n ∈ taken, 2 ≤ n) → ReachesGap (a :: b :: rest) taken :=
        fun ht => ⟨ht, a, b, rest, seconds, rfl, hq⟩
      obtain ⟨negative, rfl⟩ := Speed.exists_nan hs
      rw [steps_nan hq]
      rcases taken with _ | _ | _ | n
      · exact absurd (hreach nofun) h
      · exact usable_nil
      · exact usable_nil.cons_event a
      · exact absurd (hreach (by rintro _ ⟨⟩; omega)) h

end Replay

open Replay

/-- A speed that a replayer accepts is usable, wherever its consumer stops, unless it is a NaN and a wait is
computed from it. This wait is a NaN as well, and it fails. -/
theorem Replayer.stepsUpTo_usable_iff {events : List Event} {speed : Speed} {r : Replayer}
    (h : make events speed = .ok r) (taken : Option Nat) :
    (Usable (r.stepsUpTo taken) ↔ ¬ (speed.isNaN = true ∧ ReachesGap events taken)) ∧
      (speed.isNaN = true → ReachesGap events taken →
        ∃ first negative, events.head? = some first ∧ r.stepsUpTo taken =
          ⟨[.event first, .wait (.nan negative)], some .waitIsNaN⟩) := by
  obtain ⟨rfl, rfl⟩ := make_eq_ok_iff.1 h
  have hnan : r.speed.isNaN = true → ReachesGap r.events taken →
      ∃ first negative, r.events.head? = some first ∧ r.stepsUpTo taken =
        ⟨[.event first, .wait (.nan negative)], some .waitIsNaN⟩ := by
    rintro hs ⟨ht, a, b, rest, seconds, he, hq⟩
    obtain ⟨negative, hspeed⟩ := Speed.exists_nan hs
    refine ⟨a, negative, by rw [he]; rfl, ?_⟩
    rw [stepsUpTo, Replayer.steps, hspeed, he]
    exact stopAfter_nan hq ht
  refine ⟨⟨?_, ?_⟩, hnan⟩
  · rintro hu ⟨hs, hr⟩
    obtain ⟨a, negative, -, he⟩ := hnan hs hr
    rcases hu.failure .waitIsNaN (by rw [he]; rfl) with hw | hw <;> cases hw
  · intro hn
    rcases Speed.nonpositive_eq_false_iff.1 r.speed_ok with hs | hs
    · exact (usable_steps hs r.events).stopAfter taken
    · exact usable_of_not_reachesGap hs fun hr => hn ⟨hs, hr⟩

def twoPresses : List Event :=
  [⟨2401, 0, 0, 0, 65, Event.noChar, 0, none⟩, ⟨2401, 1000, 0, 0, 65, Event.noChar, 0, none⟩]

theorem ofQuotient?_second : Binary64.ofQuotient? false 1000 1000 = some .one := by decide +kernel

/-- At the least speed there is the wait has no end, and it is usable. At a NaN it is not. -/
theorem Replayer.stepsUpTo_usable_twoPresses :
    (∃ r, make twoPresses (.real (.finite false ⟨1, by decide⟩)) = .ok r ∧
      .wait (.infinite false) ∈ (r.stepsUpTo (some 2)).items ∧ Usable (r.stepsUpTo (some 2))) ∧
    ∃ r, make twoPresses (.real (.nan true)) = .ok r ∧ ReachesGap twoPresses (some 2) ∧
      ¬ Usable (r.stepsUpTo (some 2)) := by
  have hreach : ReachesGap twoPresses (some 2) :=
    ⟨by rintro _ ⟨⟩; exact Nat.le_refl 2, _, _, _, _, rfl, ofQuotient?_second⟩
  constructor
  · have hmake : make twoPresses (.real (.finite false ⟨1, by decide⟩)) =
        .ok ⟨twoPresses, .real (.finite false ⟨1, by decide⟩), rfl⟩ := rfl
    refine ⟨_, hmake, by decide +kernel, (stepsUpTo_usable_iff hmake _).1.2 ?_⟩
    rintro ⟨hn, -⟩
    cases hn
  · have hmake : make twoPresses (.real (.nan true)) = .ok ⟨twoPresses, .real (.nan true), rfl⟩ := rfl
    exact ⟨_, hmake, hreach, fun hu => (stepsUpTo_usable_iff hmake _).1.1 hu ⟨rfl, hreach⟩⟩

/-- A NaN is accepted as a speed, and the wait before a second event is a NaN that fails. -/
theorem Replayer.make_nan :
    ∃ first second r, Event.pressed 65 0 = .ok first ∧ Event.pressed 65 1000 = .ok second ∧
      make [first, second] (.real (.nan false)) = .ok r ∧
      .wait (.nan false) ∈ (r.stepsUpTo none).items ∧
      (r.stepsUpTo none).failure = some .waitIsNaN := by
  refine ⟨_, _, ⟨twoPresses, .real (.nan false), rfl⟩, rfl, rfl, rfl, ?_⟩
  have h : Replayer.stepsUpTo ⟨twoPresses, .real (.nan false), rfl⟩ none =
      ⟨[.event _, .wait (.nan false)], some .waitIsNaN⟩ :=
    stopAfter_nan ofQuotient?_second nofun
  rw [h]
  exact ⟨by simp, rfl⟩

end Keystroke
