import Keystroke.Proofs.Replay.Waits
import Keystroke.Proofs.Result

namespace Keystroke

def Event.shifted (shift : Int) (e : Event) : Event := { e with time := e.time + shift }

namespace Replay

namespace Step

def event? : Step → Option Event
  | wait _ => none
  | event e => some e

def wait? : Step → Option Binary64
  | wait seconds => some seconds
  | event _ => none

def shifted (shift : Int) : Step → Step
  | wait seconds => wait seconds
  | event e => event (e.shifted shift)

@[simp] theorem event?_wait (w : Binary64) : event? (wait w) = none := rfl
@[simp] theorem event?_event (e : Event) : event? (event e) = some e := rfl
@[simp] theorem wait?_wait (w : Binary64) : wait? (wait w) = some w := rfl
@[simp] theorem wait?_event (e : Event) : wait? (event e) = none := rfl
@[simp] theorem isEvent_wait (w : Binary64) : isEvent (wait w) = false := rfl
@[simp] theorem isEvent_event (e : Event) : isEvent (event e) = true := rfl

end Step

def gaps (events : List Event) : List Nat := List.zipWith gap events events.tail

def total : List Nat → Nat
  | [] => 0
  | n :: ns => n + total ns

def Waitable (speed : Speed) (events : List Event) : Prop :=
  ∀ n ∈ gaps events, ∃ w, wait speed n = .ok w

/-- The wait before the event with this number, counted from zero, is the first that cannot be computed. -/
structure FailsBefore (speed : Speed) (events : List Event) (number : Nat) (error : Error) : Prop where
  before : Waitable speed (events.take number)
  fails : ∃ k n, number = k + 1 ∧ (gaps events)[k]? = some n ∧ wait speed n = .error error

/-- Events in order, and between each and the next the one wait for their gap. -/
structure Paced (speed : Speed) (events : List Event) (steps : List Step) : Prop where
  length : steps.length = 2 * events.length - 1
  event : ∀ i e, events[i]? = some e → steps[2 * i]? = some (.event e)
  wait : ∀ i n, (gaps events)[i]? = some n →
    ∃ w, Replay.wait speed n = .ok w ∧ steps[2 * i + 1]? = some (.wait w)
  events_eq : steps.filterMap Step.event? = events
  length_waits : (steps.filterMap Step.wait?).length = events.length - 1

inductive Delivers (speed : Speed) : List Event → List Step → Prop
  | nil : Delivers speed [] []
  | single (e : Event) : Delivers speed [e] [.event e]
  | cons {a b : Event} {es : List Event} {steps : List Step} {w : Binary64}
      (hw : wait speed (gap a b) = .ok w) (h : Delivers speed (b :: es) steps) :
      Delivers speed (a :: b :: es) (.event a :: .wait w :: steps)

variable {speed : Speed} {events : List Event}

theorem gaps_cons (a b : Event) (es : List Event) : gaps (a :: b :: es) = gap a b :: gaps (b :: es) :=
  rfl

theorem waitable_cons {a b : Event} {es : List Event} :
    Waitable speed (a :: b :: es) ↔
      (∃ w, wait speed (gap a b) = .ok w) ∧ Waitable speed (b :: es) := by
  rw [Waitable, gaps_cons, List.forall_mem_cons, Waitable]

theorem waitable_pair {a b : Event} {w : Binary64} (h : wait speed (gap a b) = .ok w) :
    Waitable speed [a, b] :=
  waitable_cons.2 ⟨⟨w, h⟩, nofun⟩

theorem exists_delivers (h : Waitable speed events) : ∃ steps, Delivers speed events steps := by
  induction events with
  | nil => exact ⟨_, .nil⟩
  | cons a es ih =>
      cases es with
      | nil => exact ⟨_, .single a⟩
      | cons b es =>
          obtain ⟨⟨w, hw⟩, h⟩ := waitable_cons.1 h
          obtain ⟨steps, hd⟩ := ih h
          exact ⟨_, .cons hw hd⟩

theorem Delivers.paced {steps : List Step} (h : Delivers speed events steps) :
    Paced speed events steps := by
  induction h with
  | nil => exact ⟨rfl, by simp, by simp [gaps], rfl, rfl⟩
  | single e =>
      refine ⟨rfl, fun i x hi => ?_, by simp [gaps], rfl, rfl⟩
      cases i with
      | zero => simpa using hi
      | succ i => simp at hi
  | @cons a b es steps w hw _ ih =>
      constructor
      · have := ih.length
        simp only [List.length_cons] at this ⊢
        omega
      · intro i e hi
        cases i with
        | zero => simpa using hi
        | succ i => simpa [Nat.mul_succ] using ih.event i e (by simpa using hi)
      · intro i n hi
        rw [gaps_cons] at hi
        cases i with
        | zero =>
            cases hi
            exact ⟨w, hw, rfl⟩
        | succ i => simpa [Nat.mul_succ] using ih.wait i n (by simpa using hi)
      · simpa [List.filterMap_cons] using ih.events_eq
      · simpa [List.filterMap_cons] using ih.length_waits

theorem Delivers.countP {steps : List Step} (h : Delivers speed events steps) :
    steps.countP Step.isEvent = events.length := by
  induction h with
  | nil | single => rfl
  | cons _ _ ih => simpa [List.countP_cons] using ih

theorem Delivers.upTo? {steps : List Step} (h : Delivers speed events steps) :
    Feed.upTo? Step.isEvent events.length steps = some steps := by
  induction h with
  | nil | single => rfl
  | @cons a b es steps w _ _ ih =>
      change (Feed.upTo? Step.isEvent (b :: es).length (.wait w :: steps)).map _ = _
      rw [List.length_cons] at ih ⊢
      rw [Feed.upTo?, Step.isEvent_wait, if_neg Bool.false_ne_true, ih]
      rfl

theorem Delivers.steps_append {a : Event} {es : List Event} {done : List Step}
    (h : Delivers speed (a :: es) done) (hs : speed.positive = true) (rest : List Event) :
    ∃ last, (a :: es).getLast? = some last ∧ steps speed (a :: es ++ rest) =
      ⟨done ++ (stepsAfter speed last.time rest).items, (stepsAfter speed last.time rest).failure⟩ := by
  -- Along the delivered events; the time that is carried on is that of the last of them.
  induction es generalizing a done with
  | nil =>
      cases h
      exact ⟨a, rfl, rfl⟩
  | cons b es ih =>
      cases h with
      | cons hw h =>
          obtain ⟨last, hl, ih⟩ := ih h
          refine ⟨last, by rw [List.getLast?_cons_cons, hl], ?_⟩
          have hn := Binary64.isNaN_of_nonnegative (nonnegative_of_wait hs hw)
          rw [List.cons_append, List.cons_append, steps, stepsAfter_of_ok hw hn, ← List.cons_append, ih]
          rfl

theorem Delivers.exists_more {done : List Step} (h : Delivers speed events done)
    (hs : speed.positive = true) (rest : List Event) :
    ∃ more, (steps speed (events ++ rest)).items = done ++ more := by
  cases events with
  | nil =>
      cases h
      exact ⟨_, rfl⟩
  | cons a es =>
      obtain ⟨last, -, he⟩ := h.steps_append hs rest
      exact ⟨_, by rw [he]⟩

theorem Delivers.steps_eq {done : List Step} (h : Delivers speed events done)
    (hs : speed.positive = true) : steps speed events = ⟨done, none⟩ := by
  cases events with
  | nil =>
      cases h
      rfl
  | cons a es =>
      obtain ⟨last, -, he⟩ := h.steps_append hs []
      rw [List.append_nil] at he
      rw [he, stepsAfter, List.append_nil]

theorem Delivers.stopAfter {t : Nat} {done : List Step} (h : Delivers speed (events.take t) done)
    (hs : speed.positive = true) :
    (steps speed events).stopAfter Step.isEvent (some t) = ⟨done, none⟩ := by
  rcases Nat.lt_or_ge events.length t with ht | ht
  · rw [List.take_of_length_le (Nat.le_of_lt ht)] at h
    rw [h.steps_eq hs]
    exact Feed.stopAfter_of_countP_lt (by rwa [h.countP])
  · obtain ⟨more, he⟩ := h.exists_more hs (events.drop t)
    rw [List.take_append_drop] at he
    have hu := h.upTo?
    rw [List.length_take_of_le ht] at hu
    exact Feed.stopAfter_of_upTo? (by rw [he]; exact Feed.upTo?_append hu more)

theorem getElem?_gaps {k n : Nat} (h : (gaps events)[k]? = some n) :
    ∃ a b, events[k]? = some a ∧ events[k + 1]? = some b ∧ gap a b = n := by
  obtain ⟨a, b, ha, hb, hn⟩ := List.getElem?_zipWith_eq_some.1 h
  exact ⟨a, b, ha, by rwa [List.getElem?_tail] at hb, hn⟩

theorem FailsBefore.lt_length {k : Nat} {error : Error} (h : FailsBefore speed events k error) :
    k < events.length := by
  obtain ⟨-, k, n, rfl, hn, -⟩ := h
  obtain ⟨a, b, -, hb, -⟩ := getElem?_gaps hn
  exact (List.getElem?_eq_some_iff.1 hb).1

theorem FailsBefore.steps_eq {k : Nat} {error : Error} (h : FailsBefore speed events k error)
    {done : List Step} (hd : Delivers speed (events.take k) done) (hs : speed.positive = true) :
    steps speed events = ⟨done, some error⟩ := by
  obtain ⟨-, k, n, rfl, hn, hw⟩ := h
  obtain ⟨a, b, ha, hb, rfl⟩ := getElem?_gaps hn
  obtain ⟨hk, rfl⟩ := List.getElem?_eq_some_iff.1 hb
  -- The events are cut before `b`: all in front of it are delivered, and the wait from `a` fails.
  have hdrop := List.drop_eq_getElem_cons hk
  have hlast : (events.take (k + 1)).getLast? = some a := by
    rw [List.getLast?_take, if_neg (Nat.succ_ne_zero k), Nat.add_sub_cancel, ha]
    rfl
  cases hfront : events.take (k + 1) with
  | nil =>
      rw [hfront] at hlast
      cases hlast
  | cons first es =>
      rw [hfront] at hd hlast
      obtain ⟨last, hl, he⟩ := hd.steps_append hs (events.drop (k + 1))
      rw [hlast] at hl
      cases hl
      rw [← hfront, List.take_append_drop, hdrop, stepsAfter_of_error hw, List.append_nil] at he
      exact he

theorem waitable_or_failsBefore (speed : Speed) (events : List Event) :
    Waitable speed events ∨ ∃ k error, FailsBefore speed events k error := by
  induction events with
  | nil => exact .inl nofun
  | cons a es ih =>
      cases es with
      | nil => exact .inl nofun
      | cons b es =>
          cases hw : wait speed (gap a b) with
          | error error => exact .inr ⟨1, error, nofun, 0, gap a b, rfl, rfl, hw⟩
          | ok w =>
              rcases ih with ih | ⟨_, error, hb, k, n, rfl, hn, he⟩
              · exact .inl (waitable_cons.2 ⟨⟨w, hw⟩, ih⟩)
              · exact .inr ⟨k + 2, error, waitable_cons.2 ⟨⟨w, hw⟩, hb⟩, k + 1, n, rfl, hn, he⟩

theorem gap_shifted (shift : Int) (a b : Event) : gap (a.shifted shift) (b.shifted shift) = gap a b := by
  simp only [gap, Event.shifted, Int.add_sub_add_right]

theorem stepsAfter_shifted (speed : Speed) (shift : Int) (a : Event) (es : List Event) :
    stepsAfter speed (a.shifted shift).time (es.map (Event.shifted shift)) =
      ⟨(stepsAfter speed a.time es).items.map (Step.shifted shift), (stepsAfter speed a.time es).failure⟩ := by
  induction es generalizing a with
  | nil => rfl
  | cons b es ih =>
      rw [List.map_cons]
      have hgap := gap_shifted shift a b
      cases hw : wait speed (gap a b) with
      | error error =>
          rw [stepsAfter_of_error hw, stepsAfter_of_error (by rw [hgap, hw])]
          rfl
      | ok w =>
          cases hn : w.isNaN with
          | true =>
              rw [stepsAfter_of_nan hw hn, stepsAfter_of_nan (by rw [hgap, hw]) hn]
              rfl
          | false =>
              rw [stepsAfter_of_ok hw hn, stepsAfter_of_ok (by rw [hgap, hw]) hn, steps, steps, ih]
              rfl

theorem steps_shifted (speed : Speed) (shift : Int) (events : List Event) :
    steps speed (events.map (Event.shifted shift)) =
      ⟨(steps speed events).items.map (Step.shifted shift), (steps speed events).failure⟩ := by
  cases events with
  | nil => rfl
  | cons a es =>
      rw [List.map_cons, steps, stepsAfter_shifted]
      rfl

theorem waits_shifted (shift : Int) (steps : List Step) :
    (steps.map (Step.shifted shift)).filterMap Step.wait? = steps.filterMap Step.wait? := by
  rw [List.filterMap_map]
  congr 1
  funext step
  cases step <;> rfl

/-- The gaps of a clock that never goes backwards add up. -/
theorem total_gaps (h : events.Pairwise (·.time ≤ ·.time)) {k : Nat} {a b : Event}
    (ha : events[0]? = some a) (hb : events[k]? = some b) :
    (total ((gaps events).take k) : Int) = b.time - a.time := by
  induction k generalizing events a with
  | zero =>
      rw [ha] at hb
      cases hb
      exact (Int.sub_self _).symm
  | succ k ih =>
      rcases events with _ | ⟨x, _ | ⟨c, es⟩⟩
      · cases ha
      · cases hb
      cases ha
      obtain ⟨hx, h⟩ := List.pairwise_cons.1 h
      have hle := hx c List.mem_cons_self
      have := ih h rfl hb
      rw [gaps_cons, List.take_succ_cons, total, gap]
      omega

end Replay

open Replay

/-- The steps of a replay that is stopped after `t` events, by what can be computed. A clock that is ahead
changes no wait and no failure. -/
theorem Replayer.stepsUpTo_paced (events : List Event) {speed : Speed} (hs : speed.positive = true)
    (t : Nat) :
    ∃ r, make events speed = .ok r ∧
      (Waitable speed (events.take t) → (r.stepsUpTo (some t)).failure = none ∧
        Paced speed (events.take t) (r.stepsUpTo (some t)).items) ∧
      (∀ k error, k < t → FailsBefore speed events k error →
        (r.stepsUpTo (some t)).failure = some error ∧
          Paced speed (events.take k) (r.stepsUpTo (some t)).items) ∧
      (∀ shift, ∃ r', make (events.map (Event.shifted shift)) speed = .ok r' ∧
        (r'.stepsUpTo (some t)).failure = (r.stepsUpTo (some t)).failure ∧
        (r'.stepsUpTo (some t)).items.filterMap Step.wait? =
          (r.stepsUpTo (some t)).items.filterMap Step.wait?) ∧
      (events.Pairwise (·.time ≤ ·.time) → ∀ k a b, events[0]? = some a → events[k]? = some b →
        (total ((gaps events).take k) : Int) = b.time - a.time) := by
  obtain ⟨r, hr⟩ := exists_make events hs
  obtain ⟨rfl, rfl⟩ := make_eq_ok_iff.1 hr
  refine ⟨r, hr, ?_, ?_, ?_, fun h k a b => total_gaps h⟩
  · intro hw
    obtain ⟨done, hd⟩ := exists_delivers hw
    rw [stepsUpTo, Replayer.steps, hd.stopAfter hs]
    exact ⟨rfl, hd.paced⟩
  · intro k error hk hf
    obtain ⟨done, hd⟩ := exists_delivers hf.before
    have hcount : done.countP Step.isEvent < t := by
      rw [hd.countP, List.length_take]
      omega
    rw [stepsUpTo, Replayer.steps, hf.steps_eq hd hs]
    rw [Feed.stopAfter_of_countP_lt hcount]
    exact ⟨rfl, hd.paced⟩
  · intro shift
    obtain ⟨r', hr'⟩ := exists_make (r.events.map (Event.shifted shift)) hs
    refine ⟨r', hr', ?_⟩
    obtain ⟨he, hspeed⟩ := make_eq_ok_iff.1 hr'
    rw [stepsUpTo, stepsUpTo, Replayer.steps, Replayer.steps, he, hspeed, steps_shifted,
      Feed.stopAfter_map fun step => by cases step <;> rfl]
    exact ⟨rfl, waits_shifted shift _⟩

/-- A clock that goes back once and then so far ahead that no real number of seconds is that large. -/
def jumps : List Event :=
  [⟨2401, 5, 0, 0, 65, Event.noChar, 0, none⟩, ⟨2402, 2, 0, 0, 65, Event.noChar, 0, none⟩,
    ⟨2401, 10 ^ 320, 0, 0, 65, Event.noChar, 0, none⟩]

theorem waitable_jumps : Waitable (.whole 2) (jumps.take 2) :=
  waitable_pair (w := .zero) (eq_ok_of_toOption (by decide +kernel))

theorem failsBefore_jumps : FailsBefore (.whole 2) jumps 2 .gapTooLarge :=
  ⟨waitable_jumps, 1, _, rfl, rfl, wait_of_tooLarge (by decide +kernel)⟩

/-- A consumer that stops before the jump sees no failure, and one that goes on sees the same two events. -/
theorem Replayer.stepsUpTo_paced_jumps :
    ∃ r, make jumps (.whole 2) = .ok r ∧
      ((r.stepsUpTo (some 2)).failure = none ∧
        Paced (.whole 2) (jumps.take 2) (r.stepsUpTo (some 2)).items) ∧
      (r.stepsUpTo (some 3)).failure = some .gapTooLarge ∧
        Paced (.whole 2) (jumps.take 2) (r.stepsUpTo (some 3)).items := by
  have hs : Speed.positive (.whole 2) = true := rfl
  obtain ⟨r, hr, hstop, -⟩ := stepsUpTo_paced jumps hs 2
  obtain ⟨r', hr', -, hfail, -⟩ := stepsUpTo_paced jumps hs 3
  rw [hr] at hr'
  cases hr'
  exact ⟨r, hr, hstop waitable_jumps, hfail 2 _ (by decide) failsBefore_jumps⟩

end Keystroke
