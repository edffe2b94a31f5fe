import Keystroke.Proofs.Trace.Skip

namespace Keystroke.Trace

open Json

variable {depth : Nat}

inductive Nest.Lead : Nest → Bytes → Prop
  | array : Lead array []
  | object {key k : Bytes} (h : KeyText key k) : Lead object k

/-- What is spelled at a place, with no more levels than allowed. Items end with the bracket that closes
them. -/
inductive PlaceText : Place → Nat → Bytes → Prop
  | plain {depth : Nat} {t : Token} {b : Bytes} (h : TokenText t b) : PlaceText .value depth b
  | empty {depth : Nat} {s : Bytes} (n : Nest) (hs : Spaces s) :
      PlaceText .value (depth + 1) (n.opening :: (s ++ [n.closing]))
  | nested {depth : Nat} {n : Nest} {b : Bytes} (h : PlaceText (.items n) depth b) :
      PlaceText .value (depth + 1) (n.opening :: b)
  | last {depth : Nat} {n : Nest} {k p v q : Bytes} (hk : n.Lead k) (hp : Spaces p)
      (hv : PlaceText .value depth v) (hq : Spaces q) :
      PlaceText (.items n) depth (k ++ (p ++ (v ++ (q ++ [n.closing]))))
  | more {depth : Nat} {n : Nest} {k p v q r : Bytes} (hk : n.Lead k) (hp : Spaces p)
      (hv : PlaceText .value depth v) (hq : Spaces q) (hr : PlaceText (.items n) depth r) :
      PlaceText (.items n) depth (k ++ (p ++ (v ++ (q ++ 0x2C :: r))))

def ValueText : Nat → Bytes → Prop := PlaceText .value

theorem comma?_eq_some_iff {s r : Bytes} :
    mark? ',' s = some r ↔ ∃ p, Spaces p ∧ s = p ++ 0x2C :: r :=
  mark?_eq_some_iff rfl rfl

theorem closing?_eq_some_iff (n : Nest) {s r : Bytes} :
    mark? n.close s = some r ↔ ∃ p, Spaces p ∧ s = p ++ n.closing :: r := by
  cases n <;> exact mark?_eq_some_iff rfl rfl

theorem Nest.item?_eq_some_iff {n : Nest} {s v : Bytes} :
    n.item? s = some v ↔ ∃ k, n.Lead k ∧ s = k ++ v := by
  cases n with
  | array =>
      rw [item?, Option.some.injEq]
      constructor
      · rintro rfl
        exact ⟨[], .array, rfl⟩
      · rintro ⟨k, ⟨⟩, hs⟩
        exact hs
  | object =>
      simp only [item?, Option.map_eq_some_iff, Prod.exists, exists_eq_right, key?_eq_some_iff]
      constructor
      · rintro ⟨key, k, hk, hs⟩
        exact ⟨k, .object hk, hs⟩
      · rintro ⟨k, ⟨⟩, hs⟩
        rename_i key hk
        exact ⟨key, k, hk, hs⟩

theorem endsNumber_spaces {p r : Bytes} (hp : Spaces p) (hr : EndsNumber r) : EndsNumber (p ++ r) := by
  cases p with
  | nil => exact hr
  | cons b p =>
      intro u hu
      cases hu
      rcases hp b List.mem_cons_self with rfl | rfl | rfl | rfl <;> decide

theorem endsNumber_closing (n : Nest) (r : Bytes) : EndsNumber (n.closing :: r) := by
  simp only [EndsNumber, List.head?_cons, Option.mem_some, forall_eq']
  cases n <;> decide

def Place.Before : Place → Bytes → Prop
  | value, p => Spaces p
  | items _, p => p = []

theorem exists_placeText {p : Place} {depth : Nat} {s r : Bytes} (h : Skipped p depth s r) :
    ∃ a b, p.Before a ∧ PlaceText p depth b ∧ s = a ++ (b ++ r) := by
  induction h with
  | @plain _ s r t ht hn =>
      obtain ⟨a, ha, hs⟩ := exists_spaces s
      rcases token?_sound ht with ⟨n, hn', -⟩ | ⟨b, hb, he⟩
      · exact absurd hn' (hn n)
      · exact ⟨a, b, ha, .plain hb, by rw [hs, he]⟩
  | @empty _ s r r' n ht hc =>
      obtain ⟨a, ha, hs⟩ := exists_spaces s
      obtain ⟨p, hp, rfl⟩ := (closing?_eq_some_iff n).1 hc
      rw [token?_nest_iff.1 ht] at hs
      exact ⟨a, _, ha, .empty n hp, by rw [hs]; simp⟩
  | @nested _ s r r' n ht _ _ ih =>
      obtain ⟨a, ha, hs⟩ := exists_spaces s
      obtain ⟨_, b, rfl, hb, rfl⟩ := ih
      rw [token?_nest_iff.1 ht] at hs
      exact ⟨a, _, ha, .nested hb, hs⟩
  | last hi _ _ hc ih =>
      obtain ⟨k, hk, rfl⟩ := Nest.item?_eq_some_iff.1 hi
      obtain ⟨p, v, hp, hv, rfl⟩ := ih
      obtain ⟨q, hq, rfl⟩ := (closing?_eq_some_iff _).1 hc
      exact ⟨[], _, rfl, .last hk hp hv hq, by simp⟩
  | more hi _ hm _ ih ihr =>
      obtain ⟨k, hk, rfl⟩ := Nest.item?_eq_some_iff.1 hi
      obtain ⟨p, v, hp, hv, rfl⟩ := ih
      obtain ⟨q, hq, rfl⟩ := comma?_eq_some_iff.1 hm
      obtain ⟨_, b, rfl, hb, rfl⟩ := ihr
      exact ⟨[], _, rfl, .more hk hp hv hq hb, by simp⟩

theorem PlaceText.exists_cons {depth : Nat} {b : Bytes} (h : PlaceText .value depth b) :
    ∃ u s, b = u :: s ∧ OpensValue u := by
  have hopening (n : Nest) : OpensValue n.opening := by
    refine ⟨by cases n <;> decide, fun m => ?_⟩
    cases n <;> cases m <;> decide
  cases h with
  | plain h => exact h.exists_cons
  | empty n _ => exact ⟨_, _, rfl, hopening n⟩
  | nested _ => exact ⟨_, _, rfl, hopening _⟩

theorem mark?_close_items {n : Nest} {depth : Nat} {b : Bytes} (h : PlaceText (.items n) depth b)
    (r : Bytes) : mark? n.close (b ++ r) = none := by
  have hvalue {k p v : Bytes} (hk : n.Lead k) (hp : Spaces p) (hv : PlaceText .value depth v)
      (r : Bytes) : mark? n.close (k ++ (p ++ (v ++ r))) = none := by
    cases hk with
    | array =>
        obtain ⟨u, s, rfl, hu, hclose⟩ := hv.exists_cons
        refine mark?_eq_none hp hu (Bool.eq_false_iff.2 fun h => hclose .array ?_) _
        exact eq_of_is h rfl
    | object hk =>
        obtain ⟨ha, -, -⟩ := hk
        rw [List.append_assoc]
        exact mark?_eq_none ha (b := 0x22) rfl rfl _
  cases h with
  | last hk hp hv _ => simpa using hvalue hk hp hv _
  | more hk hp hv _ _ => simpa using hvalue hk hp hv _

theorem skipped_append {p : Place} {depth : Nat} {b : Bytes} (h : PlaceText p depth b) {a r : Bytes}
    (ha : p.Before a) (hr : EndsNumber r) : Skipped p depth (a ++ (b ++ r)) r := by
  have hopen {a : Bytes} (ha : Spaces a) (n : Nest) (s : Bytes) :
      token? (skipSpace (a ++ n.opening :: s)) = some (n.token, s) := by
    rw [skipSpace_append ha, skipSpace_cons (by cases n <;> rfl)]
    exact token?_nest_iff.2 rfl
  induction h generalizing a r with
  | plain h => exact .plain (token?_spaces ha h hr) fun n => h.ne_nest n
  | @empty _ s n hs =>
      have hc : mark? n.close (s ++ n.closing :: r) = some r :=
        (closing?_eq_some_iff n).2 ⟨s, hs, rfl⟩
      refine .empty (hopen ha n _) ?_
      simpa using hc
  | @nested _ n b h ih =>
      exact .nested (hopen ha n _) (mark?_close_items h r) (ih rfl hr)
  | @last _ n k p v q hk hp _ hq ih =>
      cases ha
      have hc : mark? n.close (q ++ n.closing :: r) = some r :=
        (closing?_eq_some_iff n).2 ⟨q, hq, rfl⟩
      have hnone : mark? ',' (q ++ n.closing :: r) = none := by
        cases n <;> exact mark?_eq_none hq rfl rfl r
      have hv := ih hp (endsNumber_spaces hq (endsNumber_closing n r))
      refine .last (Nest.item?_eq_some_iff.2 ⟨k, hk, ?_⟩) hv hnone hc
      simp
  | @more _ n k p v q r' hk hp _ hq _ ih ihr =>
      cases ha
      have hm : mark? ',' (q ++ 0x2C :: (r' ++ r)) = some (r' ++ r) :=
        comma?_eq_some_iff.2 ⟨q, hq, rfl⟩
      have hv := ih hp (endsNumber_spaces hq (endsNumber_comma (r' ++ r)))
      refine .more (Nest.item?_eq_some_iff.2 ⟨k, hk, ?_⟩) hv hm (ihr rfl hr)
      simp

theorem exists_valueText_of_skip {s r : Bytes} (h : skip depth s = .ok r) :
    ∃ p v, Spaces p ∧ ValueText depth v ∧ s = p ++ (v ++ r) :=
  exists_placeText (skip_eq_ok_iff.1 h)

theorem skip_append {p v r : Bytes} (hp : Spaces p) (hv : ValueText depth v)
    (hr : EndsNumber r) : skip depth (p ++ (v ++ r)) = .ok r :=
  skip_eq_ok_iff.2 (skipped_append hv hp hr)

end Keystroke.Trace
