import Keystroke.Json.Reader
import Keystroke.Proofs.Result

namespace Keystroke.Json

open Value

def memberAt (fuel depth : Nat) (s : Text) : Except Fault ((Text × Value) × CodePoint × Text) := do
  let (c, r) ← next s
  if c ≠ '"' then .error .syntaxError
  let (key, r) ← stringAt r
  let (c, r) ← next r
  if c ≠ ':' then .error .syntaxError
  let (v, r) ← valueAt fuel depth (skipSpace r)
  return ((key, v), ← next r)

theorem membersAt_succ (fuel depth : Nat) (done : List (Text × Value)) (s : Text) :
    membersAt (fuel + 1) depth done s = (memberAt fuel depth s).bind fun p =>
      if p.2.1 = '\x7d' then .ok (putMember p.1.1 p.1.2 done, p.2.2)
      else if p.2.1 = ',' then membersAt fuel depth (putMember p.1.1 p.1.2 done) p.2.2
      else .error .syntaxError := by
  rw [membersAt, memberAt]
  simp only [bind, Except.bind, pure, Except.pure]
  cases next s with
  | error f => rfl
  | ok p =>
      dsimp only
      split
      · rfl
      cases stringAt p.2 with
      | error f => rfl
      | ok p =>
          dsimp only
          cases next p.2 with
          | error f => rfl
          | ok p' =>
              dsimp only
              split
              · rfl
              cases valueAt fuel depth (skipSpace p'.2) with
              | error f => rfl
              | ok q =>
                  dsimp only
                  cases next q.2 <;> rfl

/-- The members of an object as they are written, up to its closing bracket: all of them, in order, whatever keys
they have. -/
def writtenAt : Nat → Nat → Text → Except Fault (List (Text × Value) × Text)
  | 0, _, _ => .error .syntaxError
  | fuel + 1, depth, s => do
    let (m, c, r) ← memberAt fuel depth s
    if c = '\x7d' then return ([m], r)
    else if c = ',' then
      let (ms, r) ← writtenAt fuel depth r
      return (m :: ms, r)
    else .error .syntaxError

def putAll (done ms : List (Text × Value)) : List (Text × Value) :=
  ms.foldl (fun done m => putMember m.1 m.2 done) done

/-- What is read of an object is what its members make when they are put in one after the other. -/
theorem membersAt_eq (fuel depth : Nat) (done : List (Text × Value)) (s : Text) :
    membersAt fuel depth done s = (writtenAt fuel depth s).map fun p => (putAll done p.1, p.2) := by
  induction fuel generalizing done s with
  | zero => rfl
  | succ fuel ih =>
      rw [membersAt_succ, writtenAt]
      simp only [bind, pure]
      cases memberAt fuel depth s with
      | error f => rfl
      | ok p =>
          dsimp only [Except.bind]
          split
          · rfl
          split
          · rw [ih]
            cases writtenAt fuel depth p.2.2 <;> rfl
          · rfl

def lastMember? (key : Text) (ms : List (Text × Value)) : Option Value := member? key ms.reverse

theorem member?_putMember (key id : Text) (v : Value) (ms : List (Text × Value)) :
    member? id (putMember key v ms) = if key = id then some v else member? id ms := by
  simp only [member?]
  induction ms with
  | nil => by_cases h : key = id <;> simp [putMember, h]
  | cons m ms ih =>
      by_cases hm : m.1 = key
      · by_cases h : key = id <;> simp [putMember, hm, h]
      · by_cases h : m.1 = id
        · subst h
          simp [putMember, hm, Ne.symm hm]
        · simp [putMember, hm, h, ih]

theorem member?_putAll (key : Text) (done ms : List (Text × Value)) :
    member? key (putAll done ms) = (lastMember? key ms).or (member? key done) := by
  induction ms generalizing done with
  | nil => rfl
  | cons m ms ih =>
      rw [putAll, List.foldl_cons, ← putAll, ih, member?_putMember]
      simp only [lastMember?, member?, List.reverse_cons, List.find?_append]
      cases ms.reverse.find? (·.1 == key) with
      | some n => rfl
      | none => by_cases h : m.1 = key <;> simp [h]

def writtenMembers (t : Text) : Except Fault (List (Text × Value)) := do
  let (c, r) ← next t
  if c ≠ '\x7b' then .error .syntaxError
  let (c, r') ← next r
  let (ms, r) ← if c = '\x7d' then .ok ([], r') else writtenAt (2 * t.length + 1) (nestingLimit - 1) r
  if skipSpace r = [] then return ms else .error .syntaxError

theorem not_object_of_scalar {s r : Text} {o : List (Text × Value)} : scalar s ≠ .ok (.object o, r) := by
  intro h
  rw [scalar] at h
  split at h
  · rename_i found hf
    obtain ⟨⟨w, v⟩, hw, hf⟩ := List.exists_of_findSome?_eq_some hf
    obtain ⟨r', -, rfl⟩ := Option.map_eq_some_iff.1 hf
    cases h
    simp [words] at hw
  · obtain ⟨⟨l, r'⟩, -, h⟩ := exists_of_bind h
    obtain ⟨v, hv, h⟩ := exists_of_bind h
    cases h
    rw [Value.ofNumber] at hv
    split at hv
    · split at hv <;> cases hv
    · cases hv

theorem valueAt_cases {fuel depth : Nat} {s r : Text} {v : Value}
    (h : valueAt (fuel + 1) depth s = .ok (v, r)) :
    (∃ s' t, s = CodePoint.ofChar '"' :: s' ∧ stringAt s' = .ok (t, r) ∧ v = .string t) ∨
    (∃ s' ms, s = CodePoint.ofChar '\x7b' :: s' ∧ v = .object ms ∧
      (next s' = .ok (CodePoint.ofChar '\x7d', r) ∧ ms = [] ∨
        membersAt fuel (depth - 1) [] s' = .ok (ms, r))) ∨
    (∃ s' vs, s = CodePoint.ofChar '[' :: s' ∧ v = .array vs ∧
      (next s' = .ok (CodePoint.ofChar ']', r) ∧ vs = [] ∨
        elementsAt fuel (depth - 1) s' = .ok (vs, r))) ∨
    scalar s = .ok (v, r) := by
  cases s with
  | nil =>
      rw [valueAt] at h
      cases h
  | cons c s =>
      rw [valueAt] at h
      dsimp only at h
      split at h
      · obtain ⟨⟨t, r'⟩, ht, h⟩ := exists_of_bind h
        cases h
        exact .inl ⟨s, t, by simp [*], ht, rfl⟩
      split at h
      · split at h
        · cases h
        obtain ⟨⟨d, s'⟩, hd, h⟩ := exists_of_bind h
        dsimp only at h
        split at h
        · cases h
          exact .inr (.inl ⟨s, [], by simp [*], rfl, .inl ⟨by simp [*], rfl⟩⟩)
        · obtain ⟨⟨ms, r'⟩, hm, h⟩ := exists_of_bind h
          cases h
          exact .inr (.inl ⟨s, ms, by simp [*], rfl, .inr hm⟩)
      split at h
      · split at h
        · cases h
        obtain ⟨⟨d, s'⟩, hd, h⟩ := exists_of_bind h
        dsimp only at h
        split at h
        · cases h
          exact .inr (.inr (.inl ⟨s, [], by simp [*], rfl, .inl ⟨by simp [*], rfl⟩⟩))
        · obtain ⟨⟨vs, r'⟩, hm, h⟩ := exists_of_bind h
          cases h
          exact .inr (.inr (.inl ⟨s, vs, by simp [*], rfl, .inr hm⟩))
      · exact .inr (.inr (.inr h))

theorem brace_of_valueAt_object {fuel depth : Nat} {s r : Text} {o : List (Text × Value)}
    (h : valueAt fuel depth s = .ok (.object o, r)) : ∃ s', s = CodePoint.ofChar '\x7b' :: s' := by
  cases fuel with
  | zero => cases h
  | succ fuel =>
      rcases valueAt_cases h with ⟨_, _, _, _, ⟨⟩⟩ | ⟨s', _, hs, _⟩ | ⟨_, _, _, ⟨⟩, _⟩ | h
      · exact ⟨s', hs⟩
      · exact absurd h not_object_of_scalar

theorem valueAt_brace (fuel depth : Nat) (s : Text) :
    valueAt (fuel + 1) (depth + 1) (CodePoint.ofChar '\x7b' :: s) = (next s).bind fun p =>
      if p.1 = '\x7d' then .ok (.object [], p.2)
      else (membersAt fuel depth [] s).map fun p => (.object p.1, p.2) := by
  have hne : CodePoint.ofChar '\x7b' ≠ CodePoint.ofChar '"' := by decide
  rw [valueAt]
  simp only [hne, if_false, if_true, Nat.add_one_ne_zero, bind, Except.bind, pure, Except.pure,
    Nat.add_sub_cancel]
  cases next s with
  | error f => rfl
  | ok p =>
      dsimp only
      split
      · rfl
      · cases membersAt fuel depth [] s <;> rfl

theorem skipSpace_of_next {s r : Text} {c : CodePoint} (h : next s = .ok (c, r)) : skipSpace s = c :: r := by
  rw [next] at h
  split at h
  · rename_i hs
    cases h
    exact hs
  · cases h

theorem parse_of_brace {t s : Text} (h : skipSpace t = CodePoint.ofChar '\x7b' :: s) :
    parse t = (writtenMembers t).map fun ms => .object (putAll [] ms) := by
  have hnext : next t = .ok (CodePoint.ofChar '\x7b', s) := by
    rw [next, h]
  have hlimit : nestingLimit = 989 + 1 := rfl
  rw [parse, writtenMembers, h, hnext, hlimit, valueAt_brace]
  simp only [bind, Except.bind, pure, Except.pure, membersAt_eq, ne_eq, not_true_eq_false, if_false]
  cases next s with
  | error f => rfl
  | ok p =>
      by_cases hc : p.1 = CodePoint.ofChar '\x7d'
      · simp only [hc, if_true]
        split <;> rfl
      · simp only [hc, if_false, Nat.add_sub_cancel]
        cases writtenAt (2 * t.length + 1) 989 s with
        | error f => rfl
        | ok q =>
            dsimp only [Except.map]
            split <;> rfl

/-- A text is an object just if its members can be told, and the object is what they make. -/
theorem parse_eq_object_iff {t : Text} {o : List (Text × Value)} :
    parse t = .ok (.object o) ↔ ∃ ms, writtenMembers t = .ok ms ∧ o = putAll [] ms := by
  constructor
  · intro h
    obtain ⟨⟨v, r⟩, hv, hend⟩ := exists_of_bind h
    have hobject : v = .object o := by
      dsimp only at hend
      split at hend
      · exact Except.ok.inj hend
      · cases hend
    rw [hobject] at hv
    obtain ⟨s, hs⟩ := brace_of_valueAt_object hv
    rw [parse_of_brace hs] at h
    obtain ⟨ms, hms, ho⟩ := exists_of_map h
    exact ⟨ms, hms, (Value.object.inj ho).symm⟩
  · rintro ⟨ms, hms, rfl⟩
    obtain ⟨⟨c, s⟩, hc, hrest⟩ := exists_of_bind hms
    dsimp only at hrest
    split at hrest
    · cases hrest
    · rename_i hbrace
      have hs : skipSpace t = CodePoint.ofChar '\x7b' :: s := by
        rw [← Decidable.not_not.1 hbrace]
        exact skipSpace_of_next hc
      rw [parse_of_brace hs, hms]
      rfl

end Keystroke.Json
