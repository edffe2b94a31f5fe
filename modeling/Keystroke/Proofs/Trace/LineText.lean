import Keystroke.Proofs.Trace.Lines
import Keystroke.Proofs.Trace.Member
import Keystroke.Proofs.Trace.ValueText

namespace Keystroke.Trace

open Json

variable {depth : Nat}

/-- The members of an object and the bracket that closes it: keys with their escapes resolved, values as
they stand. -/
inductive MembersText (depth : Nat) : List (Bytes × Bytes) → Bytes → Prop
  | last {key k p v q : Bytes} (hk : KeyText key k) (hp : Spaces p)
      (hv : ValueText depth v) (hq : Spaces q) :
      MembersText depth [(key, v)] (k ++ (p ++ (v ++ (q ++ [0x7D]))))
  | more {key k p v q r : Bytes} {ms : List (Bytes × Bytes)} (hk : KeyText key k) (hp : Spaces p)
      (hv : ValueText depth v) (hq : Spaces q) (hr : MembersText depth ms r) :
      MembersText depth ((key, v) :: ms) (k ++ (p ++ (v ++ (q ++ 0x2C :: r))))

inductive ObjectText (depth : Nat) : List (Bytes × Bytes) → Bytes → Prop
  | empty {s : Bytes} (hs : Spaces s) : ObjectText depth [] (0x7B :: (s ++ [0x7D]))
  | members {ms : List (Bytes × Bytes)} {b : Bytes} (h : MembersText depth ms b) :
      ObjectText depth ms (0x7B :: b)

def Blanks (s : Bytes) : Prop := ∀ b ∈ s, b = 0x20 ∨ b = 0x09

def LineText (depth : Nat) (ms : List (Bytes × Bytes)) (line : Bytes) : Prop :=
  ∃ p b q, Blanks p ∧ ObjectText depth ms b ∧ Blanks q ∧ line = p ++ (b ++ q)

def Draft.take (d : Draft) (m : Bytes × Bytes) : Except LineFault Draft :=
  match fieldOf? m.1 with
  | none => .ok d
  | some f => (orSyntax (token? m.2)).bind fun p => d.set f p.1

def Draft.takeAll (d : Draft) : List (Bytes × Bytes) → Except LineFault Draft
  | [] => .ok d
  | m :: ms => (d.take m).bind fun d => d.takeAll ms

theorem Blanks.spaces {s : Bytes} (h : Blanks s) : Spaces s := by
  intro b hb
  rcases h b hb with rfl | rfl
  · exact .inl rfl
  · exact .inr (.inl rfl)

theorem blanks_of_spaces {s : Bytes} (h : Spaces s) (hl : NoLineEnd s) : Blanks s := by
  intro b hb
  obtain ⟨hfeed, hreturn⟩ := hl b hb
  rcases h b hb with hs | hs | hs | hs
  · exact .inl hs
  · exact .inr hs
  · exact absurd hs hfeed
  · exact absurd hs hreturn

theorem skipSpace_eq_nil_iff {s : Bytes} : skipSpace s = [] ↔ Spaces s := by
  constructor
  · intro h
    obtain ⟨p, hp, hs⟩ := exists_spaces s
    rw [h, List.append_nil] at hs
    rwa [hs]
  · intro h
    have := skipSpace_append h []
    rwa [List.append_nil] at this

theorem set_nest (d : Draft) (f : Field) (n : Nest) :
    d.set f n.token = .error (.reason (unexpected (some f) n.token)) := by
  cases f <;> cases n <;> rfl

theorem readMember_text {key k p v r : Bytes} (hk : KeyText key k) (hp : Spaces p)
    (hv : ValueText depth v) (hr : EndsNumber r) (d : Draft) :
    readMember depth d (k ++ (p ++ (v ++ r))) = (d.take (key, v)).map (·, r) := by
  have hkey : key? (k ++ (p ++ (v ++ r))) = some (key, p ++ (v ++ r)) :=
    key?_eq_some_iff.2 ⟨k, hk, rfl⟩
  rw [Draft.take]
  dsimp only
  cases hf : fieldOf? key with
  | none =>
      rw [readMember_unknown hkey hf, skip_append hp hv hr]
      rfl
  | some f =>
      have hnest {n : Nest} {s : Bytes} (hv : v = n.opening :: s) :
          readMember depth d (k ++ (p ++ (v ++ r))) = ((orSyntax (token? v)).bind fun q =>
            d.set f q.1).map (·, r) := by
        have ht : token? v = some (n.token, s) := token?_nest_iff.2 hv
        have hskip : token? (skipSpace (p ++ (v ++ r))) = some (n.token, s ++ r) := by
          rw [skipSpace_append hp, hv, List.cons_append, skipSpace_cons (by cases n <;> rfl)]
          exact token?_nest_iff.2 rfl
        rw [readMember_field hkey hf, hskip, ht]
        simp only [orSyntax, Except.bind, set_nest, Except.map]
      cases hv with
      | @plain _ t _ ht =>
          have htoken : token? v = some (t, []) := by
            simpa using token?_append ht endsNumber_nil
          rw [readMember_field hkey hf, token?_spaces hp ht hr, htoken]
          rfl
      | empty n _ => exact hnest rfl
      | nested _ => exact hnest rfl

theorem MembersText.length_le {ms : List (Bytes × Bytes)} {b : Bytes} (h : MembersText depth ms b) :
    ms.length ≤ b.length := by
  induction h with
  | last =>
      simp only [List.length_append, List.length_cons, List.length_nil]
      omega
  | more _ _ _ _ _ ih =>
      simp only [List.length_append, List.length_cons]
      omega

theorem MembersText.items {ms : List (Bytes × Bytes)} {b : Bytes} (h : MembersText depth ms b) :
    PlaceText (.items .object) depth b := by
  induction h with
  | last hk hp hv hq => exact .last (.object hk) hp hv hq
  | more hk hp hv hq _ ih => exact .more (.object hk) hp hv hq ih

theorem readMembers_text {ms : List (Bytes × Bytes)} {b : Bytes} (h : MembersText depth ms b) {fuel : Nat}
    (hf : ms.length ≤ fuel) (d : Draft) (r : Bytes) :
    readMembers depth fuel d (b ++ r) = (d.takeAll ms).map (·, r) := by
  induction h generalizing fuel d with
  | @last key k p v q hk hp hv hq =>
      obtain ⟨fuel, rfl⟩ : ∃ n, fuel = n + 1 := ⟨fuel - 1, by simp at hf; omega⟩
      have hnone : mark? ',' (q ++ 0x7D :: r) = none := mark?_eq_none hq rfl rfl r
      have hclose : mark? '\x7d' (q ++ 0x7D :: r) = some r :=
        (closing?_eq_some_iff .object).2 ⟨q, hq, rfl⟩
      have hm := readMember_text hk hp hv (endsNumber_spaces hq (endsNumber_brace r)) d
      simp only [List.append_assoc, List.cons_append, List.nil_append]
      rw [readMembers, hm, Draft.takeAll]
      cases d.take (key, v) with
      | error x => rfl
      | ok d' =>
          simp only [Except.map, bind, Except.bind, hnone, hclose, orSyntax, pure, Except.pure,
            Draft.takeAll]
  | @more key k p v q r' ms hk hp hv hq _ ih =>
      obtain ⟨fuel, rfl⟩ : ∃ n, fuel = n + 1 := ⟨fuel - 1, by simp at hf; omega⟩
      have hcomma : mark? ',' (q ++ 0x2C :: (r' ++ r)) = some (r' ++ r) :=
        comma?_eq_some_iff.2 ⟨q, hq, rfl⟩
      have hm := readMember_text hk hp hv (endsNumber_spaces hq (endsNumber_comma (r' ++ r))) d
      simp only [List.append_assoc, List.cons_append]
      rw [readMembers, hm, Draft.takeAll]
      cases d.take (key, v) with
      | error x => rfl
      | ok d' =>
          simp only [Except.map, bind, Except.bind, hcomma]
          exact ih (Nat.le_of_succ_le_succ hf) d'

theorem exists_valueText_of_set {d d' : Draft} {f : Field} {s r : Bytes} {t : Token}
    (ht : token? (skipSpace s) = some (t, r)) (hd : d.set f t = .ok d') (depth : Nat) :
    ∃ p v, Spaces p ∧ ValueText depth v ∧ s = p ++ (v ++ r) := by
  obtain ⟨p, hp, hs⟩ := exists_spaces s
  rcases token?_sound ht with ⟨n, rfl, -⟩ | ⟨v, hv, he⟩
  · rw [set_nest] at hd
    cases hd
  · exact ⟨p, v, hp, .plain hv, by rw [hs, he]⟩

theorem exists_membersText {fuel : Nat} {d d' : Draft} {s r : Bytes}
    (h : readMembers depth fuel d s = .ok (d', r)) : ∃ ms b, MembersText depth ms b ∧ s = b ++ r := by
  induction fuel generalizing d s with
  | zero => cases h
  | succ fuel ih =>
      rw [readMembers] at h
      obtain ⟨⟨d₁, s₁⟩, hd, hrest⟩ := exists_of_bind h
      obtain ⟨key, v₁, hkey, htaken⟩ := readMember_ok hd
      obtain ⟨k, hk, rfl⟩ := key?_eq_some_iff.1 hkey
      have hvalue : ∃ p v, Spaces p ∧ ValueText depth v ∧ v₁ = p ++ (v ++ s₁) := by
        rcases htaken with ⟨-, -, hs⟩ | ⟨f, t, -, ht, hset⟩
        · exact exists_valueText_of_skip hs
        · exact exists_valueText_of_set ht hset _
      obtain ⟨p, v, hp, hv, rfl⟩ := hvalue
      dsimp only at hrest
      split at hrest
      · rename_i s₂ hm
        obtain ⟨q, hq, rfl⟩ := comma?_eq_some_iff.1 hm
        obtain ⟨ms, b, hb, rfl⟩ := ih hrest
        exact ⟨_, _, .more hk hp hv hq hb, by simp⟩
      · obtain ⟨s₂, hm, hrest⟩ := exists_of_bind hrest
        cases hrest
        obtain ⟨q, hq, rfl⟩ := (closing?_eq_some_iff .object).1 (eq_some_of_orSyntax hm)
        exact ⟨_, _, .last hk hp hv hq, by simp [Nest.closing]⟩

theorem readRecord_text {ms : List (Bytes × Bytes)} {line : Bytes} (h : LineText depth ms line) :
    readRecord depth line = (Draft.takeAll {} ms).bind fun d => d.finish.mapError .reason := by
  obtain ⟨p, b, q, hp, hb, hq, rfl⟩ := h
  have hq := skipSpace_eq_nil_iff.2 hq.spaces
  have hclose (x : Except LineFault Draft) :
      closeRecord (x.map (·, q)) = x.bind fun d => d.finish.mapError .reason := by
    cases x with
    | error y => rfl
    | ok d =>
        simp only [closeRecord, Except.map, Except.bind, hq, if_true]
        cases d.finish <;> rfl
  have ht (s : Bytes) : token? (skipSpace (p ++ 0x7B :: s)) = some (.object, s) := by
    rw [skipSpace_append hp.spaces, skipSpace_cons rfl]
    exact token?_nest_iff (n := .object).2 rfl
  cases hb with
  | @empty s hs =>
      have hm : mark? '\x7d' (s ++ 0x7D :: q) = some q :=
        (closing?_eq_some_iff .object).2 ⟨s, hs, rfl⟩
      have hline : p ++ (0x7B :: (s ++ [0x7D]) ++ q) = p ++ 0x7B :: (s ++ 0x7D :: q) := by simp
      rw [hline, readRecord, ht]
      simp only [orSyntax, hm, bind, Except.bind, pure, Except.pure]
      exact hclose (.ok {})
  | @members _ b hb =>
      have hitems : PlaceText (.items .object) depth b := hb.items
      rw [List.cons_append, readRecord_open (ht _) (mark?_close_items hitems q),
        readMembers_text hb (Nat.le_trans hb.length_le (by simp)) {} q]
      exact hclose _

theorem NoLineEnd.of_append {s t : Bytes} (h : NoLineEnd (s ++ t)) : NoLineEnd s ∧ NoLineEnd t :=
  ⟨fun b hb => h b (List.mem_append_left t hb), fun b hb => h b (List.mem_append_right s hb)⟩

theorem exists_lineText {line : Bytes} (hl : NoLineEnd line) {record : Record}
    (h : readRecord depth line = .ok record) : ∃ ms, LineText depth ms line := by
  rcases readRecord_cases line with ⟨x, hx⟩ | ⟨r, hx⟩ | ⟨s, ht, -, hx⟩
  · rw [hx] at h
    cases h
  · rw [hx] at h
    obtain ⟨d, q, hd, hf, -⟩ := closeRecord_ok h
    cases hd
    cases hf
  · rw [hx] at h
    obtain ⟨d, q, hd, -, hq⟩ := closeRecord_ok h
    obtain ⟨ms, b, hb, rfl⟩ := exists_membersText hd
    obtain ⟨p, hp, hline⟩ := exists_spaces line
    rw [token?_nest_iff (n := .object).1 ht] at hline
    rw [hline] at hl
    obtain ⟨hlp, hl⟩ := hl.of_append
    obtain ⟨-, hlq⟩ := NoLineEnd.of_append (s := Nest.object.opening :: b) hl
    exact ⟨ms, p, _, q, blanks_of_spaces hp hlp, .members hb,
      blanks_of_spaces (skipSpace_eq_nil_iff.1 hq) hlq, hline⟩

end Keystroke.Trace
