import Keystroke.Proofs.Trace.Lines

namespace Keystroke.Trace

variable {depth : Nat}

theorem decodeLines_append (n : Nat) (front back : List Bytes) :
    decodeLines depth n (front ++ back) = (decodeLines depth n front).bind fun events =>
      (decodeLines depth (n + front.length) back).map (events ++ ·) := by
  induction front generalizing n with
  | nil =>
      simp only [decodeLines, Except.bind, List.nil_append, List.length_nil, Nat.add_zero]
      cases decodeLines depth n back <;> rfl
  | cons line front ih =>
      have hn : n + (line :: front).length = n + 1 + front.length := by
        rw [List.length_cons, Nat.add_comm front.length, Nat.add_assoc]
      rw [List.cons_append, hn]
      cases hb : isBlankLine line with
      | true => rw [decodeLines_of_blank hb, decodeLines_of_blank hb, ih]
      | false =>
          cases he : readEvent depth line with
          | error x => rw [decodeLines_of_error hb he, decodeLines_of_error hb he]; rfl
          | ok e =>
              rw [decodeLines_of_ok hb he, decodeLines_of_ok hb he, ih]
              cases decodeLines depth (n + 1) front with
              | error x => rfl
              | ok events => cases decodeLines depth (n + 1 + front.length) back <;> rfl

def DecodeError.renumbered (f : Nat → Nat) : DecodeError → DecodeError
  | .badRecord line reason => .badRecord (f line) reason
  | .sourceNotUtf8 => .sourceNotUtf8
  | .tooDeep => .tooDeep

theorem renumbered_ofFault (f : Nat → Nat) (n : Nat) (x : LineFault) :
    (DecodeError.ofFault n x).renumbered f = .ofFault (f n) x := by
  cases x <;> rfl

theorem decodeLines_cons_renumbered {f : Nat → Nat} {n : Nat} {ls ls' : List Bytes}
    (h : decodeLines depth (f n + 1) ls = (decodeLines depth (n + 1) ls').mapError (·.renumbered f))
    (line : Bytes) :
    decodeLines depth (f n) (line :: ls) = (decodeLines depth n (line :: ls')).mapError (·.renumbered f) := by
  cases hb : isBlankLine line with
  | true => rw [decodeLines_of_blank hb, decodeLines_of_blank hb, h]
  | false =>
      cases he : readEvent depth line with
      | error x =>
          rw [decodeLines_of_error hb he, decodeLines_of_error hb he]
          exact congrArg Except.error (renumbered_ofFault f n x).symm
      | ok e =>
          rw [decodeLines_of_ok hb he, decodeLines_of_ok hb he, h]
          cases decodeLines depth (n + 1) ls' <;> rfl

theorem decodeLines_add (k n : Nat) (ls : List Bytes) :
    decodeLines depth (k + n) ls = (decodeLines depth n ls).mapError (·.renumbered (k + ·)) := by
  induction ls generalizing n with
  | nil => rfl
  | cons line ls ih => exact decodeLines_cons_renumbered (f := (k + ·)) (ih (n + 1)) line

theorem decodeLines_all_blank {ls : List Bytes} (h : ∀ l ∈ ls, isBlankLine l = true) (n : Nat)
    (rest : List Bytes) : decodeLines depth n (ls ++ rest) = decodeLines depth (n + ls.length) rest := by
  induction ls generalizing n with
  | nil => rfl
  | cons l ls ih =>
      obtain ⟨hl, hls⟩ := List.forall_mem_cons.1 h
      rw [List.cons_append, decodeLines_of_blank hl, ih hls, List.length_cons,
        Nat.add_comm ls.length, Nat.add_assoc]

inductive LineEnd
  | feed | carriage | both
deriving DecidableEq, Repr

def LineEnd.bytes : LineEnd → Bytes
  | feed => [0x0A]
  | carriage => [0x0D]
  | both => [0x0D, 0x0A]

/-- Lines with their ends, and what stands behind the last end. -/
structure Layout where
  ended : List (Bytes × LineEnd)
  last : Bytes

namespace Layout

def laid (last : Bytes) : List (Bytes × LineEnd) → Bytes
  | [] => last
  | (line, e) :: rest => line ++ (e.bytes ++ laid last rest)

def bytes (l : Layout) : Bytes := laid l.last l.ended

def ProperBefore (last : Bytes) : List (Bytes × LineEnd) → Prop
  | [] => NoLineEnd last
  | (line, e) :: rest =>
    NoLineEnd line ∧ (e = .carriage → (laid last rest).head? ≠ some 0x0A) ∧ ProperBefore last rest

instance decidableProperBefore (last : Bytes) :
    (ended : List (Bytes × LineEnd)) → Decidable (ProperBefore last ended)
  | [] => inferInstanceAs (Decidable (NoLineEnd last))
  | (_, _) :: rest =>
    have := decidableProperBefore last rest
    inferInstanceAs (Decidable (_ ∧ _))

/-- No line holds a line end, and no carriage return that is an end of its own stands before a line
feed. -/
def Proper (l : Layout) : Prop := ProperBefore l.last l.ended

instance (l : Layout) : Decidable l.Proper := inferInstanceAs (Decidable (ProperBefore _ _))

/-- A proper layout of these lines, the last of them with an end or without one. -/
def Spells (l : Layout) (ls : List Bytes) : Prop :=
  l.Proper ∧ (l.ended.map Prod.fst = ls ∧ l.last = [] ∨ l.ended.map Prod.fst ++ [l.last] = ls)

def insertedFrom (blanks : Nat → List Bytes) (i : Nat) :
    List (Bytes × LineEnd) → List (Bytes × LineEnd)
  | [] => (blanks i).map (·, .feed)
  | l :: rest => (blanks i).map (·, .feed) ++ l :: insertedFrom blanks (i + 1) rest

/-- The layout with lines added, each ended by a line feed: `blanks i` stand where `i` lines end
before them. -/
def insert (l : Layout) (blanks : Nat → List Bytes) : Layout := ⟨insertedFrom blanks 0 l.ended, l.last⟩

end Layout

def Filler (line : Bytes) : Prop :=
  line ≠ [] ∧ ∀ b ∈ line, b = 0x20 ∨ b = 0x09 ∨ b = 0x0B ∨ b = 0x0C

instance (line : Bytes) : Decidable (Filler line) :=
  @instDecidableAnd _ _ _ (List.decidableBAll _ _)

theorem lines_carriage {r : Bytes} (h : r.head? ≠ some 0x0A) : lines (0x0D :: r) = [] :: lines r := by
  cases r with
  | nil => rfl
  | cons c r =>
      have hc : c ≠ 0x0A := fun e => h (congrArg some e)
      rw [lines.eq_def]
      simp [hc]

theorem lines_end {e : LineEnd} {r : Bytes} (h : e = .carriage → r.head? ≠ some 0x0A) :
    lines (e.bytes ++ r) = [] :: lines r := by
  cases e with
  | feed => exact lines_append noLineEnd_nil r
  | carriage => exact lines_carriage (h rfl)
  | both =>
      change lines (0x0D :: 0x0A :: r) = _
      rw [lines.eq_def]
      simp

theorem lines_ended {line : Bytes} (hl : NoLineEnd line) {e : LineEnd} {r : Bytes}
    (h : e = .carriage → r.head? ≠ some 0x0A) : lines (line ++ (e.bytes ++ r)) = line :: lines r := by
  induction line with
  | nil => exact lines_end h
  | cons b line ih =>
      obtain ⟨hb, hl⟩ := List.forall_mem_cons.1 hl
      exact lines_cons_of_cons hb (ih hl)

namespace Layout

theorem lines_laid {last : Bytes} {ended : List (Bytes × LineEnd)} (h : ProperBefore last ended) :
    lines (laid last ended) = ended.map Prod.fst ++ lines last := by
  induction ended with
  | nil => rfl
  | cons p ended ih =>
      obtain ⟨line, e⟩ := p
      obtain ⟨hl, he, hr⟩ := h
      rw [laid, lines_ended hl he, ih hr]
      rfl

theorem decode_bytes {l : Layout} (h : l.Proper) :
    decode depth l.bytes = decodeLines depth 1 (l.ended.map Prod.fst ++ lines l.last) := by
  rw [decode, bytes, lines_laid h]

theorem decode_of_spells {l : Layout} {ls : List Bytes} (h : l.Spells ls) :
    decode depth l.bytes = decodeLines depth 1 ls := by
  obtain ⟨hp, ⟨rfl, hlast⟩ | rfl⟩ := h
  · rw [decode_bytes hp, hlast]
    exact congrArg _ (List.append_nil _)
  · rw [decode_bytes hp]
    by_cases hlast : l.last = []
    · -- an empty line without an end is no line, but as a line it would be blank
      rw [hlast, decodeLines_append, decodeLines_append, decodeLines_of_blank rfl]
      rfl
    · have hends : ∀ ended, ProperBefore l.last ended → NoLineEnd l.last := by
        intro ended hp
        induction ended with
        | nil => exact hp
        | cons p ended ih => exact ih hp.2.2
      rw [lines_of_noLineEnd (hends _ hp) hlast]

theorem exists_layout_cons {b : UInt8} (hb : b ≠ 0x0A ∧ b ≠ 0x0D) {l : Layout} (h : l.Proper) :
    ∃ m : Layout, m.Proper ∧ m.bytes = b :: l.bytes := by
  obtain ⟨ended, last⟩ := l
  cases ended with
  | nil => exact ⟨⟨[], b :: last⟩, List.forall_mem_cons.2 ⟨hb, h⟩, rfl⟩
  | cons p ended =>
      obtain ⟨line, e⟩ := p
      obtain ⟨hl, he, hr⟩ := h
      exact ⟨⟨(b :: line, e) :: ended, last⟩, ⟨List.forall_mem_cons.2 ⟨hb, hl⟩, he, hr⟩, rfl⟩

theorem exists_layout (data : Bytes) : ∃ l : Layout, l.Proper ∧ l.bytes = data := by
  fun_induction lines data with
  | case1 => exact ⟨⟨[], []⟩, noLineEnd_nil, rfl⟩
  | case2 r ih =>
      obtain ⟨l, hp, rfl⟩ := ih
      exact ⟨⟨([], .feed) :: l.ended, l.last⟩, ⟨noLineEnd_nil, by simp, hp⟩, rfl⟩
  | case3 r _ ih =>
      obtain ⟨l, hp, rfl⟩ := ih
      exact ⟨⟨([], .both) :: l.ended, l.last⟩, ⟨noLineEnd_nil, by simp, hp⟩, rfl⟩
  | case4 c r hc _ ih =>
      obtain ⟨l, hp, hl⟩ := ih
      have hhead : l.bytes.head? ≠ some 0x0A := by
        rw [hl]
        exact fun e => hc (Option.some.inj e)
      exact ⟨⟨([], .carriage) :: l.ended, l.last⟩, ⟨noLineEnd_nil, fun _ => hhead, hp⟩,
        congrArg (0x0D :: ·) hl⟩
  | case5 => exact ⟨⟨[([], .carriage)], []⟩, ⟨noLineEnd_nil, by simp [laid], noLineEnd_nil⟩, rfl⟩
  | case6 b r hf hc _ ih | case7 b r hf hc _ _ _ ih =>
      obtain ⟨l, hp, rfl⟩ := ih
      exact exists_layout_cons ⟨hf, hc⟩ hp

def added (blanks : Nat → List Bytes) (n : Nat) : Nat := ((List.range n).flatMap blanks).length

theorem added_succ (blanks : Nat → List Bytes) (n : Nat) :
    added blanks (n + 1) = added blanks n + (blanks n).length := by
  simp [added, List.range_succ]

theorem isBlankLine_of_filler {line : Bytes} (h : Filler line) : isBlankLine line = true := by
  rw [isBlankLine, List.all_eq_true]
  intro b hb
  rcases h.2 b hb with rfl | rfl | rfl | rfl <;> decide

theorem noLineEnd_of_filler {line : Bytes} (h : Filler line) : NoLineEnd line := by
  intro b hb
  rcases h.2 b hb with rfl | rfl | rfl | rfl <;> decide

theorem head?_laid_fillers {last : Bytes} {ended : List (Bytes × LineEnd)} {ls : List Bytes}
    (hls : ∀ l ∈ ls, Filler l)
    (h : (laid last (ls.map (·, .feed) ++ ended)).head? = some 0x0A) :
    ls = [] := by
  cases ls with
  | nil => rfl
  | cons l ls =>
      obtain ⟨hne, hl⟩ := hls l List.mem_cons_self
      obtain ⟨b, l, rfl⟩ := List.exists_cons_of_ne_nil hne
      have hb : b = 0x0A := Option.some.inj h
      subst hb
      exact absurd (hl 0x0A List.mem_cons_self) (by decide)

theorem properBefore_fillers {last : Bytes} {ended : List (Bytes × LineEnd)} {ls : List Bytes}
    (hls : ∀ l ∈ ls, Filler l) (h : ProperBefore last ended) :
    ProperBefore last (ls.map (·, .feed) ++ ended) := by
  induction ls with
  | nil => exact h
  | cons l ls ih =>
      obtain ⟨hl, hls⟩ := List.forall_mem_cons.1 hls
      exact ⟨noLineEnd_of_filler hl, by simp, ih hls⟩

theorem head?_laid_cons (last : Bytes) (p : Bytes × LineEnd) (ended ended' : List (Bytes × LineEnd)) :
    (laid last (p :: ended)).head? = (laid last (p :: ended')).head? := by
  obtain ⟨line, e⟩ := p
  cases line with
  | nil => cases e <;> rfl
  | cons b line => rfl

theorem insertedFrom_nil (blanks : Nat → List Bytes) (i : Nat) :
    insertedFrom blanks i [] = (blanks i).map (·, .feed) ++ [] :=
  (List.append_nil _).symm

theorem head?_insertedFrom {last : Bytes} {blanks : Nat → List Bytes}
    (hb : ∀ i, ∀ b ∈ blanks i, Filler b) {ended : List (Bytes × LineEnd)} {i : Nat}
    (h : (laid last (insertedFrom blanks i ended)).head? = some 0x0A) :
    (laid last ended).head? = some 0x0A := by
  cases ended with
  | nil =>
      rw [insertedFrom_nil] at h
      rwa [head?_laid_fillers (hb i) h] at h
  | cons p ended =>
      rw [insertedFrom] at h
      rw [head?_laid_fillers (hb i) h] at h
      rwa [head?_laid_cons last p ended (insertedFrom blanks (i + 1) ended)]

theorem properBefore_insertedFrom {last : Bytes} {blanks : Nat → List Bytes}
    (hb : ∀ i, ∀ b ∈ blanks i, Filler b) {ended : List (Bytes × LineEnd)}
    (h : ProperBefore last ended) (i : Nat) :
    ProperBefore last (insertedFrom blanks i ended) := by
  induction ended generalizing i with
  | nil =>
      rw [insertedFrom_nil]
      exact properBefore_fillers (hb i) h
  | cons p ended ih =>
      obtain ⟨line, e⟩ := p
      obtain ⟨hl, he, hr⟩ := h
      refine properBefore_fillers (hb i) ⟨hl, fun hc hhead => ?_, ih hr (i + 1)⟩
      exact he hc (head?_insertedFrom hb hhead)

theorem lines_last {last : Bytes} {ended : List (Bytes × LineEnd)}
    (h : ProperBefore last ended) : lines last = [] ∨ lines last = [last] := by
  induction ended with
  | nil =>
      by_cases hlast : last = []
      · exact .inl (by rw [hlast, lines])
      · exact .inr (lines_of_noLineEnd h hlast)
  | cons p ended ih => exact ih h.2.2

theorem decodeLines_fillers {blanks : Nat → List Bytes} (hb : ∀ i, ∀ b ∈ blanks i, Filler b)
    (i : Nat) (ended : List (Bytes × LineEnd)) (rest : List Bytes) :
    decodeLines depth (i + 1 + added blanks i)
        (((blanks i).map (·, LineEnd.feed) ++ ended).map Prod.fst ++ rest) =
      decodeLines depth (i + 1 + added blanks (i + 1)) (ended.map Prod.fst ++ rest) := by
  have hfst : ((blanks i).map (·, LineEnd.feed)).map Prod.fst = blanks i := by
    rw [List.map_map]
    exact List.map_id' _
  rw [List.map_append, hfst, List.append_assoc, added_succ, ← Nat.add_assoc]
  exact decodeLines_all_blank (fun l hl => isBlankLine_of_filler (hb i l hl)) _ _

-- The line with number `n` has moved to `n + added blanks n`.
theorem decodeLines_insertedFrom {blanks : Nat → List Bytes} (hb : ∀ i, ∀ b ∈ blanks i, Filler b)
    {last : Bytes} {ended : List (Bytes × LineEnd)} (h : ProperBefore last ended) (i : Nat) :
    decodeLines depth (i + 1 + added blanks i) ((insertedFrom blanks i ended).map Prod.fst ++ lines last) =
      (decodeLines depth (i + 1) (ended.map Prod.fst ++ lines last)).mapError
        (·.renumbered fun n => n + added blanks n) := by
  induction ended generalizing i with
  | nil =>
      rw [insertedFrom_nil, decodeLines_fillers hb]
      simp only [List.map_nil, List.nil_append]
      rcases lines_last h with hl | hl
      · rw [hl]
        rfl
      · rw [hl]
        exact decodeLines_cons_renumbered (f := fun n => n + added blanks n) (n := i + 1) rfl last
  | cons p ended ih =>
      rw [insertedFrom, decodeLines_fillers hb]
      refine decodeLines_cons_renumbered (f := fun n => n + added blanks n) (n := i + 1) ?_ p.1
      refine Eq.trans ?_ (ih h.2.2 (i + 1))
      rw [Nat.add_right_comm (i + 1) (added blanks (i + 1))]
      rfl

theorem decode_insert {l : Layout} (h : l.Proper) {blanks : Nat → List Bytes}
    (hb : ∀ i, ∀ b ∈ blanks i, Filler b) :
    decode depth (l.insert blanks).bytes =
      (decode depth l.bytes).mapError (·.renumbered fun n => n + added blanks n) := by
  have hp : (l.insert blanks).Proper := properBefore_insertedFrom hb h 0
  rw [decode_bytes hp, decode_bytes h]
  exact decodeLines_insertedFrom hb h 0

end Layout

theorem eq_nil_of_lines {data : Bytes} (h : lines data = []) : data = [] := by
  obtain ⟨⟨ended, last⟩, hp, rfl⟩ := Layout.exists_layout data
  rw [Layout.bytes, Layout.lines_laid hp] at h
  obtain ⟨hended, hlast⟩ := List.append_eq_nil_iff.1 h
  cases List.map_eq_nil_iff.1 hended
  cases last with
  | nil => rfl
  | cons b last =>
      rw [lines_of_noLineEnd hp (List.cons_ne_nil b last)] at hlast
      cases hlast

/-- A trace that ends its last line does not run into what follows it. -/
theorem lines_append_of_getLast? {front : Bytes} (h : front = [] ∨ front.getLast? = some 0x0A)
    (back : Bytes) : lines (front ++ back) = lines front ++ lines back := by
  -- what is left of such a trace behind its first line ends its last line too
  have tail {b : UInt8} {r : Bytes} (h : b :: r = [] ∨ (b :: r).getLast? = some 0x0A) :
      r = [] ∨ r.getLast? = some 0x0A := by
    cases r with
    | nil => exact .inl rfl
    | cons c r => exact .inr (by simpa using h)
  fun_induction lines front with
  | case1 => rfl
  | case2 r ih =>
      rw [List.cons_append, lines.eq_def]
      simp [ih (tail h)]
  | case3 r _ ih =>
      rw [List.cons_append, List.cons_append, lines.eq_def]
      simp [ih (tail (tail h))]
  | case4 c r hc _ ih =>
      have hne : ((c :: r) ++ back).head? ≠ some 0x0A := fun e => hc (Option.some.inj e)
      rw [List.cons_append, lines_carriage hne, ih (tail h)]
      rfl
  | case5 => simp at h
  | case6 b r hf hc hr _ =>
      rw [eq_nil_of_lines hr] at h
      simp [hf] at h
  | case7 b r hf hc line rest hr ih =>
      have hl := ih (tail h)
      rw [hr] at hl
      exact lines_cons_of_cons ⟨hf, hc⟩ hl

/-- Traces are read line by line: a trace that ends its last line goes in front of any other, the ends of
lines make no difference, and lines of blanks do no more than move the numbers of the lines behind
them. -/
theorem decode_composes :
    (∀ front back : Bytes, front = [] ∨ front.getLast? = some 0x0A →
      (∀ x, decode depth front = .error x → decode depth (front ++ back) = .error x) ∧
      (∀ events events', decode depth front = .ok events → decode depth back = .ok events' →
        decode depth (front ++ back) = .ok (events ++ events')) ∧
      (∀ events x, decode depth front = .ok events → decode depth back = .error x →
        decode depth (front ++ back) = .error (x.renumbered ((lines front).length + ·)))) ∧
    (∀ data, ∃ l : Layout, l.Proper ∧ l.bytes = data) ∧
    (∀ (ls : List Bytes) (l l' : Layout), l.Spells ls → l'.Spells ls →
      decode depth l.bytes = decode depth l'.bytes) ∧
    (∀ (l : Layout) (blanks : Nat → List Bytes), l.Proper → (∀ i, ∀ b ∈ blanks i, Filler b) →
      decode depth (l.insert blanks).bytes = (decode depth l.bytes).mapError
        (·.renumbered fun n => n + ((List.range n).flatMap blanks).length)) := by
  refine ⟨fun front back h => ?_, Layout.exists_layout, fun ls l l' hl hl' => ?_,
    fun l blanks h hb => Layout.decode_insert h hb⟩
  · have happend : decode depth (front ++ back) = (decode depth front).bind fun events =>
        ((decode depth back).mapError (·.renumbered ((lines front).length + ·))).map (events ++ ·) := by
      rw [decode, lines_append_of_getLast? h, decodeLines_append, Nat.add_comm 1]
      simp only [decodeLines_add (lines front).length 1]
      rfl
    rw [happend]
    refine ⟨fun x hx => ?_, fun events events' he he' => ?_, fun events x he hx => ?_⟩
    · rw [hx]
      rfl
    · rw [he, he']
      rfl
    · rw [he, hx]
      rfl
  · rw [Layout.decode_of_spells hl, Layout.decode_of_spells hl']

def enterPressed : Event := ⟨2401, 5, 1, 28, 10, "\n", 2, some "desk"⟩

def enterReleased : Event := ⟨2402, 7, 0, 28, 10, "\n", 2, none⟩

/-- Two records in one trace and in two. A bad line keeps its number behind one of them, with either end of the
first line, and is moved by blank lines that are put before it. -/
theorem decode_composes_badRecord :
    decode usualDepth (trace [enterPressed] ++ trace [enterReleased]) = .ok [enterPressed, enterReleased] ∧
      decode usualDepth (trace [enterPressed] ++ [0x7B, 0x0D]) = .error (.badRecord 2 .syntaxError) ∧
      decode usualDepth (record enterPressed ++ [0x0D, 0x0A, 0x7B]) = .error (.badRecord 2 .syntaxError) ∧
      decode usualDepth (record enterPressed ++ [0x0D, 0x0B, 0x0A, 0x0C, 0x0A, 0x7B]) =
        .error (.badRecord 4 .syntaxError) := by
  obtain ⟨happend, -, hends, hinsert⟩ := @decode_composes usualDepth
  have hfiller : ∀ b ∈ ([[0x0B], [0x0C]] : List Bytes), Filler b := by decide
  have hblanks (i : Nat) : ∀ b ∈ if i = 1 then ([[0x0B], [0x0C]] : List Bytes) else [], Filler b := by
    split
    · exact hfiller
    · exact List.forall_mem_nil _
  -- Nothing depends on what the two events are, and their records are better not computed.
  have general (e e' : Event) (he : e.Recordable) (he' : e'.Recordable) :
      decode usualDepth (trace [e] ++ trace [e']) = .ok [e, e'] ∧
        decode usualDepth (trace [e] ++ [0x7B, 0x0D]) = .error (.badRecord 2 .syntaxError) ∧
        decode usualDepth (record e ++ [0x0D, 0x0A, 0x7B]) = .error (.badRecord 2 .syntaxError) ∧
        decode usualDepth (record e ++ [0x0D, 0x0B, 0x0A, 0x0C, 0x0A, 0x7B]) =
          .error (.badRecord 4 .syntaxError) := by
    have hend : (trace [e]).getLast? = some 0x0A := by rw [trace_singleton, List.getLast?_concat]
    have hlength : (lines (trace [e])).length = 1 := by
      rw [lines_trace_self]
      rfl
    have hd : decode usualDepth (trace [e]) = .ok [e] := decode_trace (by simpa using he)
    have hd' : decode usualDepth (trace [e']) = .ok [e'] := decode_trace (by simpa using he')
    obtain ⟨-, hok, -⟩ := happend (trace [e]) (trace [e']) (.inr hend)
    have hbehind (back : Bytes) (h : decode usualDepth back = .error (.badRecord 1 .syntaxError)) :
        decode usualDepth (trace [e] ++ back) = .error (.badRecord 2 .syntaxError) := by
      obtain ⟨-, -, herror⟩ := happend (trace [e]) back (.inr hend)
      have hx := herror _ _ hd h
      rwa [hlength] at hx
    have hlast : NoLineEnd [0x7B] := by decide
    have hproper (l : LineEnd) : Layout.Proper ⟨[(record e, l)], [0x7B]⟩ :=
      ⟨noLineEnd_record e, fun _ => nofun, hlast⟩
    have hsame (l : LineEnd) : decode usualDepth (Layout.bytes ⟨[(record e, l)], [0x7B]⟩) =
        .error (.badRecord 2 .syntaxError) := by
      have hfeed : Layout.bytes ⟨[(record e, .feed)], [0x7B]⟩ = trace [e] ++ [0x7B] := by
        rw [trace_singleton, List.append_assoc]
        rfl
      rw [hends [record e, [0x7B]] _ ⟨[(record e, .feed)], [0x7B]⟩ ⟨hproper l, .inr rfl⟩
        ⟨hproper .feed, .inr rfl⟩, hfeed]
      exact hbehind [0x7B] rfl
    have hmoved := hinsert _ _ (hproper .carriage) hblanks
    rw [hsame .carriage] at hmoved
    exact ⟨hok _ _ hd hd', hbehind _ rfl, hsame .both, hmoved⟩
  exact general enterPressed enterReleased (by decide) (by decide)

end Keystroke.Trace
