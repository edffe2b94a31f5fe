import Keystroke.Files
import Keystroke.Proofs.Result

namespace Keystroke.Files

theorem find?_put (p : Path) (data : Bytes) (es : List (Path × Bytes)) :
    ((put p data es).find? (·.1 == p)).map (·.2) = some data := by
  induction es with
  | nil => simp [put]
  | cons e es ih =>
      rw [put]
      split
      · simp
      · rename_i he
        rw [List.find?_cons_of_neg (by simpa using he), ih]

theorem find?_put_of_ne {p q : Path} (h : q ≠ p) (data : Bytes) (es : List (Path × Bytes)) :
    ((put p data es).find? (·.1 == q)).map (·.2) = (es.find? (·.1 == q)).map (·.2) := by
  induction es with
  | nil => simp [put, Ne.symm h]
  | cons e es ih =>
      rw [put]
      split
      · rename_i he
        rw [List.find?_cons_of_neg (by simpa using Ne.symm h),
          List.find?_cons_of_neg (by simpa [he] using Ne.symm h)]
      · by_cases hq : e.1 = q
        · rw [List.find?_cons_of_pos (by simpa using hq), List.find?_cons_of_pos (by simpa using hq)]
        · rw [List.find?_cons_of_neg (by simpa using hq), List.find?_cons_of_neg (by simpa using hq), ih]

theorem put_put (p : Path) (data data' : Bytes) (es : List (Path × Bytes)) :
    put p data' (put p data es) = put p data' es := by
  induction es with
  | nil => simp [put]
  | cons e es ih =>
      by_cases he : e.1 = p
      · simp [put, he]
      · simp [put, he, ih]

theorem mem_put_of_mem {p : Path} {data : Bytes} {es : List (Path × Bytes)} {e : Path × Bytes}
    (h : e ∈ es) : ∃ e' ∈ put p data es, e'.1 = e.1 := by
  induction es with
  | nil => cases h
  | cons d es ih =>
      rw [put]
      rcases List.mem_cons.1 h with rfl | h
      · split
        · exact ⟨_, List.mem_cons_self, Eq.symm ‹_›⟩
        · exact ⟨_, List.mem_cons_self, rfl⟩
      · obtain ⟨e', he', hp⟩ := ih h
        split
        · exact ⟨e, List.mem_cons_of_mem _ h, rfl⟩
        · exact ⟨e', List.mem_cons_of_mem _ he', hp⟩

theorem eq_or_mem_of_mem_put {p : Path} {data : Bytes} {es : List (Path × Bytes)} {e : Path × Bytes}
    (h : e ∈ put p data es) : e.1 = p ∨ e ∈ es := by
  induction es with
  | nil => exact .inl (congrArg Prod.fst (List.mem_singleton.1 h))
  | cons d es ih =>
      rw [put] at h
      split at h
      · rcases List.mem_cons.1 h with rfl | h
        · exact .inl rfl
        · exact .inr (List.mem_cons_of_mem d h)
      · rcases List.mem_cons.1 h with rfl | h
        · exact .inr List.mem_cons_self
        · exact (ih h).imp_right (List.mem_cons_of_mem d)

theorem isDirectory_iff {f : Files} {p : Path} :
    f.isDirectory p = true ↔
      ∃ e ∈ f.entries, e.1.root = p.root ∧ p.parts <+: e.1.parts ∧ e.1 ≠ p := by
  simp [isDirectory, List.any_eq_true, and_assoc]

theorem walk_cons {f : Files} {p place : Path} {here rest : List Text} {part : Text}
    (h : f.walk p here (part :: rest) = .ok place) :
    part = ".." ∧ f.walk p (above p.root here) rest = .ok place ∨
      part ≠ ".." ∧ f.isDirectory ⟨p.root, here ++ [part]⟩ = true ∧
        f.walk p (here ++ [part]) rest = .ok place ∨
      part ≠ ".." ∧ f.isDirectory ⟨p.root, here ++ [part]⟩ = false ∧ rest = [] ∧
        place = ⟨p.root, here ++ [part]⟩ := by
  rw [walk] at h
  dsimp only at h
  by_cases hup : part = ".."
  · rw [if_pos hup] at h
    exact .inl ⟨hup, h⟩
  rw [if_neg hup] at h
  cases hd : f.isDirectory ⟨p.root, here ++ [part]⟩ with
  | true =>
      rw [if_pos hd] at h
      exact .inr (.inl ⟨hup, rfl, h⟩)
  | false =>
      rw [if_neg (by rw [hd]; exact Bool.false_ne_true)] at h
      by_cases hr : rest = []
      · rw [if_pos hr] at h
        cases h
        exact .inr (.inr ⟨hup, rfl, hr, rfl⟩)
      · rw [if_neg hr] at h
        split at h <;> cases h

/-- The directories above a place are there. Those outside are not known, and are left by `..` alone. -/
def Reached (f : Files) (root : Text) (here : List Text) : Prop :=
  ∀ (before : List Text) (part : Text), part ≠ ".." → before ++ [part] <+: here →
    f.isDirectory ⟨root, before ++ [part]⟩ = true

variable {f : Files} {root : Text} {here : List Text}

theorem reached_nil : Reached f root [] := by
  intro before part _ h
  exact absurd (List.prefix_nil.1 h) (List.append_ne_nil_of_right_ne_nil before (List.cons_ne_nil part []))

theorem Reached.of_prefix (h : Reached f root here) {here' : List Text} (hp : here' <+: here) :
    Reached f root here' :=
  fun before part hpart hpre => h before part hpart (hpre.trans hp)

theorem reached_append_iff {part : Text} :
    Reached f root (here ++ [part]) ↔
      Reached f root here ∧ (part ≠ ".." → f.isDirectory ⟨root, here ++ [part]⟩ = true) := by
  constructor
  · exact fun h => ⟨h.of_prefix (List.prefix_append _ _), fun hpart => h here part hpart List.prefix_rfl⟩
  · rintro ⟨h, hd⟩ before last hlast hpre
    rcases List.prefix_concat_iff.1 hpre with he | hpre
    · obtain ⟨rfl, hpart⟩ := List.append_inj' he rfl
      obtain rfl := List.singleton_inj.1 hpart
      exact hd hlast
    · exact h before last hlast hpre

theorem Reached.above (h : Reached f root here) : Reached f root (above root here) := by
  rw [Files.above]
  split
  · exact reached_append_iff.2 ⟨h, fun hup => absurd rfl hup⟩
  · exact h.of_prefix (List.dropLast_prefix here)

theorem reached_of_walk {p place : Path} {parts : List Text} (hr : Reached f p.root here)
    (h : f.walk p here parts = .ok place) :
    ∃ before part, Reached f p.root before ∧ place = ⟨p.root, before ++ [part]⟩ := by
  induction parts generalizing here with
  | nil => cases h
  | cons part rest ih =>
      rcases walk_cons h with ⟨-, h⟩ | ⟨-, hd, h⟩ | ⟨-, -, -, rfl⟩
      · exact ih hr.above h
      · exact ih (reached_append_iff.2 ⟨hr, fun _ => hd⟩) h
      · exact ⟨here, part, hr, rfl⟩

/-- A write makes no directory and takes none away. -/
theorem isDirectory_put {name : Text} (h : Reached f root here) {before : List Text} {last : Text}
    (hlast : last ≠ "..") (data : Bytes) (root' : Text) :
    isDirectory ⟨put ⟨root, here ++ [name]⟩ data f.entries⟩ ⟨root', before ++ [last]⟩ =
      f.isDirectory ⟨root', before ++ [last]⟩ := by
  rw [Bool.eq_iff_iff]
  constructor
  · intro hd
    obtain ⟨e, he, hroot, hpre, hne⟩ := isDirectory_iff.1 hd
    rcases eq_or_mem_of_mem_put he with hplace | he
    · rw [hplace] at hroot hpre hne
      obtain rfl : root = root' := hroot
      rcases List.prefix_concat_iff.1 hpre with hparts | hpre
      · exact absurd (congrArg (Path.mk root) hparts.symm) hne
      · exact h before last hlast hpre
    · exact isDirectory_iff.2 ⟨e, he, hroot, hpre, hne⟩
  · intro hd
    obtain ⟨e, he, hroot, hpre, hne⟩ := isDirectory_iff.1 hd
    obtain ⟨e', he', hp⟩ := mem_put_of_mem he
    exact isDirectory_iff.2 ⟨e', he', by rw [hp]; exact ⟨hroot, hpre, hne⟩⟩

/-- The way to a place depends on the directories alone. -/
theorem walk_eq_ok_iff {f' : Files} {p place : Path} {here parts : List Text}
    (hd : ∀ (before : List Text) (part : Text), part ≠ ".." →
      f'.isDirectory ⟨p.root, before ++ [part]⟩ = f.isDirectory ⟨p.root, before ++ [part]⟩) :
    f'.walk p here parts = .ok place ↔ f.walk p here parts = .ok place := by
  induction parts generalizing here with
  | nil => simp [walk]
  | cons part rest ih =>
      rw [walk, walk]
      dsimp only
      by_cases hup : part = ".."
      · rw [if_pos hup, if_pos hup]
        exact ih
      rw [if_neg hup, if_neg hup, hd here part hup]
      by_cases hdir : f.isDirectory ⟨p.root, here ++ [part]⟩ = true
      · rw [if_pos hdir, if_pos hdir]
        exact ih
      rw [if_neg hdir, if_neg hdir]
      by_cases hr : rest = []
      · rw [if_pos hr, if_pos hr]
      · -- only which error it is depends on the files
        rw [if_neg hr, if_neg hr]
        constructor
        · intro h
          split at h <;> cases h
        · intro h
          split at h <;> cases h

theorem locate_eq_ok_iff {p place : Path} :
    f.locate p = .ok place ↔ p.hasBytes = true ∧ p.hasNul = false ∧ f.walk p [] p.parts = .ok place := by
  rw [locate]
  cases p.hasBytes <;> cases p.hasNul <;> simp

theorem locate_put {p place : Path} (h : f.locate p = .ok place) (data : Bytes) (q place' : Path) :
    locate ⟨put place data f.entries⟩ q = .ok place' ↔ f.locate q = .ok place' := by
  obtain ⟨-, -, hwalk⟩ := locate_eq_ok_iff.1 h
  obtain ⟨before, name, hreached, rfl⟩ := reached_of_walk reached_nil hwalk
  rw [locate_eq_ok_iff, locate_eq_ok_iff,
    walk_eq_ok_iff fun before' part hpart => isDirectory_put hreached hpart data q.root]

theorem read_eq_ok_iff {p : Path} {data : Bytes} :
    f.read p = .ok data ↔ ∃ place, f.locate p = .ok place ∧ f.find? place = some data := by
  constructor
  · intro h
    obtain ⟨place, hplace, h⟩ := exists_of_bind h
    cases hf : f.find? place with
    | none => simp [hf] at h
    | some data' =>
        simp only [hf, Except.ok.injEq] at h
        exact ⟨place, hplace, h ▸ hf⟩
  · rintro ⟨place, hplace, hf⟩
    rw [read, hplace]
    simp only [bind, Except.bind, hf]

theorem write_eq_ok_iff {f' : Files} {p : Path} {data : Bytes} :
    f.write p data = .ok f' ↔ ∃ place, f.locate p = .ok place ∧ f' = ⟨put place data f.entries⟩ := by
  constructor
  · intro h
    obtain ⟨place, hplace, h⟩ := exists_of_bind h
    exact ⟨place, hplace, (Except.ok.inj h).symm⟩
  · rintro ⟨place, hplace, rfl⟩
    rw [write, hplace]
    rfl

theorem locate_of_write {f f' : Files} {p : Path} {data : Bytes} (h : f.write p data = .ok f') :
    ∃ place, f'.locate p = .ok place ∧ f'.find? place = some data := by
  obtain ⟨place, hplace, rfl⟩ := write_eq_ok_iff.1 h
  exact ⟨place, (locate_put hplace data p place).2 hplace, find?_put place data f.entries⟩

theorem read_of_write {f f' : Files} {p : Path} {data : Bytes} (h : f.write p data = .ok f') :
    f'.read p = .ok data :=
  read_eq_ok_iff.2 (locate_of_write h)

theorem read_of_write_of_ne {f' : Files} {p place q : Path} {data data' : Bytes}
    (h : f.write p data = .ok f') (hp : f.locate p = .ok place) (hq : f.locate q ≠ .ok place) :
    f'.read q = .ok data' ↔ f.read q = .ok data' := by
  obtain ⟨place, hplace, rfl⟩ := write_eq_ok_iff.1 h
  cases hp.symm.trans hplace
  rw [read_eq_ok_iff, read_eq_ok_iff]
  refine exists_congr fun there => ?_
  rw [locate_put hplace]
  refine and_congr_right fun hthere => ?_
  have hne : there ≠ place := by
    rintro rfl
    exact hq hthere
  rw [find?, find?, find?_put_of_ne hne]

theorem openToWrite_of_ok {p place : Path} (h : f.locate p = .ok place) :
    openToWrite p f = .ok place ⟨put place [] f.entries⟩ := by
  simp only [openToWrite, h]

theorem openToWrite_of_error {p : Path} {e : FileError} (h : f.locate p = .error e) :
    openToWrite p f = .error e f := by
  simp only [openToWrite, h]

theorem exists_write_of_locate {f : Files} {p place : Path} (h : f.locate p = .ok place)
    (data : Bytes) : ∃ f', f.write p data = .ok f' :=
  ⟨_, write_eq_ok_iff.2 ⟨place, h, rfl⟩⟩

end Keystroke.Files
