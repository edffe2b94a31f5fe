import Keystroke.Text

namespace Keystroke

/-- Identifiers in the order in which they first came. -/
structure Labels where
  entries : List (Text × Text)
  distinct : (entries.map Prod.fst).Nodup

namespace Labels

def empty : Labels := ⟨[], List.nodup_nil⟩

instance : Inhabited Labels := ⟨empty⟩

def find? (l : Labels) (id : Text) : Option Text := (l.entries.find? (·.1 == id)).map (·.2)

def put (id label : Text) : List (Text × Text) → List (Text × Text)
  | [] => [(id, label)]
  | e :: es => if e.1 = id then (id, label) :: es else e :: put id label es

theorem fst_put_of_mem {id : Text} (label : Text) {es : List (Text × Text)}
    (h : id ∈ es.map Prod.fst) : (put id label es).map Prod.fst = es.map Prod.fst := by
  induction es with
  | nil => cases h
  | cons e es ih =>
    by_cases he : e.1 = id
    · simp [put, he]
    · simp only [put, he, if_false, List.map_cons, List.cons.injEq, true_and]
      exact ih ((List.mem_cons.1 h).resolve_left (fun h => he h.symm))

theorem fst_put_of_notMem {id : Text} (label : Text) {es : List (Text × Text)}
    (h : id ∉ es.map Prod.fst) : (put id label es).map Prod.fst = es.map Prod.fst ++ [id] := by
  induction es with
  | nil => rfl
  | cons e es ih =>
    simp only [List.map_cons, List.mem_cons, not_or] at h
    simp [put, Ne.symm h.1, ih h.2]

theorem nodup_put (id label : Text) {es : List (Text × Text)} (h : (es.map Prod.fst).Nodup) :
    ((put id label es).map Prod.fst).Nodup := by
  by_cases hm : id ∈ es.map Prod.fst
  · rwa [fst_put_of_mem label hm]
  · rw [fst_put_of_notMem label hm]
    exact List.nodup_append.2 ⟨h, by simp, fun a ha b hb e => hm (by simp_all)⟩

def set (l : Labels) (id label : Text) : Labels :=
  ⟨put id label l.entries, nodup_put _ _ l.distinct⟩

theorem find?_put (id label : Text) (es : List (Text × Text)) (key : Text) :
    ((put id label es).find? (·.1 == key)).map (·.2) =
      if id = key then some label else (es.find? (·.1 == key)).map (·.2) := by
  induction es with
  | nil => by_cases h : id = key <;> simp [put, h]
  | cons e es ih =>
    by_cases he : e.1 = id
    · by_cases h : id = key <;> simp [put, he, h]
    · by_cases hk : e.1 = key
      · subst hk
        simp [put, he, Ne.symm he]
      · simp [put, he, hk, ih]

theorem find?_set (l : Labels) (id label key : Text) :
    (l.set id label).find? key = if id = key then some label else l.find? key :=
  find?_put id label l.entries key

/-- Of two labels for one identifier the later counts, in the place of the earlier. -/
def ofList (entries : List (Text × Text)) : Labels := entries.foldl (fun l e => l.set e.1 e.2) empty

def resolve (l : Labels) (id byDefault : Text) : Text := (l.find? id).getD byDefault

end Labels

end Keystroke
