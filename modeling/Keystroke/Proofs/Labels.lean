import Keystroke.Labels

namespace Keystroke.Labels

theorem ext_entries {l l' : Labels} (h : l.entries = l'.entries) : l = l' := by
  cases l
  cases l'
  cases h
  rfl

theorem put_of_notMem {id : Text} (label : Text) {es : List (Text × Text)}
    (h : id ∉ es.map Prod.fst) : put id label es = es ++ [(id, label)] := by
  induction es with
  | nil => rfl
  | cons e es ih =>
      simp only [List.map_cons, List.mem_cons, not_or] at h
      rw [put, if_neg (Ne.symm h.1), ih h.2]
      rfl

theorem mem_put {id label : Text} {es : List (Text × Text)} {e : Text × Text}
    (h : e ∈ put id label es) : e = (id, label) ∨ e ∈ es := by
  induction es with
  | nil => exact .inl (List.mem_singleton.1 h)
  | cons d es ih =>
      rw [put] at h
      split at h
      · exact (List.mem_cons.1 h).imp_right (List.mem_cons_of_mem d)
      · rcases List.mem_cons.1 h with rfl | h
        · exact .inr List.mem_cons_self
        · exact (ih h).imp_right (List.mem_cons_of_mem d)

def setAll (l : Labels) (es : List (Text × Text)) : Labels := es.foldl (fun l e => l.set e.1 e.2) l

theorem setAll_cons (l : Labels) (e : Text × Text) (es : List (Text × Text)) :
    l.setAll (e :: es) = (l.set e.1 e.2).setAll es := rfl

theorem ofList_eq (es : List (Text × Text)) : ofList es = empty.setAll es := rfl

theorem entries_setAll (l : Labels) (es : List (Text × Text)) :
    (l.setAll es).entries = es.foldl (fun es e => put e.1 e.2 es) l.entries := by
  induction es generalizing l with
  | nil => rfl
  | cons e es ih => exact ih (l.set e.1 e.2)

theorem mem_setAll {l : Labels} {es : List (Text × Text)} {e : Text × Text}
    (h : e ∈ (l.setAll es).entries) : e ∈ l.entries ∨ e ∈ es := by
  induction es generalizing l with
  | nil => exact .inl h
  | cons d es ih =>
      rcases ih h with h | h
      · rcases mem_put h with rfl | h
        · exact .inr List.mem_cons_self
        · exact .inl h
      · exact .inr (List.mem_cons_of_mem d h)

theorem entries_setAll_of_nodup {l : Labels} {es : List (Text × Text)}
    (h : ((l.entries ++ es).map Prod.fst).Nodup) : (l.setAll es).entries = l.entries ++ es := by
  induction es generalizing l with
  | nil => exact (List.append_nil _).symm
  | cons e es ih =>
      have hmem : e.1 ∉ l.entries.map Prod.fst := by
        rw [List.map_append, List.map_cons, List.nodup_append] at h
        exact fun hm => h.2.2 _ hm _ List.mem_cons_self rfl
      have hset : (l.set e.1 e.2).entries = l.entries ++ [e] := put_of_notMem e.2 hmem
      rw [setAll_cons, ih (by rw [hset]; simpa using h), hset]
      simp

theorem ofList_entries (l : Labels) : ofList l.entries = l := by
  have h : ((empty.entries ++ l.entries).map Prod.fst).Nodup := l.distinct
  exact ext_entries (entries_setAll_of_nodup h)

theorem ids_set (l : Labels) (id label : Text) (ids : List Text) :
    ((l.set id label).entries.map Prod.fst ++ ids).eraseDups =
      (l.entries.map Prod.fst ++ id :: ids).eraseDups := by
  by_cases h : id ∈ l.entries.map Prod.fst
  · have hput : (l.set id label).entries.map Prod.fst = l.entries.map Prod.fst := fst_put_of_mem label h
    rw [hput, List.eraseDups_append, List.eraseDups_append]
    congr 2
    simp [List.removeAll, h]
  · have hput : (l.set id label).entries.map Prod.fst = l.entries.map Prod.fst ++ [id] :=
      fst_put_of_notMem label h
    rw [hput, List.append_assoc]
    rfl

theorem eraseDups_of_nodup {ids : List Text} (h : ids.Nodup) : ids.eraseDups = ids := by
  induction ids with
  | nil => rfl
  | cons id ids ih =>
      obtain ⟨hid, hids⟩ := List.nodup_cons.1 h
      have hfilter : ids.filter (fun x => !x == id) = ids :=
        List.filter_eq_self.2 fun x hx => by simpa using fun e : x = id => hid (e ▸ hx)
      rw [List.eraseDups_cons, hfilter, ih hids]

/-- An identifier stands where it first came. -/
theorem ids_setAll (l : Labels) (es : List (Text × Text)) :
    (l.setAll es).entries.map Prod.fst = (l.entries.map Prod.fst ++ es.map Prod.fst).eraseDups := by
  induction es generalizing l with
  | nil =>
      rw [List.map_nil, List.append_nil, eraseDups_of_nodup l.distinct]
      rfl
  | cons e es ih => rw [setAll_cons, ih, ids_set, List.map_cons]

/-- Its label is the one that was set last. -/
theorem find?_setAll (l : Labels) (es : List (Text × Text)) (id : Text) :
    (l.setAll es).find? id =
      ((es.reverse.find? (·.1 == id)).map Prod.snd).or (l.find? id) := by
  induction es generalizing l with
  | nil => rfl
  | cons e es ih =>
      rw [setAll_cons, ih, find?_set, List.reverse_cons, List.find?_append]
      cases es.reverse.find? (·.1 == id) with
      | some d => rfl
      | none => by_cases he : e.1 = id <;> simp [he]

end Keystroke.Labels
