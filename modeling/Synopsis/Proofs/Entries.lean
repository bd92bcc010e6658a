import Synopsis.Entries

/-!
Entries under names. A value that is put under a known name takes the place of the one before, under a
new name it goes to the end; either way it is what is found there, and nothing else is disturbed.
-/
namespace Synopsis

variable {α : Type}

theorem map_fst_entered (entries : List (String × α)) (name : String) (v : α) :
    (entered entries name v).map (·.1) =
      if name ∈ entries.map (·.1) then entries.map (·.1) else entries.map (·.1) ++ [name] := by
  have hany : entries.any (·.1 == name) = true ↔ name ∈ entries.map (·.1) := by simp
  unfold entered
  simp only [hany]
  split
  · rw [List.map_map]
    apply List.map_congr_left
    intro e _
    by_cases he : e.1 = name <;> simp [he]
  · simp

theorem nodup_entered {entries : List (String × α)} (h : (entries.map (·.1)).Nodup)
    (name : String) (v : α) : ((entered entries name v).map (·.1)).Nodup := by
  rw [map_fst_entered]
  split
  · exact h
  next hn =>
    rw [List.nodup_append]
    refine ⟨h, by simp, ?_⟩
    rintro a ha b hb rfl
    rw [List.mem_singleton] at hb
    exact hn (hb ▸ ha)

theorem entered_cons_of_ne {e : String × α} {name : String} (h : e.1 ≠ name)
    (entries : List (String × α)) (v : α) :
    entered (e :: entries) name v = e :: entered entries name v := by
  unfold entered
  simp only [List.any_cons, beq_eq_false_iff_ne.mpr h, Bool.false_or]
  split <;> simp [h]

theorem entered_cons_self (w : α) (name : String) (entries : List (String × α)) (v : α) :
    entered ((name, w) :: entries) name v =
      (name, v) :: entries.map fun e => if e.1 == name then (name, v) else e := by
  simp [entered]

theorem lookup_cons_eq_ite (name key : String) (v : α) (entries : List (String × α)) :
    ((name, v) :: entries).lookup key = if key = name then some v else entries.lookup key := by
  rw [List.lookup_cons]
  by_cases h : key = name
  · rw [if_pos h, beq_iff_eq.mpr h]
  · rw [if_neg h, beq_eq_false_iff_ne.mpr h]

theorem lookup_replaced {name key : String} (v : α) (h : key ≠ name)
    (entries : List (String × α)) :
    (entries.map fun e => if e.1 == name then (name, v) else e).lookup key = entries.lookup key := by
  induction entries with
  | nil => rfl
  | cons e entries ih =>
    obtain ⟨first, w⟩ := e
    rw [List.map_cons]
    by_cases he : first = name
    · rw [he, if_pos (beq_self_eq_true name), lookup_cons_eq_ite, lookup_cons_eq_ite, ih, if_neg h,
        if_neg h]
    · rw [if_neg (by simpa using he), lookup_cons_eq_ite, lookup_cons_eq_ite, ih]

/-- A value is found under its name; what is found under other names is as before. -/
theorem lookup_entered (entries : List (String × α)) (name key : String) (v : α) :
    (entered entries name v).lookup key = if key = name then some v else entries.lookup key := by
  induction entries with
  | nil => exact lookup_cons_eq_ite ..
  | cons e entries ih =>
    obtain ⟨first, w⟩ := e
    by_cases he : first = name
    · rw [he, entered_cons_self, lookup_cons_eq_ite, lookup_cons_eq_ite]
      split
      · rfl
      next hk => exact lookup_replaced v hk entries
    · rw [entered_cons_of_ne he, lookup_cons_eq_ite, lookup_cons_eq_ite, ih]
      by_cases hk : key = name
      · rw [if_pos hk, if_pos hk, if_neg fun hf => he (hf.symm.trans hk)]
      · rw [if_neg hk, if_neg hk]

theorem overlay_cons (old : List (String × α)) (e : String × α) (new : List (String × α)) :
    overlay old (e :: new) = overlay (entered old e.1 e.2) new := rfl

theorem overlay_concat (old new : List (String × α)) (name : String) (v : α) :
    overlay old (new ++ [(name, v)]) = entered (overlay old new) name v := by
  rw [overlay, List.foldl_append]
  rfl

/-- Of the entries put in, the last one of a name is found. -/
theorem lookup_overlay (old new : List (String × α)) (key : String) :
    (overlay old new).lookup key = (new.reverse.lookup key).or (old.lookup key) := by
  induction new generalizing old with
  | nil => rfl
  | cons e new ih =>
    rw [overlay_cons, ih, lookup_entered, List.reverse_cons, List.lookup_append, Option.or_assoc,
      lookup_cons_eq_ite]
    split <;> rfl

end Synopsis
