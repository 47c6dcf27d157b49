import Mathlib.Data.List.Perm.Subperm
import TestBench.Sorting

/-! Looking up named entries where no name stands twice, and putting them. -/
namespace TestBench.Named

variable {α : Type} {key : String} {a : α} {entries : List (String × α)}

theorem find?_cons (key : String) (e : String × α) (rest : List (String × α)) :
    find? key (e :: rest) = if e.1 = key then some e.2 else find? key rest := by
  by_cases h : e.1 = key <;> simp [find?, h]

theorem find?_eq_none_iff : find? key entries = none ↔ key ∉ entries.map (·.1) := by
  simp only [find?, Option.map_eq_none_iff, List.find?_eq_none, beq_iff_eq, List.mem_map,
    not_exists, not_and]

theorem mem_of_find?_eq_some (h : find? key entries = some a) : (key, a) ∈ entries := by
  obtain ⟨e, he, rfl⟩ := Option.map_eq_some_iff.mp h
  have hkey : e.1 = key := by simpa using List.find?_some he
  rw [← hkey]
  exact List.mem_of_find?_eq_some he

/-- An entry is found under its name when no other has that name. -/
theorem find?_eq_some_iff_mem (hkeys : (entries.map (·.1)).Nodup) :
    find? key entries = some a ↔ (key, a) ∈ entries := by
  refine ⟨mem_of_find?_eq_some, fun h => ?_⟩
  induction entries with
  | nil => cases h
  | cons e rest ih =>
    rw [List.map_cons, List.nodup_cons] at hkeys
    rw [find?_cons]
    rcases List.mem_cons.mp h with rfl | h
    · rw [if_pos rfl]
    · have hne : e.1 ≠ key := fun heq => hkeys.1 (heq ▸ List.mem_map_of_mem h)
      rw [if_neg hne, ih hkeys.2 h]

/-- As many names, all of them among the others, leave none of the others out. -/
theorem mem_keys_iff_of_subset {β : Type} {as : List (String × α)} {bs : List (String × β)}
    (hkeys : (as.map (·.1)).Nodup) (hlen : as.length = bs.length)
    (hsub : as.map (·.1) ⊆ bs.map (·.1)) : key ∈ as.map (·.1) ↔ key ∈ bs.map (·.1) := by
  have hperm := (List.Nodup.subperm hkeys hsub).perm_of_length_le (by simp [hlen])
  exact hperm.mem_iff

theorem put_of_notMem (a : α) (h : key ∉ entries.map (·.1)) :
    put key a entries = entries ++ [(key, a)] := by
  induction entries with
  | nil => rfl
  | cons e rest ih =>
    rw [List.map_cons, List.mem_cons, not_or] at h
    rw [put, if_neg (Ne.symm h.1), ih h.2, List.cons_append]

theorem keys_put (a : α) (h : key ∈ entries.map (·.1)) :
    (put key a entries).map (·.1) = entries.map (·.1) := by
  induction entries with
  | nil => cases h
  | cons e rest ih =>
    rw [put]
    split
    · rfl
    next hne =>
      rw [List.map_cons, List.mem_cons] at h
      rw [List.map_cons, List.map_cons, ih (h.resolve_left (Ne.symm hne))]

/-- A name that is there is put where it stands, whatever follows. -/
theorem put_append (a : α) (extra : List (String × α)) (h : key ∈ entries.map (·.1)) :
    put key a (entries ++ extra) = put key a entries ++ extra := by
  induction entries with
  | nil => cases h
  | cons e rest ih =>
    rw [List.cons_append, put, put]
    split
    · rfl
    next hne =>
      rw [List.map_cons, List.mem_cons] at h
      rw [ih (h.resolve_left (Ne.symm hne)), List.cons_append]

theorem mem_put (hkeys : (entries.map (·.1)).Nodup) {e : String × α} :
    e ∈ put key a entries ↔ e = (key, a) ∨ e ∈ entries ∧ e.1 ≠ key := by
  induction entries with
  | nil => simp [put]
  | cons d rest ih =>
    rw [List.map_cons, List.nodup_cons] at hkeys
    rw [put]
    split
    next heq =>
      have hrest : ∀ b ∈ rest, b.1 ≠ key := fun b hb hbk =>
        hkeys.1 (heq ▸ hbk ▸ List.mem_map_of_mem hb)
      rw [List.mem_cons, List.mem_cons, heq]
      constructor
      · rintro (rfl | he)
        · exact .inl rfl
        · exact .inr ⟨.inr he, hrest e he⟩
      · rintro (rfl | ⟨rfl | he, hne⟩)
        · exact .inl rfl
        · exact absurd heq hne
        · exact .inr he
    next hne =>
      rw [List.mem_cons, List.mem_cons, ih hkeys.2]
      constructor
      · rintro (rfl | rfl | he)
        · exact .inr ⟨.inl rfl, hne⟩
        · exact .inl rfl
        · exact .inr ⟨.inr he.1, he.2⟩
      · rintro (rfl | ⟨rfl | he, hk⟩)
        · exact .inr (.inl rfl)
        · exact .inl rfl
        · exact .inr (.inr ⟨he, hk⟩)

theorem of_mem_put {e : String × α} (h : e ∈ put key a entries) : e = (key, a) ∨ e ∈ entries := by
  induction entries with
  | nil => exact .inl (List.mem_singleton.mp h)
  | cons d rest ih =>
    rw [put] at h
    split at h
    next heq =>
      rcases List.mem_cons.mp h with rfl | h
      · exact .inl (by rw [heq])
      · exact .inr (List.mem_cons_of_mem _ h)
    next =>
      rcases List.mem_cons.mp h with rfl | h
      · exact .inr List.mem_cons_self
      · exact (ih h).imp_right (List.mem_cons_of_mem _)

/-- Entries put one after the other. -/
def putAll (entries given : List (String × α)) : List (String × α) :=
  given.foldl (fun done e => put e.1 e.2 done) entries

theorem putAll_cons (entries given : List (String × α)) (e : String × α) :
    putAll entries (e :: given) = putAll (put e.1 e.2 entries) given := rfl

theorem of_mem_putAll {given : List (String × α)} {e : String × α}
    (h : e ∈ putAll entries given) : e ∈ entries ∨ e ∈ given := by
  induction given generalizing entries with
  | nil => exact .inl h
  | cons d rest ih =>
    rcases ih h with h | h
    · exact (of_mem_put h).elim (fun heq => .inr (heq ▸ List.mem_cons_self)) .inl
    · exact .inr (List.mem_cons_of_mem _ h)

/-- Of entries put one after the other, those whose names are there go to their places and the
others to the end in their order. -/
theorem putAll_append (own extra given : List (String × α))
    (hextra : ((extra ++ given).map (·.1)).Nodup) (hnew : ∀ e ∈ extra, e.1 ∉ own.map (·.1)) :
    putAll (own ++ extra) given =
      putAll own (given.filter fun e => e.1 ∈ own.map (·.1)) ++
        (extra ++ given.filter fun e => e.1 ∉ own.map (·.1)) := by
  induction given generalizing own extra with
  | nil => simp [putAll]
  | cons e rest ih =>
    rw [putAll_cons]
    -- putting never changes the names of `own`, so the entries are parted as they were
    by_cases he : e.1 ∈ own.map (·.1)
    · have hkeys : (put e.1 e.2 own).map (·.1) = own.map (·.1) := keys_put e.2 he
      have hrest : ((extra ++ rest).map (·.1)).Nodup :=
        hextra.sublist (((List.sublist_cons_self e rest).append_left extra).map _)
      rw [put_append e.2 extra he, ih (put e.1 e.2 own) extra hrest (hkeys ▸ hnew), hkeys,
        List.filter_cons_of_pos (by simpa using he), List.filter_cons_of_neg (by simpa using he),
        putAll_cons]
    · have hfresh : e.1 ∉ (own ++ extra).map (·.1) := by
        rw [List.map_append, List.mem_append, not_or]
        refine ⟨he, fun hmem => ?_⟩
        rw [List.map_append, List.nodup_append] at hextra
        exact hextra.2.2 e.1 hmem e.1 (by simp) rfl
      have hrest : (((extra ++ [e]) ++ rest).map (·.1)).Nodup := by simpa using hextra
      have hnew' : ∀ d ∈ extra ++ [e], d.1 ∉ own.map (·.1) := by
        intro d hd
        rcases List.mem_append.mp hd with hd | hd
        · exact hnew d hd
        · exact List.mem_singleton.mp hd ▸ he
      rw [put_of_notMem e.2 hfresh, List.append_assoc, ih own (extra ++ [e]) hrest hnew',
        List.filter_cons_of_neg (by simpa using he), List.filter_cons_of_pos (by simpa using he),
        List.append_assoc, List.singleton_append]

/-- Entries of different names are put in their own order. -/
theorem putAll_nil (hkeys : (entries.map (·.1)).Nodup) : putAll [] entries = entries := by
  have hsplit := putAll_append [] [] entries hkeys (by simp)
  simpa [putAll] using hsplit

end TestBench.Named
