import TestBench.Proofs.Config.Equality

/-! Looking entries up by key and putting them, and what both keep. -/
namespace TestBench.Config.Tree

variable {α : Type} {key value : Tree} {entries : List (Tree × Tree)}

theorem find?_cons (key : Tree) (e : Tree × α) (rest : List (Tree × α)) :
    find? key (e :: rest) = if e.1.same key then some e.2 else find? key rest := by
  by_cases h : e.1.same key = true <;> simp [find?, h]

theorem find?_append (key : Tree) (as bs : List (Tree × α)) :
    find? key (as ++ bs) = (find? key as).or (find? key bs) := by
  simp only [find?, List.find?_append, Option.map_or]

theorem find?_eq_none_iff {entries : List (Tree × α)} :
    find? key entries = none ↔ ∀ e ∈ entries, e.1.same key = false := by
  simp [find?]

theorem exists_of_find?_eq_some {entries : List (Tree × α)} {a : α}
    (h : find? key entries = some a) : ∃ k, (k, a) ∈ entries ∧ k.same key = true := by
  obtain ⟨e, he, rfl⟩ := Option.map_eq_some_iff.mp h
  exact ⟨e.1, List.mem_of_find?_eq_some he, by simpa using List.find?_some he⟩

/-- Equal keys find the same. -/
theorem find?_congr {a b : Tree} (hab : a.same b = true) (hba : b.same a = true)
    (entries : List (Tree × α)) : find? a entries = find? b entries := by
  have hpred : (fun e : Tree × α => e.1.same a) = fun e => e.1.same b :=
    funext fun e => same_congr_right hab hba e.1
  rw [find?, find?, hpred]

/-- The value under a key that is there is the one its entry holds, however the key is spelled. -/
theorem find?_eq_of_mem {e : Tree × α} {entries : List (Tree × α)}
    (hkeys : entries.Pairwise fun a b => b.1.same a.1 = false) (he : e ∈ entries)
    (hd : ∀ a ∈ entries, a.1.distinct = true)
    (h : e.1.same key = true) : find? key entries = some e.2 := by
  induction entries with
  | nil => cases he
  | cons a rest ih =>
    rw [List.pairwise_cons] at hkeys
    rw [find?_cons]
    rcases List.mem_cons.mp he with rfl | he
    · rw [if_pos h]
    · have hne : ¬a.1.same key = true := fun ha =>
        Bool.false_ne_true ((hkeys.1 e he).symm.trans
          (same_trans h (same_symm (hd a List.mem_cons_self) ha)))
      rw [if_neg hne]
      exact ih hkeys.2 he fun a ha => hd a (List.mem_cons_of_mem _ ha)

/-- A key that is not there is looked for further on. -/
theorem put_append_of_find?_eq_none (value : Tree) {more : List (Tree × Tree)}
    (h : find? key entries = none) :
    put key value (entries ++ more) = entries ++ put key value more := by
  rw [find?_eq_none_iff] at h
  induction entries with
  | nil => rfl
  | cons e rest ih =>
    simp only [List.forall_mem_cons] at h
    simp [put, h.1, ih h.2]

theorem put_of_find?_eq_none (value : Tree) (h : find? key entries = none) :
    put key value entries = entries ++ [(key, value)] := by
  have happend : put key value (entries ++ []) = entries ++ put key value [] :=
    put_append_of_find?_eq_none value h
  rwa [List.append_nil] at happend

/-- Putting under a key that is there changes the value of its entry and nothing else. -/
theorem put_of_mem (value : Tree)
    (hkeys : entries.Pairwise fun a b => b.1.same a.1 = false)
    (hd : ∀ a ∈ entries, a.1.distinct = true)
    (h : ∃ e ∈ entries, e.1.same key = true) :
    put key value entries =
      entries.map fun e => if e.1.same key then (e.1, value) else e := by
  induction entries with
  | nil => simp at h
  | cons a rest ih =>
    rw [List.pairwise_cons] at hkeys
    by_cases ha : a.1.same key = true
    · have hrest : ∀ e ∈ rest, ¬e.1.same key = true := fun e he hek =>
        Bool.false_ne_true ((hkeys.1 e he).symm.trans
          (same_trans hek (same_symm (hd a List.mem_cons_self) ha)))
      have hmap : rest.map (fun e => if e.1.same key then (e.1, value) else e) = rest := by
        conv_rhs => rw [← List.map_id rest]
        exact List.map_congr_left fun e he => by simp [hrest e he]
      simp [put, ha, hmap]
    · obtain ⟨e, he, hek⟩ := h
      have hrest : e ∈ rest := (List.mem_cons.mp he).resolve_left (by rintro rfl; exact ha hek)
      simp [put, ha, ih hkeys.2 (fun a ha => hd a (List.mem_cons_of_mem _ ha)) ⟨e, hrest, hek⟩]

theorem put_append_of_mem (value : Tree) {more : List (Tree × Tree)}
    (h : ∃ e ∈ entries, e.1.same key = true) :
    put key value (entries ++ more) = put key value entries ++ more := by
  induction entries with
  | nil => simp at h
  | cons a rest ih =>
    by_cases ha : a.1.same key = true
    · simp [put, ha]
    · obtain ⟨e, he, hek⟩ := h
      have hrest : e ∈ rest := (List.mem_cons.mp he).resolve_left (by rintro rfl; exact ha hek)
      simp [put, ha, ih ⟨e, hrest, hek⟩]

/-- Putting what is there changes nothing. -/
theorem put_of_find?_eq_some (h : find? key entries = some value) :
    put key value entries = entries := by
  induction entries with
  | nil => cases h
  | cons e rest ih =>
    rw [find?_cons] at h
    rw [put]
    split at h
    next hsame =>
      rw [if_pos hsame, ← Option.some.inj h]
    next hsame => rw [if_neg hsame, ih h]

/-- Putting decides what is found under equal keys and nothing else. -/
theorem find?_put {other : Tree} (hkey : key.distinct = true)
    (hd : ∀ e ∈ entries, e.1.distinct = true) :
    find? other (put key value entries) =
      if key.same other then some value else find? other entries := by
  induction entries with
  | nil =>
    rw [put, find?_cons]
  | cons e rest ih =>
    have hrest := ih fun a ha => hd a (List.mem_cons_of_mem _ ha)
    have he : e.1.distinct = true := hd e List.mem_cons_self
    rw [put]
    by_cases hek : e.1.same key = true
    · have hboth : e.1.same other = key.same other :=
        Bool.eq_iff_iff.mpr ⟨same_trans (same_symm he hek), same_trans hek⟩
      rw [if_pos hek, find?_cons, find?_cons, hboth]
      split <;> rfl
    · rw [if_neg hek, find?_cons, find?_cons, hrest]
      by_cases heo : e.1.same other = true
      · have hko : ¬key.same other = true := fun hko =>
          hek (same_trans heo (same_symm hkey hko))
        rw [if_pos heo, if_pos heo, if_neg hko]
      · rw [if_neg heo, if_neg heo]

theorem keys_put (key value : Tree) (entries : List (Tree × Tree)) :
    (put key value entries).map (·.1) = entries.map (·.1) ∨
      find? key entries = none ∧ put key value entries = entries ++ [(key, value)] := by
  induction entries with
  | nil => exact .inr ⟨rfl, rfl⟩
  | cons e rest ih =>
    by_cases he : e.1.same key = true
    · left
      simp [put, he]
    · rcases ih with ih | ⟨hnone, ih⟩
      · left
        simp [put, he, ih]
      · right
        simp [put, he, ih, find?_cons, hnone]

theorem mem_put {key value : Tree} {entries : List (Tree × Tree)} {e : Tree × Tree}
    (h : e ∈ put key value entries) :
    e ∈ entries ∨ e.2 = value ∧ (e.1 = key ∨ ∃ old, (e.1, old) ∈ entries) := by
  induction entries with
  | nil =>
    obtain rfl := List.mem_singleton.mp h
    exact .inr ⟨rfl, .inl rfl⟩
  | cons a rest ih =>
    rw [put] at h
    split at h
    · rcases List.mem_cons.mp h with rfl | h
      · exact .inr ⟨rfl, .inr ⟨a.2, List.mem_cons_self⟩⟩
      · exact .inl (List.mem_cons_of_mem _ h)
    · rcases List.mem_cons.mp h with rfl | h
      · exact .inl List.mem_cons_self
      · rcases ih h with h | ⟨hv, hk | ⟨old, hold⟩⟩
        · exact .inl (List.mem_cons_of_mem _ h)
        · exact .inr ⟨hv, .inl hk⟩
        · exact .inr ⟨hv, .inr ⟨old, List.mem_cons_of_mem _ hold⟩⟩

/-- Putting an entry keeps keys apart. -/
theorem distinct_put (hd : (Tree.map entries).distinct = true) (hkey : key.distinct = true)
    (hvalue : value.distinct = true) : (Tree.map (put key value entries)).distinct = true := by
  rw [distinct_map_iff] at hd ⊢
  constructor
  · have hpair (l : List (Tree × Tree)) :
        (l.Pairwise fun a b => b.1.same a.1 = false) ↔
          (l.map (·.1)).Pairwise fun a b => b.same a = false := by
      rw [List.pairwise_map]
    rcases keys_put key value entries with hkeys | ⟨hnone, hput⟩
    · rw [hpair, hkeys, ← hpair]
      exact hd.1
    · rw [hput, List.pairwise_append]
      refine ⟨hd.1, List.pairwise_singleton _ _, fun a ha b hb => ?_⟩
      obtain rfl := List.mem_singleton.mp hb
      rw [find?_eq_none_iff] at hnone
      rw [Bool.eq_false_iff]
      intro hsame
      exact Bool.false_ne_true ((hnone a ha).symm.trans (same_symm hkey hsame))
  · intro e he
    rcases mem_put he with he | ⟨hv, hk | ⟨old, hold⟩⟩
    · exact hd.2 e he
    · exact ⟨hk ▸ hkey, hv ▸ hvalue⟩
    · exact ⟨(hd.2 _ hold).1, hv ▸ hvalue⟩

end TestBench.Config.Tree
