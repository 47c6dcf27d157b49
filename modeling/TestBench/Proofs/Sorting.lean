import Mathlib.Data.List.Nodup
import Mathlib.Data.List.Perm.Basic
import TestBench.Proofs.Named

/-! Sorting keeps the elements and puts them in order, leaves what is in order as it is, and may be
done before or after the elements are renamed. Texts that are sorted repeat only side by side, and
entries with keys of their own are sorted in one way only. -/
namespace TestBench

variable {α β : Type} {le : α → α → Bool}

theorem insertSorted_perm (le : α → α → Bool) (a : α) (as : List α) :
    (insertSorted le a as).Perm (a :: as) := by
  induction as with
  | nil => exact .refl _
  | cons b rest ih =>
    rw [insertSorted]
    split
    · exact .refl _
    · exact (ih.cons b).trans (.swap a b rest)

theorem sortBy_perm (le : α → α → Bool) (as : List α) : (sortBy le as).Perm as := by
  induction as with
  | nil => exact .refl _
  | cons a rest ih => exact (insertSorted_perm le a _).trans (ih.cons a)

theorem insertSorted_map (le : β → β → Bool) (f : α → β) (a : α) (as : List α) :
    insertSorted le (f a) (as.map f) = (insertSorted (fun a b => le (f a) (f b)) a as).map f := by
  induction as with
  | nil => rfl
  | cons b rest ih =>
    rw [List.map_cons, insertSorted, insertSorted, ih]
    split <;> rfl

theorem sortBy_map (le : β → β → Bool) (f : α → β) (as : List α) :
    sortBy le (as.map f) = (sortBy (fun a b => le (f a) (f b)) as).map f := by
  induction as with
  | nil => rfl
  | cons a rest ih =>
    have hrest : sortBy le (rest.map f) = _ := ih
    show insertSorted le (f a) (sortBy le (rest.map f)) = _
    rw [hrest, insertSorted_map]
    rfl

theorem sortBy_eq_self {as : List α} (h : as.Pairwise fun a b => le a b = true) :
    sortBy le as = as := by
  induction as with
  | nil => rfl
  | cons a rest ih =>
    rw [List.pairwise_cons] at h
    have hrest : sortBy le rest = rest := ih h.2
    show insertSorted le a (sortBy le rest) = a :: rest
    rw [hrest]
    cases rest with
    | nil => rfl
    | cons b rest => rw [insertSorted, if_pos (h.1 b List.mem_cons_self)]

section Ordered

variable (total : ∀ a b, le a b = true ∨ le b a = true)
  (trans : ∀ a b c, le a b = true → le b c = true → le a c = true)
include total trans

theorem insertSorted_pairwise {as : List α} (a : α) (h : as.Pairwise fun a b => le a b = true) :
    (insertSorted le a as).Pairwise fun a b => le a b = true := by
  induction as with
  | nil => exact List.pairwise_singleton _ _
  | cons b rest ih =>
    obtain ⟨hb, hrest⟩ := List.pairwise_cons.mp h
    rw [insertSorted]
    split
    next hab =>
      refine List.pairwise_cons.mpr ⟨List.forall_mem_cons.mpr ⟨hab, fun c hc => ?_⟩, h⟩
      exact trans a b c hab (hb c hc)
    next hab =>
      have hba := (total a b).resolve_left hab
      refine List.pairwise_cons.mpr ⟨fun c hc => ?_, ih hrest⟩
      rcases List.mem_cons.mp ((insertSorted_perm le a rest).mem_iff.mp hc) with rfl | hc
      · exact hba
      · exact hb c hc

theorem sortBy_pairwise (as : List α) : (sortBy le as).Pairwise fun a b => le a b = true := by
  induction as with
  | nil => exact List.Pairwise.nil
  | cons a rest ih => exact insertSorted_pairwise total trans a ih

end Ordered

section Repeats

variable [DecidableEq α]

theorem eraseRepsBy_loop_eq (a : α) (as done : List α) :
    List.eraseRepsBy.loop (· == ·) a as done =
      done.reverse ++ List.eraseRepsBy.loop (· == ·) a as [] := by
  induction as generalizing a done with
  | nil => simp [List.eraseRepsBy.loop]
  | cons b rest ih =>
    rw [List.eraseRepsBy.loop, List.eraseRepsBy.loop]
    split
    · exact ih a done
    · rw [ih b (a :: done), ih b [a]]
      simp

theorem eraseReps_cons_cons (a b : α) (rest : List α) :
    (a :: b :: rest).eraseReps =
      if a = b then (b :: rest).eraseReps else a :: (b :: rest).eraseReps := by
  show List.eraseRepsBy.loop (· == ·) a (b :: rest) [] = _
  rw [List.eraseRepsBy.loop]
  by_cases h : a = b
  · rw [h, beq_self_eq_true, if_pos rfl]
    rfl
  · rw [beq_eq_false_iff_ne.mpr h, if_neg h]
    exact eraseRepsBy_loop_eq b rest [a]

theorem mem_eraseReps {a : α} {as : List α} : a ∈ as.eraseReps ↔ a ∈ as := by
  induction as with
  | nil => exact Iff.rfl
  | cons b rest ih =>
    cases rest with
    | nil => exact Iff.rfl
    | cons c rest =>
      rw [eraseReps_cons_cons]
      split
      next h => simp [ih, h]
      next => rw [List.mem_cons, List.mem_cons, ih]

theorem eraseReps_sublist (as : List α) : as.eraseReps.Sublist as := by
  induction as with
  | nil => exact .slnil
  | cons a rest ih =>
    cases rest with
    | nil => exact .refl _
    | cons b rest =>
      rw [eraseReps_cons_cons]
      split
      · exact ih.cons a
      · exact ih.cons_cons a

/-- What is in order repeats only side by side. -/
theorem nodup_eraseReps {as : List α} (antisymm : ∀ a b, le a b = true → le b a = true → a = b)
    (h : as.Pairwise fun a b => le a b = true) : as.eraseReps.Nodup := by
  induction as with
  | nil => exact List.nodup_nil
  | cons a rest ih =>
    obtain ⟨ha, hrest⟩ := List.pairwise_cons.mp h
    cases rest with
    | nil => exact List.nodup_cons.mpr ⟨List.not_mem_nil, List.nodup_nil⟩
    | cons b rest =>
      rw [eraseReps_cons_cons]
      split
      next => exact ih hrest
      next hne =>
        refine List.nodup_cons.mpr ⟨fun hmem => ?_, ih hrest⟩
        rcases List.mem_cons.mp (mem_eraseReps.mp hmem) with hab | hmem
        · exact hne hab
        · have hba := (List.pairwise_cons.mp hrest).1 a hmem
          exact hne (antisymm a b (ha b List.mem_cons_self) hba)

end Repeats

theorem textLe_total (a b : String) : textLe a b = true ∨ textLe b a = true := by
  rw [textLe, textLe, decide_eq_true_iff, decide_eq_true_iff]
  exact String.le_total a b

theorem textLe_trans (a b c : String) (hab : textLe a b = true) (hbc : textLe b c = true) :
    textLe a c = true :=
  decide_eq_true (String.le_trans (of_decide_eq_true hab) (of_decide_eq_true hbc))

theorem textLe_antisymm (a b : String) (hab : textLe a b = true) (hba : textLe b a = true) :
    a = b := String.le_antisymm (of_decide_eq_true hab) (of_decide_eq_true hba)

/-- Sorting leaves the first entry of each name the first one. -/
theorem find?_sortBy (key : String) (entries : List (String × α)) :
    find? key (sortBy keyLe entries) = find? key entries := by
  have hinsert (e : String × α) (rest : List (String × α)) :
      find? key (insertSorted keyLe e rest) = find? key (e :: rest) := by
    induction rest with
    | nil => rfl
    | cons d rest ih =>
      rw [insertSorted]
      split
      · rfl
      next hle =>
        have hne : d.1 = key → e.1 ≠ key := by
          rintro hd he
          have hrefl : textLe e.1 e.1 = true := (textLe_total e.1 e.1).elim id id
          exact hle (show textLe e.1 d.1 = true from (he.trans hd.symm) ▸ hrefl)
        rw [Named.find?_cons, ih, Named.find?_cons, Named.find?_cons, Named.find?_cons]
        by_cases hd : d.1 = key
        · simp [hd, hne hd]
        · simp [hd]
  induction entries with
  | nil => rfl
  | cons e rest ih =>
    have hsorted : sortBy keyLe (e :: rest) = insertSorted keyLe e (sortBy keyLe rest) := rfl
    rw [hsorted, hinsert, Named.find?_cons, ih, Named.find?_cons]

/-- Entries that are told apart by their keys are sorted in one way only. -/
theorem sortBy_eq_of_perm {as bs : List (String × α)} (h : as.Perm bs)
    (hkeys : (as.map (·.1)).Nodup) : sortBy keyLe as = sortBy keyLe bs := by
  have total (d e : String × α) : keyLe d e = true ∨ keyLe e d = true := textLe_total d.1 e.1
  have trans (c d e : String × α) : keyLe c d = true → keyLe d e = true → keyLe c e = true :=
    textLe_trans c.1 d.1 e.1
  have hsorted : (sortBy keyLe as).Perm (sortBy keyLe bs) :=
    (sortBy_perm keyLe as).trans (h.trans (sortBy_perm keyLe bs).symm)
  refine hsorted.eq_of_pairwise (fun d e hd he hde hed => ?_) (sortBy_pairwise total trans as)
    (sortBy_pairwise total trans bs)
  have hd := (sortBy_perm keyLe as).mem_iff.mp hd
  have he := h.mem_iff.mpr ((sortBy_perm keyLe bs).mem_iff.mp he)
  exact List.inj_on_of_nodup_map hkeys hd he (textLe_antisymm d.1 e.1 hde hed)

end TestBench
