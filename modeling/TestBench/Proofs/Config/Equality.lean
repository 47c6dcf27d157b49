import TestBench.Config.Written
import TestBench.Proofs.Induction
import TestBench.Proofs.Number.Quantity

/-! Equality of configuration trees. Maps are compared by containment and length, which is an
equivalence where no map holds a key twice. -/
namespace TestBench.Config.Tree

theorem sameItems_iff {as bs : List Tree} :
    sameItems as bs = true ↔ List.Forall₂ (fun a b => a.same b = true) as bs := by
  induction as generalizing bs with
  | nil => cases bs <;> simp [sameItems]
  | cons a as ih => cases bs <;> simp [sameItems, ih]

theorem entriesWithin_iff {as bs : List (Tree × Tree)} :
    entriesWithin as bs = true ↔
      ∀ a ∈ as, ∃ b ∈ bs, a.1.same b.1 = true ∧ a.2.same b.2 = true := by
  induction as with
  | nil => simp [entriesWithin]
  | cons a as ih => simp [entriesWithin, ih]

theorem same_map_iff {as bs : List (Tree × Tree)} :
    (Tree.map as).same (.map bs) = true ↔
      as.length = bs.length ∧
        ∀ a ∈ as, ∃ b ∈ bs, a.1.same b.1 = true ∧ a.2.same b.2 = true := by
  simp [same, entriesWithin_iff]

@[simp] theorem same_refl (t : Tree) : t.same t = true := by
  induction t with
  | list items ih => simpa [same, sameItems_iff, List.forall₂_same] using ih
  | map entries ih => exact same_map_iff.mpr ⟨rfl, fun e he => ⟨e, he, (ih e he).1, (ih e he).2⟩⟩
  | tagged tag inner ih => simp [same, Tag.same, ih]
  | _ => simp [same]

/-- Relations chain through lists when they chain through the items of the first. -/
theorem forall₂_trans_of_mem {α : Type*} {R : α → α → Prop} {as bs cs : List α}
    (h : ∀ a ∈ as, ∀ b c, R a b → R b c → R a c) (hab : List.Forall₂ R as bs)
    (hbc : List.Forall₂ R bs cs) : List.Forall₂ R as cs := by
  induction hab generalizing cs with
  | nil => exact hbc
  | cons hr _ ih =>
    cases hbc with
    | cons hs hbc =>
      exact .cons (h _ List.mem_cons_self _ _ hr hs)
        (ih (fun a ha => h a (List.mem_cons_of_mem _ ha)) hbc)

theorem same_trans {a b c : Tree} (hab : a.same b = true) (hbc : b.same c = true) :
    a.same c = true := by
  induction a generalizing b c with
  | list items ih =>
    cases b with
    | list bs =>
      cases c with
      | list cs =>
        simp only [same, sameItems_iff] at hab hbc ⊢
        exact forall₂_trans_of_mem (fun a ha b c => ih a ha) hab hbc
      | _ => simp [same] at hbc
    | _ => simp [same] at hab
  | map entries ih =>
    cases b with
    | map bs =>
      cases c with
      | map cs =>
        rw [same_map_iff] at hab hbc ⊢
        refine ⟨hab.1.trans hbc.1, fun a ha => ?_⟩
        obtain ⟨b, hb, hkey, hvalue⟩ := hab.2 a ha
        obtain ⟨c, hc, hkey', hvalue'⟩ := hbc.2 b hb
        exact ⟨c, hc, (ih a ha).1 hkey hkey', (ih a ha).2 hvalue hvalue'⟩
      | _ => simp [same] at hbc
    | _ => simp [same] at hab
  | tagged tag inner ih =>
    cases b with
    | tagged t b =>
      cases c with
      | tagged u c =>
        simp only [same, Tag.same, Bool.and_eq_true, beq_iff_eq] at hab hbc ⊢
        exact ⟨hab.1.trans hbc.1, ih hab.2 hbc.2⟩
      | _ => simp [same] at hbc
    | _ => simp [same] at hab
  | float x =>
    cases b with
    | float y =>
      cases c with
      | float z => exact Binary.same_trans hab hbc
      | _ => simp [same] at hbc
    | _ => simp [same] at hab
  | _ => cases b <;> cases c <;> simp_all [same]

/-- Equal keys consist of the same text, if of any. -/
theorem text?_eq_of_same {a b : Tree} (h : a.same b = true) : a.text? = b.text? := by
  induction a generalizing b with
  | tagged tag inner ih =>
    cases b with
    | tagged t b =>
      simp only [same, Bool.and_eq_true] at h
      change inner.text? = b.text?
      exact ih h.2
    | _ => simp [same] at h
  | text s =>
    cases b with
    | text t =>
      simp only [same, beq_iff_eq] at h
      rw [h]
    | _ => simp [same] at h
  | _ => cases b <;> first | rfl | simp [same] at h

mutual

/-- No map in the tree, not even inside a key, holds a key twice. -/
def distinct : Tree → Bool
  | .list items => itemsDistinct items
  | .map entries => Written.distinctKeys entries && entriesDistinct entries
  | .tagged _ inner => distinct inner
  | _ => true

def itemsDistinct : List Tree → Bool
  | [] => true
  | item :: rest => distinct item && itemsDistinct rest

def entriesDistinct : List (Tree × Tree) → Bool
  | [] => true
  | (key, value) :: rest => distinct key && (distinct value && entriesDistinct rest)

end

theorem distinctKeys_iff {entries : List (Tree × Tree)} :
    Written.distinctKeys entries = true ↔
      entries.Pairwise fun a b => b.1.same a.1 = false := by
  induction entries with
  | nil => simp [Written.distinctKeys]
  | cons e rest ih => simp [Written.distinctKeys, ih]

theorem distinct_list_iff {items : List Tree} :
    (Tree.list items).distinct = true ↔ ∀ t ∈ items, t.distinct = true := by
  rw [distinct]
  induction items with
  | nil => simp [itemsDistinct]
  | cons t rest ih => simp [itemsDistinct, ih]

theorem entriesDistinct_iff {entries : List (Tree × Tree)} :
    entriesDistinct entries = true ↔
      ∀ e ∈ entries, e.1.distinct = true ∧ e.2.distinct = true := by
  induction entries with
  | nil => simp [entriesDistinct]
  | cons e rest ih => simp [entriesDistinct, ih, and_assoc]

theorem distinct_map_iff {entries : List (Tree × Tree)} :
    (Tree.map entries).distinct = true ↔
      (entries.Pairwise fun a b => b.1.same a.1 = false) ∧
        ∀ e ∈ entries, e.1.distinct = true ∧ e.2.distinct = true := by
  rw [distinct, Bool.and_eq_true, distinctKeys_iff, entriesDistinct_iff]

/-- A containment that matches distinct keys is onto: there is no room for a key left out. -/
theorem within_symm {as bs : List (Tree × Tree)} (hlen : as.length = bs.length)
    (hkeys : as.Pairwise fun a b => b.1.same a.1 = false)
    (hsymm : ∀ a ∈ as, ∀ b ∈ bs, a.1.same b.1 = true → b.1.same a.1 = true)
    (h : ∀ a ∈ as, ∃ b ∈ bs, a.1.same b.1 = true ∧ a.2.same b.2 = true) :
    ∀ b ∈ bs, ∃ a ∈ as, a.1.same b.1 = true ∧ a.2.same b.2 = true := by
  have hmatch : ∀ i, ∃ j, (as.get i).1.same (bs.get j).1 = true ∧
      (as.get i).2.same (bs.get j).2 = true := by
    intro i
    obtain ⟨b, hb, hsame⟩ := h _ (List.get_mem as i)
    obtain ⟨j, rfl⟩ := List.get_of_mem hb
    exact ⟨j, hsame⟩
  choose f hf using hmatch
  have hne : ∀ i j, i < j → f i ≠ f j := by
    intro i j hij heq
    have hback := hsymm _ (List.get_mem as i) _ (List.get_mem bs (f i)) (hf i).1
    have hfwd := (hf j).1
    rw [← heq] at hfwd
    have hfalse := List.pairwise_iff_get.mp hkeys i j hij
    exact Bool.false_ne_true (hfalse.symm.trans (same_trans hfwd hback))
  have hinj : Function.Injective f := by
    intro i j heq
    rcases lt_trichotomy i j with hij | hij | hij
    · exact absurd heq (hne i j hij)
    · exact hij
    · exact absurd heq.symm (hne j i hij)
  have hsurj := (Finite.injective_iff_surjective_of_equiv (finCongr hlen)).mp hinj
  intro b hb
  obtain ⟨j, rfl⟩ := List.get_of_mem hb
  obtain ⟨i, rfl⟩ := hsurj j
  exact ⟨as.get i, List.get_mem as i, hf i⟩

theorem same_symm {a b : Tree} (ha : a.distinct = true) (h : a.same b = true) :
    b.same a = true := by
  induction a generalizing b with
  | list items ih =>
    cases b with
    | list bs =>
      simp only [same, sameItems_iff] at h ⊢
      rw [distinct_list_iff] at ha
      refine List.Forall₂.flip ?_
      rw [List.forall₂_iff_zip] at h ⊢
      refine ⟨h.1, fun hab => ?_⟩
      have hmem := (List.of_mem_zip hab).1
      exact ih _ hmem (ha _ hmem) (h.2 hab)
    | _ => simp [same] at h
  | map entries ih =>
    cases b with
    | map bs =>
      rw [same_map_iff] at h ⊢
      rw [distinct_map_iff] at ha
      refine ⟨h.1.symm, fun b hb => ?_⟩
      have hkeys : ∀ a ∈ entries, ∀ b ∈ bs, a.1.same b.1 = true → b.1.same a.1 = true :=
        fun a hmem _ _ => (ih a hmem).1 (ha.2 a hmem).1
      obtain ⟨a, hmem, hkey, hvalue⟩ := within_symm h.1 ha.1 hkeys h.2 b hb
      exact ⟨a, hmem, hkeys a hmem b hb hkey, (ih a hmem).2 (ha.2 a hmem).2 hvalue⟩
    | _ => simp [same] at h
  | tagged tag inner ih =>
    cases b with
    | tagged t b =>
      simp only [same, Tag.same, Bool.and_eq_true, beq_iff_eq] at h ⊢
      exact ⟨h.1.symm, ih ha h.2⟩
    | _ => simp [same] at h
  | float x =>
    cases b with
    | float y => exact Binary.same_symm h
    | _ => simp [same] at h
  | _ => cases b <;> simp_all [same]

/-- Equal keys are equal to the same keys. -/
theorem same_congr_right {a b : Tree} (hab : a.same b = true) (hba : b.same a = true) (c : Tree) :
    c.same a = c.same b :=
  Bool.eq_iff_iff.mpr ⟨fun h => same_trans h hab, fun h => same_trans h hba⟩

end TestBench.Config.Tree
