import TestBench.Proofs.Config.Additions

/-! Merging a source a second time. What comes of one map value is decided by all the source entries
that reach its key, so several sources merged one after the other are looked at together: either the
last of them leave nothing of what was there before, or all of them merge with one another. -/
namespace TestBench.Config
open Config.Tree

/-- What stands directly in a tree where a merge looks below it. -/
def Tree.inside : Tree → List Tree
  | .map entries => entries.map (·.2)
  | .tagged _ inner => [inner]
  | _ => []

def Tree.entries : Tree → List (Tree × Tree)
  | .map entries => entries
  | _ => []

theorem Tree.sizeOf_lt_of_mem_inside {s part : Tree} (h : part ∈ s.inside) :
    sizeOf part < sizeOf s := by
  cases s with
  | map entries =>
    obtain ⟨e, he, rfl⟩ := List.mem_map.mp h
    have hlt := sizeOf_parts_lt_of_mem he
    rw [Tree.map.sizeOf_spec]
    omega
  | tagged tag inner =>
    obtain rfl := List.mem_singleton.mp h
    rw [Tree.tagged.sizeOf_spec]
    omega
  | _ => cases h

/-- Induction over lists of trees, with a hypothesis for all lists of what stands in their
members. -/
theorem Tree.inductionInside {motive : List Tree → Prop} (nil : motive [])
    (step : ∀ srcs, (∀ parts, (∀ p ∈ parts, ∃ s ∈ srcs, p ∈ s.inside) → motive parts) → motive srcs)
    (srcs : List Tree) : motive srcs := by
  have bounded (n : Nat) : ∀ srcs : List Tree, (∀ s ∈ srcs, sizeOf s < n) → motive srcs := by
    induction n with
    | zero =>
      intro srcs h
      cases srcs with
      | nil => exact nil
      | cons s rest => exact absurd (h s List.mem_cons_self) (Nat.not_lt_zero _)
    | succ n ih =>
      refine fun srcs h => step srcs fun parts hparts => ih parts fun p hp => ?_
      obtain ⟨s, hs, hinside⟩ := hparts p hp
      have hlt := sizeOf_lt_of_mem_inside hinside
      have hbound := h s hs
      omega
  exact bounded (sizeOf srcs) srcs fun s hs => List.sizeOf_lt_of_mem hs

variable {o : MergeOptions} {shape : Shape} {dest src model : Tree} {srcs : List Tree}

section Meeting

/-- Trees that a merge looks below together meet the same trees. -/
theorem meets_congr {a b : Tree} (h : meets a b = true) (x : Tree) : meets a x = meets b x := by
  cases a <;> cases b <;> cases x <;> simp_all [meets, Tag.same]

/-- What is merged meets what its last source meets. -/
theorem meets_merge (hw : o.weaklyTyped = false) (hn : src ≠ .null) (x : Tree) :
    meets (merge o shape dest src) x = meets src x := by
  by_cases h : meets dest src = true
  · have hsame : meets (merge o shape dest src) x = meets dest x := by
      cases dest <;> cases src <;> first | cases h | skip
      case map.map => rw [merge]; cases x <;> rfl
      case tagged.tagged => rw [merge_tagged h]; cases x <;> rfl
    rw [hsame, meets_congr h]
  · rw [merge_of_not_meets hw (by simpa using h) hn]

/-- Sources that all merge with one another. A null among them says nothing. -/
structure Alike (model : Tree) (srcs : List Tree) : Prop where
  mem : model ∈ srcs
  some : model ≠ .null
  all : ∀ s ∈ srcs, s = .null ∨ meets model s = true

theorem meets_mergeAll (hw : o.weaklyTyped = false) (h : Alike model srcs) (dest x : Tree) :
    meets (mergeAll o shape dest srcs) x = meets model x := by
  obtain ⟨hmem, hsome, hall⟩ := h
  induction srcs using List.reverseRecOn with
  | nil => cases hmem
  | append_singleton init s ih =>
    rw [List.forall_mem_append, List.forall_mem_singleton] at hall
    rw [mergeAll, List.foldl_append, List.foldl_cons, List.foldl_nil]
    by_cases hnull : s = .null
    · have hinit : model ∈ init := by
        rcases List.mem_append.mp hmem with h | h
        · exact h
        · exact absurd ((List.mem_singleton.mp h).trans hnull) hsome
      rw [hnull, merge_null]
      exact ih hinit hall.1
    · rw [meets_merge hw hnull, meets_congr (hall.2.resolve_left hnull)]

/-- A source that meets nothing, not even itself, replaces whatever is there. -/
theorem meets_eq_false (h : meets src src = false) (dest : Tree) : meets dest src = false := by
  cases src <;> cases dest <;> simp_all [meets, Tag.same]

theorem mergeAll_append_singleton (dest : Tree) (init : List Tree) (s : Tree) :
    mergeAll o shape dest (init ++ [s]) = merge o shape (mergeAll o shape dest init) s := by
  rw [mergeAll, List.foldl_append]
  rfl

theorem mergeAll_of_nulls (h : ∀ s ∈ srcs, s = .null) (dest : Tree) :
    mergeAll o shape dest srcs = dest := by
  induction srcs with
  | nil => rfl
  | cons s rest ih =>
    rw [List.forall_mem_cons] at h
    rw [mergeAll, List.foldl_cons, h.1, merge_null]
    exact ih h.2

/-- Sources merged one after the other say nothing, leave nothing of what was there before, or all
merge with one another. -/
theorem mergeAll_cases (hw : o.weaklyTyped = false) (shape : Shape) (srcs : List Tree) :
    (∀ s ∈ srcs, s = .null) ∨ (∃ t, ∀ dest, mergeAll o shape dest srcs = t) ∨
      ∃ model, Alike model srcs := by
  induction srcs using List.reverseRecOn with
  | nil => exact .inl (List.forall_mem_nil _)
  | append_singleton init s ih =>
    simp only [mergeAll_append_singleton, List.forall_mem_append, List.forall_mem_singleton]
    by_cases hnull : s = .null
    · obtain hnulls | ⟨t, ht⟩ | ⟨model, hmem, hsome, hall⟩ := ih
      · exact .inl ⟨hnulls, hnull⟩
      · exact .inr (.inl ⟨t, fun dest => by rw [hnull, merge_null, ht]⟩)
      · refine .inr (.inr ⟨model, List.mem_append_left _ hmem, hsome, ?_⟩)
        exact List.forall_mem_append.mpr ⟨hall, List.forall_mem_singleton.mpr (.inl hnull)⟩
    · have hlast : s ∈ init ++ [s] := List.mem_append_right _ (List.mem_singleton_self s)
      obtain hnulls | ⟨t, ht⟩ | ⟨model, halike⟩ := ih
      · cases hself : meets s s with
        | true =>
          refine .inr (.inr ⟨s, hlast, hnull, List.forall_mem_append.mpr ⟨?_, ?_⟩⟩)
          · exact fun r hr => .inl (hnulls r hr)
          · exact List.forall_mem_singleton.mpr (.inr hself)
        | false =>
          exact .inr (.inl ⟨s, fun dest => merge_of_not_meets hw (meets_eq_false hself _) hnull⟩)
      · exact .inr (.inl ⟨merge o shape t s, fun dest => by rw [ht]⟩)
      · cases hmeets : meets model s with
        | true =>
          refine .inr (.inr ⟨model, List.mem_append_left _ halike.mem, halike.some, ?_⟩)
          exact List.forall_mem_append.mpr ⟨halike.all, List.forall_mem_singleton.mpr (.inr hmeets)⟩
        | false =>
          refine .inr (.inl ⟨s, fun dest => merge_of_not_meets hw ?_ hnull⟩)
          rw [meets_mergeAll hw halike, hmeets]

/-- Sources that merge with one another might as well find something to merge with: the first of
them is then taken over, and merged with itself it stays as it is. -/
theorem exists_meeting (shape : Shape) (hw : o.weaklyTyped = false)
    (hsrcs : ∀ s ∈ srcs, s.distinct = true) (h : Alike model srcs) (hd : dest.distinct = true) :
    ∃ own, own.distinct = true ∧ meets own model = true ∧
      mergeAll o shape own srcs = mergeAll o shape dest srcs := by
  obtain ⟨hmem, hsome, hall⟩ := h
  have hself : meets model model = true := (hall model hmem).resolve_left hsome
  induction srcs with
  | nil => cases hmem
  | cons s rest ih =>
    rw [List.forall_mem_cons] at hsrcs hall
    simp only [mergeAll, List.foldl_cons]
    by_cases hnull : s = .null
    · have hrest : model ∈ rest :=
        (List.mem_cons.mp hmem).resolve_left fun heq => hsome (heq.trans hnull)
      simp only [hnull, merge_null]
      exact ih hsrcs.2 hrest hall.2
    · have hmodel (x : Tree) : meets s x = meets model x :=
        (meets_congr (hall.1.resolve_left hnull) x).symm
      by_cases hmeets : meets dest s = true
      · exact ⟨dest, hd, by rw [meets_congr hmeets, hmodel, hself], rfl⟩
      · refine ⟨s, hsrcs.1, by rw [hmodel, hself], ?_⟩
        rw [(merge_self_iff hsrcs.1).mpr (.inl hw),
          merge_of_not_meets hw (by simpa using hmeets) hnull]

end Meeting

section Alike

/-- Maps merged one after the other merge their entries one after the other. -/
theorem mergeAll_map {own : List (Tree × Tree)} (h : ∀ s ∈ srcs, s = .null ∨ ∃ es, s = .map es) :
    mergeAll o shape (.map own) srcs =
      .map (mergeEntries o shape own (srcs.flatMap Tree.entries)) := by
  induction srcs generalizing own with
  | nil => rfl
  | cons s rest ih =>
    rw [List.forall_mem_cons] at h
    rw [mergeAll, List.foldl_cons, List.flatMap_cons]
    obtain rfl | ⟨es, rfl⟩ := h.1
    · rw [merge_null]
      exact ih h.2
    · rw [merge, Tree.entries, mergeEntries_append]
      exact ih h.2

/-- Values under one tag merge under that tag. -/
theorem mergeAll_tagged {own : String} {inner : Tree}
    (h : ∀ s ∈ srcs, s = .null ∨ ∃ tag content, s = .tagged tag content ∧ Tag.same own tag = true) :
    mergeAll o shape (.tagged own inner) srcs =
      .tagged own (mergeAll o shape.content inner (srcs.flatMap Tree.inside)) := by
  induction srcs generalizing inner with
  | nil => rfl
  | cons s rest ih =>
    rw [List.forall_mem_cons] at h
    rw [mergeAll, List.foldl_cons, List.flatMap_cons]
    obtain rfl | ⟨tag, content, rfl, hsame⟩ := h.1
    · rw [merge_null]
      exact ih h.2
    · rw [merge_tagged hsame]
      exact ih h.2

end Alike

/-- Whether the same sources change nothing when they are merged once more. -/
def Repeatable (o : MergeOptions) (srcs : List Tree) : Prop :=
  ∀ shape dest, dest.distinct = true →
    mergeAll o shape (mergeAll o shape dest srcs) srcs = mergeAll o shape dest srcs

/-- The entries of maps are repeatable when what reaches a key is, whichever key that is. -/
theorem mergeEntries_repeatable {own src : List (Tree × Tree)} (hw : o.weaklyTyped = false)
    (hown : (Tree.map own).distinct = true)
    (hsrc : ∀ e ∈ src, e.1.distinct = true ∧ e.2.distinct = true)
    (ih : ∀ parts, (∀ p ∈ parts, p ∈ src.map (·.2)) → Repeatable o parts) :
    mergeEntries o shape (mergeEntries o shape own src) src = mergeEntries o shape own src := by
  set whole := own ++ freshEntries (o.loose shape) own src with hwhole
  have hdistinct : (Tree.map whole).distinct = true := distinct_append_fresh hown hsrc
  have hfound : ∀ e ∈ src, (findKey (o.loose shape) whole e.1).isSome = true :=
    fun e he => isSome_findKey_fresh he
  have hkeys : (whole.map (reachedByAll o shape whole src)).map (·.1) = whole.map (·.1) := by
    rw [List.map_map]
    rfl
  have honce : mergeEntries o shape own src = whole.map (reachedByAll o shape whole src) := by
    rw [← mergeEntries_append_fresh hw hsrc, ← hwhole,
      mergeEntries_of_found (keysDistinct_of_map hdistinct) (fun e he => (hsrc e he).1) hfound]
  rw [honce, mergeEntries_of_found (hkeys ▸ keysDistinct_of_map hdistinct)
    (fun e he => (hsrc e he).1) (fun e he => findKey_congr hkeys _ e.1 ▸ hfound e he), List.map_map]
  refine List.map_congr_left fun d hd => ?_
  have hvalue : d.2.distinct = true := ((distinct_map_iff.mp hdistinct).2 d hd).2
  have hparts : ∀ p ∈ reaching (o.loose shape) whole src d.1, p ∈ src.map (·.2) := by
    intro p hp
    obtain ⟨e, he, rfl⟩ := List.mem_map.mp hp
    exact List.mem_map_of_mem (List.mem_of_mem_filter he)
  rw [Function.comp_apply, reachedByAll_congr hkeys]
  exact Prod.ext rfl (ih _ hparts (shape.child d.1) d.2 hvalue)

theorem distinct_of_mem_inside {s part : Tree} (h : s.distinct = true) (hpart : part ∈ s.inside) :
    part.distinct = true := by
  cases s with
  | map entries =>
    obtain ⟨e, he, rfl⟩ := List.mem_map.mp hpart
    exact ((distinct_map_iff.mp h).2 e he).2
  | tagged tag inner => exact List.mem_singleton.mp hpart ▸ h
  | _ => cases hpart

theorem distinct_of_mem_entries {s : Tree} {e : Tree × Tree} (h : s.distinct = true)
    (he : e ∈ s.entries) : e.1.distinct = true ∧ e.2.distinct = true := by
  cases s with
  | map entries => exact (distinct_map_iff.mp h).2 e he
  | _ => cases he

/-- Sources merged one after the other and once more change nothing the second time. -/
theorem repeatable (hw : o.weaklyTyped = false) (hsrcs : ∀ s ∈ srcs, s.distinct = true) :
    Repeatable o srcs := by
  induction srcs using Tree.inductionInside with
  | nil => exact fun _ _ _ => rfl
  | step srcs ih =>
    intro shape dest hd
    have hinside {parts : List Tree} (h : ∀ p ∈ parts, ∃ s ∈ srcs, p ∈ s.inside) :
        Repeatable o parts := by
      refine ih parts h fun p hp => ?_
      obtain ⟨s, hs, hps⟩ := h p hp
      exact distinct_of_mem_inside (hsrcs s hs) hps
    obtain hnulls | ⟨t, ht⟩ | ⟨model, halike⟩ := mergeAll_cases hw shape srcs
    · simp only [mergeAll_of_nulls hnulls]
    · simp only [ht]
    obtain ⟨own, hown, hmeets, hsame⟩ := exists_meeting shape hw hsrcs halike hd
    have hall : ∀ s ∈ srcs, s = .null ∨ meets own s = true := fun s hs =>
      (halike.all s hs).imp_right fun h => by rw [meets_congr hmeets, h]
    rw [← hsame]
    cases own with
    | map entries =>
      have hmaps : ∀ s ∈ srcs, s = .null ∨ ∃ es, s = .map es := fun s hs =>
        (hall s hs).imp_right fun h => by cases s <;> first | exact ⟨_, rfl⟩ | cases h
      have hentries : ∀ e ∈ srcs.flatMap Tree.entries,
          e.1.distinct = true ∧ e.2.distinct = true := by
        rw [List.forall_mem_flatMap]
        exact fun s hs e he => distinct_of_mem_entries (hsrcs s hs) he
      rw [mergeAll_map hmaps, mergeAll_map hmaps]
      refine congrArg Tree.map (mergeEntries_repeatable hw hown hentries fun parts hparts => ?_)
      refine hinside fun p hp => ?_
      obtain ⟨e, he, rfl⟩ := List.mem_map.mp (hparts p hp)
      obtain ⟨s, hs, hes⟩ := List.mem_flatMap.mp he
      refine ⟨s, hs, ?_⟩
      cases s with
      | map es => exact List.mem_map_of_mem hes
      | _ => cases hes
    | tagged tag inner =>
      have htags : ∀ s ∈ srcs,
          s = .null ∨ ∃ other content, s = .tagged other content ∧ Tag.same tag other = true :=
        fun s hs => (hall s hs).imp_right fun h => by
          cases s <;> first | exact ⟨_, _, rfl, h⟩ | cases h
      rw [mergeAll_tagged htags, mergeAll_tagged htags]
      exact congrArg (Tree.tagged tag)
        (hinside (fun p => List.mem_flatMap.mp) shape.content inner hown)
    | _ => cases hmeets

/-- Merging a source a second time changes nothing, where it replaces what it does not merge with:
neither keys that stand for one another in a record nor what they replace in turn makes a
difference. -/
theorem merge_idempotent (hw : o.weaklyTyped = false) (hd : dest.distinct = true)
    (hs : src.distinct = true) :
    merge o shape (merge o shape dest src) src = merge o shape dest src := by
  have h : Repeatable o [src] := repeatable hw (List.forall_mem_singleton.mpr hs)
  exact h shape dest hd

/-- Two spellings of a field with different kinds of values, one of a field that only the source
has, and a tag that is written in two ways. -/
theorem merge_idempotent_listener :
    let o : MergeOptions := ⟨true, false⟩
    let shape : Shape := .record [("listen_addr", .plain),
      ("sink", .variant (.record [("max_size", .plain)]))]
    let dest : Tree := .map [(.text "listen_addr", .text "a"),
      (.text "sink", .tagged "Kafka" (.map [(.text "max_size", .int 1)]))]
    let src : Tree := .map [(.text "Listen-Addr", .map [(.text "x", .null)]),
      (.text "listenaddr", .map [(.text "y", .int 2)]), (.text "Extra", .null),
      (.text "ex_tra", .int 4),
      (.text "Sink",
        .tagged "!Kafka" (.map [(.text "maxsize", .int 2), (.text "MaxSize", .int 3)]))]
    let merged : Tree := .map [
      (.text "listen_addr", .map [(.text "x", .null), (.text "y", .int 2)]),
      (.text "sink", .tagged "Kafka" (.map [(.text "max_size", .int 3)])), (.text "Extra", .int 4)]
    (o.weaklyTyped = false ∧ dest.distinct = true ∧ src.distinct = true) ∧
      (merge o shape dest src).same merged = true ∧
      merge o shape (merge o shape dest src) src = merge o shape dest src := by
  intro o shape dest src merged
  have hd : dest.distinct = true := by decide +kernel
  have hs : src.distinct = true := by decide +kernel
  have hmerged : (merge o shape dest src).same merged = true := by decide +kernel
  exact ⟨⟨rfl, hd, hs⟩, hmerged, merge_idempotent rfl hd hs⟩

end TestBench.Config
