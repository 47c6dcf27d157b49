import TestBench.Config.Decode
import TestBench.Proofs.Config.Encoding
import TestBench.Proofs.Config.Overlay

/-! Laying a tree over itself. Nothing changes but items of lists, which take the kind of the first
item even where the list holds items of several kinds. -/
namespace TestBench.Config

namespace Tree

mutual

/-- Whether an item stays what it is in a list that begins with `model`. -/
def fits (model : Tree) : Tree → Bool
  | .list items =>
    match model with
    | .list (inner :: _) => itemsFit inner items
    | _ => true
  | .text s =>
    match model with
    | .int _ | .float _ => (parseNumber s).isNone
    | .bool _ => (parseBool s).isNone
    | .list _ => false
    | _ => true
  | .int _ | .float _ =>
    match model with
    | .text _ | .bool _ | .list _ => false
    | _ => true
  | .bool _ =>
    match model with
    | .text _ | .list _ => false
    | _ => true
  | _ => true

def itemsFit (model : Tree) : List Tree → Bool
  | [] => true
  | item :: rest => fits model item && itemsFit model rest

end

mutual

/-- Whether the items of every list fit the first. Lists inside of keys do not count. -/
def settled : Tree → Bool
  | .list [] => true
  | .list (model :: rest) => itemsFit model (model :: rest)
  | .map entries => valuesSettled entries
  | .tagged _ inner => settled inner
  | _ => true

def valuesSettled : List (Tree × Tree) → Bool
  | [] => true
  | (_, value) :: rest => settled value && valuesSettled rest

end

theorem itemsFit_iff {model : Tree} {items : List Tree} :
    itemsFit model items = true ↔ ∀ t ∈ items, fits model t = true := by
  induction items with
  | nil => simp [itemsFit]
  | cons t rest ih => simp [itemsFit, ih]

theorem settled_map_iff {entries : List (Tree × Tree)} :
    (Tree.map entries).settled = true ↔ ∀ e ∈ entries, e.2.settled = true := by
  rw [settled]
  induction entries with
  | nil => simp [valuesSettled]
  | cons e rest ih => simp [valuesSettled, ih]

end Tree

open Config.Tree

theorem map_eq_self_iff {α : Type} {f : α → α} {l : List α} :
    l.map f = l ↔ ∀ a ∈ l, f a = a := by
  conv_lhs => rw [← List.map_id l, List.map_map]
  exact List.map_inj_left

theorem parseNumber_ne_text {s r : String} : parseNumber s ≠ some (.text r) := by
  unfold parseNumber
  dsimp only
  split
  · simp
  · split
    · simp
    · simp

theorem asNumber_eq_text_iff {s : String} : asNumber s = .text s ↔ (parseNumber s).isNone := by
  unfold asNumber
  have hne := parseNumber_ne_text (s := s) (r := s)
  cases hs : parseNumber s with
  | none => simp
  | some t =>
    rw [hs] at hne
    simpa using hne

theorem asBool_eq_text_iff {s : String} : asBool s = .text s ↔ (parseBool s).isNone := by
  unfold asBool
  cases parseBool s <;> simp

theorem coerceItems_eq_map (model : Tree) (items : List Tree) :
    coerceItems model items = items.map (coerce model) := by
  induction items with
  | nil => rfl
  | cons t rest ih => rw [coerceItems, ih, List.map_cons]

/-- Coercion keeps exactly the items that fit. -/
theorem coerce_eq_self_iff {model item : Tree} :
    coerce model item = item ↔ fits model item = true := by
  induction item generalizing model with
  | list items ih =>
    cases model with
    | list models =>
      cases models with
      | nil => simp [coerce, fits]
      | cons inner rest =>
        rw [coerce, fits, itemsFit_iff, coerceItems_eq_map, Tree.list.injEq, map_eq_self_iff]
        exact forall₂_congr fun t ht => ih t ht
    | _ => simp [coerce, fits]
  | text s =>
    cases model with
    | int n => simpa only [coerce, coerceAlone, coerceScalar, fits] using asNumber_eq_text_iff
    | float x => simpa only [coerce, coerceAlone, coerceScalar, fits] using asNumber_eq_text_iff
    | bool b => simpa only [coerce, coerceAlone, coerceScalar, fits] using asBool_eq_text_iff
    | list models => cases models <;> simp [coerce, coerceAlone, fits]
    | _ => simp [coerce, coerceAlone, coerceScalar, fits]
  | _ =>
    cases model with
    | list models => cases models <;> simp [coerce, coerceAlone, fits]
    | _ => simp [coerce, coerceAlone, coerceScalar, fits]

section

variable {o : MergeOptions} {shape : Shape}

/-- An entry with its value laid over itself. -/
def selfMerged (o : MergeOptions) (shape : Shape) (e : Tree × Tree) : Tree × Tree :=
  (e.1, merge o (shape.child e.1) e.2 e.2)

theorem mergeEntry_self {done rest : List (Tree × Tree)} {e : Tree × Tree}
    (h : ∀ a ∈ done, a.1.same e.1 = false) :
    mergeEntry o shape (done ++ e :: rest) e = done ++ selfMerged o shape e :: rest := by
  have hnone : Tree.find? e.1 done = none := find?_eq_none_iff.mpr h
  have hkey : findKey (o.loose shape) (done ++ e :: rest) e.1 = some e.1 := by
    simp [findKey]
  have hvalue : Tree.find? e.1 (done ++ e :: rest) = some e.2 := by
    simp [find?_append, hnone, find?_cons]
  simp only [mergeEntry, hkey, hvalue, Option.getD_some]
  rw [put_append_of_find?_eq_none _ hnone]
  simp [Tree.put, selfMerged]

theorem foldl_mergeEntry_self {done src : List (Tree × Tree)}
    (hdone : ∀ a ∈ done, ∀ e ∈ src, a.1.same e.1 = false)
    (hsrc : src.Pairwise fun a b => a.1.same b.1 = false) :
    src.foldl (mergeEntry o shape) (done ++ src) = done ++ src.map (selfMerged o shape) := by
  induction src generalizing done with
  | nil => simp
  | cons e rest ih =>
    rw [List.pairwise_cons] at hsrc
    have hnext : ∀ a ∈ done ++ [selfMerged o shape e], ∀ x ∈ rest, a.1.same x.1 = false := by
      intro a ha x hx
      rcases List.mem_append.mp ha with ha | ha
      · exact hdone a ha x (List.mem_cons_of_mem _ hx)
      · obtain rfl := List.mem_singleton.mp ha
        exact hsrc.1 x hx
    have hrest := ih hnext hsrc.2
    rw [List.foldl_cons, mergeEntry_self fun a ha => hdone a ha e List.mem_cons_self]
    simpa using hrest

theorem merge_self_map {entries : List (Tree × Tree)} (hd : (Tree.map entries).distinct = true) :
    merge o shape (.map entries) (.map entries) = .map (entries.map (selfMerged o shape)) := by
  obtain ⟨hkeys, hparts⟩ := distinct_map_iff.mp hd
  have hapart : entries.Pairwise fun a b => a.1.same b.1 = false := by
    refine hkeys.imp_of_mem fun {a b} ha _ hba => ?_
    rw [Bool.eq_false_iff] at hba ⊢
    exact fun hab => hba (same_symm (hparts a ha).1 hab)
  have hfold : entries.foldl (mergeEntry o shape) ([] ++ entries) =
      [] ++ entries.map (selfMerged o shape) := foldl_mergeEntry_self (by simp) hapart
  rw [merge, mergeEntries_eq_foldl]
  exact congrArg Tree.map hfold

/-- Laid over itself, a tree stays what it is just when scalars are left alone or all items of each
of its lists fit the first. -/
theorem merge_self_iff {t : Tree} (hd : t.distinct = true) :
    merge o shape t t = t ↔ o.weaklyTyped = false ∨ t.settled = true := by
  induction t generalizing shape with
  | null => simp [merge, settled]
  | list items =>
    rw [merge, MergeOptions.replace]
    · cases hw : o.weaklyTyped with
      | false => simp
      | true =>
        cases items with
        | nil => simp [coerce, settled]
        | cons model rest =>
          have hfits : coerce (.list (model :: rest)) (.list (model :: rest)) =
              .list (model :: rest) ↔ _ := coerce_eq_self_iff
          simpa [settled, fits] using hfits
    all_goals simp
  | map entries ih =>
    have hparts := (distinct_map_iff.mp hd).2
    have hvalues : ∀ e ∈ entries, selfMerged o shape e = e ↔
        o.weaklyTyped = false ∨ e.2.settled = true := fun e he => by
      have hvalue : merge o (shape.child e.1) e.2 e.2 = e.2 ↔ _ := (ih e he).2 (hparts e he).2
      rw [← hvalue]
      simp [selfMerged, Prod.ext_iff]
    rw [merge_self_map hd, Tree.map.injEq, map_eq_self_iff, settled_map_iff]
    cases hw : o.weaklyTyped <;> simp_all
  | tagged tag inner ih =>
    have hsame : Tag.same tag tag = true := by simp [Tag.same]
    have hinner : merge o shape.content inner inner = inner ↔ _ := ih hd
    rw [merge, if_pos hsame, Tree.tagged.injEq, settled, ← hinner]
    simp
  | _ => simp [merge, MergeOptions.replace, coerce, coerceAlone, coerceScalar, settled]

end

/-- Decoding the configuration `t` of a value `d` onto it changes neither the tree nor the value. -/
def OwnIsKept (o : MergeOptions) (read : Reader) (d : Value) (t : Tree) : Prop :=
  (∃ shape, Shape.ofValue d = .ok shape ∧ merge o shape t t = t) ∧
    decodeOnto o read d t = .ok d

/-- Where a type reads a value back from its configuration, that configuration changes nothing just
when scalars are left alone or the items of every list fit its first. -/
theorem ownIsKept_iff {o : MergeOptions} {read : Reader} {d : Value} {t : Tree}
    (hencode : Tree.ofValue d = .ok t) (hread : read t = .ok d) :
    OwnIsKept o read d t ↔ o.weaklyTyped = false ∨ t.settled = true := by
  have hd := ofValue_distinct hencode
  obtain ⟨shape, hshape⟩ := Shape.ofValue_ok hencode
  constructor
  · rintro ⟨⟨_, -, hmerge⟩, -⟩
    exact (merge_self_iff hd).mp hmerge
  · intro h
    have hmerge : merge o shape t t = t := (merge_self_iff hd).mpr h
    refine ⟨⟨shape, hshape, hmerge⟩, ?_⟩
    simp [decodeOnto, hencode, hshape, hmerge, hread, Except.mapError, bind, Except.bind]

/-- Interfaces and a list of brokers are kept, also where scalars take the kind of the old ones. -/
theorem ownIsKept_inlet :
    let schema : Schema := .record "Inlet" true
      [("interfaces", .table (.unsigned 32)), ("brokers", .list .text)]
    let d : Value := .record "Inlet"
      [("interfaces", .ofText [("eth_0", .int 1)]), ("brokers", .list [.text "a", .text "b"])]
    let t : Tree := .map [(.text "interfaces", .map [(.text "eth_0", .int 1)]),
      (.text "brokers", .list [.text "a", .text "b"])]
    (Tree.ofValue d = .ok t ∧ schema.read t = .ok d) ∧
      (OwnIsKept ⟨true, true⟩ schema.read d t ↔
        (⟨true, true⟩ : MergeOptions).weaklyTyped = false ∨ t.settled = true) :=
  ⟨⟨rfl, rfl⟩, ownIsKept_iff rfl rfl⟩

/-- The text of a pair is taken for a number, for the pair begins with one. -/
theorem own_pair_refused :
    let schema : Schema := .choice "Output" [("Pair", .items [.unsigned 8, .text])]
    let d : Value := .tupleCase "Output" "Pair" [.int 5, .text "7"]
    let t : Tree := .tagged "Pair" (.list [.int 5, .text "7"])
    Tree.ofValue d = .ok t ∧ schema.read t = .ok d ∧
      ¬ OwnIsKept ⟨true, true⟩ schema.read d t ∧
      decodeOnto ⟨true, true⟩ schema.read d t =
        .error (.decode (.wrongType (.int 7) "a string")) := by
  intro schema d t
  have hdecode : decodeOnto ⟨true, true⟩ schema.read d t =
      .error (.decode (.wrongType (.int 7) "a string")) := rfl
  refine ⟨rfl, rfl, fun hkept => ?_, hdecode⟩
  have hok := hkept.2
  rw [hdecode] at hok
  cases hok

end TestBench.Config
