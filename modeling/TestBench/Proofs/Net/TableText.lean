import Mathlib.Data.List.Nodup
import TestBench.Proofs.Named
import TestBench.Proofs.Net.PrefixText
import TestBench.Proofs.Sorting

/-! Subnet tables as texts. A table is determined by what was inserted last under each prefix, so
the texts of its entries give the table back in any order. -/
namespace TestBench.Net

theorem Prefix.proper_iff {p : Prefix} : p.Proper ↔ ∃ a n, make a n = .ok p :=
  ⟨fun h => ⟨.v6 p.address, p.length, h.make_self⟩, fun ⟨_, _, h⟩ => proper_make h⟩

namespace SubnetTable

variable {α : Type} {p : Prefix} {value : α} {t : SubnetTable α}
  {as bs : List (Prefix × α)} {texts : List (String × α)}

theorem Ascending.nodup (h : Ascending as) : (as.map (·.1)).Nodup :=
  List.pairwise_map.mpr (h.imp Prefix.ne_of_order_lt)

/-- Ascending entries are determined by which ones they are. -/
theorem Ascending.ext (ha : Ascending as) (hb : Ascending bs) (h : ∀ e, e ∈ as ↔ e ∈ bs) :
    as = bs := by
  have hperm : as.Perm bs :=
    (List.perm_ext_iff_of_nodup ha.nodup.of_map hb.nodup.of_map).mpr h
  refine hperm.eq_of_pairwise (fun d e _ _ hde hed => ?_) ha hb
  exact absurd rfl (Prefix.ne_of_order_lt (Prefix.order_lt_trans hde hed))

/-- So is a table whose entries ascend. -/
theorem eq_of_mem_iff {t' : SubnetTable α} (h : Ascending t.entries) (h' : Ascending t'.entries)
    (hmem : ∀ e, e ∈ t.entries ↔ e ∈ t'.entries) : t = t' :=
  congrArg SubnetTable.mk (h.ext h' hmem)

theorem latest_unique {other : α} (h : Latest as p value) (h' : Latest as p other) :
    value = other := by
  induction as using List.reverseRecOn with
  | nil => cases mem_of_latest h
  | append_singleton as e ih =>
    rw [latest_append_singleton] at h h'
    rcases h with rfl | ⟨h, hne⟩
    · rcases h' with heq | ⟨-, hne⟩
      · exact (Prod.mk.inj heq).2.symm
      · exact absurd rfl hne
    · rcases h' with rfl | ⟨h', -⟩
      · exact absurd rfl hne
      · exact ih h h'

/-- What came later counts; what came earlier counts for the prefixes that did not come later. -/
theorem latest_append :
    Latest (as ++ bs) p value ↔ Latest bs p value ∨ p ∉ bs.map (·.1) ∧ Latest as p value := by
  induction bs using List.reverseRecOn with
  | nil =>
    have hnil : ¬Latest [] p value := fun h => by cases mem_of_latest h
    simp [hnil]
  | append_singleton bs e ih =>
    rw [← List.append_assoc, latest_append_singleton, latest_append_singleton, ih, List.map_append,
      List.mem_append, List.map_singleton, List.mem_singleton]
    grind

/-- Under a prefix with one value, that is the latest. -/
theorem latest_iff_mem (h : ∀ other, (p, other) ∈ as → other = value) :
    Latest as p value ↔ (p, value) ∈ as := by
  refine ⟨mem_of_latest, fun hmem => ?_⟩
  obtain ⟨other, hother⟩ := exists_latest (List.mem_map_of_mem hmem)
  rwa [h other (mem_of_latest hother)] at hother

/-- Histories with the same one value under a prefix agree on its latest value. -/
theorem latest_congr (hmem : ∀ v, (p, v) ∈ as ↔ (p, v) ∈ bs)
    (hone : ∀ v w, (p, v) ∈ bs → (p, w) ∈ bs → w = v) :
    Latest as p value ↔ Latest bs p value := by
  constructor
  · intro h
    have hvalue := (hmem value).mp (mem_of_latest h)
    exact (latest_iff_mem fun other => hone value other hvalue).mpr hvalue
  · intro h
    have hvalue := mem_of_latest h
    have hone' : ∀ other, (p, other) ∈ as → other = value := fun other hother =>
      hone value other hvalue ((hmem other).mp hother)
    exact (latest_iff_mem hone').mpr ((hmem value).mpr hvalue)

theorem latest_iff_mem_of_nodup (h : (as.map (·.1)).Nodup) :
    Latest as p value ↔ (p, value) ∈ as := by
  refine ⟨mem_of_latest, fun hmem => (latest_iff_mem fun other hother => ?_).mpr hmem⟩
  have hsame := List.inj_on_of_nodup_map h hother hmem rfl
  exact (Prod.mk.inj hsame).2

/-- Histories leave the same table just when they agree on the latest values. -/
theorem insertAll_eq_iff :
    empty.insertAll as = empty.insertAll bs ↔ ∀ p value, Latest as p value ↔ Latest bs p value := by
  obtain ⟨hascending, hlatest⟩ := entries_insertAll as
  obtain ⟨hascending', hlatest'⟩ := entries_insertAll bs
  constructor
  · intro h p value
    rw [← hlatest, ← hlatest', h]
  · intro h
    exact eq_of_mem_iff hascending hascending' fun e => by rw [hlatest, hlatest', h]

theorem insertAll_append : (t.insertAll as).insertAll bs = t.insertAll (as ++ bs) :=
  List.foldl_append.symm

theorem insertAll_perm (hperm : as.Perm bs) (h : (as.map (·.1)).Nodup) :
    empty.insertAll as = empty.insertAll bs := by
  rw [insertAll_eq_iff]
  intro p value
  rw [latest_iff_mem_of_nodup h, latest_iff_mem_of_nodup ((hperm.map _).nodup_iff.mp h),
    hperm.mem_iff]

theorem insertAll_entries (h : Ascending t.entries) : empty.insertAll t.entries = t := by
  obtain ⟨hascending, hlatest⟩ := entries_insertAll t.entries
  exact eq_of_mem_iff hascending h fun e => by rw [hlatest, latest_iff_mem_of_nodup h.nodup]

theorem insertAll_eq_of_entries (h : Ascending t.entries) :
    t.insertAll as = empty.insertAll (t.entries ++ as) := by
  rw [← insertAll_append, insertAll_entries h]

theorem latest_of_append {before : List (Prefix × α)}
    (hkeys : p ∈ as.map (·.1) → p ∈ bs.map (·.1))
    (h : Latest (before ++ as) p value → Latest (before ++ bs) p value)
    (hlatest : Latest as p value) : Latest bs p value := by
  rcases latest_append.mp (h (latest_append.mpr (.inl hlatest))) with hb | ⟨hnot, -⟩
  · exact hb
  · exact absurd (hkeys (List.mem_map_of_mem (mem_of_latest hlatest))) hnot

/-- Histories of the same prefixes do the same to a table just when they agree on the latest
values. -/
theorem insertAll_eq_insertAll_iff (h : Ascending t.entries)
    (hkeys : ∀ p, p ∈ as.map (·.1) ↔ p ∈ bs.map (·.1)) :
    t.insertAll as = t.insertAll bs ↔ ∀ p value, Latest as p value ↔ Latest bs p value := by
  rw [insertAll_eq_of_entries h, insertAll_eq_of_entries h, insertAll_eq_iff]
  constructor
  · intro hall p value
    exact ⟨latest_of_append (hkeys p).mp (hall p value).mp,
      latest_of_append (hkeys p).mpr (hall p value).mpr⟩
  · intro hall p value
    rw [latest_append, latest_append, hall, hkeys]

/-- Whether entries ascend and stand under prefixes that can be made. -/
structure Proper (t : SubnetTable α) : Prop where
  ascending : Ascending t.entries
  prefixes : ∀ e ∈ t.entries, e.1.Proper

theorem proper_empty : (empty : SubnetTable α).Proper := ⟨List.Pairwise.nil, by simp [empty]⟩

theorem Proper.insert (h : t.Proper) (hp : p.Proper) (value : α) : (t.insert p value).Proper := by
  refine ⟨ascending_insertEntry h.ascending, fun e he => ?_⟩
  rcases (mem_insertEntry h.ascending).mp he with rfl | ⟨he, -⟩
  · exact hp
  · exact h.prefixes e he

theorem Proper.insertAll (h : t.Proper) (has : ∀ e ∈ as, e.1.Proper) :
    (t.insertAll as).Proper := by
  induction as generalizing t with
  | nil => exact h
  | cons e rest ih =>
    rw [List.forall_mem_cons] at has
    exact ih (h.insert has.1 e.2) has.2

/-- Proper tables are those that insertions lead to. -/
theorem proper_iff :
    t.Proper ↔ ∃ history, (∀ e ∈ history, e.1.Proper) ∧ t = empty.insertAll history := by
  constructor
  · exact fun h => ⟨t.entries, h.prefixes, (insertAll_entries h.ascending).symm⟩
  · rintro ⟨history, hhistory, rfl⟩
    exact proper_empty.insertAll hhistory

/-- An entry under the prefix its text is read as. -/
def parsed? (e : String × α) : Option (Prefix × α) :=
  (Prefix.parse e.1).toOption.map fun p => (p, e.2)

/-- What entries keyed by texts insert, one after the other. -/
def fromTexts (texts : List (String × α)) : List (Prefix × α) := texts.filterMap parsed?

/-- Whether every text is that of a prefix. -/
def Readable (texts : List (String × α)) : Prop := ∀ e ∈ texts, ∃ p, Prefix.parse e.1 = .ok p

theorem parsed?_of_parse {e : String × α} (h : Prefix.parse e.1 = .ok p) :
    parsed? e = some (p, e.2) := by
  rw [parsed?, h]
  rfl

theorem mem_fromTexts_iff :
    (p, value) ∈ fromTexts texts ↔ ∃ s, (s, value) ∈ texts ∧ Prefix.parse s = .ok p := by
  rw [fromTexts, List.mem_filterMap]
  constructor
  · rintro ⟨⟨s, v⟩, hmem, hentry⟩
    obtain ⟨q, hq, heq⟩ := Option.map_eq_some_iff.mp hentry
    obtain ⟨rfl, rfl⟩ := Prod.mk.inj heq
    refine ⟨s, hmem, ?_⟩
    cases hparse : Prefix.parse s with
    | error e =>
      rw [hparse] at hq
      cases hq
    | ok r =>
      rw [hparse] at hq
      exact congrArg Except.ok (Option.some.inj hq)
  · rintro ⟨s, hmem, hparse⟩
    exact ⟨(s, value), hmem, parsed?_of_parse hparse⟩

theorem fromTexts_cons {e : String × α} (h : Prefix.parse e.1 = .ok p) :
    fromTexts (e :: texts) = (p, e.2) :: fromTexts texts :=
  List.filterMap_cons_some (parsed?_of_parse h)

theorem fromTexts_append (texts more : List (String × α)) :
    fromTexts (texts ++ more) = fromTexts texts ++ fromTexts more :=
  List.filterMap_append

theorem proper_fromTexts : ∀ e ∈ fromTexts texts, e.1.Proper := by
  intro e he
  obtain ⟨s, -, hparse⟩ := mem_fromTexts_iff.mp he
  exact Prefix.proper_parse hparse

/-- Texts of prefixes are inserted one after the other. -/
theorem ofTexts_eq (h : Readable texts) :
    ofTexts texts = .ok (empty.insertAll (fromTexts texts)) := by
  have hfold (t : SubnetTable α) :
      texts.foldlM (fun t e => do Except.ok (t.insert (← Prefix.parse e.1) e.2)) t =
        .ok (t.insertAll (fromTexts texts)) := by
    induction texts generalizing t with
    | nil => rfl
    | cons e rest ih =>
      obtain ⟨⟨p, hp⟩, hrest⟩ := List.forall_mem_cons.mp h
      rw [List.foldlM_cons, hp, fromTexts_cons hp]
      exact ih hrest (t.insert p e.2)
  exact hfold empty

/-- Whether every text is the mapped text of a prefix and none stands twice, as in the texts of a
table. -/
structure Canonical (texts : List (String × α)) : Prop where
  nodup : (texts.map (·.1)).Nodup
  mapped : ∀ s ∈ texts.map (·.1), ∃ p : Prefix, p.Proper ∧ s = p.mappedText

theorem Canonical.eq_mappedText {s : String} (h : Canonical texts) (hs : s ∈ texts.map (·.1))
    (hparse : Prefix.parse s = .ok p) : s = p.mappedText := by
  obtain ⟨q, hq, rfl⟩ := h.mapped s hs
  rw [Prefix.parse_mappedText hq] at hparse
  rw [Except.ok.inj hparse]

theorem Canonical.readable (h : Canonical texts) : Readable texts := by
  intro e he
  obtain ⟨p, hp, heq⟩ := h.mapped e.1 (List.mem_map_of_mem he)
  exact ⟨p, heq ▸ Prefix.parse_mappedText hp⟩

theorem Canonical.nodup_fromTexts (h : Canonical texts) :
    ((fromTexts texts).map (·.1)).Nodup := by
  have hback : ((fromTexts texts).map (·.1)).map Prefix.mappedText = texts.map (·.1) := by
    have hmapped := h.mapped
    clear h
    induction texts with
    | nil => rfl
    | cons e rest ih =>
      rw [List.map_cons, List.forall_mem_cons] at hmapped
      obtain ⟨⟨p, hp, heq⟩, hrest⟩ := hmapped
      have hparse : Prefix.parse e.1 = .ok p := heq ▸ Prefix.parse_mappedText hp
      rw [fromTexts_cons hparse, List.map_cons, List.map_cons, List.map_cons, ih hrest, heq]
  exact List.Nodup.of_map _ (hback ▸ h.nodup)

theorem Canonical.put {key : String} (h : Canonical texts) (hkey : key ∈ texts.map (·.1))
    (value : α) : Canonical (put key value texts) := by
  constructor
  · exact Named.keys_put value hkey ▸ h.nodup
  · exact Named.keys_put value hkey ▸ h.mapped

/-- A text that is there is put where it stands, and so is what stands under its prefix. -/
theorem mem_fromTexts_put {key : String} {q : Prefix} {other : α} (h : Canonical texts)
    (hkey : key ∈ texts.map (·.1)) (hp : Prefix.parse key = .ok p) :
    (q, other) ∈ fromTexts (TestBench.put key value texts) ↔
      (q, other) = (p, value) ∨ (q, other) ∈ fromTexts texts ∧ q ≠ p := by
  rw [mem_fromTexts_iff, mem_fromTexts_iff]
  constructor
  · rintro ⟨s, hmem, hs⟩
    rcases (Named.mem_put h.nodup).mp hmem with heq | ⟨hmem, hne⟩
    · obtain ⟨rfl, rfl⟩ := Prod.mk.inj heq
      rw [hp] at hs
      exact .inl (by rw [Except.ok.inj hs])
    · refine .inr ⟨⟨s, hmem, hs⟩, fun hq => hne ?_⟩
      have hskey : s ∈ texts.map (·.1) := List.mem_map_of_mem hmem
      rw [h.eq_mappedText hskey hs, h.eq_mappedText hkey hp, hq]
  · rintro (heq | ⟨⟨s, hmem, hs⟩, hq⟩)
    · obtain ⟨rfl, rfl⟩ := Prod.mk.inj heq
      exact ⟨key, (Named.mem_put h.nodup).mpr (.inl rfl), hp⟩
    · refine ⟨s, (Named.mem_put h.nodup).mpr (.inr ⟨hmem, fun hskey => hq ?_⟩), hs⟩
      have hskey : s = key := hskey
      rw [hskey, hp] at hs
      exact (Except.ok.inj hs).symm

theorem insertAll_fromTexts_put {key : String} (h : Canonical texts)
    (hkey : key ∈ texts.map (·.1)) (hp : Prefix.parse key = .ok p) :
    empty.insertAll (fromTexts (TestBench.put key value texts)) =
      (empty.insertAll (fromTexts texts)).insert p value := by
  show _ = (empty.insertAll (fromTexts texts)).insertAll [(p, value)]
  rw [insertAll_append, insertAll_eq_iff]
  intro q other
  rw [latest_iff_mem_of_nodup (h.put hkey value).nodup_fromTexts, latest_append_singleton,
    latest_iff_mem_of_nodup h.nodup_fromTexts, mem_fromTexts_put h hkey hp]

theorem insertAll_fromTexts_putAll {given : List (String × α)} (h : Canonical texts)
    (hgiven : ∀ e ∈ given, e.1 ∈ texts.map (·.1)) :
    empty.insertAll (fromTexts (Named.putAll texts given)) =
      (empty.insertAll (fromTexts texts)).insertAll (fromTexts given) := by
  induction given generalizing texts with
  | nil => rfl
  | cons e rest ih =>
    rw [List.forall_mem_cons] at hgiven
    obtain ⟨p, hp, hkey⟩ := h.mapped e.1 hgiven.1
    have hparse : Prefix.parse e.1 = .ok p := hkey ▸ Prefix.parse_mappedText hp
    have hrest : ∀ d ∈ rest, d.1 ∈ (put e.1 e.2 texts).map (·.1) := by
      rw [Named.keys_put e.2 hgiven.1]
      exact hgiven.2
    rw [Named.putAll_cons, ih (h.put hgiven.1 e.2) hrest,
      insertAll_fromTexts_put h hgiven.1 hparse, fromTexts_cons hparse]
    rfl

theorem canonical_toTexts (h : t.Proper) : Canonical t.toTexts := by
  have hperm : (t.toTexts.map (·.1)).Perm ((t.entries.map (·.1)).map Prefix.mappedText) := by
    have hkeys := (sortBy_perm keyLe (t.entries.map fun e => (e.1.mappedText, e.2))).map (·.1)
    rw [List.map_map] at hkeys ⊢
    exact hkeys
  constructor
  · rw [hperm.nodup_iff]
    refine h.ascending.nodup.map_on fun p hp q hq heq => ?_
    obtain ⟨d, hd, rfl⟩ := List.mem_map.mp hp
    obtain ⟨e, he, rfl⟩ := List.mem_map.mp hq
    exact Prefix.mappedText_injective (h.prefixes d hd) (h.prefixes e he) heq
  · intro s hs
    obtain ⟨p, hp, rfl⟩ := List.mem_map.mp (hperm.mem_iff.mp hs)
    obtain ⟨e, he, rfl⟩ := List.mem_map.mp hp
    exact ⟨e.1, h.prefixes e he, rfl⟩

/-- Read as prefixes, the texts of a table are its entries in some order. -/
theorem fromTexts_toTexts_perm (h : t.Proper) : (fromTexts t.toTexts).Perm t.entries := by
  have hentry : ∀ e ∈ t.entries, parsed? (e.1.mappedText, e.2) = some e := fun e he =>
    parsed?_of_parse (Prefix.parse_mappedText (h.prefixes e he))
  have hread : fromTexts (t.entries.map fun e => (e.1.mappedText, e.2)) = t.entries := by
    rw [fromTexts, List.filterMap_map, Function.comp_def, List.filterMap_congr hentry,
      List.filterMap_some]
  rw [← hread]
  exact (sortBy_perm keyLe _).filterMap parsed?

theorem insertAll_fromTexts_toTexts (h : t.Proper) : empty.insertAll (fromTexts t.toTexts) = t := by
  rw [insertAll_perm (fromTexts_toTexts_perm h) (canonical_toTexts h).nodup_fromTexts,
    insertAll_entries h.ascending]

/-- A table is what its texts are read as. -/
theorem ofTexts_toTexts (h : t.Proper) : ofTexts t.toTexts = .ok t := by
  rw [ofTexts_eq (canonical_toTexts h).readable, insertAll_fromTexts_toTexts h]

theorem toTexts_injective {t' : SubnetTable α} (h : t.Proper) (h' : t'.Proper)
    (heq : t.toTexts = t'.toTexts) : t = t' := by
  have hread := ofTexts_toTexts h
  rw [heq, ofTexts_toTexts h'] at hread
  exact (Except.ok.inj hread).symm

end SubnetTable
end TestBench.Net
