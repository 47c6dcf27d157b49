import Mathlib.Data.List.Induction
import Mathlib.Data.List.Basic
import Mathlib.Order.Nat
import TestBench.Net.SubnetTable

/-! What a subnet table answers after any history of insertions: of the prefixes that contain the
address the longest counts, and under it the latest value. -/
namespace TestBench.Net

namespace Prefix

variable {p q r : Prefix} {a : Address}

theorem order_eq_iff : p.order q = .eq ↔ p = q := by
  cases p
  cases q
  simp [order, Ordering.then_eq_eq, BitVec.toNat_inj]

theorem order_lt_iff : p.order q = .lt ↔ p.address.toNat < q.address.toNat ∨
    p.address.toNat = q.address.toNat ∧ p.length < q.length := by
  simp [order, Ordering.then_eq_lt, Nat.compare_eq_lt]

theorem order_gt_iff : p.order q = .gt ↔ q.order p = .lt := by
  rw [order_lt_iff, eq_comm (a := q.address.toNat)]
  simp [order, Ordering.then_eq_gt, Nat.compare_eq_gt]

theorem order_lt_trans (hpq : p.order q = .lt) (hqr : q.order r = .lt) : p.order r = .lt := by
  rw [order_lt_iff] at *
  omega

theorem ne_of_order_lt (h : p.order q = .lt) : p ≠ q := by
  rintro rfl
  rw [order_lt_iff] at h
  omega

/-- An address determines the prefix of each length that contains it. -/
theorem eq_of_contains (hp : p.contains a = true) (hq : q.contains a = true)
    (hlen : p.length = q.length) : p = q := by
  rw [contains, beq_iff_eq] at hp hq
  cases p
  cases q
  simp_all

/-- An IPv4 prefix is the prefix of the mapped address that is ninety-six bits longer. -/
theorem make_mapped_iff {b : V4} {n : Nat} :
    make (.v4 b) n = .ok p ↔ make (.v6 b.mapped) (n + 96) = .ok p := by
  have hlong : 128 < min 255 (n + 96) ↔ 128 < n + 96 := by omega
  by_cases h : 128 < n + 96
  · simp [make, hlong, h]
  · have hmin : min 255 (n + 96) = n + 96 := by omega
    simp [make, hmin, h, Address.wide]

end Prefix

namespace SubnetTable

variable {α : Type} {p : Prefix} {value : α} {a : Address}

/-- Whether entries ascend by prefix, so that each prefix stands once. -/
def Ascending (entries : List (Prefix × α)) : Prop :=
  entries.Pairwise fun d e => d.1.order e.1 = .lt

theorem mem_insertEntry {entries : List (Prefix × α)} (h : Ascending entries)
    {e : Prefix × α} :
    e ∈ insertEntry p value entries ↔ e = (p, value) ∨ e ∈ entries ∧ e.1 ≠ p := by
  induction entries with
  | nil => simp [insertEntry]
  | cons d rest ih =>
    obtain ⟨hd, hrest⟩ := List.pairwise_cons.mp h
    rw [insertEntry]
    split
    next hlt =>
      have hne : ∀ e ∈ d :: rest, e.1 ≠ p := by
        intro e he
        rcases List.mem_cons.mp he with rfl | he
        · exact (Prefix.ne_of_order_lt hlt).symm
        · exact (Prefix.ne_of_order_lt (Prefix.order_lt_trans hlt (hd e he))).symm
      rw [List.mem_cons]
      exact or_congr Iff.rfl ⟨fun he => ⟨he, hne e he⟩, And.left⟩
    next heq =>
      obtain rfl := Prefix.order_eq_iff.mp heq
      have hne : ∀ e ∈ rest, e.1 ≠ d.1 := fun e he => (Prefix.ne_of_order_lt (hd e he)).symm
      rw [List.mem_cons, List.mem_cons]
      constructor
      · rintro (rfl | he)
        · exact .inl rfl
        · exact .inr ⟨.inr he, hne e he⟩
      · rintro (rfl | ⟨rfl | he, hp⟩)
        · exact .inl rfl
        · exact absurd rfl hp
        · exact .inr he
    next hgt =>
      have hne : d.1 ≠ p := Prefix.ne_of_order_lt (Prefix.order_gt_iff.mp hgt)
      rw [List.mem_cons, List.mem_cons, ih hrest]
      constructor
      · rintro (rfl | rfl | he)
        · exact .inr ⟨.inl rfl, hne⟩
        · exact .inl rfl
        · exact .inr ⟨.inr he.1, he.2⟩
      · rintro (rfl | ⟨rfl | he, hp⟩)
        · exact .inr (.inl rfl)
        · exact .inl rfl
        · exact .inr (.inr ⟨he, hp⟩)

theorem ascending_insertEntry {entries : List (Prefix × α)} (h : Ascending entries) :
    Ascending (insertEntry p value entries) := by
  induction entries with
  | nil => exact List.pairwise_singleton _ _
  | cons d rest ih =>
    obtain ⟨hd, hrest⟩ := List.pairwise_cons.mp h
    rw [insertEntry]
    split
    next hlt =>
      refine List.pairwise_cons.mpr ⟨fun e he => ?_, h⟩
      rcases List.mem_cons.mp he with rfl | he
      · exact hlt
      · exact Prefix.order_lt_trans hlt (hd e he)
    next => exact List.pairwise_cons.mpr ⟨hd, hrest⟩
    next hgt =>
      refine List.pairwise_cons.mpr ⟨fun e he => ?_, ih hrest⟩
      rcases (mem_insertEntry hrest).mp he with rfl | he
      · exact Prefix.order_gt_iff.mp hgt
      · exact hd e he.1

/-- The later of two longest entries wins, but it is a longest one. -/
theorem longest_some (best : Prefix × α) (entries : List (Prefix × α)) :
    ∃ e, longest (some best) entries = some e ∧ e ∈ best :: entries ∧
      ∀ d ∈ best :: entries, d.1.length ≤ e.1.length := by
  induction entries generalizing best with
  | nil => exact ⟨best, rfl, by simp, by simp⟩
  | cons d rest ih =>
    rw [longest]
    split
    next hle =>
      obtain ⟨e, he, hmem, hmax⟩ := ih d
      refine ⟨e, he, List.mem_cons_of_mem _ hmem, fun x hx => ?_⟩
      rcases List.mem_cons.mp hx with rfl | hx
      · exact hle.trans (hmax d List.mem_cons_self)
      · exact hmax x hx
    next hlt =>
      obtain ⟨e, he, hmem, hmax⟩ := ih best
      have hbest := hmax best List.mem_cons_self
      refine ⟨e, he, ?_, fun x hx => ?_⟩
      · rcases List.mem_cons.mp hmem with rfl | hmem
        · exact List.mem_cons_self
        · exact List.mem_cons_of_mem _ (List.mem_cons_of_mem _ hmem)
      · rcases List.mem_cons.mp hx with rfl | hx
        · exact hbest
        · rcases List.mem_cons.mp hx with rfl | hx
          · omega
          · exact hmax x (List.mem_cons_of_mem _ hx)

theorem lookup_eq_none_iff {t : SubnetTable α} :
    t.lookup a = none ↔ ∀ e ∈ t.entries, e.1.contains a = false := by
  rw [lookup, Option.map_eq_none_iff]
  cases hfilter : t.entries.filter fun e => e.1.contains a with
  | nil => simpa [longest, List.filter_eq_nil_iff] using hfilter
  | cons d rest =>
    obtain ⟨e, he, -, -⟩ := longest_some d rest
    have hd : d ∈ t.entries.filter fun e => e.1.contains a := by
      rw [hfilter]
      exact List.mem_cons_self
    rw [List.mem_filter] at hd
    rw [longest, he]
    constructor
    · intro h
      cases h
    · intro h
      exact absurd hd.2 (by simp [h d hd.1])

/-- An answer is the value of an entry, and no longer prefix contains the address. -/
theorem exists_of_lookup_eq_some {t : SubnetTable α} (h : t.lookup a = some value) :
    ∃ p, (p, value) ∈ t.entries ∧ p.contains a = true ∧
      ∀ e ∈ t.entries, e.1.contains a = true → e.1.length ≤ p.length := by
  obtain ⟨e, he, rfl⟩ := Option.map_eq_some_iff.mp h
  cases hfilter : t.entries.filter fun e => e.1.contains a with
  | nil =>
    rw [hfilter] at he
    cases he
  | cons d rest =>
    obtain ⟨e', he', hmem, hmax⟩ := longest_some d rest
    rw [hfilter, longest, he'] at he
    obtain rfl := Option.some.inj he
    rw [← hfilter] at hmem hmax
    obtain ⟨hin, hcontains⟩ := List.mem_filter.mp hmem
    exact ⟨e'.1, hin, hcontains, fun x hx hxa => hmax x (List.mem_filter.mpr ⟨hx, hxa⟩)⟩

/-- The table after more insertions, one after the other. -/
def insertAll (t : SubnetTable α) (history : List (Prefix × α)) : SubnetTable α :=
  history.foldl (fun t e => t.insert e.1 e.2) t

/-- A table without entries, or with a value for every address. -/
def opened : Option α → SubnetTable α
  | none => empty
  | some value => withDefault value

/-- All that was inserted, the value for every address first. -/
def inserted (start : Option α) (history : List (Prefix × α)) : List (Prefix × α) :=
  (start.map fun value => (Prefix.any, value)).toList ++ history

/-- Whether this is the value last inserted under a prefix. -/
def Latest (history : List (Prefix × α)) (p : Prefix) (value : α) : Prop :=
  ∃ earlier later, history = earlier ++ (p, value) :: later ∧ ∀ e ∈ later, e.1 ≠ p

/-- Whether this is a longest of the prefixes inserted that contain an address. -/
def Longest (history : List (Prefix × α)) (a : Address) (p : Prefix) : Prop :=
  p ∈ history.map (·.1) ∧ p.contains a = true ∧
    ∀ q ∈ history.map (·.1), q.contains a = true → q.length ≤ p.length

theorem latest_append_singleton {history : List (Prefix × α)} {e : Prefix × α} :
    Latest (history ++ [e]) p value ↔ (p, value) = e ∨ Latest history p value ∧ p ≠ e.1 := by
  constructor
  · rintro ⟨earlier, later, heq, hlater⟩
    rcases List.eq_nil_or_concat' later with rfl | ⟨init, last, rfl⟩
    · obtain ⟨-, hlast⟩ := List.append_inj' heq rfl
      exact .inl (List.singleton_inj.mp hlast).symm
    · rw [← List.cons_append, ← List.append_assoc] at heq
      obtain ⟨hinit, hlast⟩ := List.append_inj' heq rfl
      obtain rfl := List.singleton_inj.mp hlast
      exact .inr ⟨⟨earlier, init, hinit, fun d hd => hlater d (List.mem_append_left _ hd)⟩,
        (hlater e (by simp)).symm⟩
  · rintro (rfl | ⟨⟨earlier, later, rfl, hlater⟩, hne⟩)
    · exact ⟨history, [], rfl, by simp⟩
    · refine ⟨earlier, later ++ [e], by simp, fun d hd => ?_⟩
      rcases List.mem_append.mp hd with hd | hd
      · exact hlater d hd
      · exact List.mem_singleton.mp hd ▸ hne.symm

/-- What was ever inserted under a prefix has a latest value. -/
theorem exists_latest {history : List (Prefix × α)} (h : p ∈ history.map (·.1)) :
    ∃ value, Latest history p value := by
  induction history using List.reverseRecOn with
  | nil => cases h
  | append_singleton history e ih =>
    by_cases hp : p = e.1
    · exact ⟨e.2, latest_append_singleton.mpr (.inl (by rw [hp]))⟩
    · have hold : p ∈ history.map (·.1) := by simpa [hp] using h
      obtain ⟨value, hvalue⟩ := ih hold
      exact ⟨value, latest_append_singleton.mpr (.inr ⟨hvalue, hp⟩)⟩

theorem mem_of_latest {history : List (Prefix × α)} (h : Latest history p value) :
    (p, value) ∈ history := by
  obtain ⟨earlier, later, rfl, -⟩ := h
  simp

/-- A history leaves the latest value under each prefix. -/
theorem entries_insertAll (history : List (Prefix × α)) :
    Ascending (empty.insertAll history).entries ∧
      ∀ p value, (p, value) ∈ (empty.insertAll history).entries ↔ Latest history p value := by
  induction history using List.reverseRecOn with
  | nil =>
    refine ⟨List.Pairwise.nil, fun p value => ⟨fun h => ?_, fun h => ?_⟩⟩
    · cases h
    · cases mem_of_latest h
  | append_singleton history e ih =>
    obtain ⟨hascending, hlatest⟩ := ih
    have hlast : (empty.insertAll (history ++ [e])).entries =
        insertEntry e.1 e.2 (empty.insertAll history).entries := by
      rw [insertAll, List.foldl_append]
      rfl
    rw [hlast]
    refine ⟨ascending_insertEntry hascending, fun p value => ?_⟩
    rw [mem_insertEntry hascending, hlatest, latest_append_singleton]

theorem insertAll_opened (start : Option α) (history : List (Prefix × α)) :
    (opened start).insertAll history = empty.insertAll (inserted start history) := by
  cases start <;> rfl

theorem longest_unique {history : List (Prefix × α)} {q : Prefix} (hp : Longest history a p)
    (hq : Longest history a q) : p = q := by
  obtain ⟨hp, hpa, hpmax⟩ := hp
  obtain ⟨hq, hqa, hqmax⟩ := hq
  exact Prefix.eq_of_contains hpa hqa (le_antisymm (hqmax p hp hpa) (hpmax q hq hqa))

/-- A table finds nothing just when no prefix in it contains the address. -/
theorem lookup_insertAll_eq_none_iff {history : List (Prefix × α)} :
    (empty.insertAll history).lookup a = none ↔
      ∀ p ∈ history.map (·.1), p.contains a = false := by
  obtain ⟨-, hlatest⟩ := entries_insertAll history
  rw [lookup_eq_none_iff]
  constructor
  · intro h p hp
    obtain ⟨value, hvalue⟩ := exists_latest hp
    exact h _ ((hlatest p value).mpr hvalue)
  · intro h e he
    have hmem := mem_of_latest ((hlatest e.1 e.2).mp he)
    exact h e.1 (List.mem_map_of_mem hmem)

/-- What a table finds is the latest value of a longest prefix. -/
theorem exists_longest_of_lookup {history : List (Prefix × α)}
    (h : (empty.insertAll history).lookup a = some value) :
    ∃ p, Longest history a p ∧ Latest history p value := by
  obtain ⟨-, hlatest⟩ := entries_insertAll history
  obtain ⟨p, hp, hpa, hmax⟩ := exists_of_lookup_eq_some h
  have hvalue := (hlatest p value).mp hp
  refine ⟨p, ⟨List.mem_map_of_mem (mem_of_latest hvalue), hpa, fun q hq hqa => ?_⟩, hvalue⟩
  obtain ⟨other, hother⟩ := exists_latest hq
  exact hmax _ ((hlatest q other).mpr hother) hqa

/-- After any history of insertions, begun with no value or one for every address, a table finds
nothing for an address just when no prefix inserted contains it. Otherwise it finds the value last
inserted under the longest prefix that does, and there is only one of that length. An IPv4 address
and its mapped form find the same, and an IPv4 prefix is the same prefix in either form. -/
theorem lookup_after_history (start : Option α) (history : List (Prefix × α)) (a : Address) :
    (((opened start).insertAll history).lookup a = none ↔
      ∀ p ∈ (inserted start history).map (·.1), p.contains a = false) ∧
    (∀ q ∈ (inserted start history).map (·.1), q.contains a = true →
      ∃ p value, Longest (inserted start history) a p ∧ Latest (inserted start history) p value ∧
        ((opened start).insertAll history).lookup a = some value) ∧
    (∀ p q, Longest (inserted start history) a p → Longest (inserted start history) a q → p = q) ∧
    (∀ b : V4, ((opened start).insertAll history).lookup (.v4 b) =
      ((opened start).insertAll history).lookup (.v6 b.mapped)) ∧
    (∀ (b : V4) n p, Prefix.make (.v4 b) n = .ok p ↔
      Prefix.make (.v6 b.mapped) (n + 96) = .ok p) := by
  rw [insertAll_opened]
  refine ⟨lookup_insertAll_eq_none_iff, ?_, fun p q => longest_unique, fun b => rfl,
    fun b n p => Prefix.make_mapped_iff⟩
  intro q hq hqa
  cases hlookup : (empty.insertAll (inserted start history)).lookup a with
  | none =>
    have hnone := lookup_insertAll_eq_none_iff.mp hlookup q hq
    rw [hqa] at hnone
    cases hnone
  | some value =>
    obtain ⟨p, hp, hvalue⟩ := exists_longest_of_lookup hlookup
    exact ⟨p, value, hp, hvalue, rfl⟩

/-- Of `10.0.0.0/8` and `10.1.0.0/16` the second answers for `10.1.2.3`, with its second value. -/
theorem lookup_after_history_office :
    let wide : Prefix := ⟨BitVec.ofNat 128 0xFFFF0A000000, 104⟩
    let narrow : Prefix := ⟨BitVec.ofNat 128 0xFFFF0A010000, 112⟩
    let history : List (Prefix × Nat) := [(narrow, 1), (wide, 2), (narrow, 3)]
    let a : Address := .v4 (BitVec.ofNat 32 0x0A010203)
    (narrow ∈ (inserted (some 0) history).map (·.1) ∧ narrow.contains a = true) ∧
      (∃ p value, Longest (inserted (some 0) history) a p ∧
        Latest (inserted (some 0) history) p value ∧
        ((opened (some 0)).insertAll history).lookup a = some value) ∧
      ((opened (some 0)).insertAll history).lookup a = some 3 := by
  intro wide narrow history a
  have hnarrow : narrow ∈ (inserted (some 0) history).map (·.1) := by decide
  have hcontains : narrow.contains a = true := by decide
  exact ⟨⟨hnarrow, hcontains⟩,
    (lookup_after_history (some 0) history a).2.1 narrow hnarrow hcontains, by decide⟩

end SubnetTable
end TestBench.Net
