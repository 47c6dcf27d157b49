import TestBench.Config.Check
import TestBench.Proofs.Config.ExactKeys
import TestBench.Proofs.Config.SubnetReading

/-! Laying entries over a subnet table of numbers. The merge matches keys as texts: an entry spelled
as the table spells its prefix replaces what the table has and keeps its place, all others come
after the table. Between spellings of one prefix the order of the source is lost. -/
namespace TestBench.Config
open Named Net SubnetTable

variable {o : MergeOptions} {shape : Shape} {bits : Nat} {own given : List (String × Value)}
  {table : SubnetTable Value} {source : Tree}

/-- A number replaces a number. -/
theorem merge_number {v w : Value} (hv : Stored (.unsigned bits) v)
    (hw : Stored (.unsigned bits) w) : merge o shape (encoded v) (encoded w) = encoded w := by
  cases hv with
  | number hbits low high =>
    cases hw with
    | number hbits' low' high' =>
      rw [encoded_int hbits low high, encoded_int hbits' low' high', merge]
      · cases hweak : o.weaklyTyped <;>
          simp [MergeOptions.replace, hweak, coerce, coerceAlone, coerceScalar]
      all_goals simp

theorem mergeEntry_number {e : String × Value} (hloose : o.loose shape = false)
    (hown : ∀ e ∈ own, Stored (.unsigned bits) e.2) (he : Stored (.unsigned bits) e.2) :
    mergeEntry o shape (keyed own) (.text e.1, encoded e.2) = keyed (put e.1 e.2 own) := by
  have hbrought : broughtIn o shape (keyed own) (.text e.1, encoded e.2) = encoded e.2 := by
    unfold broughtIn
    cases hfind : Tree.find? (.text e.1) (keyed own) with
    | none => rfl
    | some a =>
      obtain ⟨k, hmem, -⟩ := Tree.exists_of_find?_eq_some hfind
      obtain ⟨d, hd, heq⟩ := List.mem_map.mp hmem
      obtain ⟨-, rfl⟩ := Prod.mk.inj heq
      exact merge_number (hown d hd) he
  rw [mergeEntry_of_exact hloose, hbrought, put_keyed]

/-- Merging numbers keyed by texts puts them one after the other. -/
theorem mergeEntries_numbers (hloose : o.loose shape = false)
    (hown : ∀ e ∈ own, Stored (.unsigned bits) e.2)
    (hgiven : ∀ e ∈ given, Stored (.unsigned bits) e.2) :
    mergeEntries o shape (keyed own) (keyed given) = keyed (putAll own given) := by
  rw [mergeEntries_eq_foldl]
  induction given generalizing own with
  | nil => rfl
  | cons e rest ih =>
    rw [List.forall_mem_cons] at hgiven
    have hput : ∀ d ∈ put e.1 e.2 own, Stored (.unsigned bits) d.2 := by
      intro d hd
      rcases of_mem_put hd with rfl | hd
      · exact hgiven.1
      · exact hown d hd
    show List.foldl _ (mergeEntry o shape (keyed own) (.text e.1, encoded e.2)) (keyed rest) = _
    rw [mergeEntry_number hloose hown hgiven.1, ih hput hgiven.2]
    rfl

/-- Entries a source can hold: the texts of prefixes, no text twice, and numbers of 32 bits. -/
structure Given (given : List (String × Value)) : Prop where
  nodup : (given.map (·.1)).Nodup
  readable : Readable given
  numbers : ∀ e ∈ given, Stored (.unsigned 32) e.2

theorem given_pair {d e : String × Value} (hne : d.1 ≠ e.1) (hreadable : Readable [d, e])
    (hd : Stored (.unsigned 32) d.2) (he : Stored (.unsigned 32) e.2) : Given [d, e] :=
  ⟨by simpa using hne, hreadable, List.forall_mem_cons.mpr ⟨hd, List.forall_mem_singleton.mpr he⟩⟩

theorem Given.ofValue (h : Given given) : Tree.ofValue (.ofText given) = .ok (.map (keyed given)) :=
  ofValue_ofText h.nodup fun e he => (h.numbers e he).ofValue

/-- The entries spelled as the table spells its own prefixes. -/
def spelledAlike (table : SubnetTable Value) (given : List (String × Value)) :
    List (String × Value) :=
  given.filter fun e => e.1 ∈ table.toTexts.map (·.1)

/-- The entries of other spellings, be their prefixes in the table or not. -/
def spelledApart (table : SubnetTable Value) (given : List (String × Value)) :
    List (String × Value) :=
  given.filter fun e => e.1 ∉ table.toTexts.map (·.1)

/-- The table after a merge: of what the source inserts, that in spellings of the table comes
first. -/
def laidOver (table : SubnetTable Value) (given : List (String × Value)) : SubnetTable Value :=
  table.insertAll (fromTexts (spelledAlike table given ++ spelledApart table given))

theorem insertAll_fromTexts_merged (htable : table.Proper) (hgiven : Given given) :
    empty.insertAll (fromTexts (putAll table.toTexts given)) = laidOver table given := by
  have hsplit : putAll table.toTexts given =
      putAll table.toTexts (spelledAlike table given) ++ spelledApart table given := by
    have hfold := putAll_append table.toTexts [] given hgiven.nodup (by simp)
    rw [List.append_nil, List.nil_append] at hfold
    exact hfold
  have halike : ∀ e ∈ spelledAlike table given, e.1 ∈ table.toTexts.map (·.1) :=
    fun e he => of_decide_eq_true (List.mem_filter.mp he).2
  rw [hsplit, fromTexts_append, ← insertAll_append,
    insertAll_fromTexts_putAll (canonical_toTexts htable) halike,
    insertAll_fromTexts_toTexts htable, insertAll_append, ← fromTexts_append, laidOver]

theorem readable_merged (htable : table.Proper) (hgiven : Given given) :
    Readable (putAll table.toTexts given) := by
  intro e he
  rcases of_mem_putAll he with he | he
  · exact (canonical_toTexts htable).readable e he
  · exact hgiven.readable e he

theorem numbers_merged (htable : StoredTable (.unsigned 32) table) (hgiven : Given given) :
    ∀ e ∈ putAll table.toTexts given, Stored (.unsigned 32) e.2 := by
  intro e he
  rcases of_mem_putAll he with he | he
  · exact htable.toTexts e he
  · exact hgiven.numbers e he

/-- A table has the shape of a map, whose keys stand for themselves. -/
theorem exists_shape (htable : StoredTable (.unsigned 32) table) :
    ∃ shape, Shape.ofValue (subnetsToValue table) = .ok shape ∧
      defaultMerge.loose shape = false := by
  obtain ⟨shape, hshape⟩ := Shape.ofValue_ok htable.ofValue
  obtain ⟨shapes, -, hmap⟩ := bind_eq_ok.mp hshape
  exact ⟨shape, hshape, Except.ok.inj hmap ▸ rfl⟩

theorem decodeOnto_subnets (htable : StoredTable (.unsigned 32) table) (hgiven : Given given)
    (hsource : Tree.ofValue (.ofText given) = .ok source) :
    decodeOnto defaultMerge (Schema.subnets (.unsigned 32)).read (subnetsToValue table) source =
      .ok (subnetsToValue (laidOver table given)) := by
  obtain rfl : .map (keyed given) = source := Except.ok.inj (hgiven.ofValue.symm.trans hsource)
  obtain ⟨shape, hshape, hloose⟩ := exists_shape htable
  have hmerge : merge defaultMerge shape (.map (keyed table.toTexts)) (.map (keyed given)) =
      .map (keyed (putAll table.toTexts given)) := by
    rw [merge, mergeEntries_numbers hloose htable.toTexts hgiven.numbers]
  have hread := subnets_keyed (readable_merged htable.proper hgiven) (numbers_merged htable hgiven)
  rw [insertAll_fromTexts_merged htable.proper hgiven] at hread
  have hvalue : (Schema.subnets (.unsigned 32)).read
      (.map (keyed (putAll table.toTexts given))) =
        .ok (subnetsToValue (laidOver table given)) := bind_eq_ok.mpr ⟨_, hread, rfl⟩
  rw [decodeOnto, htable.ofValue, hshape]
  show ((Schema.subnets (.unsigned 32)).read (merge _ _ _ _)).mapError _ = _
  rw [hmerge, hvalue]
  rfl

theorem mem_keys_fromTexts_reordered (table : SubnetTable Value) (given : List (String × Value))
    (p : Prefix) :
    p ∈ (fromTexts (spelledAlike table given ++ spelledApart table given)).map (·.1) ↔
      p ∈ (fromTexts given).map (·.1) := by
  have hperm : (spelledAlike table given ++ spelledApart table given).Perm given := by
    have hsplit := List.filter_append_perm (fun e => decide (e.1 ∈ table.toTexts.map (·.1))) given
    simpa only [spelledAlike, spelledApart, decide_not] using hsplit
  exact ((hperm.filterMap parsed?).map _).mem_iff

section Once

variable {p : Prefix} {v w : Value}

theorem mem_keys_of_notMem_spelledApart {s : String}
    (hp : p ∉ (fromTexts (spelledApart table given)).map (·.1)) (hmem : (s, v) ∈ given)
    (hs : Prefix.parse s = .ok p) : s ∈ table.toTexts.map (·.1) := by
  by_contra hnot
  have hapart : (s, v) ∈ spelledApart table given :=
    List.mem_filter.mpr ⟨hmem, decide_eq_true hnot⟩
  have hread : (p, v) ∈ fromTexts (spelledApart table given) :=
    mem_fromTexts_iff.mpr ⟨s, hapart, hs⟩
  exact hp (List.mem_map_of_mem hread)

/-- A prefix that is spelled only as the table does is given once. -/
theorem given_once (htable : table.Proper) (hgiven : Given given)
    (hp : p ∉ (fromTexts (spelledApart table given)).map (·.1)) (hv : (p, v) ∈ fromTexts given)
    (hw : (p, w) ∈ fromTexts given) : w = v := by
  have hcanonical := canonical_toTexts htable
  obtain ⟨s, hs, hsp⟩ := mem_fromTexts_iff.mp hv
  obtain ⟨r, hr, hrp⟩ := mem_fromTexts_iff.mp hw
  have hown := mem_keys_of_notMem_spelledApart hp hs hsp
  have hown' := mem_keys_of_notMem_spelledApart hp hr hrp
  have hkey : r = s := by
    rw [hcanonical.eq_mappedText hown' hrp, hcanonical.eq_mappedText hown hsp]
  have hsame : (r, w) = (s, v) := List.inj_on_of_nodup_map hgiven.nodup hr hs hkey
  exact (Prod.mk.inj hsame).2

theorem mem_fromTexts_spelledAlike_iff
    (hp : p ∉ (fromTexts (spelledApart table given)).map (·.1)) :
    (p, v) ∈ fromTexts (spelledAlike table given) ↔ (p, v) ∈ fromTexts given := by
  rw [mem_fromTexts_iff, mem_fromTexts_iff]
  constructor
  · rintro ⟨s, hs, hsp⟩
    exact ⟨s, List.mem_of_mem_filter hs, hsp⟩
  · rintro ⟨s, hs, hsp⟩
    have hown := mem_keys_of_notMem_spelledApart hp hs hsp
    exact ⟨s, List.mem_filter.mpr ⟨hs, decide_eq_true hown⟩, hsp⟩

theorem latest_spelledAlike_iff (htable : table.Proper) (hgiven : Given given)
    (hp : p ∉ (fromTexts (spelledApart table given)).map (·.1)) :
    Latest (fromTexts (spelledAlike table given)) p v ↔ Latest (fromTexts given) p v :=
  latest_congr (fun _ => mem_fromTexts_spelledAlike_iff hp) fun _ _ => given_once htable hgiven hp

end Once

/-- The order of the source is kept just when no prefix has a latest value in the spelling of the
table and another one before it in a spelling of its own. -/
theorem laidOver_eq_iff (htable : table.Proper) (hgiven : Given given) :
    laidOver table given = table.insertAll (fromTexts given) ↔
      ∀ p v w, Latest (fromTexts given) p v → Latest (fromTexts (spelledApart table given)) p w →
        v = w := by
  rw [laidOver,
    insertAll_eq_insertAll_iff htable.ascending (mem_keys_fromTexts_reordered table given),
    fromTexts_append]
  constructor
  · intro h p v w hv hw
    exact latest_unique hv ((h p w).mp (latest_append.mpr (.inl hw)))
  · intro h p v
    rw [latest_append]
    -- where there are other spellings the merge leaves the latest of them, else the source has one
    by_cases hp : p ∈ (fromTexts (spelledApart table given)).map (·.1)
    · obtain ⟨w, hw⟩ := exists_latest hp
      constructor
      · rintro (hv | hv)
        · have hgivenp : p ∈ (fromTexts given).map (·.1) := by
            rw [← mem_keys_fromTexts_reordered table, fromTexts_append, List.map_append]
            exact List.mem_append_right _ hp
          obtain ⟨u, hu⟩ := exists_latest hgivenp
          rwa [latest_unique hv hw, ← h p u w hu hw]
        · exact absurd hp hv.1
      · intro hv
        exact .inl (h p v w hv hw ▸ hw)
    · rw [latest_spelledAlike_iff htable hgiven hp]
      constructor
      · rintro (hv | hv)
        · exact absurd (List.mem_map_of_mem (mem_of_latest hv)) hp
        · exact hv.2
      · exact fun hv => .inr ⟨hp, hv⟩

theorem subnetsToValue_injective {other : SubnetTable Value} (htable : table.Proper)
    (hother : other.Proper) (h : subnetsToValue table = subnetsToValue other) : table = other := by
  refine toTexts_injective htable hother ?_
  have hinjective : Function.Injective fun e : String × Value => (Value.text e.1, e.2) := by
    intro d e heq
    obtain ⟨hkey, hvalue⟩ := Prod.mk.inj heq
    exact Prod.ext (Value.text.inj hkey) hvalue
  exact List.map_injective_iff.mpr hinjective (Value.map.inj (Value.wrapper.inj h).2)

/-- Decoding prefix entries onto a table succeeds and inserts them, those in spellings of the table
first and the others after them, each in the order of the source. That is the table which the order
of the source leads to just when no prefix has a latest value in the spelling of the table and
another one before it in a spelling of its own. -/
theorem decodeOnto_subnets_iff (htable : StoredTable (.unsigned 32) table)
    (hgiven : Given given) (hsource : Tree.ofValue (.ofText given) = .ok source) :
    decodeOnto defaultMerge (Schema.subnets (.unsigned 32)).read (subnetsToValue table) source =
        .ok (subnetsToValue (laidOver table given)) ∧
      (decodeOnto defaultMerge (Schema.subnets (.unsigned 32)).read (subnetsToValue table) source =
          .ok (subnetsToValue (table.insertAll (fromTexts given))) ↔
        ∀ p v w, Latest (fromTexts given) p v →
          Latest (fromTexts (spelledApart table given)) p w → v = w) := by
  have hdecode := decodeOnto_subnets htable hgiven hsource
  refine ⟨hdecode, ?_⟩
  rw [← laidOver_eq_iff htable.proper hgiven, hdecode]
  constructor
  · exact fun h => subnetsToValue_injective (htable.proper.insertAll proper_fromTexts)
      (htable.proper.insertAll proper_fromTexts) (Except.ok.inj h)
  · exact fun h => congrArg (Except.ok ∘ subnetsToValue) h

/-- One entry spells the prefix of the table in its own way, the other brings a new prefix. -/
theorem decodeOnto_subnets_iff_respelled :
    let p : Prefix := ⟨BitVec.ofNat 128 0xFFFFC0000200, 120⟩
    let table : SubnetTable Value := ⟨[(p, .int 0)]⟩
    let given : List (String × Value) := [("192.0.2.0/24", .int 1), ("2001:db8::/32", .int 2)]
    let source : Tree := .map [(.text "192.0.2.0/24", .int 1), (.text "2001:db8::/32", .int 2)]
    (StoredTable (.unsigned 32) table ∧ Given given ∧ Tree.ofValue (.ofText given) = .ok source) ∧
      decodeOnto defaultMerge (Schema.subnets (.unsigned 32)).read (subnetsToValue table) source =
          .ok (subnetsToValue (laidOver table given)) ∧
        (decodeOnto defaultMerge (Schema.subnets (.unsigned 32)).read (subnetsToValue table)
              source =
            .ok (subnetsToValue (table.insertAll (fromTexts given))) ↔
          ∀ p v w, Latest (fromTexts given) p v →
            Latest (fromTexts (spelledApart table given)) p w → v = w) := by
  intro p table given source
  have hnumber (n : Int) (low : 0 ≤ n) (high : n < 2 ^ 32) : Stored (.unsigned 32) (.int n) :=
    .number (by decide) low high
  have htable : StoredTable (.unsigned 32) table :=
    storedTable_single ⟨by decide, by decide⟩ (hnumber 0 (by decide) (by decide))
  have hgiven : Given given :=
    given_pair (by decide)
      (List.forall_mem_cons.mpr ⟨⟨p, rfl⟩, List.forall_mem_singleton.mpr ⟨_, rfl⟩⟩)
      (hnumber 1 (by decide) (by decide)) (hnumber 2 (by decide) (by decide))
  have hsource : Tree.ofValue (.ofText given) = .ok source := rfl
  exact ⟨⟨htable, hgiven, hsource⟩, decodeOnto_subnets_iff htable hgiven hsource⟩

/-- The entry in the spelling of the table comes later, but the one before it wins. -/
theorem later_spelling_lost :
    let p : Prefix := ⟨BitVec.ofNat 128 0xFFFFC0000200, 120⟩
    let table : SubnetTable Value := ⟨[(p, .int 0)]⟩
    let given : List (String × Value) :=
      [("192.0.2.0/24", .int 1), ("::ffff:192.0.2.0/120", .int 2)]
    let source : Tree :=
      .map [(.text "192.0.2.0/24", .int 1), (.text "::ffff:192.0.2.0/120", .int 2)]
    Tree.ofValue (.ofText given) = .ok source ∧
      table.insertAll (fromTexts given) = ⟨[(p, .int 2)]⟩ ∧
      decodeOnto defaultMerge (Schema.subnets (.unsigned 32)).read (subnetsToValue table) source =
        .ok (subnetsToValue ⟨[(p, .int 1)]⟩) ∧
      decodeOnto defaultMerge (Schema.subnets (.unsigned 32)).read (subnetsToValue table) source ≠
        .ok (subnetsToValue (table.insertAll (fromTexts given))) := by
  intro p table given source
  have hp : p.Proper := ⟨by decide, by decide⟩
  have hnumber (n : Int) (low : 0 ≤ n) (high : n < 2 ^ 32) : Stored (.unsigned 32) (.int n) :=
    .number (by decide) low high
  have hsingle (n : Int) (low : 0 ≤ n) (high : n < 2 ^ 32) :
      StoredTable (.unsigned 32) ⟨[(p, .int n)]⟩ := storedTable_single hp (hnumber n low high)
  have hgiven : Given given :=
    given_pair (by decide)
      (List.forall_mem_cons.mpr ⟨⟨p, rfl⟩, List.forall_mem_singleton.mpr ⟨p, rfl⟩⟩)
      (hnumber 1 (by decide) (by decide)) (hnumber 2 (by decide) (by decide))
  have hsource : Tree.ofValue (.ofText given) = .ok source := rfl
  have hinserted : table.insertAll (fromTexts given) = ⟨[(p, .int 2)]⟩ := rfl
  have hmapped : p.mappedText = "::ffff:192.0.2.0/120" := by
    show Prefix.mappedText ⟨BitVec.ofNat 128 0xFFFFC0000200, 120⟩ = _
    rfl
  have htexts : table.toTexts = [("::ffff:192.0.2.0/120", .int 0)] := by
    rw [← hmapped]
    rfl
  have halike : spelledAlike table given = [("::ffff:192.0.2.0/120", .int 2)] := by
    simp [spelledAlike, htexts, given]
  have hapart : spelledApart table given = [("192.0.2.0/24", .int 1)] := by
    simp [spelledApart, htexts, given]
  have hlaid : laidOver table given = ⟨[(p, .int 1)]⟩ := by
    rw [laidOver, halike, hapart]
    rfl
  have hdecode := decodeOnto_subnets (hsingle 0 (by decide) (by decide)) hgiven hsource
  rw [hlaid] at hdecode
  refine ⟨hsource, hinserted, hdecode, ?_⟩
  rw [hdecode, hinserted]
  intro h
  have hsame := subnetsToValue_injective (hsingle 1 (by decide) (by decide)).proper
    (hsingle 2 (by decide) (by decide)).proper (Except.ok.inj h)
  simp at hsame

end TestBench.Config
