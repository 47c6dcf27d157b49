import Mathlib.Data.String.Basic
import TestBench.Config.Decode
import TestBench.Proofs.Config.Encoding
import TestBench.Proofs.Named
import TestBench.Proofs.Net.TableText

/-! Reading a subnet table from what it was encoded as. Its values may be numbers, texts or tables
of these, so it can itself be mistaken for a value; it never is. -/
namespace TestBench.Config
open Net

/-- The tree of a value; of no concern where the value has none. -/
def encoded (v : Value) : Tree := (Tree.ofValue v).toOption.getD .null

/-- The entries of an encoded table keyed by texts. -/
def keyed (texts : List (String × Value)) : List (Tree × Tree) :=
  texts.map fun e => (.text e.1, encoded e.2)

variable {schema : Schema} {v : Value} {texts : List (String × Value)}

theorem encoded_of_ok {t : Tree} (h : Tree.ofValue v = .ok t) : encoded v = t := by
  rw [encoded, h]
  rfl

theorem put_keyed (key : String) (v : Value) (texts : List (String × Value)) :
    Tree.put (.text key) (encoded v) (keyed texts) = keyed (put key v texts) := by
  induction texts with
  | nil => rfl
  | cons e rest ih =>
    show Tree.put (.text key) (encoded v) ((.text e.1, encoded e.2) :: keyed rest) = _
    rw [Tree.put, put, Tree.same, ih]
    by_cases hkey : e.1 = key
    · rw [if_pos hkey, if_pos (beq_iff_eq.mpr hkey)]
      rfl
    · rw [if_neg hkey, if_neg (by simpa using hkey)]
      rfl

theorem ofEntries_texts (done : List (String × Value))
    (h : ∀ e ∈ texts, Tree.ofValue e.2 = .ok (encoded e.2)) :
    Tree.ofEntries (keyed done) (texts.map fun e => (.text e.1, e.2)) =
      .ok (keyed (Named.putAll done texts)) := by
  induction texts generalizing done with
  | nil => rfl
  | cons e rest ih =>
    rw [List.forall_mem_cons] at h
    rw [List.map_cons, Tree.ofEntries, Tree.ofValue, h.1]
    show Tree.ofEntries (Tree.put (.text e.1) (encoded e.2) (keyed done)) _ = _
    rw [put_keyed, ih _ h.2]
    rfl

theorem ofValue_ofText (hkeys : (texts.map (·.1)).Nodup)
    (h : ∀ e ∈ texts, Tree.ofValue e.2 = .ok (encoded e.2)) :
    Tree.ofValue (.ofText texts) = .ok (.map (keyed texts)) := by
  have hentries := ofEntries_texts [] h
  rw [Named.putAll_nil hkeys] at hentries
  exact bind_eq_ok.mpr ⟨_, hentries, rfl⟩

/-- The values of unsigned numbers, of texts and of tables from texts to such values. -/
inductive Stored : Schema → Value → Prop where
  | number {bits : Nat} {n : Int} (hbits : bits ≤ 64) (low : 0 ≤ n) (high : n < 2 ^ bits) :
    Stored (.unsigned bits) (.int n)
  | text (s : String) : Stored .text (.text s)
  | table {schema : Schema} {texts : List (String × Value)}
    (sorted : texts.Pairwise fun a b => a.1 < b.1) (values : ∀ e ∈ texts, Stored schema e.2) :
    Stored (.table schema) (.ofText texts)

theorem nodup_of_sorted (h : texts.Pairwise fun a b => a.1 < b.1) : (texts.map (·.1)).Nodup :=
  List.pairwise_map.mpr (h.imp fun hlt => ne_of_lt hlt)

theorem ofInt_of_unsigned {bits : Nat} {n : Int} (hbits : bits ≤ 64) (low : 0 ≤ n)
    (high : n < 2 ^ bits) : Tree.ofInt n = .int n := by
  have hpow : (2 : Int) ^ bits ≤ 2 ^ 64 := by
    exact_mod_cast Nat.pow_le_pow_right (by decide) hbits
  rw [Tree.ofInt, if_pos ⟨by omega, by omega⟩]

theorem Stored.ofValue (h : Stored schema v) : Tree.ofValue v = .ok (encoded v) := by
  induction h with
  | number hbits low high =>
    rw [encoded, Tree.ofValue, ofInt_of_unsigned hbits low high]
    rfl
  | text s => rfl
  | table sorted values ih =>
    rw [encoded, ofValue_ofText (nodup_of_sorted sorted) ih]
    rfl

theorem encoded_int {bits : Nat} {n : Int} (hbits : bits ≤ 64) (low : 0 ≤ n)
    (high : n < 2 ^ bits) : encoded (.int n) = .int n := by
  rw [encoded, Tree.ofValue, ofInt_of_unsigned hbits low high]
  rfl

theorem encoded_table (sorted : texts.Pairwise fun a b => a.1 < b.1)
    (values : ∀ e ∈ texts, Stored schema e.2) : encoded (.ofText texts) = .map (keyed texts) :=
  encoded_of_ok (ofValue_ofText (nodup_of_sorted sorted) fun e he => (values e he).ofValue)

theorem Stored.encoded_ne_null (h : Stored schema v) : encoded v ≠ .null := by
  cases h with
  | number hbits low high => simp [encoded_int hbits low high]
  | text s => simp [encoded, Tree.ofValue, Except.toOption]
  | table sorted values => simp [encoded_table sorted values]

theorem entriesHoldTag_keyed (h : ∀ e ∈ texts, Read.holdsTag (encoded e.2) = false) :
    Read.entriesHoldTag (keyed texts) = false := by
  induction texts with
  | nil => rfl
  | cons e rest ih =>
    rw [List.forall_mem_cons] at h
    show (Read.holdsTag (.text e.1) ||
      (Read.holdsTag (encoded e.2) || Read.entriesHoldTag (keyed rest))) = false
    rw [h.1, ih h.2]
    rfl

theorem Stored.holdsTag (h : Stored schema v) : Read.holdsTag (encoded v) = false := by
  induction h with
  | number hbits low high =>
    rw [encoded_int hbits low high]
    rfl
  | text s => rfl
  | table sorted values ih =>
    rw [encoded_table sorted values]
    exact entriesHoldTag_keyed ih

theorem table_keyed {value : Tree → Read Value} (sorted : texts.Pairwise fun a b => a.1 < b.1)
    (h : ∀ e ∈ texts, value (encoded e.2) = .ok e.2) :
    Read.table value (.map (keyed texts)) = .ok texts := by
  have hpairs : (keyed texts).mapM (fun e => do
      let key ← Read.text e.1
      Except.ok (key, ← value e.2)) = .ok texts := by
    rw [keyed, List.mapM_map]
    refine (mapM_eq_pure_map (g := id) fun e he => ?_).trans (congrArg Except.ok (List.map_id _))
    exact bind_eq_ok.mpr ⟨e.1, rfl, bind_eq_ok.mpr ⟨e.2, h e he, rfl⟩⟩
  have hsorted : sortBy keyLe texts = texts :=
    sortBy_eq_self (sorted.imp fun hlt => decide_eq_true hlt.le)
  refine bind_eq_ok.mpr ⟨keyed texts, rfl, bind_eq_ok.mpr ⟨texts, hpairs, ?_⟩⟩
  show Except.ok (sortBy keyLe (Named.putAll [] texts)) = _
  rw [Named.putAll_nil (nodup_of_sorted sorted), hsorted]

/-- What is stored is read back. -/
theorem Stored.read (h : Stored schema v) : schema.read (encoded v) = .ok v := by
  induction h with
  | @number bits n hbits low high =>
    have hread : Read.unsigned bits (.int n) = .ok n := by
      show (if 0 ≤ n ∧ n < 2 ^ bits then _ else _) = _
      rw [if_pos ⟨low, high⟩]
    rw [encoded_int hbits low high]
    exact bind_eq_ok.mpr ⟨n, hread, rfl⟩
  | text s => rfl
  | table sorted values ih =>
    rw [encoded_table sorted values]
    exact bind_eq_ok.mpr ⟨_, table_keyed sorted ih, rfl⟩

/-- The entries are those of a table and never taken for a single value. -/
theorem textTable?_keyed (h : ∀ e ∈ texts, Stored schema e.2) :
    Read.textTable? schema.ofNull (fun t => schema.read t) (.map (keyed texts)) = some texts := by
  show (keyed texts).mapM _ = _
  rw [keyed, List.mapM_map]
  refine (mapM_eq_pure_map (g := id) fun e he => ?_).trans (congrArg some (List.map_id _))
  have hgiven : Read.given? schema.ofNull (fun t => schema.read t) (encoded e.2) = some e.2 := by
    have hne := (h e he).encoded_ne_null
    have hread := (h e he).read
    unfold Read.given?
    split
    next heq => exact absurd heq hne
    next => exact congrArg Except.toOption hread
  show (Read.given? _ _ (encoded e.2)).map (e.1, ·) = some e
  rw [hgiven]
  rfl

/-- Entries keyed by the texts of prefixes are inserted one after the other. -/
theorem subnets_keyed (hreadable : SubnetTable.Readable texts)
    (h : ∀ e ∈ texts, Stored schema e.2) :
    Read.subnets schema.ofNull (fun t => schema.read t) (.map (keyed texts)) =
      .ok (SubnetTable.empty.insertAll (SubnetTable.fromTexts texts)) := by
  have htag : Read.holdsTag (.map (keyed texts)) = false :=
    entriesHoldTag_keyed fun e he => (h e he).holdsTag
  rw [Read.subnets, htag, textTable?_keyed h]
  dsimp only
  rw [SubnetTable.ofTexts_eq hreadable]
  rfl

theorem proper_foldlM {α : Type} {entries : List (String × α)} {start table : SubnetTable α}
    (hstart : start.Proper)
    (h : entries.foldlM (fun t e => do .ok (t.insert (← Prefix.parse e.1) e.2)) start =
      .ok table) : table.Proper := by
  induction entries generalizing start with
  | nil => exact Except.ok.inj h ▸ hstart
  | cons e rest ih =>
    rw [List.foldlM_cons] at h
    obtain ⟨next, hnext, hrest⟩ := bind_eq_ok.mp h
    obtain ⟨p, hp, hinsert⟩ := bind_eq_ok.mp hnext
    have hproper := hstart.insert (Prefix.proper_parse hp) e.2
    rw [Except.ok.inj hinsert] at hproper
    exact ih hproper hrest

theorem proper_ofTexts {α : Type} {entries : List (String × α)} {table : SubnetTable α}
    (h : SubnetTable.ofTexts entries = .ok table) : table.Proper :=
  proper_foldlM SubnetTable.proper_empty h

/-- Whatever a table is read from, its prefixes are proper and stand once. -/
theorem proper_of_subnets {α : Type} {ofNull : Option α} {value : Tree → Read α} {t : Tree}
    {table : SubnetTable α} (h : Read.subnets ofNull value t = .ok table) : table.Proper := by
  unfold Read.subnets at h
  split at h
  · cases h
  · split at h
    · split at h
      next htexts => exact Except.ok.inj h ▸ proper_ofTexts htexts
      next => cases h
    · split at h
      next single _ =>
        exact Except.ok.inj h ▸ SubnetTable.proper_empty.insert Prefix.proper_any single
      next => cases h

/-- A table of proper prefixes whose values are all of one of these types. -/
structure StoredTable (schema : Schema) (table : SubnetTable Value) : Prop where
  proper : table.Proper
  values : ∀ e ∈ table.entries, Stored schema e.2

variable {table : SubnetTable Value}

theorem StoredTable.toTexts (h : StoredTable schema table) :
    ∀ e ∈ table.toTexts, Stored schema e.2 := by
  intro e he
  obtain ⟨d, hd, rfl⟩ := List.mem_map.mp ((sortBy_perm _ _).mem_iff.mp he)
  exact h.values d hd

theorem StoredTable.ofValue (h : StoredTable schema table) :
    Tree.ofValue (subnetsToValue table) = .ok (.map (keyed table.toTexts)) :=
  ofValue_ofText (SubnetTable.canonical_toTexts h.proper).nodup fun e he => (h.toTexts e he).ofValue

theorem storedTable_single {schema : Schema} {p : Prefix} {v : Value} (hp : p.Proper)
    (hv : Stored schema v) : StoredTable schema ⟨[(p, v)]⟩ :=
  ⟨⟨List.pairwise_singleton _ _, List.forall_mem_singleton.mpr hp⟩,
    List.forall_mem_singleton.mpr hv⟩

/-- A subnet table is read back from what it was encoded as: it is recognised as a table, whatever
its values look like, and every entry is found under its own prefix. -/
theorem subnets_read_back (h : StoredTable schema table) (refusal : Refusal) :
    ∃ t, prepare refusal (subnetsToValue table) .native = .ok t ∧
      Read.textTable? schema.ofNull (fun t => schema.read t) t = some table.toTexts ∧
      Read.subnets schema.ofNull (fun t => schema.read t) t = .ok table ∧
      (Schema.subnets schema).read t = .ok (subnetsToValue table) := by
  have hread : Read.subnets schema.ofNull (fun t => schema.read t)
      (.map (keyed table.toTexts)) = .ok table := by
    rw [subnets_keyed (SubnetTable.canonical_toTexts h.proper).readable h.toTexts,
      SubnetTable.insertAll_fromTexts_toTexts h.proper]
  refine ⟨.map (keyed table.toTexts), ?_, textTable?_keyed h.toTexts, hread,
    bind_eq_ok.mpr ⟨table, hread, rfl⟩⟩
  rw [prepare, h.ofValue]
  rfl

/-- A table of tables: for all addresses, for an IPv4 network and for an IPv6 one. -/
theorem subnets_read_back_limits :
    let limits : Value := .ofText [("burst", .int 5), ("rate", .int 4294967295)]
    let table : SubnetTable Value := ⟨[(.any, .ofText []),
      (⟨BitVec.ofNat 128 0xFFFF0A000000, 104⟩, limits),
      (⟨BitVec.ofNat 128 0x20010DB8000000000000000000000000, 32⟩, limits)]⟩
    let value : Schema := .table (.unsigned 32)
    StoredTable value table ∧
      ∃ t, prepare (fun _ => "") (subnetsToValue table) .native = .ok t ∧
        Read.textTable? value.ofNull (fun t => value.read t) t = some table.toTexts ∧
        Read.subnets value.ofNull (fun t => value.read t) t = .ok table ∧
        (Schema.subnets value).read t = .ok (subnetsToValue table) := by
  intro limits table value
  have hnone : Stored (.table (.unsigned 32)) (.ofText []) :=
    .table List.Pairwise.nil fun e he => by cases he
  have hlimits : Stored (.table (.unsigned 32)) limits := by
    refine .table (by decide) fun e he => ?_
    simp only [List.mem_cons, List.not_mem_nil, or_false] at he
    rcases he with rfl | rfl
    · exact .number (by decide) (by decide) (by decide)
    · exact .number (by decide) (by decide) (by decide)
  have htable : StoredTable (.table (.unsigned 32)) table := by
    refine ⟨⟨?_, ?_⟩, ?_⟩
    · show List.Pairwise _ _
      decide
    · intro e he
      simp only [table, List.mem_cons, List.not_mem_nil, or_false] at he
      rcases he with rfl | rfl | rfl
      · exact Prefix.proper_any
      · exact ⟨by decide, by decide⟩
      · exact ⟨by decide, by decide⟩
    · intro e he
      simp only [table, List.mem_cons, List.not_mem_nil, or_false] at he
      rcases he with rfl | rfl | rfl
      · exact hnone
      · exact hlimits
      · exact hlimits
  exact ⟨htable, subnets_read_back htable _⟩

end TestBench.Config
