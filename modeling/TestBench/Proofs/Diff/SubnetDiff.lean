import TestBench.Proofs.Config.SubnetReading
import TestBench.Proofs.Diff.SelfDiff

/-! Comparing subnet tables of numbers. The text a table is compared by names every entry once, by
the prefix as it shows itself, and no two tables share one. -/
namespace TestBench.Diff
open Config Net Text

theorem escapeChar_of_mem_mappedText {p : Prefix} {c : Char} (h : c ∈ p.mappedText.toList) :
    escapeChar c = [c] := by
  have hc : Prefix.isTextChar c = true :=
    Prefix.isTextChar_of_mem_slashed (a := .v6 p.address) (n := p.length) h
  have hrange := Prefix.toNat_of_isTextChar hc
  refine escapeChar_eq_self (by omega) (by omega) ?_ ?_
  · rintro rfl
    contradiction
  · rintro rfl
    contradiction

/-- The quoted key of a prefix is shown as the prefix shows itself. -/
theorem canonicalPrefix_quote {p : Prefix} (h : p.length < 256) :
    Formatters.canonicalPrefix (quote p.mappedText) = p.text := by
  have hbare : trimWhere (· == '"') (quote p.mappedText) = p.mappedText :=
    trim_quote fun c hc => escapeChar_of_mem_mappedText hc
  have hsplit : splitOnce '/' p.mappedText = some (p.address.text, toString p.length) :=
    Prefix.splitOnce_slashed (.v6 p.address) p.length
  have haddress : V6.parse? p.address.text = some p.address := V6.parseList_text p.address
  have hlength : Literal.unsigned? 256 (toString p.length) = some p.length :=
    Literal.unsigned?_toString h
  simp only [Formatters.canonicalPrefix, hbare, hsplit, haddress, hlength, Option.bind_eq_bind,
    Option.bind_some, Prefix.text]
  by_cases hlong : 96 ≤ p.length
  · rw [if_pos hlong]
    cases p.address.unmapped? with
    | none => rfl
    | some b => simp only [Option.bind_some, Option.getD_some, if_pos hlong]
  · rw [if_neg hlong]
    cases p.address.unmapped? with
    | none => rfl
    | some b => simp only [Option.bind_none, Option.getD_none, if_neg hlong]

/-- An entry as it is shown. -/
def entryText (e : Prefix × Nat) : String := e.1.text ++ ": " ++ toString e.2

/-- A table as it is shown. -/
def tableText (shown : List (Prefix × Nat)) : String :=
  "SubnetMap\x7b" ++ ", ".intercalate (shown.map entryText) ++ "\x7d"

theorem entryText_injective {d e : Prefix × Nat} (hd : d.1.Proper) (he : e.1.Proper)
    (h : entryText d = entryText e) : d = e := by
  have hsplit (e : Prefix × Nat) :
      splitOnce ' ' (entryText e) = some (e.1.text ++ ":", toString e.2) := by
    refine splitOnce_of_notMem (by simp [entryText]) fun hmem => ?_
    simp only [String.toList_append, List.mem_append] at hmem
    rcases hmem with hmem | hmem
    · have hchar := Prefix.isTextChar_of_mem_text hmem
      contradiction
    · contradiction
  have hparts := hsplit d
  rw [h, hsplit e] at hparts
  obtain ⟨htext, hvalue⟩ := Prod.mk.inj (Option.some.inj hparts)
  have hprefix : e.1.text = d.1.text := by
    rw [← String.toList_inj] at htext ⊢
    simpa using htext
  have hnumber : Literal.unsigned? (max e.2 d.2 + 1) (toString e.2) = some e.2 :=
    Literal.unsigned?_toString (by omega)
  rw [hvalue, Literal.unsigned?_toString (by omega)] at hnumber
  exact Prod.ext (Prefix.text_injective hd he hprefix.symm) (Option.some.inj hnumber)

theorem comma_notMem_entryText (e : Prefix × Nat) : ',' ∉ (entryText e).toList := by
  simp only [entryText, String.toList_append, List.mem_append]
  rintro ((hmem | hmem) | hmem)
  · have hchar := Prefix.isTextChar_of_mem_text hmem
    contradiction
  · contradiction
  · have hdigit := Literal.isDigit_of_mem_toString hmem
    contradiction

theorem entryText_ne_nil (e : Prefix × Nat) : (entryText e).toList ≠ [] := by
  simp [entryText]

theorem map_inj_of_mem {α β : Type} {f : α → β} {as bs : List α}
    (h : ∀ a ∈ as, ∀ b ∈ bs, f a = f b → a = b) (heq : as.map f = bs.map f) : as = bs := by
  induction as generalizing bs with
  | nil => simpa using heq.symm
  | cons a rest ih =>
    cases bs with
    | nil => simp at heq
    | cons b more =>
      obtain ⟨hhead, htail⟩ := List.cons.inj heq
      rw [h a List.mem_cons_self b List.mem_cons_self hhead,
        ih (fun a ha b hb => h a (List.mem_cons_of_mem _ ha) b (List.mem_cons_of_mem _ hb)) htail]

/-- What is shown of a table says all about it. -/
theorem tableText_injective {as bs : List (Prefix × Nat)} (ha : ∀ e ∈ as, e.1.Proper)
    (hb : ∀ e ∈ bs, e.1.Proper) (h : tableText as = tableText bs) : as = bs := by
  have hpieces (es : List (Prefix × Nat)) :
      ∀ p ∈ (es.map entryText).map String.toList, ',' ∉ p ∧ p ≠ [] := by
    intro p hp
    obtain ⟨s, hs, rfl⟩ := List.mem_map.mp hp
    obtain ⟨e, -, rfl⟩ := List.mem_map.mp hs
    exact ⟨comma_notMem_entryText e, entryText_ne_nil e⟩
  have hjoined : (", ".intercalate (as.map entryText)).toList =
      (", ".intercalate (bs.map entryText)).toList := by
    rw [tableText, tableText, ← String.toList_inj] at h
    simpa using h
  rw [String.toList_intercalate, String.toList_intercalate] at hjoined
  have hlists := intercalate_cons_injective (hpieces as) (hpieces bs) hjoined
  have htexts : as.map entryText = bs.map entryText :=
    List.map_injective_iff.mpr (fun _ _ => String.toList_inj.mp) hlists
  exact map_inj_of_mem (fun d hd e he => entryText_injective (ha d hd) (hb e he)) htexts

variable {table other : SubnetTable Value}

theorem exists_numbers {entries : List (Prefix × Value)}
    (h : ∀ e ∈ entries, Stored (.unsigned 32) e.2) :
    ∃ numbers : List (Prefix × Nat), entries = numbers.map (fun e => (e.1, .int e.2)) ∧
      ∀ e ∈ numbers, e.2 < 2 ^ 32 := by
  induction entries with
  | nil => exact ⟨[], rfl, by simp⟩
  | cons e rest ih =>
    rw [List.forall_mem_cons] at h
    obtain ⟨numbers, rfl, hlt⟩ := ih h.2
    obtain ⟨p, v⟩ := e
    cases h.1 with
    | number hbits low high =>
      obtain ⟨k, rfl⟩ := Int.eq_ofNat_of_zero_le low
      exact ⟨(p, k) :: numbers, rfl, List.forall_mem_cons.mpr ⟨by exact_mod_cast high, hlt⟩⟩

/-- The entries of a captured table, before they are formatted. -/
def quotedEntries (numbers : List (Prefix × Nat)) : List (String × Node) :=
  numbers.map fun e => (quote e.1.mappedText, .int e.2)

theorem captureEntries_numbers (o : Options) {numbers : List (Prefix × Nat)}
    (h : ∀ e ∈ numbers, e.2 < 2 ^ 32) :
    o.captureEntries (numbers.map fun e => (.text e.1.mappedText, .int e.2)) =
      .ok (quotedEntries numbers) := by
  induction numbers with
  | nil => rfl
  | cons e rest ih =>
    rw [List.forall_mem_cons] at h
    have hlow := h.1
    have hnode : Options.intNode e.2 = .int e.2 := by
      rw [Options.intNode, if_pos (by omega)]
    rw [List.map_cons, Options.captureEntries]
    refine bind_eq_ok.mpr ⟨.text e.1.mappedText, rfl, bind_eq_ok.mpr ⟨.int e.2, ?_, ?_⟩⟩
    · rw [Options.capture, hnode]
    · exact bind_eq_ok.mpr ⟨_, ih h.2, rfl⟩

theorem subnetMap_quotedEntries {shown : List (Prefix × Nat)} (h : ∀ e ∈ shown, e.1.Proper) :
    Formatters.subnetMap (.map (quotedEntries shown)) = .ok (tableText shown) := by
  have hentry : ∀ e ∈ shown, Formatters.canonicalPrefix (quote e.1.mappedText) ++ ": " ++
      (Node.int e.2).inline = entryText e := by
    intro e he
    have hlength := (h e he).length_le
    rw [canonicalPrefix_quote (by omega)]
    rfl
  show Except.ok ("SubnetMap\x7b" ++ ", ".intercalate (List.map _ (shown.map _)) ++ "\x7d") = _
  rw [List.map_map, Function.comp_def, List.map_congr_left hentry, tableText]

theorem finish_subnetMap {node : Node} {text : String}
    (h : Formatters.subnetMap node = .ok text) :
    Options.default.finish "SubnetMap" node = .ok (.formatted "SubnetMap" text node.isZero) := by
  have hformatter : Options.default.formatter? "SubnetMap" = some Formatters.subnetMap := by
    simp [Options.formatter?, Options.default, find?]
  rw [Options.finish, hformatter]
  exact bind_eq_ok.mpr ⟨text, h, rfl⟩

theorem proper_of_perm {shown : List (Prefix × Nat)} (h : table.Proper)
    (hperm : (shown.map fun e => (e.1, Value.int e.2)).Perm table.entries) :
    ∀ e ∈ shown, e.1.Proper := fun e he =>
  h.prefixes (e.1, .int e.2) (hperm.mem_iff.mp (List.mem_map_of_mem he))

/-- A table is captured as the text of its entries, each once. -/
theorem capture_subnets (h : StoredTable (.unsigned 32) table) :
    ∃ shown : List (Prefix × Nat), (shown.map fun e => (e.1, Value.int e.2)).Perm table.entries ∧
      Options.default.capture (subnetsToValue table) =
        .ok (.formatted "SubnetMap" (tableText shown) shown.isEmpty) := by
  obtain ⟨numbers, hentries, hlt⟩ := exists_numbers h.values
  -- the entries are sorted by their texts when they are encoded, and by the quoted ones thereafter
  let sorted := sortBy (fun d e => textLe d.1.mappedText e.1.mappedText) numbers
  let shown := sortBy (fun d e => textLe (quote d.1.mappedText) (quote e.1.mappedText)) sorted
  have hperm : (shown.map fun e => (e.1, Value.int e.2)).Perm table.entries :=
    hentries ▸ ((sortBy_perm _ _).trans (sortBy_perm _ _)).map _
  have htexts : table.toTexts = sorted.map fun e => (e.1.mappedText, .int e.2) := by
    rw [SubnetTable.toTexts, hentries, List.map_map]
    exact sortBy_map keyLe (fun e : Prefix × Nat => (e.1.mappedText, Value.int e.2)) numbers
  have hcaptured : Options.default.captureEntries (table.toTexts.map fun e => (.text e.1, e.2)) =
      .ok (quotedEntries sorted) := by
    rw [htexts, List.map_map]
    exact captureEntries_numbers _ fun e he => hlt e ((sortBy_perm _ _).mem_iff.mp he)
  have hmap : Options.default.capture (.ofText table.toTexts) =
      .ok (.map (quotedEntries shown)) :=
    bind_eq_ok.mpr ⟨_, hcaptured, congrArg (Except.ok ∘ Node.map)
      (sortBy_map keyLe (fun e : Prefix × Nat => (quote e.1.mappedText, Node.int e.2)) sorted)⟩
  have hzero : (Node.map (quotedEntries shown)).isZero = shown.isEmpty := List.isEmpty_map
  have hshown := subnetMap_quotedEntries (proper_of_perm h.proper hperm)
  refine ⟨shown, hperm, bind_eq_ok.mpr ⟨_, hmap, ?_⟩⟩
  rw [finish_subnetMap hshown, hzero]

/-- A comparison of two tables of numbers shows nothing just when they are the same table. What it
compares is a text that shows each entry once, the prefix as it shows itself; for this the prefix is
told from the quoted key, which gives the same text for every prefix. -/
theorem diff_subnets (htable : StoredTable (.unsigned 32) table)
    (hother : StoredTable (.unsigned 32) other) :
    (Options.default.diff (subnetsToValue table) (subnetsToValue other) = .ok "" ↔
        table = other) ∧
      (∃ shown : List (Prefix × Nat),
        (shown.map fun e => (e.1, Value.int e.2)).Perm table.entries ∧
          Options.default.capture (subnetsToValue table) =
            .ok (.formatted "SubnetMap" (tableText shown) shown.isEmpty)) ∧
      ∀ p : Prefix, p.Proper → Formatters.canonicalPrefix (quote p.mappedText) = p.text := by
  obtain ⟨shown, hperm, hcapture⟩ := capture_subnets htable
  obtain ⟨shown', hperm', hcapture'⟩ := capture_subnets hother
  refine ⟨?_, ⟨shown, hperm, hcapture⟩, fun p hp => ?_⟩
  · rw [diff_eq_empty_iff_equivalent hcapture hcapture', Node.equivalent, beq_iff_eq]
    constructor
    · intro htext
      have hsame := tableText_injective (proper_of_perm htable.proper hperm)
        (proper_of_perm hother.proper hperm') htext
      exact SubnetTable.eq_of_mem_iff htable.proper.ascending hother.proper.ascending fun e => by
        rw [← hperm.mem_iff, hsame, hperm'.mem_iff]
    · rintro rfl
      have hnode := hcapture.symm.trans hcapture'
      exact (Node.formatted.inj (Except.ok.inj hnode)).2.1
  · have hlength := hp.length_le
    exact canonicalPrefix_quote (by omega)

/-- Two tables that have one entry in common, under an IPv4 prefix. -/
theorem diff_subnets_office :
    let office : Prefix := ⟨BitVec.ofNat 128 0xFFFF0A000000, 104⟩
    let table : SubnetTable Value := ⟨[(office, .int 7)]⟩
    let other : SubnetTable Value := ⟨[(.any, .int 7), (office, .int 7)]⟩
    (StoredTable (.unsigned 32) table ∧ StoredTable (.unsigned 32) other ∧ office.Proper) ∧
      (Options.default.diff (subnetsToValue table) (subnetsToValue other) = .ok "" ↔
        table = other) ∧
      (∃ shown : List (Prefix × Nat),
        (shown.map fun e => (e.1, Value.int e.2)).Perm table.entries ∧
          Options.default.capture (subnetsToValue table) =
            .ok (.formatted "SubnetMap" (tableText shown) shown.isEmpty)) ∧
      Formatters.canonicalPrefix (quote office.mappedText) = office.text := by
  intro office table other
  have hoffice : office.Proper := ⟨by decide, by decide⟩
  have hseven : Stored (.unsigned 32) (.int 7) := .number (by decide) (by decide) (by decide)
  have htable : StoredTable (.unsigned 32) table := storedTable_single hoffice hseven
  have hother : StoredTable (.unsigned 32) other := by
    refine ⟨⟨?_, ?_⟩, ?_⟩
    · show List.Pairwise _ _
      decide
    · exact List.forall_mem_cons.mpr ⟨Prefix.proper_any, List.forall_mem_singleton.mpr hoffice⟩
    · exact List.forall_mem_cons.mpr ⟨hseven, List.forall_mem_singleton.mpr hseven⟩
  have h := diff_subnets htable hother
  exact ⟨⟨htable, hother, hoffice⟩, h.1, h.2.1, h.2.2 office hoffice⟩

end TestBench.Diff
