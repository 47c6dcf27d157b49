import TestBench.Proofs.Diff.Blocks
import TestBench.Proofs.Induction
import TestBench.Proofs.Number.Shortest
import TestBench.Proofs.Text.Quoting

/-! The lines of a tree. They are a block, whose last line tells the kind of the tree, unless this
is shown by a text that may be anything. -/
namespace TestBench.Diff

namespace Node

def isRecord : Node → Bool
  | .record .. => true
  | _ => false

/-- The items of a sequence as parts of its block. -/
def itemParts (items : List Node) : List (String × List String) :=
  items.map fun n => ("", n.lines)

/-- The entries of a map or record as parts of its block. -/
def entryParts (entries : List (String × Node)) : List (String × List String) :=
  entries.map fun e => (keyLabel e.1, e.2.lines)

theorem nested_eq (label : String) (lines : List String) :
    nested label lines = (framed label "," lines).map (indent 1 ++ ·) := rfl

theorem linesOfItems_eq (items : List Node) :
    linesOfItems items = (stack (itemParts items)).map (indent 1 ++ ·) := by
  induction items with
  | nil => rfl
  | cons n rest ih =>
    rw [linesOfItems, ih, nested_eq, ← List.map_append]
    rfl

theorem linesOfEntries_eq (entries : List (String × Node)) :
    linesOfEntries entries = (stack (entryParts entries)).map (indent 1 ++ ·) := by
  induction entries with
  | nil => rfl
  | cons e rest ih =>
    rw [linesOfEntries, ih, nested_eq, ← List.map_append]
    rfl

theorem lines_seq {items : List Node} (h : items ≠ []) :
    (seq items).lines = enclosed "[" "]" (itemParts items) := by
  obtain ⟨n, rest, rfl⟩ := List.exists_cons_of_ne_nil h
  rw [lines, linesOfItems_eq]
  rfl

theorem lines_map {entries : List (String × Node)} (h : entries ≠ []) :
    (map entries).lines = enclosed "\x7b" "\x7d" (entryParts entries) := by
  obtain ⟨n, rest, rfl⟩ := List.exists_cons_of_ne_nil h
  rw [lines, linesOfEntries_eq]
  rfl

theorem lines_record {name : String} {fields : List (String × Node)} (h : fields ≠ []) :
    (record name fields).lines = enclosed (name ++ "\x7b") "\x7d" (entryParts fields) := by
  obtain ⟨n, rest, rfl⟩ := List.exists_cons_of_ne_nil h
  rw [lines, linesOfEntries_eq]
  rfl

theorem lines_record_nil (name : String) : (record name []).lines = [name ++ "\x7b\x7d"] := rfl

theorem lines_variant {type name : String} {content : Node} (hnull : content ≠ .null)
    (hrecord : content.isRecord = false) :
    (variant type name content).lines = framed (name ++ "(") ")" content.lines := by
  cases content with
  | null => exact absurd rfl hnull
  | record => cases hrecord
  | _ => rfl

theorem lines_variant_record {type name : String} {content : Node}
    (hrecord : content.isRecord = true) : (variant type name content).lines = content.lines := by
  cases content with
  | record => rfl
  | _ => cases hrecord

theorem opens_append_brace (name : String) : Opens (name ++ "\x7b") :=
  ⟨name.toList, '\x7b', by rw [String.toList_append]; rfl, by decide⟩

theorem opens_bracket : Opens "[" := ⟨[], '[', rfl, by decide⟩

theorem closes_bracket : Closes "]" := ⟨']', [], rfl, by decide⟩

theorem closes_brace : Closes "\x7d" := ⟨'\x7d', [], rfl, by decide⟩

/-- The lines of a tree are a block. -/
theorem isBlock_lines (n : Node) : IsBlock n.lines := by
  induction n with
  | seq items =>
    by_cases h : items = []
    · rw [h]
      exact .line _
    · rw [lines_seq h]
      exact isBlock_enclosed opens_bracket closes_bracket _
  | map entries =>
    by_cases h : entries = []
    · rw [h]
      exact .line _
    · rw [lines_map h]
      exact isBlock_enclosed (opens_append_brace "") closes_brace _
  | record name fields =>
    by_cases h : fields = []
    · rw [h]
      exact .line _
    · rw [lines_record h]
      exact isBlock_enclosed (opens_append_brace name) closes_brace _
  | variant type name content ih =>
    by_cases hrecord : content.isRecord = true
    · rw [lines_variant_record hrecord]
      exact ih
    · by_cases hnull : content = .null
      · rw [hnull]
        exact .line _
      · rw [lines_variant hnull (by simpa using hrecord)]
        exact ih.framed _ _
  | _ => exact .line _

end Node

/-- What can be told from the last line of a value. -/
inductive Kind where
  | null
  | bool
  | int
  | float
  | text
  | bytes
  | seq
  | braces
  | enclosed
  deriving DecidableEq

namespace Kind

def ofLine (cs : List Char) : Kind :=
  if cs.getLast? = some ']' then .seq
  else if cs.getLast? = some '\x7d' then .braces
  else if cs.getLast? = some ')' then .enclosed
  else if cs.head? = some '"' then .text
  else if cs.getLast? = some '"' then .bytes
  else if cs = ['n', 'u', 'l', 'l'] then .null
  else if cs = ['t', 'r', 'u', 'e'] ∨ cs = ['f', 'a', 'l', 's', 'e'] then .bool
  else if cs.all fun c => c.isDigit || c == '-' then .int
  else .float

/-- A line without the characters that tell the other kinds is a number. -/
theorem ofLine_number {cs : List Char} (h : ∀ c ∈ cs, Decimal.isNumeral c = true) :
    ofLine cs = if cs.all fun c => c.isDigit || c == '-' then .int else .float := by
  have hlast (c : Char) (hc : Decimal.isNumeral c = false) : cs.getLast? ≠ some c := fun heq => by
    rw [h c (List.mem_of_getLast? heq)] at hc
    cases hc
  have hhead : cs.head? ≠ some '"' := fun heq => by
    have hquote := h '"' (List.mem_of_head? heq)
    contradiction
  have hword {ds : List Char} (hds : ds.all Decimal.isNumeral = false) : cs ≠ ds := by
    rintro rfl
    rw [List.all_eq_true.mpr h] at hds
    cases hds
  rw [ofLine, if_neg (hlast _ (by decide)), if_neg (hlast _ (by decide)),
    if_neg (hlast _ (by decide)), if_neg hhead, if_neg (hlast _ (by decide)),
    if_neg (hword (by decide)), if_neg (not_or.mpr ⟨hword (by decide), hword (by decide)⟩)]

theorem ofLine_bracket (cs : List Char) : ofLine (cs ++ [']']) = .seq := by
  simp [ofLine]

theorem ofLine_brace (cs : List Char) : ofLine (cs ++ ['\x7d']) = .braces := by
  simp [ofLine]

theorem ofLine_parenthesis (cs : List Char) : ofLine (cs ++ [')']) = .enclosed := by
  simp [ofLine]

theorem ofLine_quote (s : String) : ofLine (Text.quote s).toList = .text := by
  rw [Text.toList_quote_eq]
  have hlast : ('"' :: s.toList.flatMap Text.escapeChar ++ ['"']).getLast? = some '"' :=
    List.getLast?_concat
  rw [ofLine, hlast]
  rfl

theorem ofLine_bytes (data : List UInt8) : ofLine (Node.bytesText data).toList = .bytes := by
  rw [Node.bytesText, String.toList_append, Text.toList_quote_eq, ← List.append_assoc]
  rw [ofLine, List.getLast?_concat]
  rfl

end Kind

namespace Node

def kind? : Node → Option Kind
  | .null => some .null
  | .bool _ => some .bool
  | .int _ => some .int
  | .float _ => some .float
  | .text _ => some .text
  | .bytes _ => some .bytes
  | .seq _ => some .seq
  | .map _ => some .braces
  | .record .. => some .braces
  | .variant _ _ .null => none
  | .variant _ _ (.record ..) => none
  | .variant .. => some .enclosed
  | .formatted .. => none

theorem getLast?_enclosed (opening closing : String) (parts : List (String × List String)) :
    (enclosed opening closing parts).getLast? = some closing := by
  rw [enclosed, ← List.cons_append, List.getLast?_concat]

/-- The last line tells the kind of a value. -/
theorem kind_lines {n : Node} {k : Kind} (h : n.kind? = some k) :
    ∃ s, n.lines.getLast? = some s ∧ Kind.ofLine s.toList = k := by
  cases n with
  | null => exact ⟨_, rfl, Option.some.inj h ▸ by decide⟩
  | bool b =>
    cases b
    · exact ⟨"false", rfl, Option.some.inj h ▸ by decide⟩
    · exact ⟨"true", rfl, Option.some.inj h ▸ by decide⟩
  | int i =>
    have hchar (c : Char) (hc : c ∈ (toString i).toList) : (c.isDigit || c == '-') = true := by
      rcases Decimal.mem_toString hc with rfl | hdigit
      · rfl
      · rw [hdigit, Bool.true_or]
    have hnumeral (c : Char) (hc : c ∈ (toString i).toList) : Decimal.isNumeral c = true := by
      rcases Decimal.mem_toString hc with rfl | hdigit
      · decide
      · rw [Decimal.isNumeral, hdigit, Bool.true_or]
    refine ⟨toString i, rfl, ?_⟩
    rw [Kind.ofLine_number hnumeral, if_pos (List.all_eq_true.mpr hchar)]
    exact Option.some.inj h
  | float x =>
    obtain ⟨⟨c, hc, hdigit, hminus⟩, hnumeral⟩ := Binary.mem_text .double x
    refine ⟨floatText x, rfl, ?_⟩
    have hsome : ¬(floatText x).toList.all (fun c => c.isDigit || c == '-') = true := fun hall => by
      have hchar := List.all_eq_true.mp hall c hc
      rw [hdigit, Bool.false_or, beq_iff_eq] at hchar
      exact hminus hchar
    rw [floatText] at hsome ⊢
    rw [Kind.ofLine_number hnumeral, if_neg hsome]
    exact Option.some.inj h
  | text s => exact ⟨_, rfl, Option.some.inj h ▸ Kind.ofLine_quote s⟩
  | bytes data => exact ⟨_, rfl, Option.some.inj h ▸ Kind.ofLine_bytes data⟩
  | seq items =>
    by_cases hnil : items = []
    · exact ⟨"[]", hnil ▸ rfl, Option.some.inj h ▸ Kind.ofLine_bracket ['[']⟩
    · rw [lines_seq hnil]
      exact ⟨"]", getLast?_enclosed _ _ _, Option.some.inj h ▸ Kind.ofLine_bracket []⟩
  | map entries =>
    by_cases hnil : entries = []
    · exact ⟨"\x7b\x7d", hnil ▸ rfl, Option.some.inj h ▸ Kind.ofLine_brace ['\x7b']⟩
    · rw [lines_map hnil]
      exact ⟨"\x7d", getLast?_enclosed _ _ _, Option.some.inj h ▸ Kind.ofLine_brace []⟩
  | record name fields =>
    by_cases hnil : fields = []
    · refine ⟨name ++ "\x7b\x7d", hnil ▸ rfl, Option.some.inj h ▸ ?_⟩
      have htext : (name ++ "\x7b\x7d").toList = (name.toList ++ ['\x7b']) ++ ['\x7d'] := by
        rw [String.toList_append, List.append_assoc]
        rfl
      rw [htext, Kind.ofLine_brace]
    · rw [lines_record hnil]
      exact ⟨"\x7d", getLast?_enclosed _ _ _, Option.some.inj h ▸ Kind.ofLine_brace []⟩
  | variant type name content =>
    obtain ⟨hnull, hrecord, rfl⟩ : content ≠ .null ∧ content.isRecord = false ∧ k = .enclosed := by
      cases content <;> first | exact ⟨by simp, rfl, (Option.some.inj h).symm⟩ | cases h
    rw [lines_variant hnull hrecord]
    obtain ⟨t, ht⟩ := exists_getLast?_framed (isBlock_lines content) (name ++ "(") ")"
    refine ⟨_, ht, ?_⟩
    rw [String.toList_append]
    exact Kind.ofLine_parenthesis t.toList
  | formatted => cases h

theorem kind_eq_of_lines {n m : Node} {j k : Kind} (hn : n.kind? = some j) (hm : m.kind? = some k)
    (h : n.lines = m.lines) : j = k := by
  obtain ⟨s, hs, rfl⟩ := kind_lines hn
  obtain ⟨t, ht, rfl⟩ := kind_lines hm
  rw [h, ht, Option.some_inj] at hs
  rw [hs]

/-- A map is shown as a record without a name. -/
theorem lines_map_eq (entries : List (String × Node)) :
    (map entries).lines = (record "" entries).lines := by
  cases entries with
  | nil => rfl
  | cons e rest => rfl

theorem isBlock_of_mem_entryParts {entries : List (String × Node)} :
    ∀ p ∈ entryParts entries, IsBlock p.2 := by
  rw [entryParts, List.forall_mem_map]
  exact fun e _ => isBlock_lines e.2

theorem isBlock_of_mem_itemParts {items : List Node} : ∀ p ∈ itemParts items, IsBlock p.2 := by
  rw [itemParts, List.forall_mem_map]
  exact fun n _ => isBlock_lines n

/-- The name of a case can be told from its first line. -/
theorem exists_head?_lines_variant {t name : String} {content : Node}
    (hrecord : content.isRecord = false) (hname : '(' ∉ name.toList) :
    ∃ s, (variant t name content).lines.head? = some s ∧
      s.toList.takeWhile (· != '(') = name.toList := by
  have hplain : ∀ c ∈ name.toList, (c != '(') = true := fun c hc =>
    bne_iff_ne.mpr fun heq => hname (heq ▸ hc)
  by_cases hnull : content = .null
  · exact ⟨name, hnull ▸ rfl, List.takeWhile_eq_self_iff.mpr hplain⟩
  · obtain ⟨t, rest, h⟩ := exists_framed_eq_cons (isBlock_lines content) (name ++ "(") ")"
    refine ⟨_, by rw [lines_variant hnull hrecord, h, List.head?_cons], ?_⟩
    rw [String.toList_append, String.toList_append, List.append_assoc,
      List.takeWhile_append_of_pos hplain]
    simp

/-- The case and the content of an enumeration value can be told from its lines. -/
theorem case_of_lines {t u name other : String} {content inner : Node}
    (hname : '(' ∉ name.toList) (hother : '(' ∉ other.toList) (hcontent : content.isRecord = false)
    (hinner : inner.isRecord = false)
    (h : (variant t name content).lines = (variant u other inner).lines) :
    name = other ∧ content.lines = inner.lines := by
  obtain ⟨s, hs, hshown⟩ := exists_head?_lines_variant (t := t) hcontent hname
  obtain ⟨s', hs', hshown'⟩ := exists_head?_lines_variant (t := u) hinner hother
  rw [h, hs', Option.some_inj] at hs
  rw [← hs, hshown', String.toList_inj] at hshown
  subst hshown
  refine ⟨rfl, ?_⟩
  have hlabel : other.length < (other ++ "(").length := by
    rw [String.length_append]
    exact Nat.lt_succ_self _
  have hunit (type : String) : (variant type other .null).lines = [other] := rfl
  by_cases hleft : content = .null
  · by_cases hright : inner = .null
    · rw [hleft, hright]
    · rw [hleft, hunit, lines_variant hright hinner] at h
      exact absurd h.symm (framed_ne_line (isBlock_lines inner) hlabel)
  · rw [lines_variant hleft hcontent] at h
    by_cases hright : inner = .null
    · rw [hright, hunit] at h
      exact absurd h (framed_ne_line (isBlock_lines content) hlabel)
    · rw [lines_variant hright hinner] at h
      exact framed_inj (isBlock_lines content) (isBlock_lines inner) h

end Node
end TestBench.Diff
