import Mathlib.Data.List.Infix
import Mathlib.Tactic.Common
import TestBench.Diff.Compare

/-! Blocks of lines. Under labels that are told apart, blocks that stand below one another are told
apart again: the first line says whether more lines belong to the block, and these are indented up
to the one that closes it. -/
namespace TestBench.Diff

/-- Whether a line leaves a container open; the comma is what ends a value that is on one line. -/
def Opens (s : String) : Prop := ∃ cs c, s.toList = cs ++ [c] ∧ c ≠ ','

def Closes (s : String) : Prop := ∃ c cs, s.toList = c :: cs ∧ c ≠ ' '

def Indented (s : String) : Prop := ∃ cs, s.toList = ' ' :: cs

/-- The lines of one value: a single one, or indented ones between two that are not. -/
inductive IsBlock : List String → Prop
  | line (s : String) : IsBlock [s]
  | container {first last : String} {inner : List String} (opens : Opens first)
    (indented : ∀ s ∈ inner, Indented s) (closes : Closes last) :
    IsBlock (first :: (inner ++ [last]))

/-- The label before the first line, the suffix after the last. -/
def framed (label suffix : String) (lines : List String) : List String :=
  Node.mapLast (· ++ suffix) (Node.mapFirst (label ++ ·) lines)

/-- Blocks below one another, each under its label. -/
def stack (parts : List (String × List String)) : List String :=
  parts.flatMap fun p => framed p.1 "," p.2

/-- The lines of a container that holds these parts. -/
def enclosed (opening closing : String) (parts : List (String × List String)) : List String :=
  opening :: ((stack parts).map (indent 1 ++ ·) ++ [closing])

/-- Neither label is the beginning of the other, unless they are the same. -/
def Apart (l k : String) : Prop := l.toList <+: k.toList ∨ k.toList <+: l.toList → l = k

instance (l k : String) : Decidable (Apart l k) := inferInstanceAs (Decidable (_ → _))

variable {l k s t label suffix : String} {as bs : List String} {ps qs : List (String × List String)}

theorem mapLast_append_singleton {α : Type} (f : α → α) (as : List α) (a : α) :
    Node.mapLast f (as ++ [a]) = as ++ [f a] := by
  induction as with
  | nil => rfl
  | cons b rest ih =>
    obtain ⟨c, more, hmore⟩ := List.exists_cons_of_ne_nil (List.append_ne_nil_of_right_ne_nil rest
      (List.cons_ne_nil a []))
    rw [List.cons_append, List.cons_append, ← ih, hmore, Node.mapLast]
    simp

theorem framed_line (label suffix s : String) :
    framed label suffix [s] = [label ++ s ++ suffix] := rfl

theorem framed_empty (lines : List String) : framed "" "" lines = lines := by
  have hlast (ls : List String) : Node.mapLast (· ++ "") ls = ls := by
    induction ls with
    | nil => rfl
    | cons s rest ih => cases rest <;> simp_all [Node.mapLast]
  rw [framed, hlast]
  cases lines <;> simp [Node.mapFirst]

theorem framed_container (label suffix first last : String) (inner : List String) :
    framed label suffix (first :: (inner ++ [last])) =
      (label ++ first) :: (inner ++ [last ++ suffix]) := by
  rw [framed, Node.mapFirst, ← List.cons_append, mapLast_append_singleton, List.cons_append]

theorem indent_append (d e : Nat) : indent d ++ indent e = indent (d + e) := by
  rw [← String.toList_inj, indent, indent, indent, String.toList_append, String.toList_ofList,
    String.toList_ofList, String.toList_ofList, ← List.replicate_add, Nat.mul_add]

theorem indented_indent (s : String) : Indented (indent 1 ++ s) :=
  ⟨' ' :: s.toList, by rw [String.toList_append]; rfl⟩

theorem Opens.append (h : Opens s) (label : String) : Opens (label ++ s) := by
  obtain ⟨cs, c, hs, hc⟩ := h
  exact ⟨label.toList ++ cs, c, by rw [String.toList_append, hs, List.append_assoc], hc⟩

theorem Closes.append (h : Closes s) (suffix : String) : Closes (s ++ suffix) := by
  obtain ⟨c, cs, hs, hc⟩ := h
  exact ⟨c, cs ++ suffix.toList, by rw [String.toList_append, hs, List.cons_append], hc⟩

theorem not_opens_comma (s : String) : ¬Opens (s ++ ",") := by
  rintro ⟨cs, c, hs, hc⟩
  have hlast : s.toList ++ [','] = cs ++ [c] := by rw [← hs, String.toList_append]; rfl
  exact hc (List.append_inj_right' hlast rfl |> List.singleton_inj.mp).symm

theorem Closes.not_indented (h : Closes s) : ¬Indented s := by
  rintro ⟨cs, hcs⟩
  obtain ⟨c, ds, hs, hc⟩ := h
  rw [hcs, List.cons.injEq] at hs
  exact hc hs.1.symm

/-- A framed block is again a block. -/
theorem IsBlock.framed (h : IsBlock as) (label suffix : String) :
    IsBlock (framed label suffix as) := by
  cases h with
  | line s => exact .line _
  | container opens indented closes =>
    rw [framed_container]
    exact .container (opens.append label) indented (closes.append suffix)

theorem isBlock_enclosed {opening closing : String} (ho : Opens opening) (hc : Closes closing)
    (ps : List (String × List String)) : IsBlock (enclosed opening closing ps) := by
  refine .container ho (fun s hs => ?_) hc
  obtain ⟨t, -, rfl⟩ := List.mem_map.mp hs
  exact indented_indent t

theorem label_inj (hapart : Apart l k) (h : l ++ s = k ++ t) : l = k ∧ s = t := by
  have hlist : l.toList ++ s.toList = k.toList ++ t.toList := by
    rw [← String.toList_append, h, String.toList_append]
  obtain rfl := hapart (List.prefix_or_prefix_of_prefix (hlist ▸ List.prefix_append _ _)
    (List.prefix_append _ _))
  exact ⟨rfl, (String.append_right_inj _).mp h⟩

/-- Lists are told apart at the first entry that differs in kind from those before it. -/
theorem append_cons_inj_of {α : Type} {p : α → Prop} {as bs xs ys : List α} {a b : α}
    (has : ∀ c ∈ as, p c) (hbs : ∀ c ∈ bs, p c) (ha : ¬p a) (hb : ¬p b)
    (h : as ++ a :: xs = bs ++ b :: ys) : as = bs ∧ a = b ∧ xs = ys := by
  induction as generalizing bs with
  | nil =>
    cases bs with
    | nil => exact ⟨rfl, List.cons.inj h⟩
    | cons c bs => exact absurd ((List.cons.inj h).1 ▸ hbs c List.mem_cons_self) ha
  | cons c as ih =>
    rw [List.forall_mem_cons] at has
    cases bs with
    | nil => exact absurd ((List.cons.inj h).1 ▸ has.1) hb
    | cons d bs =>
      rw [List.forall_mem_cons] at hbs
      obtain ⟨rfl, hrest⟩ := List.cons.inj h
      obtain ⟨rfl, htail⟩ := ih has.2 hbs.2 hrest
      exact ⟨rfl, htail⟩

/-- A block and what follows it are told apart. -/
theorem framed_append_inj {xs ys : List String} (has : IsBlock as) (hbs : IsBlock bs)
    (hapart : Apart l k) (h : framed l "," as ++ xs = framed k "," bs ++ ys) :
    l = k ∧ as = bs ∧ xs = ys := by
  -- a single line ends with the comma, which no line that opens a container does
  cases has with
  | line s =>
    cases hbs with
    | line t =>
      obtain ⟨hline, hrest⟩ := List.cons.inj h
      obtain ⟨hl, hs⟩ := label_inj hapart ((String.append_left_inj ",").mp hline)
      exact ⟨hl, by rw [hs], hrest⟩
    | container opens =>
      rw [framed_container] at h
      exact absurd ((List.cons.inj h).1 ▸ opens.append k) (not_opens_comma _)
  | container opens indented closes =>
    rw [framed_container] at h
    cases hbs with
    | line t => exact absurd ((List.cons.inj h).1 ▸ opens.append l) (not_opens_comma _)
    | container opens' indented' closes' =>
      rw [framed_container, List.cons_append, List.cons_append, List.append_assoc,
        List.append_assoc] at h
      obtain ⟨hfirst, hrest⟩ := List.cons.inj h
      obtain ⟨hl, hs⟩ := label_inj hapart hfirst
      obtain ⟨hinner, hlast, hxs⟩ := append_cons_inj_of indented indented'
        (closes.append ",").not_indented (closes'.append ",").not_indented hrest
      rw [String.append_left_inj] at hlast
      exact ⟨hl, by rw [hs, hinner, hlast], hxs⟩

/-- The label stands before the first line. -/
theorem exists_framed_eq_cons (has : IsBlock as) (label suffix : String) :
    ∃ t rest, framed label suffix as = (label ++ t) :: rest := by
  cases has with
  | line s => exact ⟨s ++ suffix, [], by rw [framed_line, String.append_assoc]⟩
  | container => exact ⟨_, _, framed_container _ _ _ _ _⟩

/-- The suffix stands after the last line. -/
theorem exists_getLast?_framed (has : IsBlock as) (label suffix : String) :
    ∃ t, (framed label suffix as).getLast? = some (t ++ suffix) := by
  cases has with
  | line s => exact ⟨label ++ s, rfl⟩
  | container =>
    rw [framed_container, ← List.cons_append]
    exact ⟨_, List.getLast?_concat⟩

theorem framed_ne_nil (has : IsBlock as) (label suffix : String) :
    framed label suffix as ≠ [] := by
  obtain ⟨t, rest, h⟩ := exists_framed_eq_cons has label suffix
  simp [h]

theorem framed_ne_line (has : IsBlock as) (hlabel : s.length < label.length) :
    framed label suffix as ≠ [s] := by
  obtain ⟨t, rest, h⟩ := exists_framed_eq_cons has label suffix
  intro heq
  rw [h, List.cons.injEq] at heq
  have hlen := congrArg String.length heq.1
  rw [String.length_append] at hlen
  omega

theorem framed_inj (has : IsBlock as) (hbs : IsBlock bs)
    (h : framed label suffix as = framed label suffix bs) : as = bs := by
  cases has with
  | line s =>
    cases hbs with
    | line t =>
      have hline := List.singleton_inj.mp h
      rw [String.append_left_inj, String.append_right_inj] at hline
      rw [hline]
    | container =>
      rw [framed_container, framed_line] at h
      simp at h
  | container =>
    rw [framed_container] at h
    cases hbs with
    | line t =>
      rw [framed_line] at h
      simp at h
    | container =>
      rw [framed_container, List.cons.injEq, String.append_right_inj] at h
      obtain ⟨hinner, hlast⟩ := List.append_inj' h.2 rfl
      rw [List.singleton_inj, String.append_left_inj] at hlast
      rw [h.1, hinner, hlast]

/-- Blocks under labels that are apart are told apart when they stand below one another. -/
theorem stack_inj (hps : ∀ p ∈ ps, IsBlock p.2) (hqs : ∀ q ∈ qs, IsBlock q.2)
    (hapart : ∀ p ∈ ps, ∀ q ∈ qs, Apart p.1 q.1) (h : stack ps = stack qs) : ps = qs := by
  induction ps generalizing qs with
  | nil =>
    cases qs with
    | nil => rfl
    | cons q qs =>
      rw [List.forall_mem_cons] at hqs
      exact absurd (List.append_eq_nil_iff.mp h.symm).1 (framed_ne_nil hqs.1 _ _)
  | cons p ps ih =>
    rw [List.forall_mem_cons] at hps hapart
    cases qs with
    | nil => exact absurd (List.append_eq_nil_iff.mp h).1 (framed_ne_nil hps.1 _ _)
    | cons q qs =>
      rw [List.forall_mem_cons] at hqs
      obtain ⟨hlabel, hblock, hrest⟩ :=
        framed_append_inj hps.1 hqs.1 (hapart.1 q List.mem_cons_self) h
      have htail := ih hps.2 hqs.2
        (fun a ha b hb => hapart.2 a ha b (List.mem_cons_of_mem _ hb)) hrest
      rw [htail, Prod.ext hlabel hblock]

theorem map_append_injective (label : String) :
    Function.Injective (List.map (label ++ ·)) :=
  List.map_injective_iff.mpr fun _ _ h => (String.append_right_inj label).mp h

theorem enclosed_inj {o c o' c' : String} (hps : ∀ p ∈ ps, IsBlock p.2)
    (hqs : ∀ q ∈ qs, IsBlock q.2) (hapart : ∀ p ∈ ps, ∀ q ∈ qs, Apart p.1 q.1)
    (h : enclosed o c ps = enclosed o' c' qs) : o = o' ∧ c = c' ∧ ps = qs := by
  obtain ⟨ho, hrest⟩ := List.cons.inj h
  obtain ⟨hstack, hc⟩ := List.append_inj' hrest rfl
  exact ⟨ho, List.singleton_inj.mp hc, stack_inj hps hqs hapart (map_append_injective _ hstack)⟩

theorem enclosed_ne_line (opening closing : String) (ps : List (String × List String)) :
    enclosed opening closing ps ≠ [s] := by
  simp [enclosed]

end TestBench.Diff
