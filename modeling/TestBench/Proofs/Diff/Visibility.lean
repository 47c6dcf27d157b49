import TestBench.Proofs.Diff.Sides

/-! What a reader sees of a difference. The two sides of a text that reports one are the same only
when the trees look alike. -/
namespace TestBench.Diff
open Node

variable {o : Options} {got want : Value} {g w : Node} {text : String}

/-- A line as its mark tells it. -/
def Line.read? : List Char → Option Line
  | ' ' :: cs => some ⟨.both, String.ofList cs⟩
  | '-' :: cs => some ⟨.got, String.ofList cs⟩
  | '+' :: cs => some ⟨.want, String.ofList cs⟩
  | _ => none

/-- The lines of a text that have a mark. -/
def readLines (text : String) : List Line :=
  (Text.splitChars '\n' text.toList).filterMap Line.read?

/-- What a text shows of a side. -/
def shownIn (side : Side) (text : String) : List String := shownOn side (readLines text)

theorem Line.read?_render (l : Line) : Line.read? l.render.toList = some l := by
  cases l with
  | mk side text => cases side <;> simp [Line.render, Side.mark, Line.read?]

theorem Line.newline_notMem_render {l : Line} (h : '\n' ∉ l.text.toList) :
    '\n' ∉ l.render.toList := by
  cases l with
  | mk side text => cases side <;> simpa [Line.render, Side.mark] using h

/-- Lines are read back from the text that they make. -/
theorem readLines_render {ls : List Line} (hne : ls ≠ []) (h : ∀ l ∈ ls, '\n' ∉ l.text.toList) :
    readLines ("\n".intercalate (ls.map Line.render)) = ls := by
  have hsplit : Text.splitChars '\n' ("\n".intercalate (ls.map Line.render)).toList =
      ls.map fun l => l.render.toList := by
    rw [String.toList_intercalate, List.map_map]
    refine Text.splitChars_intercalate (by simpa using hne) ?_
    simpa using fun l hl => Line.newline_notMem_render (h l hl)
  rw [readLines, hsplit, List.filterMap_map]
  simp [Line.read?_render]

/-- Every line is shown on a side. -/
theorem mem_shownOn {l : Line} {ls : List Line} (h : l ∈ ls) :
    l.text ∈ shownOn .got ls ∨ l.text ∈ shownOn .want ls := by
  simp only [shownOn, List.mem_map, List.mem_filter, decide_eq_true_eq]
  cases hside : l.side with
  | both => exact .inl ⟨l, ⟨h, .inl hside⟩, rfl⟩
  | got => exact .inl ⟨l, ⟨h, .inr hside⟩, rfl⟩
  | want => exact .inr ⟨l, ⟨h, .inr hside⟩, rfl⟩

/-- The two sides of the text of a comparison are the same only for trees that look alike. -/
theorem looksLike_of_shownIn (hg : ∀ m ∈ g.parts, m.readable = true)
    (hw : ∀ m ∈ w.parts, m.readable = true) (hkeys : g.keysApart w = true)
    (h : ¬g.equivalent w = true) (htext : text = "\n".intercalate ((diffLines g w).map Line.render))
    (hsame : shownIn .got text = shownIn .want text) : g.looksLike w = true := by
  obtain ⟨gs, ws, hgs, hws, hshows, hlook⟩ := comparedVisibly hg hw hkeys
  have hgot := hshows.got.outermost
  have hwant := hshows.want.outermost
  have hlines : diffLines g w = compareAt 0 "" "" g w := if_neg h
  have hnewline : ∀ l ∈ compareAt 0 "" "" g w, '\n' ∉ l.text.toList := fun l hl => by
    rcases mem_shownOn hl with hmem | hmem
    · exact hgs.single _ (hgot ▸ hmem)
    · exact hws.single _ (hwant ▸ hmem)
  rw [htext, hlines, shownIn, shownIn, readLines_render compareAt_ne_nil hnewline] at hsame
  exact hlook (hgot ▸ hwant ▸ hsame)

/-- A reported difference is visible: the sides of the text are not the same, but for trees that
merely look alike. -/
theorem diff_visible (hg : o.capture got = .ok g) (hw : o.capture want = .ok w)
    (hgots : ∀ v ∈ got.parts, v.isDouble = true) (hwants : ∀ v ∈ want.parts, v.isDouble = true)
    (hgs : ∀ n ∈ g.parts, n.legible = true) (hws : ∀ n ∈ w.parts, n.legible = true)
    (hkeys : g.keysApart w = true) (hlook : g.looksLike w = true → g.equivalent w = true)
    (hdiff : o.diff got want = .ok text) (hne : text ≠ "") :
    shownIn .got text ≠ shownIn .want text := by
  have hreadable {v : Value} {n : Node} (hn : o.capture v = .ok n)
      (hdoubles : ∀ u ∈ v.parts, u.isDouble = true) (hlegible : ∀ m ∈ n.parts, m.legible = true) :
      ∀ m ∈ n.parts, m.readable = true := fun m hm =>
    readable_iff.mpr ⟨Options.capture_doubles hdoubles hn m hm, hlegible m hm⟩
  have hdiffer : ¬g.equivalent w = true := fun h => by
    rw [(diff_eq_empty_iff_equivalent hg hw).mpr h, Except.ok.injEq] at hdiff
    exact hne hdiff.symm
  have htext : text = "\n".intercalate ((diffLines g w).map Line.render) := by
    simpa [Options.diff, hg, hw] using hdiff.symm
  intro hsame
  exact hdiffer (hlook (looksLike_of_shownIn (hreadable hg hgots hgs) (hreadable hw hwants hws)
    hkeys hdiffer htext hsame))

/-- Two listeners that differ in a ratio and inside an enumeration value, but not in the bytes that
are no text. -/
theorem diff_visible_listener :
    let listener (ratio : Value) (level : Int) : Value := .record "Listener" [("port", .int 80),
      ("ratios", .map [(.text "a", ratio), (.text "b: c", .bytes [0xff])]),
      ("mode", .wrapperCase "Mode" "On" (.int level))]
    let got := listener (.double (.finite false (2 ^ 52) (-53))) 1
    let want := listener (.double (.finite false (2 ^ 52) (-54))) 2
    let text := " Listener\x7b\n   port: 80,\n   ratios: \x7b\n-    \"a\": 0.5,\n" ++
      "+    \"a\": 0.25,\n     \"b: c\": b\"\uFFFD\",\n   \x7d,\n" ++
      "-  mode: On(1),\n+  mode: On(2),\n \x7d"
    Options.default.diff got want = .ok text ∧ text ≠ "" ∧
      shownIn .got text ≠ shownIn .want text := by
  intro listener got want text
  let tree (ratio : Binary) (level : Int) : Node := .record "Listener" [("port", .int 80),
    ("ratios", .map [("\"a\"", .float ratio), ("\"b: c\"", .bytes [0xff])]),
    ("mode", .variant "Mode" "On" (.int level))]
  let g := tree (.finite false (2 ^ 52) (-53)) 1
  let w := tree (.finite false (2 ^ 52) (-54)) 2
  have hg : Options.default.capture got = .ok g := rfl
  have hw : Options.default.capture want = .ok w := rfl
  have hdiff : Options.default.diff got want = .ok text := by decide +kernel
  have hne : text ≠ "" := by decide
  exact ⟨hdiff, hne, diff_visible hg hw (by decide) (by decide) (by decide) (by decide) (by decide)
    (by decide) hdiff hne⟩

/-- Bytes that are no text are shown by replacement characters, whatever they are. -/
theorem unreadable_bytes_look_alike :
    let text := "-b\"\uFFFD\"\n+b\"\uFFFD\""
    (∃ g w, Options.default.capture (.bytes [0xff]) = .ok g ∧
      Options.default.capture (.bytes [0xfe]) = .ok w) ∧
    Options.default.diff (.bytes [0xff]) (.bytes [0xfe]) = .ok text ∧ text ≠ "" ∧
      shownIn .got text = shownIn .want text :=
  ⟨⟨_, _, rfl, rfl⟩, by decide +kernel, by decide, by decide +kernel⟩

/-- Whether two values show a difference of which both sides are the same. -/
def Unseen (got want : Value) : Prop :=
  ∃ text, Options.default.diff got want = .ok text ∧ text ≠ "" ∧
    shownIn .got text = shownIn .want text

/-- The other ways to look alike, and what makes lines ambiguous. -/
theorem unseen_differences :
    -- the type of an enumeration value, and the name of a case for what it reads like
    Unseen (.unitCase "A" "X") (.unitCase "B" "X") ∧
    Unseen (.unitCase "A" "null") .null ∧
    Unseen (.unitCase "A" "X(1)") (.wrapperCase "A" "X" (.int 1)) ∧
    -- a record without a name
    Unseen (.record "" [("\"a\"", .int 1)]) (.map [(.text "a", .int 1)]) ∧
    -- names with a line break, a key that is shown twice, and a label that begins with another
    Unseen (.unitCase "A" "X\nY") (.unitCase "A" "X\nZ") ∧
    (let key (n : Int) : Value := .record "K" [("_a", .int n)]
    Unseen (.map [(key 1, .int 1), (key 2, .int 2)]) (.map [(key 1, .int 1), (key 2, .int 3)])) ∧
    Unseen (.record "S" [("a", .record "x: T" [("y", .int 1)])])
      (.record "S" [("a: x", .record "T" [("y", .int 1)])]) := by
  refine ⟨⟨"-X\n+X", ?_⟩, ⟨"-null\n+null", ?_⟩, ⟨"-X(1)\n+X(1)", ?_⟩,
    ⟨"-\x7b\n-  \"a\": 1,\n-\x7d\n+\x7b\n+  \"a\": 1,\n+\x7d", ?_⟩, ⟨"-X\nY\n+X\nZ", ?_⟩,
    ⟨" \x7b\n   K\x7b\x7d: 1,\n \x7d", ?_⟩,
    ⟨" S\x7b\n-  a: x: T\x7b\n-    y: 1,\n-  \x7d,\n" ++
      "+  a: x: T\x7b\n+    y: 1,\n+  \x7d,\n \x7d", ?_⟩⟩
  all_goals decide +kernel

end TestBench.Diff
