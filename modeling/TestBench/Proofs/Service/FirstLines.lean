import Mathlib.Data.List.Basic
import TestBench.Service.Lines

/-! The lines of a body are the pieces between its line feeds. Reading some of them from a body that
arrives in pieces gives the first of them, wherever the body was cut. -/
namespace TestBench.Service

/-- The pieces that a line feed ends, each without it. -/
def endedPieces (bytes : Bytes) : List Bytes := (bytes.splitOn lineFeed).dropLast

/-- What follows the last line feed. -/
def lastPiece (bytes : Bytes) : Bytes := (bytes.splitOn lineFeed).getLastD []

/-- All pieces; one without an end is none if nothing is in it. -/
def allPieces (bytes : Bytes) : List Bytes :=
  endedPieces bytes ++ if lastPiece bytes = [] then [] else [lastPiece bytes]

/-- The text of a piece. A carriage return before the line feed belongs to the end of the line. -/
def pieceText (piece : Bytes) : String := Text.decodeLossy (dropEnd carriageReturn piece)

/-- The pieces of what did arrive. If the body breaks off, the last of them may not be whole. -/
def piecesOf (broken : Bool) (bytes : Bytes) : List Bytes :=
  if broken then endedPieces bytes else allPieces bytes

variable {bytes piece rest : Bytes} {count : Nat}

/-- Induction over the lines of some bytes, the first one first. -/
theorem lineInduction {motive : Bytes → Prop}
    (unended : ∀ piece, lineFeed ∉ piece → motive piece)
    (ended : ∀ piece rest, lineFeed ∉ piece → motive rest → motive (piece ++ lineFeed :: rest))
    (bytes : Bytes) : motive bytes := by
  induction hlen : bytes.length using Nat.strongRecOn generalizing bytes with
  | _ n ih =>
    by_cases hmem : lineFeed ∈ bytes
    · obtain ⟨piece, rest, rfl, hpiece⟩ := List.eq_append_cons_of_mem hmem
      rw [List.length_append, List.length_cons] at hlen
      exact ended piece rest hpiece (ih rest.length (by omega) rest rfl)
    · exact unended bytes hmem

section Pieces

theorem endedPieces_of_notMem (h : lineFeed ∉ bytes) : endedPieces bytes = [] := by
  rw [endedPieces, List.splitOn_eq_singleton h]
  rfl

theorem lastPiece_of_notMem (h : lineFeed ∉ bytes) : lastPiece bytes = bytes := by
  rw [lastPiece, List.splitOn_eq_singleton h]
  rfl

theorem endedPieces_line (h : lineFeed ∉ piece) (rest : Bytes) :
    endedPieces (piece ++ lineFeed :: rest) = piece :: endedPieces rest := by
  rw [endedPieces, List.splitOn_append_cons_self_of_not_mem h,
    List.dropLast_cons_of_ne_nil (List.splitOn_ne_nil _ _)]
  rfl

theorem lastPiece_line (h : lineFeed ∉ piece) (rest : Bytes) :
    lastPiece (piece ++ lineFeed :: rest) = lastPiece rest := by
  obtain ⟨first, more, hsplit⟩ := List.exists_cons_of_ne_nil (List.splitOn_ne_nil lineFeed rest)
  rw [lastPiece, lastPiece, List.splitOn_append_cons_self_of_not_mem h, hsplit]
  rfl

theorem lineFeed_notMem_lastPiece (bytes : Bytes) : lineFeed ∉ lastPiece bytes := by
  induction bytes using lineInduction with
  | unended piece hpiece => rwa [lastPiece_of_notMem hpiece]
  | ended piece rest hpiece ih => rwa [lastPiece_line hpiece]

/-- More bytes leave the ended pieces as they are and go on with the last one. -/
theorem pieces_append (bytes more : Bytes) :
    endedPieces (bytes ++ more) = endedPieces bytes ++ endedPieces (lastPiece bytes ++ more) ∧
      lastPiece (bytes ++ more) = lastPiece (lastPiece bytes ++ more) := by
  induction bytes using lineInduction with
  | unended piece hpiece =>
    rw [endedPieces_of_notMem hpiece, lastPiece_of_notMem hpiece]
    exact ⟨rfl, rfl⟩
  | ended piece rest hpiece ih =>
    rw [List.append_assoc, List.cons_append, endedPieces_line hpiece, lastPiece_line hpiece,
      endedPieces_line hpiece, lastPiece_line hpiece, ih.1, ih.2]
    exact ⟨rfl, rfl⟩

theorem piecesOf_append (broken : Bool) (bytes more : Bytes) :
    piecesOf broken (bytes ++ more) =
      endedPieces bytes ++ piecesOf broken (lastPiece bytes ++ more) := by
  obtain ⟨hended, hlast⟩ := pieces_append bytes more
  cases broken with
  | true => exact hended
  | false =>
    rw [piecesOf, piecesOf, allPieces, allPieces, hended, hlast]
    exact List.append_assoc ..

theorem dropEnd_append (b : UInt8) (bytes : Bytes) : dropEnd b (bytes ++ [b]) = bytes := by
  rw [dropEnd, if_pos List.getLast?_concat, List.dropLast_concat]

theorem dropEnd_of_notMem {b : UInt8} (h : b ∉ bytes) : dropEnd b bytes = bytes :=
  if_neg fun heq => h (List.mem_of_getLast? heq)

theorem lineText_line (piece : Bytes) : lineText (piece ++ [lineFeed]) = pieceText piece := by
  rw [lineText, pieceText, dropEnd_append]

theorem lineText_of_notMem (h : lineFeed ∉ piece) : lineText piece = pieceText piece := by
  rw [lineText, pieceText, dropEnd_of_notMem h]

end Pieces

section Reading

theorem cutLine_of_notMem (h : lineFeed ∉ bytes) : cutLine bytes = none := by
  induction bytes with
  | nil => rfl
  | cons b rest ih =>
    rw [List.mem_cons, not_or] at h
    rw [cutLine, if_neg (Ne.symm h.1), ih h.2]
    rfl

theorem cutLine_line (h : lineFeed ∉ piece) (rest : Bytes) :
    cutLine (piece ++ lineFeed :: rest) = some (piece ++ [lineFeed], rest) := by
  induction piece with
  | nil => rw [List.nil_append, cutLine, if_pos rfl, List.nil_append]
  | cons b piece ih =>
    rw [List.mem_cons, not_or] at h
    rw [List.cons_append, cutLine, if_neg (Ne.symm h.1), ih h.2]
    rfl

/-- Lines are taken from the front; when there are fewer of them, the last piece is left. -/
theorem takeLines_eq (count : Nat) (bytes : Bytes) :
    ∃ left, takeLines count bytes = (((endedPieces bytes).take count).map pieceText, left) ∧
      ((endedPieces bytes).length < count → left = lastPiece bytes) := by
  induction bytes using lineInduction generalizing count with
  | unended piece hpiece =>
    refine ⟨piece, ?_, fun _ => (lastPiece_of_notMem hpiece).symm⟩
    rw [endedPieces_of_notMem hpiece]
    cases count with
    | zero => rfl
    | succ count => rw [takeLines, cutLine_of_notMem hpiece]; rfl
  | ended piece rest hpiece ih =>
    rw [endedPieces_line hpiece, lastPiece_line hpiece]
    cases count with
    | zero => exact ⟨_, rfl, fun h => absurd h (Nat.not_lt_zero _)⟩
    | succ count =>
      obtain ⟨left, htake, hleft⟩ := ih count
      refine ⟨left, ?_, fun h => hleft (Nat.lt_of_succ_lt_succ h)⟩
      simp only [takeLines, cutLine_line hpiece, htake, lineText_line]
      rfl

theorem piecesOf_of_notMem (broken : Bool) (h : lineFeed ∉ piece) :
    piecesOf broken piece = if broken = true ∨ piece = [] then [] else [piece] := by
  rw [piecesOf, allPieces, endedPieces_of_notMem h, lastPiece_of_notMem h]
  cases broken <;> simp

/-- Reading goes on from what is pending as if it had started with it. -/
theorem readLines_eq (broken : Bool) (count : Nat) (pending : Bytes) (chunks : List Bytes) :
    readLines broken count pending chunks =
      ((piecesOf broken (pending ++ chunks.flatten)).take count).map pieceText := by
  induction chunks generalizing count pending with
  | nil =>
    obtain ⟨left, htake, hleft⟩ := takeLines_eq count pending
    rw [List.flatten_nil, piecesOf_append, List.append_nil, List.take_append, List.map_append,
      readLines, htake]
    dsimp only
    rcases Nat.lt_or_ge (endedPieces pending).length count with hfew | hmany
    · have hlast := lineFeed_notMem_lastPiece pending
      obtain ⟨n, hn⟩ : ∃ n, count - (endedPieces pending).length = n + 1 :=
        Nat.exists_eq_add_one.mpr (Nat.sub_pos_of_lt hfew)
      rw [hleft hfew, piecesOf_of_notMem broken hlast, lineText_of_notMem hlast, hn]
      have hlength : min count (endedPieces pending).length ≠ count := by omega
      by_cases hbroken : broken = true <;> by_cases hnil : lastPiece pending = [] <;>
        simp [hbroken, hnil, hlength]
    · have hlength : min count (endedPieces pending).length = count := Nat.min_eq_left hmany
      simp [hlength, Nat.sub_eq_zero_of_le hmany]
  | cons chunk more ih =>
    obtain ⟨left, htake, hleft⟩ := takeLines_eq count pending
    rw [List.flatten_cons, piecesOf_append, List.take_append, List.map_append, readLines, htake]
    rcases Nat.lt_or_ge (endedPieces pending).length count with hfew | hmany
    · have hlength : min count (endedPieces pending).length = (endedPieces pending).length :=
        Nat.min_eq_right (Nat.le_of_lt hfew)
      simp [hlength, Nat.ne_of_lt hfew, hleft hfew, ih]
    · have hlength : min count (endedPieces pending).length = count := Nat.min_eq_left hmany
      simp [hlength, Nat.sub_eq_zero_of_le hmany]

end Reading

namespace Body

/-- The lines of a body, as far as it has arrived. -/
def lines (b : Body) : List String := (piecesOf b.broken b.chunks.flatten).map pieceText

theorem firstLines_eq_take (b : Body) (count : Nat) : b.firstLines count = b.lines.take count := by
  rw [firstLines, readLines_eq, List.nil_append, lines, List.map_take]

/-- The first lines of a body are those of all its bytes, however these were cut: the pieces between
line feeds, also the last one if there is something in it. Of a body that breaks off they are those
whose line feed has arrived. -/
theorem firstLines_of_bytes (chunks : List Bytes) (broken : Bool) (count : Nat) :
    firstLines ⟨chunks, broken⟩ count =
      ((if broken then endedPieces chunks.flatten else allPieces chunks.flatten).take count).map
        pieceText := by
  rw [firstLines_eq_take, lines, List.map_take]
  rfl

/-- A cut between a carriage return and its line feed, and one inside a character. -/
example : firstLines ⟨[[0x61, 0x0D], [], [0x0A, 0xC3], [0xA9]], false⟩ 3 = ["a", "é"] := by
  decide +kernel

end Body
end TestBench.Service
