import TestBench.Proofs.Diff.SelfDiff
import TestBench.Proofs.Diff.Totality

/-! Comparing instants and lengths of time. These are compared as texts, and no two share one:
neither on the calendar, nor beyond it where the seconds are shown as they are, nor on both sides of
its end. -/
namespace TestBench

namespace Value

/-- An instant since 1970, as it describes itself. -/
def systemTime (seconds nanos : Nat) : Value :=
  .record "SystemTime" [("secs_since_epoch", .int seconds), ("nanos_since_epoch", .int nanos)]

/-- A length of time, as it describes itself. -/
def duration (seconds nanos : Nat) : Value :=
  .record "Duration" [("secs", .int seconds), ("nanos", .int nanos)]

end Value

namespace Diff

namespace Node

/-- What a record of two numbers is captured as. -/
def pair (name first second : String) (a b : Int) : Node :=
  .record name [(first, .int a), (second, .int b)]

def timeNode (seconds nanos : Nat) : Node :=
  pair "SystemTime" "secs_since_epoch" "nanos_since_epoch" seconds nanos

def lengthNode (seconds nanos : Nat) : Node := pair "Duration" "secs" "nanos" seconds nanos

theorem toList_inline_pair (name first second : String) (a b : Int) :
    (pair name first second a b).inline.toList =
      name.toList ++ '{' :: (first.toList ++ [':', ' '] ++
        ((toString a).toList ++ ',' :: (' ' :: second.toList ++ [':', ' '] ++
          ((toString b).toList ++ ['}'])))) := by
  simp [pair, inline, inlineEntries, braces]

theorem comma_notMem_toString (n : Int) : ',' ∉ (toString n).toList := fun h => by
  have hchar := Decimal.mem_toString h
  contradiction

theorem inline_pair_inj {name first second : String} {a b a' b' : Int}
    (h : (pair name first second a b).inline = (pair name first second a' b').inline) :
    a = a' ∧ b = b' := by
  have hchars := congrArg String.toList h
  rw [toList_inline_pair, toList_inline_pair, List.append_cancel_left_eq, List.cons.injEq,
    List.append_cancel_left_eq] at hchars
  obtain ⟨hfirst, hrest⟩ := Text.append_cons_inj (comma_notMem_toString a)
    (comma_notMem_toString a') hchars.2
  rw [List.append_cancel_left_eq, List.append_cancel_right_eq] at hrest
  exact ⟨Literal.toString_int_injective (String.toList_inj.mp hfirst),
    Literal.toString_int_injective (String.toList_inj.mp hrest)⟩

end Node

namespace Formatters

open Node

/-- An instant is shown by date and time of day as far as the calendar goes. -/
theorem systemTime_cases {s n : Nat} (hn : n < 2 ^ 32) :
    (∃ text, Instant.text? s n = some text ∧ systemTime (timeNode s n) = .ok text) ∨
      ¬Instant.OnCalendar s n ∧ systemTime (timeNode s n) = .ok (timeNode s n).inline := by
  generalize hnode : timeNode s n = node
  have hseconds : node.field? "secs_since_epoch" = some (.int s) := hnode ▸ rfl
  have hnanos : node.field? "nanos_since_epoch" = some (.int n) := hnode ▸ rfl
  by_cases hon : Instant.OnCalendar s n
  · have hrange := (Instant.onCalendar_iff.mp hon).1
    have hs : intIn? (-2 ^ 63) (2 ^ 63) "secs_since_epoch" node = some (s : Int) :=
      intIn?_eq_some_iff.mpr ⟨hseconds, by omega, by omega⟩
    have hk : intIn? 0 (2 ^ 32) "nanos_since_epoch" node = some (n : Int) :=
      intIn?_eq_some_iff.mpr ⟨hnanos, by omega, by exact_mod_cast hn⟩
    refine .inl ⟨_, Instant.text?_eq_some hon, ?_⟩
    rw [systemTime_eq, hs, hk, Option.bind_some, Option.bind_some, Int.toNat_natCast,
      Instant.text?_eq_some hon, Option.getD_some]
  · obtain ⟨text, htext, hinline⟩ := systemTime_total node
    have htime : ¬node.IsTime := by
      rintro ⟨s', n', hs, hn, hon'⟩
      rw [hseconds, Option.some_inj, Node.int.injEq] at hs
      rw [hnanos, Option.some_inj, Node.int.injEq, Int.natCast_inj] at hn
      subst hs hn
      exact hon hon'
    exact .inr ⟨hon, hinline htime ▸ htext⟩

/-- The name of the type does not stand in a date. -/
theorem inline_ne_of_text?_eq_some {seconds : Int} {s n nanos : Nat} {text : String}
    (h : Instant.text? seconds nanos = some text) : (timeNode s n).inline ≠ text := by
  rintro rfl
  obtain ⟨-, hchars⟩ := Instant.toList_of_text?_eq_some h
  have hname : "SystemTime".toList = "System".toList ++ 'T' :: "ime".toList := rfl
  rw [timeNode, toList_inline_pair, hname, List.append_assoc, List.cons_append] at hchars
  obtain ⟨hdate, -⟩ :=
    Text.append_cons_inj (by decide) (Instant.T_notMem_dateText _) hchars
  have hchar := Instant.mem_dateText (hdate ▸ (by decide : 'S' ∈ "System".toList))
  contradiction

/-- From the year 262143 on an instant is shown as it is. -/
theorem systemTime_eq_inline_iff {s n : Nat} (hn : n < 1000000000) :
    systemTime (timeNode s n) = .ok (timeNode s n).inline ↔ 8210266876800 ≤ s := by
  have hon : Instant.OnCalendar s n ↔ s < 8210266876800 := by
    rw [Instant.onCalendar_iff]
    omega
  rcases systemTime_cases (s := s) (show n < 2 ^ 32 by omega) with
    ⟨text, htext, hok⟩ | ⟨hoff, hok⟩
  · have hlt := hon.mp (Instant.toList_of_text?_eq_some htext).1
    rw [hok, Except.ok.injEq]
    exact ⟨fun h => absurd h.symm (inline_ne_of_text?_eq_some htext),
      fun hle => absurd hlt (Nat.not_lt.mpr hle)⟩
  · exact ⟨fun _ => Nat.not_lt.mp fun hlt => hoff (hon.mpr hlt), fun _ => hok⟩

theorem systemTime_inj {s n s' n' : Nat} (hn : n < 2 ^ 32) (hn' : n' < 2 ^ 32)
    (h : systemTime (timeNode s n) = systemTime (timeNode s' n')) : s = s' ∧ n = n' := by
  rcases systemTime_cases (s := s) hn with ⟨text, htext, hok⟩ | ⟨-, hok⟩ <;>
    rcases systemTime_cases (s := s') hn' with ⟨text', htext', hok'⟩ | ⟨-, hok'⟩ <;>
    rw [hok, hok', Except.ok.injEq] at h
  · obtain ⟨hs, hn⟩ := Instant.text?_injective htext (h ▸ htext')
    exact ⟨by exact_mod_cast hs, hn⟩
  · exact absurd h.symm (inline_ne_of_text?_eq_some htext)
  · exact absurd h (inline_ne_of_text?_eq_some htext')
  · obtain ⟨hs, hn⟩ := inline_pair_inj h
    exact ⟨by exact_mod_cast hs, by exact_mod_cast hn⟩

theorem duration_lengthNode {s n : Nat} (hs : s < 2 ^ 64) (hn : n < 1000000000) :
    duration (lengthNode s n) = .ok (Span.mk (s * 1000000000 + n)).text := by
  have hholds : (lengthNode s n).HoldsSpan s n := ⟨rfl, rfl, hs, by omega⟩
  rcases Span.ofParts?_cases s n with ⟨-, hparts⟩ | ⟨hle, -⟩
  · rw [duration_of_holds hholds, hparts, Option.elim_some]
  · omega

end Formatters

namespace Options

open Node

variable {o : Options}

theorem capture_pair {name first second text : String} {format : Formatter} {a b : Int}
    (hformat : o.formatter? name = some format) (ha : a < 2 ^ 127) (hb : b < 2 ^ 127)
    (htext : format (pair name first second a b) = .ok text) :
    o.capture (.record name [(first, .int a), (second, .int b)]) =
      .ok (.formatted name text (pair name first second a b).isZero) :=
  (capture_record_of_ints [(first, a), (second, b)] hformat
    (List.forall_mem_cons.mpr ⟨ha, List.forall_mem_singleton.mpr hb⟩)).trans
      (bind_eq_ok.mpr ⟨text, htext, rfl⟩)

/-- Formatted values are compared by their texts. -/
theorem diff_eq_empty_iff_text_eq {a b : Value} {name name' text text' : String} {zero zero' : Bool}
    (ha : o.capture a = .ok (.formatted name text zero))
    (hb : o.capture b = .ok (.formatted name' text' zero')) :
    o.diff a b = .ok "" ↔ text = text' := by
  rw [diff_eq_empty_iff_equivalent ha hb, equivalent, beq_iff_eq]

theorem capture_systemTime {s n : Nat} (hs : s < 2 ^ 64) (hn : n < 1000000000) :
    ∃ text, Formatters.systemTime (timeNode s n) = .ok text ∧
      default.capture (.systemTime s n) =
        .ok (.formatted "SystemTime" text (timeNode s n).isZero) := by
  obtain ⟨text, htext, -⟩ := Formatters.systemTime_total (timeNode s n)
  exact ⟨text, htext, capture_pair formatter?_systemTime (by omega) (by omega) htext⟩

theorem capture_duration {s n : Nat} (hs : s < 2 ^ 64) (hn : n < 1000000000) :
    default.capture (.duration s n) = .ok (.formatted "Duration"
      (Span.mk (s * 1000000000 + n)).text (lengthNode s n).isZero) :=
  capture_pair formatter?_duration (by omega) (by omega) (Formatters.duration_lengthNode hs hn)

/-- A comparison of two instants, or of two lengths of time, shows nothing just when they are the
same. That holds across the end of the calendar, from which on instants are shown as they are. -/
theorem diff_times (s t : UInt64) (m n : Fin 1000000000) :
    (default.diff (.systemTime s.toNat m) (.systemTime t.toNat n) = .ok "" ↔ s = t ∧ m = n) ∧
      (default.diff (.duration s.toNat m) (.duration t.toNat n) = .ok "" ↔ s = t ∧ m = n) ∧
      (default.capture (.systemTime s.toNat m) = .ok (.formatted "SystemTime"
          (timeNode s.toNat m).inline (timeNode s.toNat m).isZero) ↔
        8210266876800 ≤ s.toNat) := by
  have hsame : s = t ∧ m = n ↔ s.toNat = t.toNat ∧ (m : Nat) = n := by
    rw [UInt64.toNat_inj, Fin.val_inj]
  have hm := m.isLt
  have hn := n.isLt
  obtain ⟨text, htext, hcapture⟩ := capture_systemTime s.toNat_lt hm
  obtain ⟨text', htext', hcapture'⟩ := capture_systemTime t.toNat_lt hn
  rw [hsame]
  refine ⟨(diff_eq_empty_iff_text_eq hcapture hcapture').trans ⟨?_, ?_⟩,
    (diff_eq_empty_iff_text_eq (capture_duration s.toNat_lt hm)
      (capture_duration t.toNat_lt hn)).trans ?_, ?_⟩
  · rintro rfl
    exact Formatters.systemTime_inj (by omega) (by omega) (htext.trans htext'.symm)
  · rintro ⟨hs, hn⟩
    rw [hs, hn, htext'] at htext
    exact (Except.ok.inj htext).symm
  · rw [Span.text_injective.eq_iff, Span.mk.injEq]
    omega
  · rw [hcapture, ← Formatters.systemTime_eq_inline_iff hm, htext]
    simp

end Options
end Diff
end TestBench
