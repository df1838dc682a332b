import Mathlib.Data.List.Basic
import Mathlib.Tactic.Common

/-!
# Leftmost framing of a stream

Packets are windows of `width + 1` elements that pass a test. The leftmost framing of a
stream goes through it from the left, accepts a window that passes, continues behind it,
and otherwise continues one element further. It is defined on the whole stream; a framer
that sees one element at a time computes it as soon as it agrees on each extension of the
stream by one element.
-/

universe u

namespace Framer

variable {α : Type u} (width : ℕ) (valid : List α → Bool)

/-- The `width + 1` elements from `start` on. -/
def window (stream : List α) (start : ℕ) : List α := (stream.drop start).take (width + 1)

/-- The starts of the accepted windows from `start` on, and where the open rest begins. -/
def scan (stream : List α) (start : ℕ) : List ℕ × ℕ :=
  if start + width < stream.length then
    if valid (window width stream start) then
      let rest := scan stream (start + (width + 1))
      (start :: rest.1, rest.2)
    else scan stream (start + 1)
  else ([], start)
termination_by stream.length - start

variable {width valid}

theorem window_append {stream : List α} {start : ℕ} (complete : start + width < stream.length)
    (late : List α) : window width (stream ++ late) start = window width stream start := by
  simp only [window]
  rw [List.drop_append_of_le_length (by omega),
    List.take_append_of_le_length (by simp; omega)]

theorem window_length_add (early stream : List α) (offset : ℕ) :
    window width (early ++ stream) (early.length + offset) = window width stream offset := by
  simp only [window]
  rw [← List.drop_drop, List.drop_left]

theorem scan_of_short {stream : List α} {start : ℕ} (short : stream.length ≤ start + width) :
    scan width valid stream start = ([], start) := by
  rw [scan, if_neg (by omega)]

theorem scan_of_valid {stream : List α} {start : ℕ} (complete : start + width < stream.length)
    (passes : valid (window width stream start) = true) :
    scan width valid stream start =
      (start :: (scan width valid stream (start + (width + 1))).1,
        (scan width valid stream (start + (width + 1))).2) := by
  rw [scan, if_pos complete, if_pos passes]

theorem scan_of_invalid {stream : List α} {start : ℕ}
    (complete : start + width < stream.length)
    (fails : valid (window width stream start) = false) :
    scan width valid stream start = scan width valid stream (start + 1) := by
  rw [scan, if_pos complete, if_neg (by simp [fails])]

theorem scan_rest {stream : List α} {start : ℕ} (inside : start ≤ stream.length) :
    (scan width valid stream start).2 ≤ stream.length ∧
      stream.length ≤ (scan width valid stream start).2 + width ∧
      start ≤ (scan width valid stream start).2 := by
  induction start using scan.induct width valid stream with
  | case1 start complete passes ih =>
      rw [scan_of_valid complete passes]
      have := ih (by omega)
      exact ⟨this.1, this.2.1, by omega⟩
  | case2 start complete fails ih =>
      rw [scan_of_invalid complete (by simpa using fails)]
      have := ih (by omega)
      exact ⟨this.1, this.2.1, by omega⟩
  | case3 start short =>
      rw [scan_of_short (by omega)]
      exact ⟨inside, by omega, Nat.le_refl _⟩

/-- Every accepted window is a complete window of the stream that passes the test. -/
theorem scan_valid {stream : List α} {start accepted : ℕ}
    (mem : accepted ∈ (scan width valid stream start).1) :
    start ≤ accepted ∧ accepted + width < stream.length ∧
      valid (window width stream accepted) = true := by
  induction start using scan.induct width valid stream with
  | case1 start complete passes ih =>
      rw [scan_of_valid complete passes] at mem
      rcases List.mem_cons.mp mem with rfl | later
      · exact ⟨Nat.le_refl _, complete, passes⟩
      · have := ih later
        exact ⟨by omega, this.2⟩
  | case2 start complete fails ih =>
      rw [scan_of_invalid complete (by simpa using fails)] at mem
      have := ih mem
      exact ⟨by omega, this.2⟩
  | case3 start short =>
      rw [scan_of_short (by omega)] at mem
      simp at mem

/-- The accepted windows are in stream order and do not overlap. -/
theorem scan_disjoint (stream : List α) (start : ℕ) :
    (scan width valid stream start).1.Pairwise fun early late => early + (width + 1) ≤ late := by
  induction start using scan.induct width valid stream with
  | case1 start complete passes ih =>
      rw [scan_of_valid complete passes, List.pairwise_cons]
      exact ⟨fun late mem => (scan_valid mem).1, ih⟩
  | case2 start complete fails ih =>
      rw [scan_of_invalid complete (by simpa using fails)]
      exact ih
  | case3 start short =>
      rw [scan_of_short (by omega)]
      exact List.Pairwise.nil

/-- A passing window that is not accepted starts inside an accepted one. -/
theorem scan_missed {stream : List α} {start missed : ℕ} (fromStart : start ≤ missed)
    (complete : missed + width < stream.length)
    (passes : valid (window width stream missed) = true)
    (notMem : missed ∉ (scan width valid stream start).1) :
    ∃ accepted ∈ (scan width valid stream start).1,
      accepted < missed ∧ missed ≤ accepted + width := by
  induction start using scan.induct width valid stream with
  | case1 start startComplete startPasses ih =>
      rw [scan_of_valid startComplete startPasses] at notMem ⊢
      simp only [List.mem_cons, not_or] at notMem
      by_cases inside : missed ≤ start + width
      · exact ⟨start, by simp, by omega, inside⟩
      · rcases ih (by omega) notMem.2 with ⟨accepted, mem, covers⟩
        exact ⟨accepted, List.mem_cons_of_mem _ mem, covers⟩
  | case2 start startComplete fails ih =>
      have different : start ≠ missed := by
        rintro rfl
        exact fails passes
      rw [scan_of_invalid startComplete (by simpa using fails)] at notMem ⊢
      exact ih (by omega) notMem
  | case3 start short => omega

/-- Framing an extended stream continues at the open rest. -/
theorem scan_append (early late : List α) {start : ℕ} (inside : start ≤ early.length) :
    scan width valid (early ++ late) start =
      ((scan width valid early start).1 ++
          (scan width valid (early ++ late) (scan width valid early start).2).1,
        (scan width valid (early ++ late) (scan width valid early start).2).2) := by
  induction start using scan.induct width valid early with
  | case1 start complete passes ih =>
      have longer : start + width < (early ++ late).length := by
        rw [List.length_append]
        omega
      rw [scan_of_valid complete passes, scan_of_valid longer
        (by rw [window_append complete, passes]), ih (by omega)]
      simp
  | case2 start complete fails ih =>
      have invalid : valid (window width early start) = false := by simpa using fails
      have longer : start + width < (early ++ late).length := by
        rw [List.length_append]
        omega
      rw [scan_of_invalid complete invalid, scan_of_invalid longer
        (by rw [window_append complete, invalid])]
      apply ih
      omega
  | case3 start short =>
      have empty : scan width valid early start = ([], start) := scan_of_short (by omega)
      simp [empty]

/-! ## One more element -/

section Snoc

variable {stream : List α} {element : α}

theorem scan_snoc_of_short
    (short : stream.length < (scan width valid stream 0).2 + width) :
    scan width valid (stream ++ [element]) 0 = scan width valid stream 0 := by
  have rest : scan width valid (stream ++ [element]) (scan width valid stream 0).2 =
      ([], (scan width valid stream 0).2) := by
    apply scan_of_short
    rw [List.length_append, List.length_singleton]
    omega
  rw [scan_append stream [element] (Nat.zero_le _), rest]
  simp

variable (full : (scan width valid stream 0).2 + width = stream.length)
include full

theorem scan_snoc_of_valid
    (passes : valid (window width (stream ++ [element]) (scan width valid stream 0).2) = true) :
    scan width valid (stream ++ [element]) 0 =
      ((scan width valid stream 0).1 ++ [(scan width valid stream 0).2], stream.length + 1) := by
  have lengthEq : (stream ++ [element]).length = stream.length + 1 := by simp
  have rest : scan width valid (stream ++ [element])
      ((scan width valid stream 0).2 + (width + 1)) = ([], stream.length + 1) := by
    rw [scan_of_short (by omega), ← Nat.add_assoc, full]
  rw [scan_append stream [element] (Nat.zero_le _), scan_of_valid (by omega) passes, rest]

theorem scan_snoc_of_invalid
    (fails : valid (window width (stream ++ [element]) (scan width valid stream 0).2) = false) :
    scan width valid (stream ++ [element]) 0 =
      ((scan width valid stream 0).1, (scan width valid stream 0).2 + 1) := by
  have lengthEq : (stream ++ [element]).length = stream.length + 1 := by simp
  have rest : scan width valid (stream ++ [element]) ((scan width valid stream 0).2 + 1) =
      ([], (scan width valid stream 0).2 + 1) := scan_of_short (by omega)
  rw [scan_append stream [element] (Nat.zero_le _), scan_of_invalid (by omega) fails, rest]
  simp

end Snoc

/-! ## Resynchronisation -/

section Resync

variable {stream : List α} {first : ℕ}
  (lengthEq : stream.length = first + 2 * (width + 1))
  (secondValid : valid (window width stream (first + (width + 1))) = true)
  (between : ∀ start, first < start → start < first + (width + 1) →
    valid (window width stream start) = false)
include lengthEq secondValid between

/-- From inside the first packet, the second packet is the next accepted window. -/
theorem scan_from_inside {start : ℕ} (after : first < start)
    (before : start ≤ first + (width + 1)) :
    scan width valid stream start = ([first + (width + 1)], stream.length) := by
  induction gap : first + (width + 1) - start generalizing start with
  | zero =>
      have atSecond : start = first + (width + 1) := by omega
      subst start
      rw [scan_of_valid (by omega) secondValid, scan_of_short (by omega)]
      simp only [Prod.mk.injEq, true_and]
      omega
  | succ gap ih =>
      rw [scan_of_invalid (by omega) (between start after (by omega))]
      apply ih <;> omega

/--
A framer that comes to two adjacent packets with less than a window pending accepts the
second one, whatever it accepts before: a window accepted on the way ends inside the first
packet or at its end.
-/
theorem scan_resync (firstValid : valid (window width stream first) = true) {start : ℕ}
    (before : start ≤ first) (pending : first ≤ start + width) :
    ∃ accepted, scan width valid stream start =
      (accepted ++ [first + (width + 1)], stream.length) := by
  induction gap : first - start generalizing start with
  | zero =>
      have atFirst : start = first := by omega
      subst start
      refine ⟨[first], ?_⟩
      rw [scan_of_valid (by omega) firstValid,
        scan_from_inside lengthEq secondValid between (by omega) (by omega)]
      rfl
  | succ gap ih =>
      cases passes : valid (window width stream start) with
      | true =>
          refine ⟨[start], ?_⟩
          rw [scan_of_valid (by omega) passes,
            scan_from_inside lengthEq secondValid between (by omega) (by omega)]
          rfl
      | false =>
          rw [scan_of_invalid (by omega) passes]
          apply ih <;> omega

end Resync

end Framer
