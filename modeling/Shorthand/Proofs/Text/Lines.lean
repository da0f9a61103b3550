import Mathlib.Algebra.GroupWithZero.Nat
import Mathlib.Data.List.Basic
import Shorthand.Text.Basic

/-! # Lines of a text

The lines of a text are what stands between its line feeds. So a text has one line more than it has line feeds, and
texts that are joined by line feeds keep their lines.

* **`Text.lines`** — the lines of a text.
* `Text.lines_joined` — the lines of joined texts.
* `Text.lines_joined_eq_iff` — the texts are the lines exactly if none of them holds a line feed. -/

namespace Shorthand.Text

/-- The lines of a text. The empty text is one empty line. -/
def lines (t : Text) : List Text := t.splitOn '\n'

/-- A text without line feeds is one line. -/
theorem lines_of_not_mem {t : Text} (single : '\n' ∉ t) : lines t = [t] := List.splitOn_eq_singleton single

/-- A line feed parts the lines before it from those after it. -/
theorem lines_append (t rest : Text) : lines (t ++ '\n' :: rest) = lines t ++ lines rest :=
  List.splitOnP_append_cons t rest (beq_self_eq_true '\n')

/-- A text has one line more than it has line feeds. -/
theorem length_lines (t : Text) : (lines t).length = t.count '\n' + 1 := by
  induction t with
  | nil => rfl
  | cons c t ih =>
    have step := List.splitOnP_cons_eq_if_modifyHead c t (p := (· == '\n'))
    rw [lines, List.splitOn] at ih ⊢
    rw [step, List.count_cons]
    by_cases feed : (c == '\n') = true
    · rw [if_pos feed, if_pos feed, List.length_cons, ih]
    · rw [if_neg feed, if_neg feed, List.length_modifyHead, ih, Nat.add_zero]

/-- The lines of texts that are joined by line feeds are the lines of the texts. -/
theorem lines_joined {texts : List Text} (nonempty : texts ≠ []) :
    lines (joined ['\n'] texts) = texts.flatMap lines := by
  induction texts with
  | nil => exact absurd rfl nonempty
  | cons t rest ih =>
    cases rest with
    | nil => rw [joined, List.flatMap_singleton]
    | cons u rest =>
      rw [joined, List.append_assoc, List.singleton_append, lines_append, ih (List.cons_ne_nil u rest)]
      rfl

/-- Joined texts have a line for each text, and one more for each line feed in the texts. -/
theorem length_lines_joined {texts : List Text} (nonempty : texts ≠ []) :
    (lines (joined ['\n'] texts)).length = texts.length + (texts.map (·.count '\n')).sum := by
  rw [lines_joined nonempty, List.length_flatMap]
  simp only [length_lines]
  clear nonempty
  induction texts with
  | nil => rfl
  | cons t rest ih =>
    simp only [List.map_cons, List.sum_cons, List.length_cons, ih]
    omega

/-- The texts are the lines exactly if none of them holds a line feed. -/
theorem lines_joined_eq_iff {texts : List Text} (nonempty : texts ≠ []) :
    lines (joined ['\n'] texts) = texts ↔ ∀ t ∈ texts, '\n' ∉ t := by
  constructor
  · intro same t among
    have counted := length_lines_joined nonempty
    have none : (texts.map (·.count '\n')).sum = 0 := by
      rw [same] at counted
      omega
    intro feed
    have some := List.sum_pos_iff_exists_pos_nat.2 ⟨_, List.mem_map_of_mem among, List.count_pos_iff.2 feed⟩
    exact absurd none (Nat.ne_of_gt some)
  · intro single
    rw [lines_joined nonempty, List.flatMap_congr fun t among => lines_of_not_mem (single t among)]
    exact List.flatMap_singleton' texts

/-- A character of joined texts that is none of the separator's is one of the texts'. -/
theorem count_joined {c : Char} {separator : Text} (other : c ∉ separator) (texts : List Text) :
    (joined separator texts).count c = (texts.map (·.count c)).sum := by
  induction texts with
  | nil => rfl
  | cons t rest ih =>
    cases rest with
    | nil => simp [joined]
    | cons u rest =>
      rw [joined, List.append_assoc, List.count_append, List.count_append, List.count_eq_zero.2 other, Nat.zero_add, ih]
      rfl

end Shorthand.Text
