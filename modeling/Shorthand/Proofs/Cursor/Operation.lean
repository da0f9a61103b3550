import Shorthand.Proofs.Cursor.Basic
import Shorthand.Proofs.Text.Trim

/-! # Operations of a cursor

Callers move a cursor by operations that look at the characters ahead and take some of them, and they may move it back.
Where an operation takes characters, the position moves past just these, with one exception: a text that is matched
without regard to case is passed over by its own length, although it may have matched fewer characters. The lower-case
form of the dotted capital I has two characters, so that the end of a text may match a text that is longer. Then the
position comes to stand beyond the end, but by no more than there are such letters.

* **`Cursor.Operation`** — what a caller does with a cursor; **`Cursor.Operation.perform`** — what comes of it.
* **`Cursor.Takes`** — which characters an operation takes.
* **`Cursor.Results`** — the outcome of an operation, described by what it takes.
* **`Cursor.Visits`** — the cursors to which operations lead.
* `Cursor.exists_results` — the outcome of one operation.
* `Cursor.visits_bounds` — where operations lead from the beginning of a text. -/

namespace Shorthand

/-! ## The lengths of lower-case forms -/

namespace Text

/-- Only the dotted capital I has a lower-case form of more than one character. -/
theorem length_lowerForm (c : Char) : (lowerForm c).length = if c = '\u0130' then 2 else 1 := by
  rw [lowerForm]
  split <;> rfl

/-- The lower-case form of a text has a character more for each dotted capital I. -/
theorem length_lower (t : Text) : t.lower.length = t.length + t.count '\u0130' := by
  have after : ∀ before, (lowerAfter before t).length = t.length + t.count '\u0130' := by
    induction t with
    | nil => exact fun _ => rfl
    | cons c t ih =>
      intro before
      rw [lowerAfter, List.length_append, ih, List.length_cons, List.count_cons]
      by_cases sigma : c = 'Σ'
      · subst sigma
        simp
        omega
      · rw [if_neg sigma, length_lowerForm]
        by_cases dotted : c = '\u0130' <;> simp [dotted] <;> omega
  exact after []

end Text

namespace Cursor

/-! ## Operations -/

/-- What a caller does with a cursor. -/
inductive Operation where
  /-- Look at the current character. -/
  | peek
  /-- Take the current character. -/
  | next
  /-- Take the current character if it is accepted. -/
  | eat (m : Matcher)
  /-- Take characters as long as they are accepted. -/
  | eatWhile (m : Matcher)
  /-- Take gaps. -/
  | eatGaps
  /-- Take a balanced span. -/
  | skipPair (opener closer : Text)
  /-- Compare what follows with a text. -/
  | matchText (t : Text) (consume foldCase : Bool)
  /-- Match what follows with a pattern. -/
  | matchPattern (p : Pattern) (consume : Bool)
  /-- Begin a span at the position. -/
  | mark
  /-- Move back. -/
  | backUp (n : Int)

namespace Operation

/-- What comes of an operation: whether it found what it wants, and the cursor after it. -/
def perform (c : Cursor) : Operation → Option (Bool × Cursor)
  | .peek => some (!c.peek.isEmpty, c)
  | .next => some (!c.next.1.isEmpty, c.next.2)
  | .eat m => some (!(c.eat m).1.isEmpty, (c.eat m).2)
  | .eatWhile m => some (c.eatWhile m)
  | .eatGaps => c.eatGaps?
  | .skipPair opener closer => c.skipPair? opener closer
  | .matchText t consume foldCase => some (c.matchText t consume foldCase)
  | .matchPattern p consume => some ((c.matchPattern p consume).1.isSome, (c.matchPattern p consume).2)
  | .mark => some (true, c.mark)
  | .backUp n => some (true, c.backUp n)

/-- The operation takes what it finds. -/
def consumes : Operation → Bool
  | .next | .eat _ | .eatWhile _ | .eatGaps | .skipPair _ _ => true
  | .matchText _ consume _ | .matchPattern _ consume => consume
  | .peek | .mark | .backUp _ => false

/-- The operation leaves the cursor as it is. -/
def looks : Operation → Bool
  | .peek => true
  | .matchText _ consume _ | .matchPattern _ consume => !consume
  | _ => false

/-- The operation is used as it is meant: a character that is wanted is a single one, a text that is wanted is not
empty, and the cursor is moved back within the text. -/
def Fits (c : Cursor) : Operation → Prop
  | .eat m | .eatWhile m => ∀ t, m = .exactly t → t.length = 1
  | .matchText t _ _ => t ≠ []
  | .backUp n => 0 ≤ n ∧ n ≤ c.pos
  | _ => True

/-- The operation passes over a text that is longer than what is left, and matches it without regard to case. -/
def Overruns (c : Cursor) : Operation → Prop
  | .matchText t true true => c.upcoming.length < t.length ∧ c.upcoming.lower = t.lower
  | _ => False

end Operation

/-- The characters that an operation takes: they are the first ones ahead. -/
inductive Takes (c : Cursor) : Operation → Text → Prop
  | next {x rest} (ahead : c.upcoming = x :: rest) : Takes c .next [x]
  | eat {m x rest} (ahead : c.upcoming = x :: rest) (accepted : m.accepts [x] = true) : Takes c (.eat m) [x]
  | eatWhile {m run rest} (ahead : c.upcoming = run ++ rest) (nonempty : run ≠ [])
    (accepted : ∀ x ∈ run, m.accepts [x] = true) (ends : ∀ x ∈ rest.head?, m.accepts [x] = false) :
    Takes c (.eatWhile m) run
  | eatGaps {run rest} (ahead : c.upcoming = run ++ rest) (nonempty : run ≠ [])
    (gaps : ∀ x ∈ run, Text.isGap x = true) (ends : ∀ x ∈ rest.head?, Text.isGap x = false) : Takes c .eatGaps run
  | skipPair {opener closer span rest}
    (balanced : pairSpan? (fun x => [x] == opener) (fun x => [x] == closer) 0 c.upcoming = some (span, rest)) :
    Takes c (.skipPair opener closer) span
  | exactly {t rest} (ahead : c.upcoming = t ++ rest) : Takes c (.matchText t true false) t
  | folded {t taken rest} (ahead : c.upcoming = taken ++ rest) (length_eq : taken.length = t.length)
    (same : taken.lower = t.lower) : Takes c (.matchText t true true) taken
  | pattern {p} {found : PatternMatch} (matched : p.matchAt c.text c.pos.toNat = some found) :
    Takes c (.matchPattern p true) found.whole

/-- The outcome of an operation. What takes characters moves the cursor past them, or leaves it where it is if there is
nothing to be taken. -/
inductive Results (c : Cursor) : Operation → Bool → Cursor → Prop
  | takes {op taken} (takes : c.Takes op taken) : Results c op true (c.advance taken.length)
  | fails {op} (consumes : op.consumes = true) (nothing : ∀ taken, ¬ c.Takes op taken) (within : ¬ op.Overruns c) :
    Results c op false c
  | overruns {t} (overruns : (Operation.matchText t true true).Overruns c) :
    Results c (.matchText t true true) true (c.advance t.length)
  | looks {op found} (looks : op.looks = true) : Results c op found c
  | marks : Results c .mark true c.mark
  | backsUp {n} : Results c (.backUp n) true (c.backUp n)

variable {c after : Cursor} {op : Operation} {found : Bool} {taken : Text}

/-! ## What is taken -/

/-- What is taken stands ahead, and it is not empty. -/
theorem Takes.isPrefix (placed : 0 ≤ c.pos) (fits : op.Fits c) (takes : c.Takes op taken) :
    taken <+: c.upcoming ∧ taken ≠ [] := by
  cases takes with
  | next ahead | eat ahead _ => exact ⟨⟨_, ahead.symm⟩, List.cons_ne_nil _ _⟩
  | eatWhile ahead nonempty | eatGaps ahead nonempty => exact ⟨⟨_, ahead.symm⟩, nonempty⟩
  | skipPair balanced => exact ⟨⟨_, pairSpan?_append balanced⟩, pairSpan?_ne_nil balanced⟩
  | exactly ahead => exact ⟨⟨_, ahead.symm⟩, fits⟩
  | folded ahead length_eq =>
    refine ⟨⟨_, ahead.symm⟩, fun nothing => fits (List.length_eq_zero_iff.1 ?_)⟩
    rw [← length_eq, nothing, List.length_nil]
  | pattern matched =>
    rw [upcoming_eq placed]
    exact Pattern.matchAt_isPrefix matched

/-- A text that overruns the end is longer than what is left by no more than there are dotted capital I's. -/
theorem length_le_of_overruns {t : Text} (overruns : (Operation.matchText t true true).Overruns c) :
    t.length ≤ c.upcoming.length + c.upcoming.count '\u0130' := by
  have same := congrArg List.length overruns.2
  rw [Text.length_lower, Text.length_lower] at same
  omega

/-! ## One operation -/

/-- A character that is wanted is not found at the end. -/
theorem accepts_nil {m : Matcher} (fits : (Operation.eat m).Fits c) : m.accepts [] = false := by
  cases m with
  | exactly t =>
    have single := fits t rfl
    cases t with
    | nil => cases single
    | cons => rfl
  | pattern | test => rfl

theorem results_next : c.Results .next (!c.next.1.isEmpty) c.next.2 := by
  cases ahead : c.upcoming with
  | nil =>
    rw [next, peek_eq_nil ahead, List.length_nil, advance_zero]
    refine .fails rfl (fun taken takes => ?_) id
    cases takes with
    | next ahead' => cases ahead.symm.trans ahead'
  | cons x rest =>
    rw [next, peek_eq ahead]
    exact .takes (.next ahead)

theorem results_eat {m : Matcher} (fits : (Operation.eat m).Fits c) :
    c.Results (.eat m) (!(c.eat m).1.isEmpty) (c.eat m).2 := by
  cases ahead : c.upcoming with
  | nil =>
    rw [eat, peek_eq_nil ahead, accepts_nil fits, if_neg (by decide)]
    refine .fails rfl (fun taken takes => ?_) id
    cases takes with
    | eat ahead' => cases ahead.symm.trans ahead'
  | cons x rest =>
    rw [eat, peek_eq ahead]
    by_cases accepted : m.accepts [x] = true
    · rw [if_pos accepted]
      exact .takes (.eat ahead accepted)
    · rw [if_neg accepted]
      refine .fails rfl (fun taken takes => ?_) id
      cases takes with
      | eat ahead' accepted' =>
        cases ahead.symm.trans ahead'
        exact accepted accepted'

/-- A run of characters of a sort is taken as a whole. -/
theorem results_run {sort : Char → Bool} (consumes : op.consumes = true) (within : ¬ op.Overruns c)
    (takes_iff : ∀ taken, c.Takes op taken ↔ taken ≠ [] ∧ c.upcoming.takeWhile sort = taken) :
    c.Results op (!(c.upcoming.takeWhile sort).isEmpty) (c.advance (c.upcoming.takeWhile sort).length) := by
  cases run : c.upcoming.takeWhile sort with
  | nil =>
    rw [List.length_nil, advance_zero]
    refine .fails consumes (fun taken takes => ?_) within
    obtain ⟨nonempty, same⟩ := (takes_iff taken).1 takes
    exact nonempty (same.symm.trans run)
  | cons x rest => exact .takes ((takes_iff _).2 ⟨List.cons_ne_nil x rest, run⟩)

/-- A run is as long as its characters are of the sort. -/
theorem takeWhile_eq_iff {sort : Char → Bool} {t run : Text} :
    t.takeWhile sort = run ↔
      ∃ rest, t = run ++ rest ∧ (∀ x ∈ run, sort x = true) ∧ ∀ x ∈ rest.head?, sort x = false := by
  constructor
  · intro same
    exact ⟨t.dropWhile sort, Text.takeWhile_dropWhile_iff.1 ⟨same, rfl⟩⟩
  · rintro ⟨rest, parts⟩
    exact (Text.takeWhile_dropWhile_iff.2 parts).1

theorem results_eatWhile {m : Matcher} (fits : (Operation.eatWhile m).Fits c) :
    c.Results (.eatWhile m) (c.eatWhile m).1 (c.eatWhile m).2 := by
  rw [eatWhile_eq (accepts_nil (c := c) fits)]
  refine results_run rfl id fun taken => ?_
  rw [takeWhile_eq_iff]
  constructor
  · intro takes
    cases takes with
    | eatWhile ahead nonempty accepted ends => exact ⟨nonempty, _, ahead, accepted, ends⟩
  · rintro ⟨nonempty, rest, ahead, accepted, ends⟩
    exact .eatWhile ahead nonempty accepted ends

theorem exists_results_eatGaps (placed : 0 ≤ c.pos) :
    ∃ found after, c.eatGaps? = some (found, after) ∧ c.Results .eatGaps found after := by
  refine ⟨_, _, eatGaps?_eq placed, results_run rfl id fun taken => ?_⟩
  rw [takeWhile_eq_iff]
  constructor
  · intro takes
    cases takes with
    | eatGaps ahead nonempty gaps ends => exact ⟨nonempty, _, ahead, gaps, ends⟩
  · rintro ⟨nonempty, rest, ahead, gaps, ends⟩
    exact .eatGaps ahead nonempty gaps ends

theorem exists_results_skipPair (placed : 0 ≤ c.pos) (opener closer : Text) :
    ∃ found after, c.skipPair? opener closer = some (found, after) ∧
      c.Results (.skipPair opener closer) found after := by
  rw [skipPair?, ahead?_eq_upcoming placed]
  refine ⟨_, _, rfl, ?_⟩
  cases span : pairSpan? (fun x => [x] == opener) (fun x => [x] == closer) 0 c.upcoming with
  | none =>
    refine .fails rfl (fun taken takes => ?_) id
    cases takes with
    | skipPair balanced => cases span.symm.trans balanced
  | some parts => exact .takes (.skipPair span)

theorem results_exactly (placed : 0 ≤ c.pos) (t : Text) :
    c.Results (.matchText t true false) (c.matchText t true false).1 (c.matchText t true false).2 := by
  simp only [matchText, slice_pos placed, Bool.false_eq_true, if_false, Bool.and_true, beq_iff_eq]
  by_cases same : c.upcoming.take t.length = t
  · rw [if_pos same, beq_iff_eq.2 same]
    have ahead : c.upcoming = t ++ c.upcoming.drop t.length := by
      conv_lhs => rw [← List.take_append_drop t.length c.upcoming, same]
    exact .takes (.exactly ahead)
  · rw [if_neg same, beq_eq_false_iff_ne.2 same]
    refine .fails rfl (fun taken takes => ?_) id
    cases takes with
    | exactly ahead => exact same (by rw [ahead, List.take_left])

theorem results_folded (placed : 0 ≤ c.pos) (t : Text) :
    c.Results (.matchText t true true) (c.matchText t true true).1 (c.matchText t true true).2 := by
  simp only [matchText, slice_pos placed, if_true, Bool.and_true, beq_iff_eq]
  by_cases short : c.upcoming.length < t.length
  · -- what is left is compared with a longer text
    rw [List.take_of_length_le short.le]
    by_cases same : c.upcoming.lower = t.lower
    · rw [if_pos same, beq_iff_eq.2 same]
      exact .overruns ⟨short, same⟩
    · rw [if_neg same, beq_eq_false_iff_ne.2 same]
      refine .fails rfl (fun taken takes => ?_) fun overruns => same overruns.2
      cases takes with
      | folded ahead length_eq =>
        rw [ahead, List.length_append] at short
        omega
  · have length_eq : (c.upcoming.take t.length).length = t.length := by
      rw [List.length_take]
      omega
    by_cases same : Text.lower (c.upcoming.take t.length) = t.lower
    · rw [if_pos same, beq_iff_eq.2 same]
      have passed := Results.takes (.folded (List.take_append_drop t.length c.upcoming).symm length_eq same)
      rwa [length_eq] at passed
    · rw [if_neg same, beq_eq_false_iff_ne.2 same]
      refine .fails rfl (fun taken takes => ?_) fun overruns => short overruns.1
      cases takes with
      | folded ahead length_eq same' => exact same (by rwa [ahead, ← length_eq, List.take_left])

theorem results_matchText (placed : 0 ≤ c.pos) (t : Text) (consume foldCase : Bool) :
    c.Results (.matchText t consume foldCase) (c.matchText t consume foldCase).1
      (c.matchText t consume foldCase).2 := by
  cases consume with
  | false =>
    simp only [matchText, Bool.and_false, if_neg Bool.false_ne_true]
    exact .looks rfl
  | true =>
    cases foldCase with
    | false => exact results_exactly placed t
    | true => exact results_folded placed t

/-- Beyond the end nothing is matched, as at the end. -/
theorem matchAt_min (t : Text) (p : Pattern) (k : Nat) : p.matchAt t (min k t.length) = p.matchAt t k := by
  by_cases inside : k ≤ t.length
  · rw [Nat.min_eq_left inside]
  · have nothing : ∀ k, t.length ≤ k → p.matchAt t k = none := by
      intro k atEnd
      cases matched : p.matchAt t k with
      | none => rfl
      | some found =>
        obtain ⟨isPrefix, nonempty⟩ := Pattern.matchAt_isPrefix matched
        rw [List.drop_eq_nil_of_le atEnd] at isPrefix
        exact absurd (List.prefix_nil.1 isPrefix) nonempty
    rw [nothing _ (by omega), nothing _ (by omega)]

theorem results_matchPattern (placed : 0 ≤ c.pos) (p : Pattern) (consume : Bool) :
    c.Results (.matchPattern p consume) (c.matchPattern p consume).1.isSome (c.matchPattern p consume).2 := by
  simp only [matchPattern, matchAt_min]
  cases matched : p.matchAt c.text c.pos.toNat with
  | none =>
    cases consume with
    | false => exact .looks rfl
    | true =>
      refine .fails rfl (fun taken takes => ?_) id
      cases takes with
      | pattern matched' => cases matched.symm.trans matched'
  | some found =>
    cases consume with
    | false => exact .looks rfl
    | true =>
      -- the position is inside, for something stands there
      obtain ⟨isPrefix, nonempty⟩ := Pattern.matchAt_isPrefix matched
      have some := List.length_pos_iff.2 nonempty
      have bound := isPrefix.length_le
      rw [List.length_drop] at bound
      have place : ((min c.pos.toNat c.text.length + found.whole.length : Nat) : Int) =
          c.pos + found.whole.length := by omega
      have passed := Results.takes (c := c) (.pattern matched)
      rwa [advance, ← place] at passed

/-- An operation that is used as it is meant has an outcome, wherever the position is, at the end or beyond it. -/
theorem exists_results (placed : 0 ≤ c.pos) (fits : op.Fits c) :
    ∃ found after, op.perform c = some (found, after) ∧ c.Results op found after := by
  cases op with
  | peek => exact ⟨_, _, rfl, .looks rfl⟩
  | next => exact ⟨_, _, rfl, results_next⟩
  | eat m => exact ⟨_, _, rfl, results_eat fits⟩
  | eatWhile m => exact ⟨_, _, rfl, results_eatWhile fits⟩
  | eatGaps => exact exists_results_eatGaps placed
  | skipPair opener closer => exact exists_results_skipPair placed opener closer
  | matchText t consume foldCase => exact ⟨_, _, rfl, results_matchText placed t consume foldCase⟩
  | matchPattern p consume => exact ⟨_, _, rfl, results_matchPattern placed p consume⟩
  | mark => exact ⟨_, _, rfl, .marks⟩
  | backUp n => exact ⟨_, _, rfl, .backsUp⟩

/-! ## Many operations -/

/-- Where the cursor is after an operation: the text is the same, and the position is not negative. -/
theorem Results.placed (results : c.Results op found after) (placed : 0 ≤ c.pos) (fits : op.Fits c) :
    after.text = c.text ∧ 0 ≤ after.pos := by
  cases results with
  | takes | overruns => exact ⟨rfl, by rw [advance_pos]; omega⟩
  | fails | looks => exact ⟨rfl, placed⟩
  | marks => exact ⟨rfl, placed⟩
  | backsUp =>
    obtain ⟨-, le⟩ := fits
    exact ⟨rfl, Int.sub_nonneg_of_le le⟩

/-- An operation that does not overrun the end does not leave the text, and beyond the end it moves no further. -/
theorem Results.pos_le {bound : Int} (results : c.Results op found after) (placed : 0 ≤ c.pos) (fits : op.Fits c)
    (within : ¬ op.Overruns c) (le : c.pos ≤ bound) (end_le : c.text.length ≤ bound) : after.pos ≤ bound := by
  cases results with
  | takes takes =>
    obtain ⟨isPrefix, nonempty⟩ := takes.isPrefix placed fits
    have some := List.length_pos_iff.2 nonempty
    have length_le := isPrefix.length_le
    rw [length_upcoming placed] at length_le
    rw [advance_pos]
    omega
  | overruns overruns => exact absurd overruns within
  | fails | looks => exact le
  | marks => exact le
  | backsUp =>
    obtain ⟨positive, -⟩ := fits
    exact Int.le_trans (Int.sub_le_self _ positive) le

/-- An operation that overruns the end leaves the text, by no more than there are dotted capital I's. -/
theorem Results.pos_of_overruns (results : c.Results op found after) (placed : 0 ≤ c.pos) (fits : op.Fits c)
    (overruns : op.Overruns c) :
    found = true ∧ c.text.length < after.pos ∧ after.pos ≤ c.text.length + c.text.count '\u0130' := by
  cases results with
  | takes takes =>
    -- no characters are taken that are not there
    cases takes with
    | folded ahead length_eq =>
      have short := overruns.1
      rw [ahead, List.length_append] at short
      omega
    | _ => exact overruns.elim
  | fails _ _ within => exact absurd overruns within
  | looks looks =>
    cases op with
    | matchText t consume foldCase => cases consume <;> cases foldCase <;> trivial
    | _ => exact overruns.elim
  | marks | backsUp => exact overruns.elim
  | @overruns t =>
    -- something is left, for the lower-case form of the text is not empty
    have short := overruns.1
    have long := length_le_of_overruns overruns
    have count := (List.drop_sublist c.pos.toNat c.text).count_le '\u0130'
    have left := length_upcoming placed
    have inside : c.upcoming ≠ [] := by
      intro nothing
      rw [nothing] at long
      exact fits (List.length_eq_zero_iff.1 (Nat.le_zero.1 long))
    have some := List.length_pos_iff.2 inside
    rw [← upcoming_eq placed] at count
    rw [advance_pos]
    exact ⟨rfl, by omega, by omega⟩

/-- The cursors to which allowed operations lead from a cursor. -/
inductive Visits (Allowed : Cursor → Operation → Prop) (c : Cursor) : Cursor → Prop
  | here : Visits Allowed c c
  | step {before after : Cursor} {op found} (earlier : Visits Allowed c before) (allowed : Allowed before op)
    (performed : op.perform before = some (found, after)) : Visits Allowed c after

/-- What is taken is passed over. -/
theorem Results.exists_takes (results : c.Results op found after) (consumes : op.consumes = true)
    (succeeded : found = true) (within : ¬ op.Overruns c) :
    ∃ taken, c.Takes op taken ∧ after = c.advance taken.length := by
  cases results with
  | takes takes => exact ⟨_, takes, rfl⟩
  | fails => cases succeeded
  | overruns overruns => exact absurd overruns within
  | looks looks =>
    cases op with
    | matchText t consume foldCase => cases consume <;> trivial
    | matchPattern p consume => cases consume <;> trivial
    | _ => trivial
  | marks | backsUp => cases consumes

/-- Operations keep the text and lead to no negative position. -/
theorem Visits.placed {t : Text} (visits : Visits Operation.Fits (ofText t) c) :
    c.text = t ∧ 0 ≤ c.pos ∧ c.pos ≤ t.length + t.count '\u0130' := by
  induction visits with
  | here => exact ⟨rfl, Int.le_refl 0, by show (0 : Int) ≤ _; omega⟩
  | @step before after op found _ fits performed ih =>
    obtain ⟨rfl, placed, bounded⟩ := ih
    obtain ⟨_, _, performed', results⟩ := exists_results placed fits
    cases performed.symm.trans performed'
    obtain ⟨same, stays⟩ := results.placed placed fits
    refine ⟨same, stays, ?_⟩
    by_cases overruns : op.Overruns before
    · exact (results.pos_of_overruns placed fits overruns).2.2
    · exact results.pos_le placed fits overruns bounded (by omega)

/-- Operations that do not overrun the end lead to no position beyond it. -/
theorem Visits.pos_le {t : Text}
    (visits : Visits (fun c op => op.Fits c ∧ ¬ op.Overruns c) (ofText t) c) :
    c.text = t ∧ 0 ≤ c.pos ∧ c.pos ≤ t.length := by
  induction visits with
  | here => exact ⟨rfl, Int.le_refl 0, Int.natCast_nonneg t.length⟩
  | step _ allowed performed ih =>
    obtain ⟨rfl, placed, inside⟩ := ih
    obtain ⟨fits, within⟩ := allowed
    obtain ⟨_, _, performed', results⟩ := exists_results placed fits
    cases performed.symm.trans performed'
    obtain ⟨same, stays⟩ := results.placed placed fits
    exact ⟨same, stays, results.pos_le placed fits within inside (Int.le_refl _)⟩

/-- Wherever operations lead from the beginning of a text, the position is not negative, and it is beyond the end by no
more than there are dotted capital I's; it is not beyond the end at all if no operation overruns it. From there every
operation has an outcome. One that does not overrun the end stays inside, and if it takes characters, then the position
is moved exactly past them; one that does leaves the text. -/
theorem visits_bounds {t : Text} (visits : Visits Operation.Fits (ofText t) c) :
    c.text = t ∧ 0 ≤ c.pos ∧ c.pos ≤ t.length + t.count '\u0130' ∧
      (Visits (fun c op => op.Fits c ∧ ¬ op.Overruns c) (ofText t) c → c.pos ≤ t.length) ∧
      ∀ op, op.Fits c → ∃ found after, op.perform c = some (found, after) ∧ c.Results op found after ∧
        (¬ op.Overruns c → (c.pos ≤ t.length → after.pos ≤ t.length) ∧
          (op.consumes = true → found = true →
            ∃ taken, c.Takes op taken ∧ taken <+: t.drop c.pos.toNat ∧ after = c.advance taken.length)) ∧
        (op.Overruns c → found = true ∧ t.length < after.pos) := by
  obtain ⟨rfl, placed, bounded⟩ := visits.placed
  refine ⟨rfl, placed, bounded, fun inside => inside.pos_le.2.2, fun op fits => ?_⟩
  obtain ⟨found, after, performed, results⟩ := exists_results placed fits
  refine ⟨found, after, performed, results, fun within => ⟨fun inside => ?_, fun consumes succeeded => ?_⟩,
    fun overruns => ?_⟩
  · exact results.pos_le placed fits within inside (Int.le_refl _)
  · obtain ⟨taken, takes, moved⟩ := results.exists_takes consumes succeeded within
    obtain ⟨isPrefix, -⟩ := takes.isPrefix placed fits
    exact ⟨taken, takes, upcoming_eq placed ▸ isPrefix, moved⟩
  · obtain ⟨succeeded, beyond, -⟩ := results.pos_of_overruns placed fits overruns
    exact ⟨succeeded, beyond⟩

/-- A dotted capital I matches its lower-case form, and the position comes to stand one beyond the end. -/
theorem visits_bounds_dotted :
    ∃ c, Visits Operation.Fits (ofText ['\u0130']) c ∧ c.pos = 2 ∧
      c.pos ≤ ['\u0130'].length + ['\u0130'].count '\u0130' ∧
      ¬ Visits (fun c op => op.Fits c ∧ ¬ op.Overruns c) (ofText ['\u0130']) c := by
  have performed : (Operation.matchText ['i', '\u0307'] true true).perform (ofText ['\u0130']) =
      some (true, ⟨['\u0130'], 2, 0⟩) := by decide +kernel
  have fits : (Operation.matchText ['i', '\u0307'] true true).Fits (ofText ['\u0130']) := List.cons_ne_nil _ _
  have visits : Visits Operation.Fits (ofText ['\u0130']) ⟨['\u0130'], 2, 0⟩ := .step .here fits performed
  obtain ⟨-, -, bounded, inside, -⟩ := visits_bounds visits
  refine ⟨_, visits, rfl, bounded, fun within => ?_⟩
  exact absurd (inside within) (by decide)

end Cursor

end Shorthand
