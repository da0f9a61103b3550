import Shorthand.Proofs.Reading.Compose
import Shorthand.Proofs.Token.Loop
import Shorthand.Proofs.Token.Spans
import Shorthand.Reading.Spine

/-! # The loops that scan a level

A level is scanned by a loop that reads one item in each iteration. To read a token it runs another loop, whose test of
the next character moves the cursor itself: over a span and back onto its last character, or past a plus sign and back
in front of it. Both loops advance all the same. What is read of a level is what its loop makes of it, as long as there
are steps enough; and since an iteration takes one step and at least one character, there are enough for a text that is
shorter than their limit.

* **`tokenLoop`** — the characters and spans of a token.
* **`levelLoop`** — the items of a level.
* `tokenRun_eq_run`, `readFrom_eq_run` — a token and a level are what the loops compute.
* `readItems_ne_tooManySteps` — a short level does not take too many steps.
* `scanLoops_progress` — all loops make progress, and short texts are scanned within the limit. -/

namespace Shorthand

variable {c : Cursor} {groups steps size : Nat}

/-! ## Tokens -/

/-- Moving back and on again leads to the same place. -/
theorem Cursor.advance_backUp (c : Cursor) : (c.backUp 1).advance 1 = c := by
  obtain ⟨text, pos, start⟩ := c
  simp [Cursor.backUp, Cursor.advance]

/-- Moving on and back again leads to the same place. -/
theorem Cursor.backUp_advance (c : Cursor) : (c.advance 1).backUp 1 = c := by
  obtain ⟨text, pos, start⟩ := c
  simp [Cursor.backUp, Cursor.advance]

/-- An iteration of taking a token. The test of the next character moves past a span and back onto its last character,
which is then taken; and past a plus sign, to look at what follows it, and back again. -/
def tokenStep (c : Cursor) : Iteration AbbreviationFault Cursor Unit :=
  match c.peek with
  | [] => .stops c
  | x :: _ =>
    if x = '[' || x = '\x7b' then
      let d := if x = '[' then Delimiter.square else .curly
      match c.skipPair? [d.opener] [d.closer] with
      | some (true, beyond) => .goesOn () ((beyond.backUp 1).advance 1)
      | _ => .raises (.unclosed d c.pos.toNat)
    else if x = '+' then
      let beyond := c.next.2
      if beyond.atEnd || endsName beyond.peek then .goesOn () ((beyond.backUp 1).advance 1)
      else .stops (beyond.backUp 1)
    else if x ≠ '(' && isTokenChar x then .goesOn () (c.advance 1)
    else .stops c

/-- Whether a plus sign belongs to the name is seen from what follows it. -/
theorem endsName_peek (placed : 0 ≤ c.pos) : (c.atEnd || endsName c.peek) = endsName c.upcoming := by
  cases ahead : c.upcoming with
  | nil =>
    rw [Cursor.peek_eq_nil ahead]
    exact Bool.or_true _
  | cons x rest =>
    rw [Cursor.atEnd_eq placed, Cursor.peek_eq ahead, ahead]
    rfl

/-- A span without an end ends the token. -/
theorem tokenRun_of_unclosed {x : Char} {rest : Text} (bracket : (x = '[' || x = '\x7b') = true)
    (unclosed : (if x = '[' then Delimiter.square else .curly).span? (x :: rest) = none) :
    tokenRun size (x :: rest) =
      .error (.unclosed (if x = '[' then .square else .curly) (size - (rest.length + 1))) := by
  rw [tokenRun, if_pos bracket]
  dsimp only
  split
  · next found => cases unclosed.symm.trans found
  · rfl

/-- A token is taken as the iterations do it. -/
theorem tokenStep_computes (ordered : c.IsOrdered) :
    (tokenStep c).Computes ((tokenRun c.text.length c.upcoming).map fun run => c.advance run.1.length)
      (fun c => (tokenRun c.text.length c.upcoming).map fun run => c.advance run.1.length)
      .error .ok (fun _ rest => rest) c := by
  cases ahead : c.upcoming with
  | nil =>
    rw [tokenStep, Cursor.peek_eq_nil ahead, tokenRun_nil]
    exact congrArg Except.ok c.advance_zero
  | cons x rest =>
    have goesOn {passed after : Text} (taken : c.upcoming = passed ++ after) (some : passed ≠ [])
        (later : tokenRun c.text.length (x :: rest) =
          (tokenRun c.text.length after).map fun run => (passed ++ run.1, run.2)) :
        (Iteration.goesOn () (c.advance passed.length)).Computes
          ((tokenRun c.text.length (x :: rest)).map fun run => c.advance run.1.length)
          (fun c => (tokenRun c.text.length c.upcoming).map fun run => c.advance run.1.length)
          Except.error .ok (fun _ rest => rest) c := by
      refine ⟨ordered.advances_of_ahead taken some, ?_⟩
      dsimp only
      rw [Cursor.upcoming_advance_length ordered.placed taken, later, Cursor.advance_text]
      cases tokenRun c.text.length after with
      | error fault => rfl
      | ok run => simp [Except.map]
    have left : (c.advance 1).upcoming = rest := Cursor.upcoming_advance_one ordered.placed ahead
    rw [tokenStep, Cursor.peek_eq ahead, Cursor.next_eq ahead]
    dsimp only
    by_cases opens : (x = '[' || x = '\x7b') = true
    · -- the span is taken as a whole
      rw [if_pos opens]
      cases found : (if x = '[' then Delimiter.square else .curly).span? (x :: rest) with
      | none =>
        have place : c.text.length - (rest.length + 1) = c.pos.toNat := ordered.size_sub_length ahead
        rw [Cursor.skipPair?_of_none ordered.placed (ahead ▸ found), tokenRun_of_unclosed opens found, place]
        rfl
      | some parts =>
        obtain ⟨span, after⟩ := parts
        rw [Cursor.skipPair?_of_span ordered.placed (ahead ▸ found)]
        dsimp only
        rw [Cursor.advance_backUp]
        have taken : c.upcoming = span ++ after := ahead.trans (Delimiter.span?_append found).symm
        exact goesOn taken (pairSpan?_ne_nil found) (tokenRun_span opens found)
    · rw [if_neg opens]
      have accepts (accepted : ((x == '+' && endsName rest) || isTokenChar x) = true) :
          tokenRun c.text.length (x :: rest) = (tokenRun c.text.length rest).map fun run => ([x] ++ run.1, run.2) := by
        rw [tokenRun, if_neg opens, if_pos accepted]
        rfl
      have stops (refused : ((x == '+' && endsName rest) || isTokenChar x) = false) :
          (tokenRun c.text.length (x :: rest)).map (fun run => c.advance run.1.length) = .ok c := by
        rw [tokenRun, if_neg opens, if_neg (ne_true_of_eq_false refused)]
        exact congrArg Except.ok c.advance_zero
      by_cases plus : x = '+'
      · -- what follows a plus sign is looked at
        have placed : 0 ≤ (c.advance 1).pos := (ordered.advances_of_ahead ahead (List.cons_ne_nil x [])).ordered.placed
        have noToken : isTokenChar x = false := by
          rw [plus]
          decide
        rw [if_pos plus, endsName_peek placed, left]
        by_cases ends : endsName rest = true
        · rw [if_pos ends, Cursor.advance_backUp]
          exact goesOn ahead (List.cons_ne_nil x []) (accepts (by rw [plus, ends]; rfl))
        · rw [if_neg ends, Cursor.backUp_advance]
          exact stops (by rw [noToken, Bool.eq_false_of_not_eq_true ends, Bool.and_false, Bool.or_false])
      · rw [if_neg plus]
        have other : (x == '+') = false := beq_eq_false_iff_ne.2 plus
        by_cases isToken : isTokenChar x = true
        · have noGroup : x ≠ '(' := by
            rintro rfl
            cases isToken
          rw [if_pos (by rw [isToken, Bool.and_true]; exact decide_eq_true noGroup)]
          exact goesOn ahead (List.cons_ne_nil x []) (accepts (by rw [isToken, Bool.or_true]))
        · have noToken := Bool.eq_false_of_not_eq_true isToken
          rw [if_neg (by rw [noToken, Bool.and_false]; exact Bool.false_ne_true)]
          exact stops (by rw [other, noToken]; rfl)

/-- The loop that takes a token. -/
def tokenLoop : Loop AbbreviationFault Cursor Unit where
  step c _ := tokenStep c
  advances {_ ordered _ _} goesOn := (goesOn ▸ tokenStep_computes ordered).1

/-- A token is taken as the loop does it. -/
theorem tokenRun_eq_run (c : Cursor) (ordered : c.IsOrdered) :
    (tokenRun c.text.length c.upcoming).map (fun run => c.advance run.1.length) = (tokenLoop.run c ordered).ending :=
  tokenLoop.eq_ending (F := fun c => (tokenRun c.text.length c.upcoming).map fun run => c.advance run.1.length)
    (fun _ ordered => tokenStep_computes ordered) c ordered

/-! ## Levels -/

/-- Take the multiplier after a group, if there is one. -/
def Cursor.takeMultiplier (c : Cursor) : Except IntegerFault (Multiplier × Cursor) :=
  match c.matchPattern .groupMultiplier true with
  | (none, last) => .ok (.absent, last)
  | (some found, last) =>
    (Multiplier.ofDigits (found.parts.head?.join.getD [])).map fun multiplier => (multiplier, last)

/-- An iteration that reads a group, in which `groups` levels of groups may be opened, and the multiplier after it. -/
def groupStep (groups : Nat) (c : Cursor) : Iteration (List Item × Fault) Unit Item :=
  match c.mark.skipPair? [Delimiter.round.opener] [Delimiter.round.closer] with
  | some (true, closed) =>
    match groups with
    | 0 => .raises ([], AbbreviationFault.groupsTooDeep)
    | groups + 1 =>
      let reading := readLevel groups closed.current.interior
      match reading.fault with
      | some fault => .raises ([.group reading.items .absent], fault)
      | none =>
        match closed.takeMultiplier with
        | .error fault => .raises ([.group reading.items .absent], fault)
        | .ok (multiplier, last) => .goesOn (.group reading.items multiplier) last
  | _ => .raises ([], AbbreviationFault.unclosed .round c.pos.toNat)

/-- An iteration that reads a token, which begins with the character `x` if there is one. -/
def wordStep (x : Char) (c : Cursor) (ordered : c.IsOrdered) : Iteration (List Item × Fault) Unit Item :=
  match (tokenLoop.run c.mark ordered.mark).ending with
  | .error fault => .raises ([], fault)
  | .ok last =>
    if last.pos ≤ c.pos then .raises ([], AbbreviationFault.strayChar x c.pos.toNat)
    else
      match Token.read last.current with
      | (said, some fault) => .raises ([.token last.current last.start.toNat said], fault)
      | (said, none) => .goesOn (.token last.current last.start.toNat said) last.mark

/-- An iteration of scanning a level: an operator, a group or a token is read. If none of them begins there, then the
scan has failed. -/
def levelStep (groups : Nat) (c : Cursor) (ordered : c.IsOrdered) : Iteration (List Item × Fault) Unit Item :=
  match c.peek with
  | [] => .stops ()
  | x :: _ =>
    if x = '(' then groupStep groups c
    else if x = '>' then .goesOn .descend c.next.2
    else if x = '+' then .goesOn .sibling c.next.2
    else if x = '^' then .goesOn .climb c.next.2
    else wordStep x c ordered

/-- The digits that a match tells are those behind the star. -/
theorem getD_digits (digits : Text) :
    ([if digits = [] then none else some digits].head?.join.getD [] : Text) = digits := by
  by_cases none : digits = []
  · rw [if_pos none, none]
    rfl
  · rw [if_neg none]
    rfl

/-- A multiplier is taken as it is read, and the cursor is moved behind it. -/
theorem Cursor.takeMultiplier_eq (ordered : c.IsOrdered) :
    (∃ fault, Multiplier.read c.upcoming = .error fault ∧ c.takeMultiplier = .error fault) ∨
      ∃ multiplier passed after, c.upcoming = passed ++ after ∧ Multiplier.read c.upcoming = .ok (multiplier, after) ∧
        c.takeMultiplier = .ok (multiplier, c.advance passed.length) := by
  have placed := ordered.placed
  have place : min c.pos.toNat c.text.length = c.pos.toNat := by
    have inside := ordered.pos_le
    omega
  have matched :
      Pattern.matchAt .groupMultiplier c.text c.pos.toNat = Pattern.matchStar (fun _ => true) c.upcoming := by
    rw [Pattern.matchAt, ← upcoming_eq placed]
  rw [takeMultiplier, matchPattern, place, matched]
  by_cases star : ∃ rest, c.upcoming = '*' :: rest
  · obtain ⟨rest, ahead⟩ := star
    have moved : c.seek (c.pos.toNat + ('*' :: rest.takeWhile Text.isDigit).length : Nat) =
        c.advance ('*' :: rest.takeWhile Text.isDigit).length := by
      rw [seek, advance, Int.natCast_add, Int.toNat_of_nonneg placed]
    rw [ahead, Pattern.matchStar, if_pos rfl, Multiplier.read]
    dsimp only
    rw [if_pos rfl, getD_digits, moved]
    cases Multiplier.ofDigits (rest.takeWhile Text.isDigit) with
    | error fault => exact .inl ⟨fault, rfl, rfl⟩
    | ok multiplier =>
      refine .inr ⟨multiplier, '*' :: rest.takeWhile Text.isDigit, rest.dropWhile Text.isDigit, ?_, rfl, rfl⟩
      rw [List.cons_append, List.takeWhile_append_dropWhile]
  · have noMatch : Pattern.matchStar (fun _ => true) c.upcoming = none := by
      unfold Pattern.matchStar
      split
      · next rest ahead => exact absurd ⟨rest, ahead⟩ star
      · rfl
    have absent : Multiplier.read c.upcoming = .ok (.absent, c.upcoming) := by
      unfold Multiplier.read
      split
      · next rest ahead => exact absurd ⟨rest, ahead⟩ star
      · rfl
    rw [noMatch]
    exact .inr ⟨.absent, [], c.upcoming, rfl, absent, by rw [List.length_nil, advance_zero]⟩

/-- The reading that a fault ends after some items. -/
def Reading.ended (found : List Item × Fault) : Reading := ⟨found.1, some found.2⟩

/-- What the rest of a level is read as where so many steps are left. -/
def readFrom (groups steps : Nat) (c : Cursor) : Reading := readItems groups steps c.text.length c.upcoming

/-- What a level is read as is what an iteration amounts to. -/
def Iteration.Reads (groups steps : Nat) (c : Cursor) (iteration : Iteration (List Item × Fault) Unit Item) : Prop :=
  iteration.Computes (readFrom groups (steps + 1) c) (readFrom groups steps) Reading.ended (fun _ => .done)
    (fun item rest => rest.after item) c

/-- A group is read as its iteration does it. -/
theorem groupStep_reads (groups steps : Nat) (ordered : c.IsOrdered) {rest : Text} (ahead : c.upcoming = '(' :: rest) :
    (groupStep groups c).Reads groups steps c := by
  have place : c.text.length - ('(' :: rest).length = c.pos.toNat := ordered.size_sub_length ahead
  have reads := readItems.eq_def groups (steps + 1) c.text.length ('(' :: rest)
  dsimp only at reads
  rw [if_pos rfl, place] at reads
  rw [Iteration.Reads, readFrom, ahead, reads, groupStep]
  cases found : Delimiter.round.span? ('(' :: rest) with
  | none =>
    have unclosed : Delimiter.round.span? c.mark.upcoming = none := ahead ▸ found
    rw [Cursor.skipPair?_of_none ordered.mark.placed unclosed]
    rfl
  | some parts =>
    obtain ⟨span, after⟩ := parts
    have closed : Delimiter.round.span? c.mark.upcoming = some (span, after) := ahead ▸ found
    have passed : c.upcoming = span ++ after := (Delimiter.span?_append closed).symm
    have behind := ordered.mark.advances_of_ahead passed (pairSpan?_ne_nil found)
    have left : (c.mark.advance span.length).upcoming = after := Cursor.upcoming_advance_length ordered.placed passed
    rw [Cursor.skipPair?_of_span ordered.mark.placed closed]
    cases groups with
    | zero => rfl
    | succ groups =>
      dsimp only
      rw [Cursor.current_advance_length ordered.placed passed]
      have same : readItems groups (stepLimit - 1) span.interior.trim.length span.interior.trim =
          readLevel groups span.interior := rfl
      rw [same]
      generalize readLevel groups span.interior = reading
      obtain ⟨items, fault⟩ := reading
      cases fault with
      | some fault => rfl
      | none =>
        dsimp only
        rcases Cursor.takeMultiplier_eq behind.ordered with
          ⟨fault, read, taken⟩ | ⟨multiplier, star, rest, more, read, taken⟩
        · rw [left] at read
          rw [read, taken]
          rfl
        · have enough : star.length ≤ (c.mark.advance span.length).upcoming.length := by
            rw [more, List.length_append]
            exact Nat.le_add_right ..
          have last : ((c.mark.advance span.length).advance star.length).upcoming = rest :=
            Cursor.upcoming_advance_length behind.ordered.placed more
          rw [left] at read
          rw [read, taken]
          refine ⟨behind.of_mark.advance enough, ?_⟩
          dsimp only
          rw [readFrom, last]
          rfl

/-- A token is read as its iteration does it. -/
theorem wordStep_reads (groups steps : Nat) (ordered : c.IsOrdered) {x : Char} {rest : Text}
    (ahead : c.upcoming = x :: rest) (begins : IsPlainStart x) : (wordStep x c ordered).Reads groups steps c := by
  obtain ⟨notGroup, notDescend, notSibling, notClimb⟩ := begins
  have place : c.text.length - (x :: rest).length = c.pos.toNat := ordered.size_sub_length ahead
  have taken : (tokenLoop.run c.mark ordered.mark).ending =
      (tokenRun c.text.length c.upcoming).map fun run => c.mark.advance run.1.length :=
    (tokenRun_eq_run c.mark ordered.mark).symm
  have reads := readItems.eq_def groups (steps + 1) c.text.length (x :: rest)
  dsimp only at reads
  rw [if_neg notGroup, if_neg notDescend, if_neg notSibling, if_neg notClimb, place] at reads
  rw [Iteration.Reads, readFrom, wordStep, taken, ahead, reads]
  cases run : tokenRun c.text.length (x :: rest) with
  | error fault => rfl
  | ok parts =>
    obtain ⟨source, after⟩ := parts
    have passed : c.upcoming = source ++ after := ahead.trans (tokenRun_append run).symm
    cases source with
    | nil =>
      -- no character is taken
      have stays : (c.mark.advance 0).pos ≤ c.pos := by
        rw [Cursor.advance_zero]
        exact Int.le_refl _
      dsimp only [Except.map, List.length_nil]
      rw [if_pos stays]
      rfl
    | cons y source =>
      have behind := ordered.mark.advances_of_ahead passed (List.cons_ne_nil y source)
      have left : (c.mark.advance (y :: source).length).mark.upcoming = after :=
        Cursor.upcoming_advance_length ordered.mark.placed passed
      have further : ¬ (c.mark.advance (y :: source).length).pos ≤ c.pos := Int.not_le.2 behind.pos_lt
      dsimp only [Except.map]
      rw [if_neg further, Cursor.current_advance_length ordered.placed passed]
      generalize Token.read (y :: source) = read
      obtain ⟨said, fault⟩ := read
      cases fault with
      | some fault => rfl
      | none =>
        refine ⟨behind.of_mark.mark, ?_⟩
        dsimp only
        rw [readFrom, left]
        rfl

/-- A level is read as the iterations do it. -/
theorem levelStep_reads (groups steps : Nat) (ordered : c.IsOrdered) :
    (levelStep groups c ordered).Reads groups steps c := by
  cases ahead : c.upcoming with
  | nil =>
    rw [levelStep, Cursor.peek_eq_nil ahead]
    show readItems groups (steps + 1) c.text.length c.upcoming = .done
    rw [ahead, readItems_nil]
  | cons x rest =>
    have operator {item : Item} (later : readItems groups (steps + 1) c.text.length (x :: rest) =
        (readItems groups steps c.text.length rest).after item) :
        (Iteration.goesOn item c.next.2).Reads groups steps c := by
      rw [Cursor.next_eq ahead, Iteration.Reads, readFrom, ahead, later]
      refine ⟨ordered.advances_of_ahead ahead (List.cons_ne_nil x []), ?_⟩
      rw [readFrom, Cursor.upcoming_advance_one ordered.placed ahead]
      rfl
    rw [levelStep, Cursor.peek_eq ahead]
    dsimp only
    by_cases group : x = '('
    · rw [if_pos group]
      subst group
      exact groupStep_reads groups steps ordered ahead
    rw [if_neg group]
    by_cases descend : x = '>'
    · rw [if_pos descend]
      subst descend
      exact operator readItems_descend
    rw [if_neg descend]
    by_cases sibling : x = '+'
    · rw [if_pos sibling]
      subst sibling
      exact operator readItems_sibling
    rw [if_neg sibling]
    by_cases climb : x = '^'
    · rw [if_pos climb]
      subst climb
      exact operator readItems_climb
    rw [if_neg climb]
    exact wordStep_reads groups steps ordered ahead ⟨group, descend, sibling, climb⟩

/-- The loop that scans a level in which `groups` levels of groups may be opened. -/
def levelLoop (groups : Nat) : Loop (List Item × Fault) Unit Item where
  step := levelStep groups
  advances {_ ordered _ _} goesOn := (goesOn ▸ levelStep_reads groups 0 ordered).1

/-- What a level is read as is what the loop makes of it, as long as there are steps enough. -/
theorem readFrom_eq_run (groups : Nat) {steps : Nat} (c : Cursor) (ordered : c.IsOrdered)
    (enough : c.upcoming.length ≤ steps) :
    readFrom groups steps c =
      ((levelLoop groups).run c ordered).fold Reading.ended (fun _ => .done) fun item rest => rest.after item := by
  refine (levelLoop groups).eq_fold_of_le (fun steps c ordered enough => ?_) steps c ordered enough
  cases steps with
  | zero =>
    -- nothing is ahead
    have nothing : c.upcoming = [] := List.eq_nil_of_length_eq_zero (Nat.le_zero.1 enough)
    show (levelStep groups c ordered).Computes ..
    rw [levelStep, Cursor.peek_eq_nil nothing]
    show readItems groups 0 c.text.length c.upcoming = .done
    rw [nothing, readItems_nil]
  | succ steps => exact levelStep_reads groups steps ordered

/-- An iteration that is to read a group does not stop the scan. -/
theorem groupStep_ne_stops : groupStep groups c ≠ .stops () := by
  intro stops
  unfold groupStep at stops
  split at stops
  · split at stops
    · cases stops
    · dsimp only at stops
      split at stops
      · cases stops
      · split at stops <;> cases stops
  · cases stops

/-- Neither does one that is to read a token. -/
theorem wordStep_ne_stops {x : Char} {ordered : c.IsOrdered} : wordStep x c ordered ≠ .stops () := by
  intro stops
  unfold wordStep at stops
  split at stops
  · cases stops
  · split at stops
    · cases stops
    · split at stops <;> cases stops

/-- An iteration that begins before the end of the level reads an item or raises a fault. -/
theorem levelStep_eq_stops_iff (ordered : c.IsOrdered) : levelStep groups c ordered = .stops () ↔ c.atEnd = true := by
  rw [Cursor.atEnd_eq ordered.placed, List.isEmpty_iff]
  cases ahead : c.upcoming with
  | nil =>
    rw [levelStep, Cursor.peek_eq_nil ahead]
    exact iff_of_true rfl rfl
  | cons x rest =>
    refine iff_of_false (fun stops => ?_) (List.cons_ne_nil x rest)
    rw [levelStep, Cursor.peek_eq ahead] at stops
    dsimp only at stops
    split at stops
    · exact groupStep_ne_stops stops
    split at stops
    · cases stops
    split at stops
    · cases stops
    split at stops
    · cases stops
    · exact wordStep_ne_stops stops

/-! ## The limit of the steps -/

/-- A token that cannot be taken has a span without an end. -/
theorem exists_unclosed_of_tokenRun {t : Text} {fault : AbbreviationFault} (refused : tokenRun size t = .error fault) :
    ∃ d position, fault = .unclosed d position := by
  fun_induction tokenRun size t with
  | case1 => cases refused
  | case2 _ _ _ _ _ _ ih | case4 _ _ _ _ ih => exact ih (eq_error_of_map refused)
  | case3 =>
    cases refused
    exact ⟨_, _, rfl⟩
  | case5 => cases refused

/-- A level with no more characters than there are steps left, and with fewer than the limit, is not refused for its
steps: the limit counts anew inside of a group. -/
theorem readItems_ne_tooManySteps {t : Text} {position : Nat} (enough : t.length ≤ steps)
    (short : t.length < stepLimit) :
    (readItems groups steps size t).fault ≠ some (.abbreviation (.tooManySteps position)) := by
  fun_induction readItems groups steps size t with
  | case2 => exact absurd enough (Nat.not_succ_le_zero _)
  | case5 size rest steps span after groups inside reading fault ended found ih =>
    -- the inside of a group is shorter than the level
    have part := (Text.trim_isInfix span.interior).trans (Delimiter.interior_isInfix found)
    have within : inside.length < stepLimit := Nat.lt_of_le_of_lt part.length_le short
    exact ended ▸ ih (Nat.le_pred_of_lt within) within
  | case7 size rest steps span after groups inside reading ended multiplier next cut found _ ih =>
    have shorter : next.length < ('(' :: rest).length :=
      Nat.lt_of_le_of_lt (Multiplier.read_length_le cut) (Delimiter.span?_length_lt found)
    exact ih (Nat.le_of_lt_succ (Nat.lt_of_lt_of_le shorter enough)) (Nat.lt_trans shorter short)
  | case8 groups size rest steps _ ih | case9 groups size rest steps _ _ ih
  | case10 groups size rest steps _ _ _ ih =>
    exact ih (Nat.le_of_succ_le_succ enough) (Nat.lt_of_succ_lt short)
  | case11 groups size c rest steps _ _ _ _ fault refused =>
    obtain ⟨d, position, rfl⟩ := exists_unclosed_of_tokenRun refused
    rintro ⟨⟩
  | case13 groups size c rest steps _ _ _ _ source after _ run token fault said =>
    rintro ⟨⟩
    cases Token.isRefusal_of_isScanned (tokenRun_isScanned run) said with
    | set isSetFault => cases isSetFault
  | case14 groups size c rest steps _ _ _ _ source after nonempty run token _ ih =>
    have shorter : after.length < (c :: rest).length := by
      have some := List.length_pos_iff.2 nonempty
      rw [← tokenRun_append run, List.length_append]
      omega
    exact ih (Nat.le_of_lt_succ (Nat.lt_of_lt_of_le shorter enough)) (Nat.lt_trans shorter short)
  | _ => rintro ⟨⟩

/-- Every loop of the scan makes progress: the one over a level, the one that takes a token, those that search a token
for its text and its markers, and those that read an attribute set and a quoted value. A level is scanned to its end
unless a fault is raised, and all that is read is what the loops compute. So there are steps enough for every text that
is shorter than their limit. -/
theorem scanLoops_progress :
    ((∀ groups, (levelLoop groups).Progresses) ∧ tokenLoop.Progresses ∧ Token.textLoop.Progresses ∧
      Token.markLoop.Progresses ∧ Attribute.loop.Progresses ∧ ∀ quote, (quotedLoop quote).Progresses) ∧
    (∀ groups c ordered, ((levelLoop groups).step c ordered = .stops () ↔ c.atEnd = true) ∧
      ∀ steps, ((levelLoop groups).step c ordered).Reads groups steps c) ∧
    (∀ groups level, level.trim.length < stepLimit → readLevel groups level =
      ((levelLoop groups).run (.ofText level.trim) (Cursor.isOrdered_ofText _)).fold Reading.ended (fun _ => .done)
        fun item rest => rest.after item) ∧
    (∀ c ordered, (tokenRun c.text.length c.upcoming).map (fun run => c.advance run.1.length) =
      (tokenLoop.run c ordered).ending) ∧
    (∀ t, Token.splitText t.length t = (Token.textLoop.run (.ofText t) (Cursor.isOrdered_ofText t)).ending) ∧
    (∀ t, Token.marks t.length t = (Token.markLoop.run (.ofText t) (Cursor.isOrdered_ofText t)).fold .error
      (fun _ => .ok []) fun found rest => rest.map (found ++ ·)) ∧
    (∀ inside, Attribute.readSet inside =
      (Attribute.loop.run (Cursor.ofText inside.trim).passGaps (Cursor.isOrdered_ofText _).passGaps).fold .error
        (fun _ => .ok []) fun a rest => rest.map (a :: ·)) ∧
    (∀ quote c ordered, .ok (c.skipQuoted [quote]) = ((quotedLoop quote).run c ordered).ending) ∧
    ∀ t position, t.length < stepLimit → parseRaw t ≠ .error (.abbreviation (.tooManySteps position)) := by
  refine ⟨⟨fun _ => Loop.progresses _, Loop.progresses _, Loop.progresses _, Loop.progresses _, Loop.progresses _,
    fun _ => Loop.progresses _⟩,
    fun groups c ordered => ⟨levelStep_eq_stops_iff ordered, fun steps => levelStep_reads groups steps ordered⟩,
    fun groups level short => ?_, tokenRun_eq_run, Token.splitText_eq_run, Token.marks_eq_run, Attribute.readSet_eq_run,
    Cursor.skipQuoted_eq_run, fun t position short => ?_⟩
  · exact readFrom_eq_run groups (.ofText level.trim) (Cursor.isOrdered_ofText _) (Nat.le_pred_of_lt short)
  · have trimmed : t.trim.length < stepLimit := Nat.lt_of_le_of_lt (Text.trim_isInfix t).length_le short
    have fault : (readAbbreviation t).fault ≠ some (.abbreviation (.tooManySteps position)) :=
      readItems_ne_tooManySteps (Nat.le_pred_of_lt trimmed) trimmed
    intro refused
    unfold parseRaw at refused
    dsimp only at refused
    split at refused
    · next other said =>
      cases refused
      exact fault said
    · cases refused

/-- A name with a plus sign at its end, an operator and a name with a set: the loop for the token takes the plus sign
after a look at the operator, and the level is scanned within the limit. -/
theorem scanLoops_progress_plus :
    tokenStep ⟨"u+>a[b]".toList, 1, 0⟩ = .goesOn () ⟨"u+>a[b]".toList, 2, 0⟩ ∧
      Cursor.Advances ⟨"u+>a[b]".toList, 1, 0⟩ ⟨"u+>a[b]".toList, 2, 0⟩ ∧
      (levelLoop 0).step ⟨"u+>a[b]".toList, 3, 2⟩ ⟨by decide, by decide, by decide⟩ ≠ .stops () ∧
      readLevel 0 "u+>a[b]".toList =
        ((levelLoop 0).run (.ofText (Text.trim "u+>a[b]".toList)) (Cursor.isOrdered_ofText _)).fold Reading.ended
          (fun _ => .done) (fun item rest => rest.after item) ∧
      ∀ position, parseRaw "u+>a[b]".toList ≠ .error (.abbreviation (.tooManySteps position)) := by
  obtain ⟨⟨-, token, -⟩, level, readings, -, -, -, -, -, limit⟩ := scanLoops_progress
  have takes : tokenStep ⟨"u+>a[b]".toList, 1, 0⟩ = .goesOn () ⟨"u+>a[b]".toList, 2, 0⟩ := by cbv
  have short : (Text.trim "u+>a[b]".toList).length < stepLimit :=
    Nat.lt_of_le_of_lt (Text.trim_isInfix _).length_le (by decide)
  refine ⟨takes, (token _ ⟨by decide, by decide, by decide⟩).1 () _ takes, fun stops => ?_, readings 0 _ short,
    fun position => limit _ position (by decide)⟩
  exact absurd ((level 0 _ _).1.1 stops) (by decide)

end Shorthand
