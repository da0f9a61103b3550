import Shorthand.Pipeline
import Shorthand.Proofs.PlainName
import Shorthand.Proofs.Reading.Frame
import Shorthand.Proofs.Reading.Nesting
import Shorthand.Proofs.Reading.SingleToken

/-! # Groups stand for their insides

Between parentheses an abbreviation means what it means alone. A group is read as an abbreviation of its own, and the
blank node that it is given to vanishes when the tree is squashed; if it is repeated, its copies are the copies of what
is inside.

* **`parseAnyHeight`** — the optimized tree of an abbreviation, however many levels it has.
* **`Text.IsGroupable`** — an abbreviation that may stand between parentheses.
* `parseAnyHeight_grouped` — a group means what its inside means, also if that is a fault.
* `groups_compose` — groups beside each other, below a name and repeated. -/

namespace Shorthand

/-! ## Optimizing lists of nodes -/

namespace Node

/-- The nodes of a list optimized: unrolled and then squashed. -/
def optimizeAll (nodes : List Node) : List Node := squashAll (unrollAll {} nodes)

@[simp] theorem optimizeAll_nil : optimizeAll [] = [] := by
  rw [optimizeAll, unrollAll_nil, squashAll_nil]

/-- A blank node vanishes and leaves what is below it. -/
theorem optimizeAll_blank_cons (kids rest : List Node) :
    optimizeAll (mk {} kids :: rest) = optimizeAll kids ++ optimizeAll rest := by
  have once : Content.copies {} {} = [({}, {})] := rfl
  have isGroup : Content.isGroup {} = true := rfl
  simp only [optimizeAll, unrollAll_cons, once, List.map_cons, List.map_nil, squashAll_append,
    squashAll_cons, isGroup, if_true, squashAll_nil, List.append_nil]

/-- A node that is neither repeated nor blank stays, with what is below it optimized. -/
theorem optimizeAll_single {c : Content} (single : c.isRepeating = false) (named : c.isGroup = false)
    (kids : List Node) : optimizeAll [mk c kids] = [mk c (optimizeAll kids)] := by
  have once : c.copies {} = [({}, c)] := by
    rw [Content.copies, if_neg (by rw [single]; exact Bool.false_ne_true), Content.marked_none]
  simp only [optimizeAll, unrollAll_cons, once, List.map_cons, List.map_nil, squashAll_cons, named,
    unrollAll_nil, squashAll_nil, List.append_nil]
  rfl

/-- A repeated node becomes its copies, each with its number. -/
theorem optimizeAll_copies {c : Content} (repeats : c.isRepeating = true) (kids : List Node) :
    optimizeAll [mk c kids] = c.copyNumbers.flatMap fun (k : Int) =>
      squashAll [mk (c.once.marked ⟨some k, 1 < k⟩) (unrollAll ⟨some k, 1 < k⟩ kids)] := by
  rw [optimizeAll, unrollAll_cons, unrollAll_nil, List.append_nil, Content.copies, if_pos repeats,
    List.map_map, squashAll_map]
  rfl

/-- The copies of a blank node leave what the copies of the one node below it are. -/
theorem optimizeAll_repeated {c : Content} (single : c.repeatCount = 1)
    (explicit : c.implicitRepeat = false) {count : Int} (positive : 1 ≤ count) :
    optimizeAll [mk { repeatCount := count } [mk c []]] =
      optimizeAll [mk { c with repeatCount := count } []] := by
  have same : { c with repeatCount := 1 } = c := by rw [← single]
  rcases Int.lt_or_eq_of_le positive with many | rfl
  · have below : ∀ mark, unrollAll mark [mk c []] = [mk (c.marked mark) []] := by
      intro mark
      have once : c.copies mark = [(mark, c.marked mark)] := by
        simp [Content.copies, Content.isRepeating, single, explicit]
      rw [unrollAll_cons, once, List.map_singleton, unrollAll_nil]
      rfl
    have blank : ∀ mark : CopyMark, (Content.marked mark {}).isGroup = true := by
      rintro ⟨_ | number, _ | _⟩ <;> rfl
    -- both have copies of the same numbers, and number by number they come to the same
    have copy : ∀ mark : CopyMark,
        squashAll [mk (Content.marked mark {}) (unrollAll mark [mk c []])] =
          squashAll [mk (Content.marked mark { c with repeatCount := 1 }) (unrollAll mark [])] := by
      intro mark
      rw [below, unrollAll_nil, same, squashAll_cons, blank, if_pos rfl, squashAll_nil,
        List.append_nil]
    rw [optimizeAll_copies (by simp [Content.isRepeating, many]),
      optimizeAll_copies (by simp [Content.isRepeating, many])]
    exact congrArg (List.flatMap · _) (funext fun k => copy ⟨some k, 1 < k⟩)
  · rw [same, optimizeAll_blank_cons, optimizeAll_nil, List.append_nil]

end Node

/-! ## Reading groups -/

/-- The optimized tree of an abbreviation, however many levels it has. -/
def parseAnyHeight (t : Text) : Except Fault Node := (parseRaw t).map optimize

/-- A parse gives the optimized tree, unless the tree has too many levels. -/
theorem parse_eq_parseAnyHeight {t : Text}
    (low : parse t ≠ .error (.abbreviation .treeTooDeep)) : parse t = parseAnyHeight t := by
  unfold parse at low ⊢
  unfold parseAnyHeight
  cases raw : parseRaw t with
  | error fault => rfl
  | ok root =>
    rw [raw] at low
    simp only [bind, Except.bind, optimizeWithin] at low ⊢
    by_cases within : root.height ≤ treeLimit
    · rw [if_pos within]
      rfl
    · rw [if_neg within] at low
      exact absurd rfl low

/-- A reading without a fault gives the optimized nodes of its items, and a fault is passed on. -/
theorem parseAnyHeight_eq (t : Text) :
    parseAnyHeight t = match (readAbbreviation t).fault with
      | some fault => .error fault
      | none => .ok (.mk {} (Node.optimizeAll (Item.build (readAbbreviation t).items))) := by
  unfold parseAnyHeight parseRaw
  cases ended : (readAbbreviation t).fault <;> simp only [ended] <;> rfl

/-- The tree of an accepted abbreviation has the optimized nodes of the items below a blank root. -/
theorem parseAnyHeight_eq_ok_iff {t : Text} {root : Node} :
    parseAnyHeight t = .ok root ↔ (readAbbreviation t).fault = none ∧
      root = .mk {} (Node.optimizeAll (Item.build (readAbbreviation t).items)) := by
  rw [parseAnyHeight_eq]
  cases (readAbbreviation t).fault with
  | none => simp [eq_comm]
  | some fault => simp

namespace Text

/-- The text may stand between parentheses: its own are balanced, and its groups leave room for one more around
them. -/
structure IsGroupable (t : Text) : Prop where
  /-- The parentheses are balanced. -/
  balanced : Delimiter.round.IsBalanced t
  /-- Fewer groups are nested in each other than may be. -/
  nested : Item.nestingAll (readAbbreviation t).items < groupLimit

variable {t : Text}

/-- The inside of a group is read as an abbreviation of its own. -/
theorem IsGroupable.readLevel_eq (groupable : IsGroupable t) :
    readLevel (groupLimit - 1) t = readAbbreviation t :=
  readItems_of_nestingAll_le _ _ _ _ _ (Nat.le_sub_one_of_lt groupable.nested) (Nat.sub_le ..)

end Text

/-- A group is read as the abbreviation inside, with the multiplier after it. -/
theorem readItems_grouped_append {t rest after : Text} (groupable : t.IsGroupable)
    (ends : (readAbbreviation t).fault = none) {multiplier : Multiplier}
    (counted : Multiplier.read rest = .ok (multiplier, after)) {steps size : Nat} :
    readItems groupLimit (steps + 1) size (t.grouped ++ rest) =
      (readItems groupLimit steps size after).after
        (.group (readAbbreviation t).items multiplier) := by
  have level := groupable.readLevel_eq
  rw [← level] at ends ⊢
  exact readItems_group groupable.balanced ends counted

/-- A fault inside of a group ends the reading. -/
theorem readItems_grouped_of_fault {t : Text} (groupable : t.IsGroupable) {fault : Fault}
    (refused : (readAbbreviation t).fault = some fault) (rest : Text) {steps size : Nat} :
    readItems groupLimit (steps + 1) size (t.grouped ++ rest) =
      ⟨[.group (readAbbreviation t).items .absent], some fault⟩ := by
  have level := groupable.readLevel_eq
  rw [← level] at refused ⊢
  exact readItems_group_of_fault groupable.balanced refused rest

/-- A group that ends an abbreviation, or a fault in it. -/
theorem readItems_grouped {t : Text} (groupable : t.IsGroupable) {steps size : Nat} :
    readItems groupLimit (steps + 1) size t.grouped =
      ⟨[.group (readAbbreviation t).items .absent], (readAbbreviation t).fault⟩ := by
  cases fault : (readAbbreviation t).fault with
  | some cause =>
    rw [← List.append_nil t.grouped]
    exact readItems_grouped_of_fault groupable fault []
  | none =>
    have unmarked : Multiplier.read [] = .ok (.absent, []) := rfl
    rw [← List.append_nil t.grouped, readItems_grouped_append groupable fault unmarked, readItems_nil]
    rfl

/-! ## The meaning of groups -/

/-- A group means what its inside means, also if that is a fault. -/
theorem parseAnyHeight_grouped {t : Text} (groupable : t.IsGroupable) :
    parseAnyHeight t.grouped = parseAnyHeight t := by
  have reading : readAbbreviation t.grouped =
      ⟨[.group (readAbbreviation t).items .absent], (readAbbreviation t).fault⟩ := by
    rw [readAbbreviation_of_trimmed t.trim_grouped]
    exact readItems_grouped groupable
  rw [parseAnyHeight_eq, parseAnyHeight_eq t, reading]
  cases (readAbbreviation t).fault with
  | some fault => rfl
  | none =>
    simp only [Item.build_group, Content.repeatBy_absent, Node.optimizeAll_blank_cons,
      Node.optimizeAll_nil, List.append_nil]

/-- Groups beside each other give their nodes one after the other. -/
theorem parseAnyHeight_grouped_sibling {t u : Text} (first : t.IsGroupable) (second : u.IsGroupable)
    {a b : Node} (acceptsFirst : parseAnyHeight t = .ok a) (acceptsSecond : parseAnyHeight u = .ok b) :
    parseAnyHeight (t.grouped ++ '+' :: u.grouped) = .ok (.mk {} (a.children ++ b.children)) := by
  obtain ⟨endsFirst, rfl⟩ := parseAnyHeight_eq_ok_iff.1 acceptsFirst
  obtain ⟨endsSecond, rfl⟩ := parseAnyHeight_eq_ok_iff.1 acceptsSecond
  have reading : readAbbreviation (t.grouped ++ '+' :: u.grouped) =
      ⟨[.group (readAbbreviation t).items .absent, .sibling,
        .group (readAbbreviation u).items .absent], none⟩ := by
    have trimmed : (t.grouped ++ ['+'] ++ u.grouped).trim = t.grouped ++ ['+'] ++ u.grouped := by
      refine Text.trim_append_grouped ?_ u
      rintro c ⟨⟩
      decide
    rw [List.append_assoc, List.singleton_append] at trimmed
    rw [readAbbreviation_of_trimmed trimmed,
      readItems_grouped_append first endsFirst (Multiplier.read_of_head_ne (by simp)),
      readItems_sibling, readItems_grouped second, endsSecond]
    rfl
  refine parseAnyHeight_eq_ok_iff.2 ⟨by rw [reading], ?_⟩
  rw [reading]
  simp only [Item.build_group_sibling, Item.build_group, Content.repeatBy_absent,
    Node.optimizeAll_blank_cons, Node.optimizeAll_nil, List.append_nil]
  rfl

/-- A group below a plain name gives its nodes to the node of the name. -/
theorem parseAnyHeight_descend_grouped (x : PlainName) {t : Text} (groupable : t.IsGroupable)
    {a : Node} (accepts : parseAnyHeight t = .ok a) :
    parseAnyHeight (x.text ++ '>' :: t.grouped) = .ok (.mk {} [.mk (x.content 1) a.children]) := by
  obtain ⟨ends, rfl⟩ := parseAnyHeight_eq_ok_iff.1 accepts
  have reading : readAbbreviation (x.text ++ '>' :: t.grouped) =
      ⟨[.token x.text 0 x.token, .descend, .group (readAbbreviation t).items .absent], none⟩ := by
    have trimmed : (x.text ++ ['>'] ++ t.grouped).trim = x.text ++ ['>'] ++ t.grouped := by
      exact Text.trim_append_grouped x.isBlank_of_head? t
    rw [List.append_assoc, List.singleton_append] at trimmed
    rw [readAbbreviation_of_trimmed trimmed, x.readItems_append (tokenRun_of_stop (.inl rfl)),
      readItems_descend, readItems_grouped groupable, ends, Nat.sub_self]
    rfl
  have stays : .climb ∉ [Item.group (readAbbreviation t).items .absent] := fun inside =>
    Item.noConfusion (List.mem_singleton.1 inside)
  refine parseAnyHeight_eq_ok_iff.2 ⟨by rw [reading], ?_⟩
  have single : (x.content 1).isRepeating = false := rfl
  rw [reading]
  simp only [Item.build_token_descend _ _ _ stays, x.assign_token, Item.build_group,
    Content.repeatBy_absent, Node.optimizeAll_single single (x.isGroup_content 1),
    Node.optimizeAll_blank_cons, Node.optimizeAll_nil, List.append_nil]
  rfl

/-- A token with balanced parentheses may stand between parentheses. -/
theorem Text.IsToken.isGroupable {t : Text} (isToken : t.IsToken)
    (balanced : Delimiter.round.IsBalanced t) : t.IsGroupable := by
  refine ⟨balanced, ?_⟩
  rw [isToken.readAbbreviation, Item.nestingAll_cons, Item.nestingAll_nil, Item.nesting]
  · decide
  · exact fun _ _ same => Item.noConfusion same

/-- A token in a repeated group leaves what the repeated token leaves. -/
theorem optimizeAll_grouped_token {said : Token} (unrepeated : said.multiplier = .absent) {count : Int}
    (positive : 1 ≤ count) (source source' : Text) (start start' : Nat) :
    Node.optimizeAll (Item.build [.group [.token source start said] (.times count)]) =
      Node.optimizeAll
        (Item.build [.token source' start' { said with multiplier := .times count }]) := by
  have grouped : Item.build [.group [.token source start said] (.times count)] =
      [.mk { repeatCount := count } [.mk (({} : Content).assign said) []]] := by
    rw [Item.build_group, Item.build_token, Content.repeatBy_times]
  have bare : Item.build [.token source' start' { said with multiplier := .times count }] =
      [.mk { ({} : Content).assign said with repeatCount := count } []] := by
    simp only [Item.build_token, Content.assign, unrepeated]
    rfl
  have single : (({} : Content).assign said).repeatCount = 1 := by
    simp only [Content.assign, unrepeated]
    rfl
  have explicit : (({} : Content).assign said).implicitRepeat = false := by
    simp only [Content.assign, unrepeated]
    rfl
  rw [grouped, bare, Node.optimizeAll_repeated single explicit positive]

/-- A token in a group that is repeated is the token repeated. -/
theorem parseAnyHeight_grouped_star {t digits : Text} (isToken : t.IsToken)
    (plain : Multiplier.cut t = .ok (t, .absent)) (balanced : Delimiter.round.IsBalanced t)
    (areDigits : ∀ c ∈ digits, c.isDigit = true) (nonempty : digits ≠ [])
    (short : digits.length ≤ IntegerFault.digitLimit) :
    parseAnyHeight (t.grouped ++ '*' :: digits) = parseAnyHeight (t ++ '*' :: digits) := by
  have groupable := isToken.isGroupable balanced
  have alone := isToken.readAbbreviation
  have repeated := (isToken.append_star areDigits).readAbbreviation
  rw [Token.read_of_cut plain (Multiplier.cut_append plain areDigits nonempty short)] at repeated
  have trimmed : (t.grouped ++ '*' :: digits).trim = t.grouped ++ '*' :: digits := by
    refine Text.trim_append_star ?_ (List.cons_ne_nil _ _) areDigits
    rintro c ⟨⟩
    decide
  have reading := readAbbreviation_of_trimmed trimmed
  rw [parseAnyHeight_eq, parseAnyHeight_eq (t ++ _), repeated]
  cases read : Token.read t with
  | mk said fault =>
    rw [read] at alone
    cases fault with
    | some fault =>
      rw [readItems_grouped_of_fault groupable (by rw [alone])] at reading
      rw [reading]
    | none =>
      rw [readItems_grouped_append groupable (by rw [alone])
        (Multiplier.read_star areDigits nonempty short), readItems_nil, alone] at reading
      have unrepeated : said.multiplier = .absent := by
        obtain ⟨_, cut, -⟩ := Token.cut_of_read read
        simp only [plain, Except.ok.injEq, Prod.mk.injEq] at cut
        exact cut.2.symm
      -- zero counts as once
      obtain ⟨count, positive, counted⟩ : ∃ count : Int, 1 ≤ count ∧
          Multiplier.ofInt (Text.numberOf digits) = .times count :=
        ⟨_, by split <;> omega, rfl⟩
      rw [reading]
      simp only [Reading.after, Reading.done, counted,
        optimizeAll_grouped_token unrepeated positive t (t ++ '*' :: digits) 0 0]

/-- Groups mean what their insides mean: alone, beside each other, below a name, and, if a single token is inside,
repeated. -/
theorem groups_compose :
    (∀ t : Text, t.IsGroupable → parseAnyHeight t.grouped = parseAnyHeight t) ∧
    (∀ t u : Text, t.IsGroupable → u.IsGroupable →
      ∀ a b, parseAnyHeight t = .ok a → parseAnyHeight u = .ok b →
        parseAnyHeight (t.grouped ++ '+' :: u.grouped) = .ok (.mk {} (a.children ++ b.children))) ∧
    (∀ (x : PlainName) (t : Text), t.IsGroupable → ∀ a, parseAnyHeight t = .ok a →
      parseAnyHeight (x.text ++ '>' :: t.grouped) = .ok (.mk {} [.mk (x.content 1) a.children])) ∧
    (∀ t digits : Text, t.IsToken → Multiplier.cut t = .ok (t, .absent) →
      Delimiter.round.IsBalanced t → (∀ c ∈ digits, c.isDigit = true) → digits ≠ [] →
      digits.length ≤ IntegerFault.digitLimit →
        parseAnyHeight (t.grouped ++ '*' :: digits) = parseAnyHeight (t ++ '*' :: digits)) :=
  ⟨fun _ => parseAnyHeight_grouped,
    fun _ _ first second _ _ => parseAnyHeight_grouped_sibling first second,
    fun x _ groupable _ => parseAnyHeight_descend_grouped x groupable,
    fun _ _ => parseAnyHeight_grouped_star⟩

/-- A list and a repeated token, in groups. -/
theorem groups_compose_list :
    parseAnyHeight "(ul>li*2)".toList = parseAnyHeight "ul>li*2".toList ∧
    (∃ a b, parseAnyHeight "ul>li*2".toList = .ok a ∧ parseAnyHeight "a[x=y].b".toList = .ok b ∧
      parseAnyHeight "(ul>li*2)+(a[x=y].b)".toList = .ok (.mk {} (a.children ++ b.children))) ∧
    (∃ a, parseAnyHeight "ul>li*2".toList = .ok a ∧
      parseAnyHeight "nav>(ul>li*2)".toList =
        .ok (.mk {} [.mk ((PlainName.ofAll "nav".toList (by decide) (by decide)).content 1) a.children])) ∧
    parseAnyHeight "(a[x=y].b)*3".toList = parseAnyHeight "a[x=y].b*3".toList := by
  obtain ⟨alone, beside, below, repeated⟩ := groups_compose
  have list : Text.IsGroupable "ul>li*2".toList := ⟨by decide, by cbv⟩
  have link : Text.IsGroupable "a[x=y].b".toList := ⟨by decide, by cbv⟩
  have acceptsList := parseAnyHeight_eq_ok_iff.2
    ⟨(by cbv : (readAbbreviation "ul>li*2".toList).fault = none), rfl⟩
  have acceptsLink := parseAnyHeight_eq_ok_iff.2
    ⟨(by cbv : (readAbbreviation "a[x=y].b".toList).fault = none), rfl⟩
  refine ⟨alone _ list, ⟨_, _, acceptsList, acceptsLink, ?_⟩, ⟨_, acceptsList, ?_⟩, ?_⟩
  · exact beside _ _ list link _ _ acceptsList acceptsLink
  · exact below (.ofAll "nav".toList (by decide) (by decide)) _ list _ acceptsList
  · have areDigits : ∀ c ∈ "3".toList, c.isDigit = true := List.all_eq_true.1 (by decide)
    exact repeated "a[x=y].b".toList "3".toList ⟨_, by cbv⟩ (by decide) (by decide) areDigits
      (by decide) (by decide)

end Shorthand
