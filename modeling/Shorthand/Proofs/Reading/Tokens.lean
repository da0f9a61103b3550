import Mathlib.Data.List.Perm.Subperm
import Shorthand.Proofs.PlainName
import Shorthand.Proofs.Reading.Flat

/-! # What becomes of the tokens

A token describes the current node, and a group leaves the current node current. So a token that stands right after a
group describes the node to which the group has been given, and if there is a token before the group, its description is
replaced. Everywhere else a token finds a blank node that is the last one so far, and no token is lost.

* **`Item.abbreviations`**, **`Node.abbreviations`** — the abbreviations as they are written, and as they are met in a
  tree.
* `readItems_tokenFollowsAll_isToken` — two tokens never follow each other.
* `parseRaw_abbreviations` — no abbreviation is made up, and if no token stands right after a group, none is lost and
  their order is kept.
* `parseRaw_name_group_name` — of a name, a group and a name the first is lost. -/

namespace Shorthand

/-- The abbreviations among texts: those that are not empty. -/
def nonempty (texts : List Text) : List Text := texts.filter (· ≠ [])

@[simp] theorem nonempty_nil : nonempty [] = [] := rfl

@[simp] theorem nonempty_append (first second : List Text) :
    nonempty (first ++ second) = nonempty first ++ nonempty second := List.filter_append ..

@[simp] theorem nonempty_cons_nil (rest : List Text) : nonempty ([] :: rest) = nonempty rest := rfl

/-- The abbreviations of the nodes below a node, in pre-order; blank nodes have none. -/
def Node.abbreviations (root : Node) : List Text :=
  nonempty (root.descendants.map (·.content.abbreviation))

namespace Item

/-- What is left of a token when its multiplier is cut off. -/
def remainder (source : Text) : Text :=
  match Multiplier.cut source with
  | .ok (rest, _) => rest
  | .error _ => []

/-- The abbreviations of the tokens, in the order in which they are written; a token that is nothing but a multiplier
has none. -/
def abbreviations (items : List Item) : List Text :=
  nonempty ((sourcesAll items).map fun source => remainder source.1)

@[simp] theorem abbreviations_nil : abbreviations [] = [] := by rw [abbreviations, sourcesAll]; rfl

/-- The abbreviations of the first item come before those of the others. -/
theorem abbreviations_cons (item : Item) (rest : List Item) :
    abbreviations (item :: rest) =
      nonempty (item.sources.map fun source => remainder source.1) ++ abbreviations rest := by
  rw [abbreviations, sourcesAll, List.map_append, nonempty_append, abbreviations]

@[simp] theorem abbreviations_token (source : Text) (start : Nat) (said : Token) (rest : List Item) :
    abbreviations (.token source start said :: rest) =
      nonempty [remainder source] ++ abbreviations rest := by
  rw [abbreviations_cons, sources]
  rfl

@[simp] theorem abbreviations_group (inside : List Item) (multiplier : Multiplier) (rest : List Item) :
    abbreviations (.group inside multiplier :: rest) = abbreviations inside ++ abbreviations rest := by
  rw [abbreviations_cons, sources, abbreviations, abbreviations]

/-- The item is a token. -/
def isToken : Item → Bool
  | token .. => true
  | _ => false

/-- The item is a group. -/
def isGroup : Item → Bool
  | group .. => true
  | _ => false

/-- Induction on a list of items and on what stands inside of their groups, with one case for all operators. -/
@[elab_as_elim] theorem operatorInduction {motive : List Item → Prop} (nil : motive [])
    (operator : ∀ item rest, isToken item = false → isGroup item = false → motive rest →
      motive (item :: rest))
    (token : ∀ source start said rest, motive rest → motive (token source start said :: rest))
    (group : ∀ inside multiplier rest,
      motive inside → motive rest → motive (group inside multiplier :: rest)) :
    ∀ items, motive items :=
  induction nil (fun rest => operator .descend rest rfl rfl) (fun rest => operator .sibling rest rfl rfl)
    (fun rest => operator .climb rest rfl rfl) token group

/-- The first item is a token. -/
def beginsWithToken (items : List Item) : Bool := items.head?.any isToken

mutual
/-- Somewhere inside of the item a token stands right after an item of the kind. -/
def tokenFollows (kind : Item → Bool) : Item → Bool
  | group inside _ => tokenFollowsAll kind inside
  | _ => false

/-- Somewhere in the level or inside of its groups a token stands right after an item of the kind. -/
def tokenFollowsAll (kind : Item → Bool) : List Item → Bool
  | [] => false
  | item :: rest =>
    (kind item && beginsWithToken rest) || tokenFollows kind item || tokenFollowsAll kind rest
end

@[simp] theorem tokenFollowsAll_nil (kind : Item → Bool) : tokenFollowsAll kind [] = false := by
  rw [tokenFollowsAll]

theorem tokenFollowsAll_cons_eq_false {kind : Item → Bool} {item : Item} {rest : List Item} :
    tokenFollowsAll kind (item :: rest) = false ↔
      (kind item = true → beginsWithToken rest = false) ∧ tokenFollows kind item = false ∧
        tokenFollowsAll kind rest = false := by
  rw [tokenFollowsAll, Bool.or_eq_false_iff, Bool.or_eq_false_iff, and_assoc]
  cases kind item <;> simp

/-- No token follows an item that is not of the kind. -/
theorem tokenFollowsAll_cons_of_not {kind : Item → Bool} {item : Item} {rest : List Item}
    (other : kind item = false) (first : tokenFollows kind item = false)
    (others : tokenFollowsAll kind rest = false) : tokenFollowsAll kind (item :: rest) = false := by
  refine tokenFollowsAll_cons_eq_false.2 ⟨fun ofKind => ?_, first, others⟩
  rw [other] at ofKind
  cases ofKind

@[simp] theorem tokenFollows_group (kind : Item → Bool) (inside : List Item) (multiplier : Multiplier) :
    tokenFollows kind (.group inside multiplier) = tokenFollowsAll kind inside := by rw [tokenFollows]

/-- Nothing stands inside of an item that is no group. -/
theorem tokenFollows_of_not_group (kind : Item → Bool) {item : Item} (plain : item.isGroup = false) :
    tokenFollows kind item = false := by
  cases item with
  | group => cases plain
  | _ => rw [tokenFollows]; exact fun _ _ same => Item.noConfusion same

end Item

/-! ## Two tokens never follow each other -/

/-- A token is taken as a whole: no more of it follows. -/
theorem tokenRun_after {size : Nat} {t source after : Text}
    (run : tokenRun size t = .ok (source, after)) : tokenRun size after = .ok ([], after) := by
  fun_induction tokenRun size t generalizing source after with
  | case1 => cases run; exact tokenRun_nil
  | case2 c rest bracket span following found ih =>
    obtain ⟨⟨taken, left⟩, later, same⟩ := exists_of_map_eq_ok run
    cases same
    exact ih later
  | case3 => cases run
  | case4 c rest _ _ ih =>
    obtain ⟨⟨taken, left⟩, later, same⟩ := exists_of_map_eq_ok run
    cases same
    exact ih later
  | case5 c rest noSpan stops =>
    cases run
    rw [tokenRun, if_neg noSpan, if_neg stops]

/-- After a token that was taken as a whole no token is read. -/
theorem beginsWithToken_readItems {groups steps size : Nat} {t : Text}
    (ended : tokenRun size t = .ok ([], t)) :
    Item.beginsWithToken (readItems groups steps size t).items = false := by
  cases items : (readItems groups steps size t).items with
  | nil => rfl
  | cons item others =>
    cases item with
    | token source start said =>
      obtain ⟨_, _, _, _, _, run, nonempty⟩ := tokenRun_of_readItems items
      rw [ended] at run
      cases run
      exact absurd rfl nonempty
    | _ => rfl

/-- Two tokens never follow each other. -/
theorem readItems_tokenFollowsAll_isToken (groups steps size : Nat) (t : Text) :
    Item.tokenFollowsAll Item.isToken (readItems groups steps size t).items = false := by
  fun_induction readItems groups steps size t with
  | case5 size rest steps span after groups inside reading fault ended found insideIh =>
    exact Item.tokenFollowsAll_cons_of_not rfl (by rwa [Item.tokenFollows_group])
      (Item.tokenFollowsAll_nil _)
  | case6 size rest steps span after groups inside reading ended fault refused found insideIh =>
    exact Item.tokenFollowsAll_cons_of_not rfl (by rwa [Item.tokenFollows_group])
      (Item.tokenFollowsAll_nil _)
  | case7 size rest steps span after groups inside reading ended multiplier next cut found insideIh
      restIh =>
    exact Item.tokenFollowsAll_cons_of_not rfl (by rwa [Item.tokenFollows_group]) restIh
  | case8 groups size rest steps _ ih | case9 groups size rest steps _ _ ih
  | case10 groups size rest steps _ _ _ ih =>
    exact Item.tokenFollowsAll_cons_of_not rfl (Item.tokenFollows_of_not_group _ rfl) ih
  | case13 groups size c rest steps _ _ _ _ source after _ run token fault read =>
    exact Item.tokenFollowsAll_cons_eq_false.2 ⟨fun _ => rfl, Item.tokenFollows_of_not_group _ rfl,
      Item.tokenFollowsAll_nil _⟩
  | case14 groups size c rest steps _ _ _ _ source after _ run token read ih =>
    exact Item.tokenFollowsAll_cons_eq_false.2 ⟨fun _ => beginsWithToken_readItems (tokenRun_after run),
      Item.tokenFollows_of_not_group _ rfl, ih⟩
  | _ => exact Item.tokenFollowsAll_nil _

/-! ## The flat reading -/

namespace FlatReading

/-- The abbreviations of the entries that were read so far. -/
def abbreviations (r : FlatReading) : List Text := nonempty (r.entries.map (·.abbreviation))

/-- The current entry is blank and the last one. -/
def IsFresh (r : FlatReading) : Prop := r.current.abbreviation = [] ∧ r.after = []

theorem abbreviations_eq (r : FlatReading) :
    r.abbreviations = nonempty (r.before.map (·.abbreviation)) ++ nonempty [r.current.abbreviation] ++
      nonempty (r.after.map (·.abbreviation)) := by
  rw [abbreviations, entries, List.append_cons, List.map_append, List.map_append, nonempty_append,
    nonempty_append]
  rfl

theorem isFresh_start : start.IsFresh := ⟨rfl, rfl⟩

@[simp] theorem abbreviations_start : start.abbreviations = [] := rfl

theorem isFresh_begin (depth : Nat) (r : FlatReading) : (r.begin depth).IsFresh := ⟨rfl, rfl⟩

/-- A blank entry has no abbreviation. -/
@[simp] theorem abbreviations_begin (depth : Nat) (r : FlatReading) :
    (r.begin depth).abbreviations = r.abbreviations := by
  rw [abbreviations_eq, abbreviations]
  simp [begin]

/-- A multiplier changes no abbreviation. -/
@[simp] theorem abbreviation_repeatBy (e : Entry) (multiplier : Multiplier) :
    (e.repeatBy multiplier).abbreviation = e.abbreviation := by
  cases multiplier <;> rfl

/-- The abbreviations of a group come after those that were read before. -/
theorem abbreviations_read_group (inside : List Item) (multiplier : Multiplier) (r : FlatReading) :
    (read (.group inside multiplier) r).abbreviations =
      r.abbreviations ++ (readAll inside start).abbreviations := by
  have moved : ((readAll inside start).entries.map (Entry.deeper r.current.depth)).map
      (·.abbreviation) = (readAll inside start).entries.map (·.abbreviation) := by
    rw [List.map_map]
    rfl
  rw [read, abbreviations_eq, abbreviations_eq r, abbreviations]
  simp only [append, change, List.map_append, moved, nonempty_append, abbreviation_repeatBy,
    List.append_assoc]

/-- Assigning a token leaves its abbreviation; a token whose multiplier cannot be read has none and changes nothing. -/
theorem abbreviation_assign (e : Entry) (source : Text) :
    (e.assign source).abbreviation = Item.remainder source ∨
      Item.remainder source = [] ∧ (e.assign source).abbreviation = e.abbreviation := by
  unfold Entry.assign Item.remainder
  cases Multiplier.cut source with
  | error fault => exact .inr ⟨rfl, rfl⟩
  | ok parts => exact .inl rfl

/-- A token that finds a blank entry at the end appends its abbreviation. -/
theorem abbreviations_read_token {r : FlatReading} (fresh : r.IsFresh) (source : Text) (start : Nat)
    (said : Token) :
    (read (.token source start said) r).abbreviations =
      r.abbreviations ++ nonempty [Item.remainder source] := by
  obtain ⟨blank, last⟩ := fresh
  have assigned : (r.current.assign source).abbreviation = Item.remainder source := by
    rcases abbreviation_assign r.current source with new | ⟨none, old⟩
    · exact new
    · rw [old, blank, none]
  rw [read, abbreviations_eq, abbreviations_eq r]
  simp only [change, assigned, blank, last, List.map_nil, nonempty_nil, List.append_nil,
    nonempty_cons_nil]

/-- A token adds its abbreviation, and another one may have to give way. -/
theorem abbreviations_read_token_subperm (r : FlatReading) (source : Text) (start : Nat) (said : Token) :
    ((read (.token source start said) r).abbreviations).Subperm
      (r.abbreviations ++ nonempty [Item.remainder source]) := by
  rw [read, abbreviations_eq, abbreviations_eq r]
  simp only [change]
  generalize nonempty (r.before.map (·.abbreviation)) = before
  generalize nonempty (r.after.map (·.abbreviation)) = after
  rcases abbreviation_assign r.current source with new | ⟨-, old⟩
  · rw [new]
    generalize nonempty [Item.remainder source] = added
    have moved : (before ++ added ++ after).Perm (before ++ after ++ added) := by
      rw [List.append_assoc, List.append_assoc]
      exact List.perm_append_comm.append_left before
    have kept : (before ++ after).Sublist (before ++ nonempty [r.current.abbreviation] ++ after) :=
      (List.sublist_append_left ..).append_right after
    exact moved.subperm.trans (kept.append_right added).subperm
  · rw [old]
    exact (List.sublist_append_left ..).subperm

/-- An operator begins a blank entry at the end and adds no abbreviation. -/
theorem read_operator {item : Item} (noToken : item.isToken = false) (noGroup : item.isGroup = false)
    (r : FlatReading) (rest : List Item) :
    (read item r).IsFresh ∧ (read item r).abbreviations = r.abbreviations ∧
      Item.abbreviations (item :: rest) = Item.abbreviations rest := by
  rw [Item.abbreviations_cons]
  cases item with
  | token => cases noToken
  | group => cases noGroup
  | _ => exact ⟨isFresh_begin .., abbreviations_begin .., rfl⟩

/-- Read flat, items add no abbreviations but those of their tokens. -/
theorem abbreviations_readAll_subperm (items : List Item) (r : FlatReading) :
    ((readAll items r).abbreviations).Subperm (r.abbreviations ++ Item.abbreviations items) := by
  induction items using Item.operatorInduction generalizing r with
  | nil => rw [readAll_nil, Item.abbreviations_nil, List.append_nil]
  | operator item rest plain noGroup ih =>
    obtain ⟨-, same, alone⟩ := read_operator plain noGroup r rest
    rw [readAll_cons, alone, ← same]
    exact ih _
  | token source start said rest ih =>
    have first := abbreviations_read_token_subperm r source start said
    rw [readAll_cons, Item.abbreviations_token, ← List.append_assoc]
    exact (ih _).trans ((List.subperm_append_right _).2 first)
  | group inside multiplier rest insideIh ih =>
    have first := insideIh start
    rw [abbreviations_start, List.nil_append] at first
    have both := (ih (read (.group inside multiplier) r))
    rw [abbreviations_read_group, List.append_assoc] at both
    rw [readAll_cons, Item.abbreviations_group]
    exact both.trans ((List.subperm_append_left _).2 ((List.subperm_append_right _).2 first))

/-- Read flat, items add the abbreviations of their tokens in order, if no token stands right after a token or a
group. -/
theorem abbreviations_readAll {items : List Item}
    (noToken : Item.tokenFollowsAll Item.isToken items = false)
    (noGroup : Item.tokenFollowsAll Item.isGroup items = false) {r : FlatReading}
    (ready : Item.beginsWithToken items = true → r.IsFresh) :
    (readAll items r).abbreviations = r.abbreviations ++ Item.abbreviations items := by
  induction items using Item.operatorInduction generalizing r with
  | nil => rw [readAll_nil, Item.abbreviations_nil, List.append_nil]
  | operator item rest plain isNoGroup ih =>
    obtain ⟨-, -, noToken⟩ := Item.tokenFollowsAll_cons_eq_false.1 noToken
    obtain ⟨-, -, noGroup⟩ := Item.tokenFollowsAll_cons_eq_false.1 noGroup
    obtain ⟨fresh, same, alone⟩ := read_operator plain isNoGroup r rest
    rw [readAll_cons, ih noToken noGroup fun _ => fresh, same, alone]
  | token source start said rest ih =>
    obtain ⟨noNext, -, noToken⟩ := Item.tokenFollowsAll_cons_eq_false.1 noToken
    obtain ⟨-, -, noGroup⟩ := Item.tokenFollowsAll_cons_eq_false.1 noGroup
    have alone := noNext rfl
    rw [readAll_cons, ih noToken noGroup fun next => absurd next (by rw [alone]; decide),
      abbreviations_read_token (ready rfl), Item.abbreviations_token, List.append_assoc]
  | group inside multiplier rest insideIh ih =>
    obtain ⟨-, noTokenInside, noToken⟩ := Item.tokenFollowsAll_cons_eq_false.1 noToken
    obtain ⟨noNext, noGroupInside, noGroup⟩ := Item.tokenFollowsAll_cons_eq_false.1 noGroup
    rw [Item.tokenFollows_group] at noTokenInside noGroupInside
    have alone := noNext rfl
    rw [readAll_cons, ih noToken noGroup fun next => absurd next (by rw [alone]; decide),
      abbreviations_read_group, insideIh noTokenInside noGroupInside fun _ => isFresh_start,
      abbreviations_start, List.nil_append, Item.abbreviations_group, List.append_assoc]

end FlatReading

/-! ## The tree -/

/-- The nodes of a list in pre-order are met with their depths in the same order. -/
theorem Node.map_snd_levelsAll (depth : Nat) (nodes : List Node) :
    (levelsAll depth nodes).map (·.2) = preorderAll nodes := by
  induction nodes using Node.induction generalizing depth with
  | nil => rw [levelsAll_nil, preorderAll_nil, List.map_nil]
  | cons c kids rest kidsIh restIh =>
    rw [levelsAll_cons, levels_mk, preorderAll_cons, preorder_mk, List.map_append, List.map_cons,
      kidsIh, restIh]

/-- The abbreviations of a tree are those of the flat reading of its items. -/
theorem Reading.abbreviations_tree {r : Reading} (faithful : Item.AreFaithful r.items) :
    r.tree.abbreviations = (FlatReading.readAll r.items .start).abbreviations := by
  have entries : Entry.ofNodes 1 (Item.build r.items) = (FlatReading.readAll r.items .start).entries :=
    Entry.ofNodes_build faithful
  rw [FlatReading.abbreviations, ← entries, Node.abbreviations, Entry.ofNodes, List.map_map,
    Node.descendants, Reading.tree, Node.children_mk, ← Node.map_snd_levelsAll 1, List.map_map]
  rfl

/-- The tree of an abbreviation has no abbreviations but those of the tokens, each no more often than it is written. If
no token stands right after a group, it has all of them, in the order in which they are written. -/
theorem parseRaw_abbreviations {t : Text} {root : Node} (accepted : parseRaw t = .ok root) :
    (root.abbreviations).Subperm (Item.abbreviations (readAbbreviation t).items) ∧
      (Item.tokenFollowsAll Item.isGroup (readAbbreviation t).items = false →
        root.abbreviations = Item.abbreviations (readAbbreviation t).items) := by
  obtain ⟨ended, rfl⟩ := parseRaw_eq_ok_iff.1 accepted
  have tree := Reading.abbreviations_tree (r := readAbbreviation t) (readItems_areFaithful ended)
  rw [tree]
  constructor
  · have added := FlatReading.abbreviations_readAll_subperm (readAbbreviation t).items .start
    rwa [FlatReading.abbreviations_start, List.nil_append] at added
  · intro noGroup
    have noToken : Item.tokenFollowsAll Item.isToken (readAbbreviation t).items = false :=
      readItems_tokenFollowsAll_isToken _ _ _ _
    rw [FlatReading.abbreviations_readAll noToken noGroup fun _ => FlatReading.isFresh_start,
      FlatReading.abbreviations_start, List.nil_append]

/-- A group below a name and between names, with a multiplier that stands alone. -/
theorem parseRaw_abbreviations_list :
    ∃ root, parseRaw "ul>(li*2>*3>a)*4^p".toList = .ok root ∧
      Item.tokenFollowsAll Item.isGroup (readAbbreviation "ul>(li*2>*3>a)*4^p".toList).items = false ∧
      root.abbreviations = ["ul".toList, "li".toList, "a".toList, "p".toList] := by
  have ended : (readAbbreviation "ul>(li*2>*3>a)*4^p".toList).fault = none := by cbv
  have accepted := parseRaw_eq_ok_iff.2 ⟨ended, rfl⟩
  have noGroup : Item.tokenFollowsAll Item.isGroup
      (readAbbreviation "ul>(li*2>*3>a)*4^p".toList).items = false := by cbv
  refine ⟨_, accepted, noGroup, ?_⟩
  rw [(parseRaw_abbreviations accepted).2 noGroup]
  cbv

/-- A plain name has an abbreviation. -/
theorem PlainName.nonempty_text (x : PlainName) (rest : List Text) :
    nonempty (x.text :: rest) = x.text :: nonempty rest :=
  List.filter_cons_of_pos (by simp [x.ne_nil])

/-- The abbreviation of a plain name is the whole of it. -/
theorem PlainName.remainder_text (x : PlainName) : Item.remainder x.text = x.text := by
  rw [Item.remainder, x.cut]

/-- A name, a group and a name after it are read one after the other. -/
theorem readAbbreviation_name_group_name (x y z : PlainName) :
    readAbbreviation (x.text ++ (y.text.grouped ++ z.text)) =
      ⟨[.token x.text 0 x.token, .group [.token y.text 0 y.token] .absent,
        .token z.text (x.text.length + (y.text.length + 2)) z.token], none⟩ := by
  have trimmed : (x.text ++ (y.text.grouped ++ z.text)).trim = x.text ++ (y.text.grouped ++ z.text) := by
    refine Text.trim_eq_self_of_forall fun c inside => ?_
    simp only [Text.grouped, List.mem_append, List.mem_cons] at inside
    rcases inside with inX | (rfl | inY | rfl | ⟨⟨⟩⟩) | inZ
    · exact isBlank_of_isTokenChar (x.isTokenChar_of_mem inX)
    · decide
    · exact isBlank_of_isTokenChar (y.isTokenChar_of_mem inY)
    · decide
    · exact isBlank_of_isTokenChar (z.isTokenChar_of_mem inZ)
  have balanced : Delimiter.round.IsBalanced y.text :=
    Delimiter.isBalanced_of_forall_ne fun _ inside =>
      ⟨y.ne_of_mem inside (by decide), y.ne_of_mem inside (by decide)⟩
  have unmarked : z.text.head? ≠ some '*' := fun first =>
    z.ne_of_mem (List.mem_of_mem_head? first) (by decide) rfl
  have inner := y.readLevel_text 99
  have position : (x.text ++ (y.text.grouped ++ z.text)).length - z.text.length =
      x.text.length + (y.text.length + 2) := by
    simp only [Text.grouped, List.length_append, List.length_cons, List.length_nil]
    omega
  rw [readAbbreviation_of_trimmed trimmed]
  show readItems 100 (998 + 1) _ _ = _
  rw [x.readItems_append (by rw [Text.grouped_append]; exact tokenRun_of_stop (.inr rfl)), Nat.sub_self]
  show Reading.after _ (readItems (99 + 1) (997 + 1) _ _) = _
  rw [readItems_group balanced (by rw [inner]) (Multiplier.read_of_head_ne unmarked), inner]
  show Reading.after _ (Reading.after _ (readItems 100 (996 + 1) _ _)) = _
  rw [z.readItems_text, position]
  rfl

/-- Of a name, a group and a name after it the first name is lost, and the second one comes before what is in the
group. -/
theorem parseRaw_name_group_name (x y z : PlainName) :
    ∃ root, parseRaw (x.text ++ (y.text.grouped ++ z.text)) = .ok root ∧
      root.abbreviations = [z.text, y.text] ∧
      Item.abbreviations (readAbbreviation (x.text ++ (y.text.grouped ++ z.text))).items =
        [x.text, y.text, z.text] := by
  have reading := readAbbreviation_name_group_name x y z
  refine ⟨_, parseRaw_eq_ok_iff.2 ⟨by rw [reading], rfl⟩, ?_, ?_⟩
  · have built : Item.build [.token x.text 0 x.token, .group [.token y.text 0 y.token] .absent,
        .token z.text (x.text.length + (y.text.length + 2)) z.token] =
        [.mk ((({} : Content).assign x.token).assign z.token) [.mk (({} : Content).assign y.token) []]] := by
      simp only [Item.build, Item.applyAll_cons, Item.applyAll_nil, Item.apply]
      rfl
    rw [reading, Reading.tree, built, Node.abbreviations]
    simp only [Node.descendants, Node.children_mk, Node.preorderAll_cons, Node.preorder_mk,
      Node.preorderAll_nil, List.append_nil, List.map_cons, List.map_nil, Node.content_mk]
    exact (z.nonempty_text _).trans (congrArg _ (y.nonempty_text _))
  · simp only [reading, Item.abbreviations_token, Item.abbreviations_group, Item.abbreviations_nil,
      PlainName.remainder_text, PlainName.nonempty_text, nonempty_nil]
    rfl

end Shorthand
