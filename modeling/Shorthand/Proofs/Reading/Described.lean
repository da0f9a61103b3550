import Mathlib.Data.List.Forall2
import Shorthand.Proofs.Reading.Again
import Shorthand.Proofs.Reading.Contents
import Shorthand.Proofs.Reading.Tokens

/-! # What the tokens make of their nodes

A token describes the current node, and so does a token that stands right after a group of that node. What a token does
not say stays as the tokens before it said. So the contents of a tree, the multipliers apart, are those of the lists of
tokens that belong to one node. The name is always that of the last token, for every token says whether there is one; a
text or attributes may be left from a token before a group.

* **`Item.runs`** — the tokens of each node.
* **`Content.unmultiplied`** — a content without what multipliers wrote into it.
* **`Content.IsAsAbbreviated`** — a content is what a fresh node with its abbreviation holds.
* `Item.contents_build` — the contents of the tree of a list of items are those of the runs.
* `parseRaw_contents` — which tokens describe each node, and what its abbreviation tells of its name, its text and its
  attributes. -/

namespace Shorthand

/-! ## Runs -/

/-- The tokens that belong to one node, for the current node and for the nodes that come after it in pre-order. -/
structure TokenRuns where
  /-- The tokens that belong to the current node. -/
  current : List Token
  /-- The tokens that belong to each of the later nodes. -/
  later : List (List Token)

namespace TokenRuns

/-- The tokens of all nodes. -/
def all (r : TokenRuns) : List (List Token) := r.current :: r.later

end TokenRuns

namespace Item

mutual
/-- What an item makes of the runs of the items after it: a token belongs to the current node, the nodes of a group come
right after it, and an operator begins another node. -/
def addRun : Item → TokenRuns → TokenRuns
  | token _ _ said, r => ⟨said :: r.current, r.later⟩
  | group inside _, r => ⟨r.current, (runs inside).all ++ r.later⟩
  | _, r => ⟨[], r.all⟩

/-- The tokens of each node that a list of items describes. -/
def runs : List Item → TokenRuns
  | [] => ⟨[], []⟩
  | item :: rest => addRun item (runs rest)
end

@[simp] theorem runs_nil : runs [] = ⟨[], []⟩ := by rw [runs]

@[simp] theorem runs_token (source : Text) (start : Nat) (said : Token) (rest : List Item) :
    runs (.token source start said :: rest) = ⟨said :: (runs rest).current, (runs rest).later⟩ := by
  rw [runs, addRun]

@[simp] theorem runs_group (inside : List Item) (multiplier : Multiplier) (rest : List Item) :
    runs (.group inside multiplier :: rest) = ⟨(runs rest).current, (runs inside).all ++ (runs rest).later⟩ := by
  rw [runs, addRun]

/-- An operator begins another node. -/
theorem runs_operator {item : Item} (noToken : item.isToken = false) (noGroup : item.isGroup = false)
    (rest : List Item) : runs (item :: rest) = ⟨[], (runs rest).all⟩ := by
  cases item with
  | token => cases noToken
  | group => cases noGroup
  | _ => rw [runs, addRun] <;> simp

/-- The tokens of all runs say what their texts say. -/
theorem exists_read_of_mem_runs {items : List Item} (faithful : AreFaithful items) :
    ∀ run ∈ (runs items).all, ∀ said ∈ run, ∃ source, Token.read source = (said, none) := by
  induction items using Item.operatorInduction with
  | nil => simp [TokenRuns.all]
  | operator item rest noToken noGroup ih =>
    rw [runs_operator noToken noGroup]
    simpa [TokenRuns.all] using ih ((areFaithful_cons ..).1 faithful).2
  | token source start said rest ih =>
    obtain ⟨own, others⟩ := (areFaithful_cons ..).1 faithful
    rw [IsFaithful] at own
    have further := ih others
    simp only [TokenRuns.all, runs_token, List.mem_cons, forall_eq_or_imp] at further ⊢
    exact ⟨⟨⟨source, own⟩, further.1⟩, further.2⟩
  | group inside multiplier rest insideInduction ih =>
    obtain ⟨own, others⟩ := (areFaithful_cons ..).1 faithful
    rw [IsFaithful] at own
    have first := insideInduction own.1
    have further := ih others
    simp only [TokenRuns.all, runs_group, List.mem_cons, List.mem_append, or_imp, forall_and]
      at first further ⊢
    tauto

/-- Where no token stands right after a token or a group, no node has more than one token, and the current node has none
unless a token comes first. -/
theorem runs_of_tokenFollowsAll {items : List Item} (noToken : tokenFollowsAll isToken items = false)
    (noGroup : tokenFollowsAll isGroup items = false) :
    (beginsWithToken items = false → (runs items).current = []) ∧ ∀ run ∈ (runs items).all, run.length ≤ 1 := by
  induction items using Item.operatorInduction with
  | nil => simp [TokenRuns.all]
  | operator item rest plain isNoGroup ih =>
    obtain ⟨-, -, noToken⟩ := tokenFollowsAll_cons_eq_false.1 noToken
    obtain ⟨-, -, noGroup⟩ := tokenFollowsAll_cons_eq_false.1 noGroup
    rw [runs_operator plain isNoGroup]
    refine ⟨fun _ => rfl, fun run among => ?_⟩
    rcases List.mem_cons.1 among with rfl | later
    · exact Nat.zero_le 1
    · exact (ih noToken noGroup).2 run later
  | token source start said rest ih =>
    obtain ⟨noNext, -, noToken⟩ := tokenFollowsAll_cons_eq_false.1 noToken
    obtain ⟨-, -, noGroup⟩ := tokenFollowsAll_cons_eq_false.1 noGroup
    obtain ⟨alone, short⟩ := ih noToken noGroup
    rw [runs_token]
    refine ⟨fun plain => absurd plain (by simp [beginsWithToken, isToken]), fun run among => ?_⟩
    -- what follows the token begins another node
    rcases List.mem_cons.1 among with rfl | later
    · rw [alone (noNext rfl)]
      exact Nat.le_refl 1
    · exact short run (List.mem_cons_of_mem _ later)
  | group inside multiplier rest insideInduction ih =>
    obtain ⟨-, noTokenInside, noToken⟩ := tokenFollowsAll_cons_eq_false.1 noToken
    obtain ⟨noNext, noGroupInside, noGroup⟩ := tokenFollowsAll_cons_eq_false.1 noGroup
    rw [tokenFollows_group] at noTokenInside noGroupInside
    obtain ⟨alone, short⟩ := ih noToken noGroup
    rw [runs_group]
    refine ⟨fun _ => alone (noNext rfl), fun run among => ?_⟩
    rcases List.mem_cons.1 among with rfl | later
    · exact short _ List.mem_cons_self
    · rcases List.mem_append.1 later with within | later
      · exact (insideInduction noTokenInside noGroupInside).2 run within
      · exact short run (List.mem_cons_of_mem _ later)

end Item

/-! ## Contents -/

/-- The content without what multipliers wrote into it. -/
def Content.unmultiplied (c : Content) : Content := { c with repeatCount := 1, implicitRepeat := false }

/-- The content that a run of tokens gives a blank node, the multipliers apart. -/
def Content.ofRun (run : List Token) : Content := (run.foldl Content.assign {}).unmultiplied

namespace Content

@[simp] theorem unmultiplied_repeatBy (c : Content) (multiplier : Multiplier) :
    (c.repeatBy multiplier).unmultiplied = c.unmultiplied := by
  cases multiplier <;> rfl

/-- What multipliers wrote before does not matter for a token. -/
theorem unmultiplied_assign {c d : Content} (same : c.unmultiplied = d.unmultiplied) (said : Token) :
    (c.assign said).unmultiplied = (d.assign said).unmultiplied := by
  have written (c : Content) : (c.assign said).unmultiplied = (c.unmultiplied.assign said).unmultiplied := by
    rw [assign, assign]
    cases said.multiplier <;> rfl
  rw [written c, written d, same]

/-- Nor does it matter for a run. -/
theorem unmultiplied_foldl_assign {c d : Content} (same : c.unmultiplied = d.unmultiplied) (run : List Token) :
    (run.foldl Content.assign c).unmultiplied = (run.foldl Content.assign d).unmultiplied := by
  induction run generalizing c d with
  | nil => exact same
  | cons said run ih => exact ih (unmultiplied_assign same said)

/-- The last token of a run is assigned to what the others have made. -/
theorem ofRun_concat (run : List Token) (said : Token) :
    ofRun (run ++ [said]) = ((ofRun run).assign said).unmultiplied := by
  have same : (run.foldl assign {}).unmultiplied = (ofRun run).unmultiplied := rfl
  rw [ofRun, List.foldl_append]
  exact unmultiplied_assign same said

/-- Writing down what each token says, if it says something, leaves what the last of them says. -/
theorem foldl_getD {α β : Type} (told : α → Option β) (run : List α) (start : β) :
    run.foldl (fun value said => (told said).getD value) start = (run.reverse.findSome? told).getD start := by
  induction run using List.reverseRecOn with
  | nil => rfl
  | append_singleton run said ih =>
    rw [List.foldl_append, List.foldl_cons, List.foldl_nil, ih, List.reverse_concat, List.findSome?_cons]
    cases told said <;> rfl

/-- The text of a node is the last one that its tokens say. -/
theorem text_ofRun (run : List Token) : (ofRun run).text = (run.reverse.findSome? (·.text)).getD [] :=
  (List.foldl_hom Content.text fun _ _ => rfl).symm.trans (foldl_getD _ run [])

/-- The attributes of a node are the last ones that its tokens say. -/
theorem attributes_ofRun (run : List Token) :
    (ofRun run).attributes = (run.reverse.findSome? (·.attributes)).getD [] :=
  (List.foldl_hom Content.attributes fun _ _ => rfl).symm.trans (foldl_getD _ run [])

end Content

namespace Spine

open Node

/-- The contents of the ancestors of the current node and of their finished children, those of the nearest ancestor
last. -/
def contentsAbove : List Node → List Content
  | [] => []
  | parent :: rest => contentsAbove rest ++ parent.content :: contentsAll parent.children

/-- The contents that are met before that of the current node. -/
def contentsBefore (s : Spine) : List Content := contentsAll s.finished ++ contentsAbove s.ancestors

/-- Closing a node into its ancestors puts its contents after theirs. -/
theorem contentsAll_close (c : Content) (kids ancestors : List Node) :
    contentsAll [close (.mk c kids) ancestors] = contentsAbove ancestors ++ c :: contentsAll kids := by
  induction ancestors generalizing c kids with
  | nil => simp [contentsAbove]
  | cons parent rest ih =>
    obtain ⟨d, others⟩ := parent
    rw [close_cons, Node.adopt, Node.withChildren, ih, contentsAll_append, contentsAll_cons, contentsAll_nil,
      contentsAbove]
    simp

/-- The contents of the tree are those before the current node, its own, and those below it. -/
theorem contentsAll_forest (c : Content) (kids ancestors finished : List Node) :
    contentsAll (forest ⟨.mk c kids, ancestors, finished⟩) =
      contentsBefore ⟨.mk c kids, ancestors, finished⟩ ++ c :: contentsAll kids := by
  rw [forest, contentsAll_append, contentsAll_close, contentsBefore, List.append_assoc]

/-- Beginning a node below the current one puts all contents before it. -/
theorem contentsBefore_below (s : Spine) : s.below.contentsBefore = contentsAll s.forest := by
  obtain ⟨⟨c, kids⟩, ancestors, finished⟩ := s
  rw [contentsAll_forest]
  simp [below, contentsBefore, contentsAbove]

/-- So does beginning a node beside it. -/
theorem contentsBefore_beside (s : Spine) : s.beside.contentsBefore = contentsAll s.forest := by
  obtain ⟨⟨c, kids⟩, _ | ⟨⟨d, others⟩, rest⟩, finished⟩ := s <;> rw [contentsAll_forest]
  · simp [beside, contentsBefore, contentsAbove, contentsAll_append]
  · simp [beside, contentsBefore, contentsAbove, contentsAll_append]

/-- An operator begins a blank node after all others. -/
theorem apply_operator {item : Item} (noToken : item.isToken = false) (noGroup : item.isGroup = false) (s : Spine) :
    (Item.apply item s).current = .blank ∧ (Item.apply item s).contentsBefore = contentsAll s.forest := by
  have blank (s : Spine) : s.beside.current = .blank := by
    obtain ⟨current, _ | ⟨parent, rest⟩, finished⟩ := s <;> rfl
  cases item with
  | token => cases noToken
  | group => cases noGroup
  | descend => exact ⟨rfl, s.contentsBefore_below⟩
  | sibling => exact ⟨blank s, s.contentsBefore_beside⟩
  | climb => exact ⟨blank s.up, by rw [← forest_up]; exact s.up.contentsBefore_beside⟩

end Spine

namespace Item

open Node Content

/-- Items add the contents of their runs: the first run goes on with the current node, and the others begin nodes that
come after what is below it. -/
theorem contents_applyAll (items : List Item) (s : Spine) :
    (contentsAll (applyAll items s).forest).map unmultiplied =
      s.contentsBefore.map unmultiplied ++
        ((runs items).current.foldl Content.assign s.current.content).unmultiplied ::
          ((contentsAll s.current.children).map unmultiplied ++ (runs items).later.map ofRun) := by
  induction items using Item.operatorInduction generalizing s with
  | nil =>
    obtain ⟨⟨c, kids⟩, ancestors, finished⟩ := s
    rw [applyAll_nil, Spine.contentsAll_forest, runs_nil]
    simp
  | operator item rest noToken noGroup ih =>
    obtain ⟨blank, before⟩ := Spine.apply_operator noToken noGroup s
    rw [applyAll_cons, ih, runs_operator noToken noGroup, before, blank]
    obtain ⟨⟨c, kids⟩, ancestors, finished⟩ := s
    rw [Spine.contentsAll_forest]
    simp [Node.blank, TokenRuns.all, ofRun]
  | token source start said rest ih =>
    obtain ⟨⟨c, kids⟩, ancestors, finished⟩ := s
    rw [applyAll_cons, ih, runs_token]
    rfl
  | group inside multiplier rest insideInduction ih =>
    obtain ⟨⟨c, kids⟩, ancestors, finished⟩ := s
    have first := insideInduction .start
    rw [applyAll_cons, ih, runs_group]
    have current := unmultiplied_foldl_assign (unmultiplied_repeatBy c multiplier) (runs rest).current
    simp only [apply, Spine.change, Node.withContent, Node.adopt, Node.withChildren, content_mk, children_mk,
      contentsAll_append, List.map_append, first, current]
    simp [TokenRuns.all, ofRun, Spine.start, Spine.contentsBefore, Spine.contentsAbove, Node.blank]

/-- The contents of the tree of a list of items are those of the runs. -/
theorem contents_build (items : List Item) :
    (contentsAll (build items)).map unmultiplied = (runs items).all.map ofRun := by
  rw [build, contents_applyAll]
  simp [Spine.start, Spine.contentsBefore, Spine.contentsAbove, Node.blank, TokenRuns.all, ofRun]

end Item

/-! ## Fresh nodes -/

/-- What a text says of a blank node when it is assigned to it as its token. -/
def Content.fresh (abbreviation : Text) : Content := ({} : Content).assign (Token.read abbreviation).1

/-- A content is what its abbreviation says. A text or attributes of which the abbreviation says nothing may be others
unless the token is `alone`. -/
structure Content.IsAsAbbreviated (c : Content) (alone : Prop) : Prop where
  /-- The abbreviation can be read. -/
  legible : (Token.read c.abbreviation).2 = none
  /-- The name is that of a fresh node with this abbreviation. -/
  name_eq : c.elementName = (fresh c.abbreviation).elementName
  /-- So is the text if the abbreviation says one, or if the token is alone. -/
  text_eq : (Token.read c.abbreviation).1.text ≠ none ∨ alone → c.text = (fresh c.abbreviation).text
  /-- So are the attributes if the abbreviation says some, or if the token is alone. -/
  attributes_eq : (Token.read c.abbreviation).1.attributes ≠ none ∨ alone →
    c.attributes = (fresh c.abbreviation).attributes

/-- A token that can be read says whether there is a name, so that nothing is left of the name before. -/
theorem Content.elementName_assign_of_read {source : Text} {said again : Token}
    (read : Token.read source = (said, none)) (name : again.name = said.name) (c d : Content) :
    (c.assign said).elementName = (d.assign again).elementName := by
  obtain ⟨t, multiplier, split, marked, own, -, -, rfl⟩ := Token.read_eq_iff.1 read
  simp only [assign, name]

/-- A run of tokens that has an abbreviation ends with a token that gives it, and this one is alone in a run of one. -/
theorem Content.isAsAbbreviated_of_ofRun {run : List Token}
    (faithful : ∀ said ∈ run, ∃ source, Token.read source = (said, none)) {c : Content}
    (same : c.unmultiplied = ofRun run) (named : c.abbreviation ≠ [])
    (short : ∀ fault, Multiplier.cut c.abbreviation ≠ .error fault) : c.IsAsAbbreviated (run.length ≤ 1) := by
  rcases List.eq_nil_or_concat run with rfl | ⟨earlier, said, rfl⟩
  · exact absurd (congrArg Content.abbreviation same) named
  rw [List.concat_eq_append] at faithful same ⊢
  obtain ⟨source, read⟩ := faithful said (by simp)
  obtain ⟨t, cut, own⟩ := Token.cut_of_read read
  have held : c.unmultiplied = ((ofRun earlier).assign said).unmultiplied := same.trans (ofRun_concat earlier said)
  have abbreviation : c.abbreviation = said.abbreviation.getD _ := congrArg (·.abbreviation) held
  have name : c.elementName = ((ofRun earlier).assign said).elementName := congrArg (·.elementName) held
  have text : c.text = said.text.getD (ofRun earlier).text := congrArg (·.text) held
  have attributes : c.attributes = said.attributes.getD (ofRun earlier).attributes := congrArg (·.attributes) held
  rw [own, Option.getD_some] at abbreviation
  rw [abbreviation] at short
  -- the abbreviation is read as the token that gave it
  obtain ⟨fault, refused⟩ | ⟨again, reread, sameText, sameAttributes, sameName⟩ := Token.read_abbreviation read own
  · exact absurd refused (short fault)
  -- what a token leaves open is blank where no token stood before
  have kept {α : Type} {told : Option α} {before blank : α} (alone : earlier = [] → before = blank)
      (cases : told ≠ none ∨ (earlier ++ [said]).length ≤ 1) : told.getD before = told.getD blank := by
    rcases cases with some | only
    · obtain ⟨value, rfl⟩ := Option.ne_none_iff_exists'.1 some
      rfl
    · rw [alone (by simpa using only)]
  rw [← abbreviation] at reread
  have blank : fresh c.abbreviation = assign {} again := by rw [fresh, reread]
  refine ⟨by rw [reread], ?_, ?_, ?_⟩
  · rw [name, blank]
    exact elementName_assign_of_read read sameName _ _
  · rw [text, blank, reread, ← sameText]
    exact kept fun alone => by rw [alone]; rfl
  · rw [attributes, blank, reread, ← sameAttributes]
    exact kept fun alone => by rw [alone]; rfl

/-- The runs of tokens describe the nodes of the tree of an abbreviation, one after the other. A node that has an
abbreviation is what this abbreviation says, if it can be read; a text or attributes of which it says nothing are left
from the tokens before it in the run. Where no token stands right after a group, there are none. An abbreviation can be
read if the number of a multiplier at its end has not too many digits. -/
theorem parseRaw_contents {t : Text} {root : Node} (accepted : parseRaw t = .ok root) :
    List.Forall₂
        (fun run n => n.content.unmultiplied = Content.ofRun run ∧
          (n.content.abbreviation ≠ [] → (∀ fault, Multiplier.cut n.content.abbreviation ≠ .error fault) →
            n.content.IsAsAbbreviated (run.length ≤ 1)))
        (Item.runs (readAbbreviation t).items).all root.descendants ∧
      (Item.tokenFollowsAll Item.isGroup (readAbbreviation t).items = false →
        ∀ run ∈ (Item.runs (readAbbreviation t).items).all, run.length ≤ 1) := by
  obtain ⟨ended, rfl⟩ := parseRaw_eq_ok_iff.1 accepted
  have legible := Item.exists_read_of_mem_runs (readItems_areFaithful ended)
  have contents := Item.contents_build (readAbbreviation t).items
  rw [Node.contentsAll, List.map_map, ← List.forall₂_eq_eq_eq, List.forall₂_map_left_iff,
    List.forall₂_map_right_iff] at contents
  refine ⟨((List.forall₂_and_left ..).2 ⟨legible, contents.flip⟩).imp ?_, fun noGroup => ?_⟩
  · rintro run n ⟨faithful, same⟩
    exact ⟨same, Content.isAsAbbreviated_of_ofRun faithful same⟩
  · exact (Item.runs_of_tokenFollowsAll (readItems_tokenFollowsAll_isToken _ _ _ _) noGroup).2

/-- A token after a group renames its node, whose text stays; the other nodes are as abbreviated. -/
theorem parseRaw_contents_renamed :
    ∃ root first second third, parseRaw "a{t}(x)b>c.d*2".toList = .ok root ∧
      root.descendants = [first, second, third] ∧
      first.content.unmultiplied =
        { abbreviation := "b".toList, elementName := some "b".toList, text := "t".toList } ∧
      (Content.fresh first.content.abbreviation).text = [] ∧
      third.content.abbreviation = "c.d".toList ∧
      third.content.attributes = (Content.fresh third.content.abbreviation).attributes := by
  have ended : (readAbbreviation "a{t}(x)b>c.d*2".toList).fault = none := by cbv
  have accepted := parseRaw_eq_ok_iff.2 ⟨ended, rfl⟩
  obtain ⟨described, -⟩ := parseRaw_contents accepted
  have runs : (Item.runs (readAbbreviation "a{t}(x)b>c.d*2".toList).items).all =
      [[(Token.read "a{t}".toList).1, (Token.read "b".toList).1], [(Token.read "x".toList).1],
        [(Token.read "c.d*2".toList).1]] := by cbv
  rw [runs] at described
  obtain ⟨first, _, ⟨renamed, -⟩, others, listed⟩ := List.forall₂_cons_left_iff.1 described
  obtain ⟨second, _, -, last, rfl⟩ := List.forall₂_cons_left_iff.1 others
  obtain ⟨third, _, ⟨same, asAbbreviated⟩, none, rfl⟩ := List.forall₂_cons_left_iff.1 last
  obtain rfl := List.forall₂_nil_left_iff.1 none
  have firstAbbreviation : first.content.abbreviation = "b".toList :=
    (congrArg Content.abbreviation renamed).trans (by cbv)
  have thirdAbbreviation : third.content.abbreviation = "c.d".toList :=
    (congrArg Content.abbreviation same).trans (by cbv)
  have cut : Multiplier.cut third.content.abbreviation = .ok ("c.d".toList, .absent) := by
    rw [thirdAbbreviation]
    cbv
  refine ⟨_, first, second, third, accepted, listed, renamed.trans (by cbv), ?_, thirdAbbreviation, ?_⟩
  · rw [firstAbbreviation]
    cbv
  · have described : third.content.IsAsAbbreviated (1 ≤ 1) :=
      asAbbreviated (by rw [thirdAbbreviation]; decide) fun fault refused => by cases cut.symm.trans refused
    exact described.attributes_eq (.inr (Nat.le_refl 1))

end Shorthand
