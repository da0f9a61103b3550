import Shorthand.Optimize.Basic
import Shorthand.Proofs.Attribute.Grammar
import Shorthand.Proofs.Attribute.Merge
import Shorthand.Proofs.Node.Description
import Shorthand.Proofs.Reading.Described
import Shorthand.Proofs.Reading.Limits
import Shorthand.Proofs.Token.Name

/-! # The names in parsed trees

The names of attributes are words, or those that the markers of identifiers and classes stand for, and the scan takes no
line feed into a token outside of its spans. So no name in a parsed tree holds a line feed. A text or a value may hold
some, for a span is taken into a token as it is.

* **`Token.HasPlainNames`**, **`Content.IsPlainlyNamed`** — the names that were given hold no line feed.
* `Token.hasPlainNames_of_isScanned` — such are the names that a token of the scan gives.
* `isPlainlyNamed_of_parse` — such are all names in a parsed tree. -/

namespace Shorthand

/-! ## Attributes -/

namespace Attribute

variable {t rest : Text} {a : Attribute} {attributes : List Attribute}

/-- The name of a written attribute is a word. -/
theorem IsWritten.lineFeed_not_mem (isWritten : IsWritten a t rest) : '\n' ∉ a.name := by
  cases isWritten with
  | alone name | assigned name => exact fun inside => name.ne_of_mem inside (by decide) rfl

/-- The names of written attributes are words. -/
theorem AreWritten.lineFeed_not_mem (areWritten : AreWritten attributes t rest) : ∀ a ∈ attributes, '\n' ∉ a.name := by
  induction areWritten with
  | nil => exact fun a inside => absurd inside List.not_mem_nil
  | cons first _ _ ih => exact List.forall_mem_cons.2 ⟨first.lineFeed_not_mem, ih⟩

/-- The names that a set gives are words. -/
theorem lineFeed_not_mem_of_readSet (read : readSet t = .ok attributes) : ∀ a ∈ attributes, '\n' ∉ a.name := by
  obtain ⟨-, -, noGap⟩ := Text.takeWhile_dropWhile Text.isGap t.trim
  obtain ⟨_, _, -, areWritten, -⟩ := readAll_eq_ok_iff.1 ⟨read, noGap⟩
  exact areWritten.lineFeed_not_mem

/-- Merging gives no new names. -/
theorem lineFeed_not_mem_of_merge (plain : ∀ a ∈ attributes, '\n' ∉ a.name) :
    ∀ a ∈ merge attributes, '\n' ∉ a.name := by
  intro a inside
  have among : a.name ∈ (merge attributes).map (·.name) := List.mem_map_of_mem inside
  rw [map_name_merge, List.mem_eraseDups] at among
  obtain ⟨e, given, same⟩ := List.mem_map.1 among
  exact same ▸ plain e given

end Attribute

/-! ## Tokens -/

namespace Token

/-- The names that a token gives hold no line feed. -/
structure HasPlainNames (said : Token) : Prop where
  /-- The name of the element holds none. -/
  name : ∀ name ∈ said.name, '\n' ∉ name
  /-- The names of the attributes hold none. -/
  attributes : ∀ attributes ∈ said.attributes, ∀ a ∈ attributes, '\n' ∉ a.name

/-- The names that markers give are words, or those of identifiers and classes. -/
theorem lineFeed_not_mem_of_marks {size : Nat} {t : Text} {attributes : List Attribute}
    (found : marks size t = .ok attributes) : ∀ a ∈ attributes, '\n' ∉ a.name := by
  fun_induction marks size t generalizing attributes with
  | case1 =>
    cases found
    exact fun a inside => absurd inside List.not_mem_nil
  | case2 rest ih =>
    obtain ⟨others, further, rfl⟩ := exists_of_map_eq_ok found
    have identifier : '\n' ∉ ['i', 'd'] := by decide
    exact List.forall_mem_cons.2 ⟨identifier, ih further⟩
  | case3 rest _ ih =>
    obtain ⟨others, further, rfl⟩ := exists_of_map_eq_ok found
    have className : '\n' ∉ ['c', 'l', 'a', 's', 's'] := by decide
    exact List.forall_mem_cons.2 ⟨className, ih further⟩
  | case4 => cases found
  | case5 rest span after _ _ inside ih =>
    rcases read : Attribute.readSet span.interior with fault | ⟨_ | ⟨a, set⟩⟩
    · rw [read] at found
      cases found
    · rw [read] at found
      cases found
    · rw [read] at found
      simp only [bind, Except.bind, if_neg (List.cons_ne_nil a set)] at found
      cases further : marks size after with
      | error fault =>
        rw [further] at found
        cases found
      | ok others =>
        rw [further] at found
        cases found
        exact List.forall_mem_append.2 ⟨Attribute.lineFeed_not_mem_of_readSet read, ih further⟩
  | case6 c rest _ _ _ ih => exact ih found

/-- The names that a token of the scan gives hold no line feed. -/
theorem hasPlainNames_of_isScanned {source : Text} {said : Token} (scanned : source.IsScanned)
    (read : Token.read source = (said, none)) : said.HasPlainNames := by
  obtain ⟨t, multiplier, split, marked, name, cut, parts, rfl⟩ := Token.read_eq_iff.1 read
  have plain : '\n' ∉ name := parts.lineFeed_not_mem (scanned.cut cut)
  refine ⟨fun given same => Option.some.inj same ▸ plain, fun attributes given => ?_⟩
  obtain ⟨found, searched, rfl⟩ := exists_of_map_eq_ok parts.marked_eq
  split at given
  · cases given
  · cases given
    exact Attribute.lineFeed_not_mem_of_merge (lineFeed_not_mem_of_marks searched)

end Token

/-- The tokens of a reading that comes to its end are tokens of the scan. -/
theorem Text.IsReadAs.hasPlainNames {size : Nat} {t : Text} {items : List Item} (reads : IsReadAs size t items) :
    ∀ run ∈ (Item.runs items).all, ∀ said ∈ run, said.HasPlainNames := by
  induction reads with
  | nil => simp [TokenRuns.all]
  | descend _ ih | sibling _ ih | climb _ ih =>
    rw [Item.runs_operator rfl rfl]
    simpa [TokenRuns.all] using ih
  | token _ run _ read _ ih =>
    have own := Token.hasPlainNames_of_isScanned (tokenRun_isScanned run) read
    simp only [TokenRuns.all, Item.runs_token, List.mem_cons, forall_eq_or_imp] at ih ⊢
    exact ⟨⟨own, ih.1⟩, ih.2⟩
  | group _ _ _ _ insideIh ih =>
    simp only [TokenRuns.all, Item.runs_group, List.mem_cons, List.mem_append, or_imp, forall_and] at insideIh ih ⊢
    tauto

/-! ## Contents -/

namespace Content

variable {c : Content}

/-- The names that tokens gave a node hold no line feed, and no resource gives it others. -/
structure IsPlainlyNamed (c : Content) : Prop where
  /-- The node stands for no resource. -/
  resource_eq : c.resource = none
  /-- The name of the element holds no line feed. -/
  name : ∀ name ∈ c.elementName, '\n' ∉ name
  /-- Nor do the names of the attributes. -/
  attributes : ∀ a ∈ c.attributes, '\n' ∉ a.name

/-- A blank node has no names. -/
theorem isPlainlyNamed_blank : IsPlainlyNamed {} :=
  ⟨rfl, fun _ none => absurd none (Option.not_mem_none _), fun _ none => absurd none List.not_mem_nil⟩

/-- The names that are shown of such a node are those that were given. -/
theorem IsPlainlyNamed.hasPlainNames (plain : c.IsPlainlyNamed) : c.HasPlainNames := by
  have noResource : c.elementResource? = none := by rw [elementResource?, plain.resource_eq, Option.filter_none]
  constructor
  · rw [nameText, name?, noResource]
    cases named : c.elementName with
    | none => exact List.not_mem_nil
    | some name => exact plain.name name named
  · rw [attributeList, noResource, Option.map_none, Option.getD_none, List.nil_append]
    exact Attribute.lineFeed_not_mem_of_merge plain.attributes

/-- A token with such names leaves a node with such names. -/
theorem IsPlainlyNamed.assign (plain : c.IsPlainlyNamed) {said : Token} (own : said.HasPlainNames) :
    (c.assign said).IsPlainlyNamed := by
  refine ⟨?_, ?_, ?_⟩
  · cases multiplier : said.multiplier <;> simp [Content.assign, multiplier, plain.resource_eq]
  · intro name named
    simp only [Content.assign] at named
    split at named
    · exact plain.name name named
    · next given some =>
      split at named
      · cases named
      · exact own.name name (some.trans named)
  · intro a among
    have assigned : (c.assign said).attributes = said.attributes.getD c.attributes := rfl
    rw [assigned] at among
    cases given : said.attributes with
    | none =>
      rw [given] at among
      exact plain.attributes a among
    | some attributes =>
      rw [given] at among
      exact own.attributes attributes given a among

/-- So does a run of such tokens. -/
theorem isPlainlyNamed_ofRun {run : List Token} (own : ∀ said ∈ run, said.HasPlainNames) :
    (ofRun run).IsPlainlyNamed := by
  have named : ∀ c : Content, c.IsPlainlyNamed → (run.foldl Content.assign c).IsPlainlyNamed := by
    induction run with
    | nil => exact fun c plain => plain
    | cons said run ih =>
      obtain ⟨first, others⟩ := List.forall_mem_cons.1 own
      exact fun c plain => ih others _ (plain.assign first)
  obtain ⟨resource_eq, name, attributes⟩ := named {} isPlainlyNamed_blank
  exact ⟨resource_eq, name, attributes⟩

/-- A copy of a node has the names of the node. -/
theorem IsPlainlyNamed.copy (plain : c.IsPlainlyNamed) {copy : Content} (isCopy : copy.IsCopyOf c) :
    copy.IsPlainlyNamed :=
  ⟨isCopy.resource_eq.trans plain.resource_eq, isCopy.elementName_eq ▸ plain.name,
    isCopy.attributes_eq ▸ plain.attributes⟩

end Content

/-! ## Trees -/

/-- Squashing leaves no contents that were not there. -/
theorem Node.contentsAll_squashAll_subset (nodes : List Node) : contentsAll (squashAll nodes) ⊆ contentsAll nodes := by
  induction nodes using Node.induction with
  | nil => rw [squashAll_nil]; exact List.Subset.refl _
  | cons c kids rest kidsInduction ih =>
    rw [squashAll_cons, contentsAll_append, contentsAll_cons]
    refine List.append_subset.2 ⟨?_, fun d inside => by simp [ih inside]⟩
    split
    · exact fun d inside => by simp [kidsInduction inside]
    · rw [contentsAll_cons, contentsAll_nil, List.append_nil]
      exact List.cons_subset_cons c fun d inside => List.mem_append_left _ (kidsInduction inside)

/-- The names in the tree of an abbreviation hold no line feed. -/
theorem isPlainlyNamed_of_parseRaw {t : Text} {root : Node} (accepted : parseRaw t = .ok root) :
    ∀ c ∈ Node.contentsAll root.children, c.IsPlainlyNamed := by
  obtain ⟨ended, rfl⟩ := parseRaw_eq_ok_iff.1 accepted
  have own := (isReadAs_of_readItems ended).hasPlainNames
  intro c inside
  have among := List.mem_map_of_mem (f := Content.unmultiplied) inside
  rw [Reading.tree, Node.children_mk, Item.contents_build] at among
  obtain ⟨run, isRun, same⟩ := List.mem_map.1 among
  obtain ⟨resource_eq, name, attributes⟩ := same ▸ Content.isPlainlyNamed_ofRun (own run isRun)
  exact ⟨resource_eq, name, attributes⟩

/-- A parsed tree is the optimized tree of the abbreviation. -/
theorem exists_parseRaw_of_parse {t : Text} {root : Node} (accepted : parse t = .ok root) :
    ∃ raw, parseRaw t = .ok raw ∧ root = optimize raw := by
  rw [parse] at accepted
  cases raw : parseRaw t with
  | error fault =>
    rw [raw] at accepted
    cases accepted
  | ok tree =>
    rw [raw] at accepted
    simp only [bind, Except.bind, optimizeWithin] at accepted
    by_cases low : tree.height ≤ treeLimit
    · rw [if_pos low] at accepted
      exact ⟨tree, rfl, (Except.ok.inj accepted).symm⟩
    · rw [if_neg low] at accepted
      cases accepted

/-- The names in a parsed tree hold no line feed. -/
theorem isPlainlyNamed_of_parse {t : Text} {root : Node} (accepted : parse t = .ok root) :
    ∀ c ∈ Node.contentsAll root.children, c.IsPlainlyNamed := by
  obtain ⟨⟨own, kids⟩, read, rfl⟩ := exists_parseRaw_of_parse accepted
  -- squashing takes nodes away, and unrolling makes copies
  have unrolled : ∀ c ∈ Node.contentsAll (Node.unrollAll {} kids), c.IsPlainlyNamed :=
    Node.forall_mem_unrollAll (fun _ => True)
      (fun plain _ made => ⟨plain.copy (Content.isCopyOf_of_mem_copies made), trivial⟩)
      (isPlainlyNamed_of_parseRaw read) trivial
  rw [optimize, Node.unroll_mk, Node.squash_mk, Node.children_mk]
  exact fun c inside => unrolled c (Node.contentsAll_squashAll_subset _ inside)

end Shorthand
