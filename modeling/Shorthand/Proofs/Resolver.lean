import Shorthand.Proofs.Grouping
import Shorthand.Proofs.Reading.Contents

/-! # Resolving before and after optimizing

A resolver attaches resources by element names, which neither pass looks at or changes. So it does not matter whether it
runs before the tree is optimized or after, and without the resources the tree is the one that is parsed without it.

* **`Content.unresolved`** — the content without its resource.
* `Resolver.optimize_resolve` — resolving commutes with optimizing, for all trees.
* `Resolver.mapBelow_unresolved_resolve` — what was parsed is left when the resources are cleared.
* `Resolver.parse_comm` — a resolver as the only preprocessor and as the only postprocessor. -/

namespace Shorthand

namespace Content

/-- The content without its resource. -/
def unresolved (c : Content) : Content := { c with resource := none }

/-- The passes do not notice that a resource is cleared. -/
theorem unresolved_isInert : IsInert unresolved :=
  ⟨fun _ => rfl, fun _ => rfl, fun _ => rfl, fun _ => rfl, fun _ _ => rfl, fun _ => rfl⟩

/-- Reading attaches no resources. -/
theorem unresolved_isUnread : IsUnread unresolved := by
  constructor
  · rfl
  · intro c multiplier
    cases multiplier <;> rfl
  · intro c said
    obtain ⟨multiplier, abbreviation, text, attributes, name⟩ := said
    cases multiplier <;> rfl

end Content

/-- The optimized tree of an abbreviation has no resources. -/
theorem mapBelow_unresolved_optimize_tree (reading : Reading) :
    (optimize reading.tree).mapBelow Content.unresolved = optimize reading.tree := by
  rw [← optimize_mapBelow Content.unresolved_isInert]
  show optimize (.mk {} (Node.mapEach Content.unresolved (Item.build reading.items))) = _
  rw [Item.mapEach_build Content.unresolved_isUnread]
  rfl

namespace Resolver

variable (r : Resolver)

/-- Attaching writes the resource alone. -/
theorem attach_eq (c : Content) :
    r.attach c = { c with resource := (r.lookup c.elementName).or c.resource } := by
  rw [attach]
  cases r.lookup c.elementName <;> rfl

/-- The passes do not notice that a resource is attached: it is looked up by the element name, which they keep. -/
theorem attach_isInert : Content.IsInert r.attach := by
  constructor
  case once_comm | withoutSlots_comm =>
    intro c
    rw [attach_eq, attach_eq]
    rfl
  case numbered_comm =>
    intro n c
    rw [attach_eq, attach_eq]
    rfl
  all_goals
    intro c
    rw [attach_eq]

/-- An attached resource is cleared with any other. -/
theorem unresolved_attach (c : Content) : (r.attach c).unresolved = c.unresolved := by
  rw [attach_eq]
  rfl

/-- Resolving commutes with optimizing. -/
theorem optimize_resolve (root : Node) : optimize (r.resolve root) = r.resolve (optimize root) :=
  optimize_mapBelow r.attach_isInert root

/-- A resolved tree is refused for its height exactly if the tree is. -/
theorem optimizeWithin_resolve (levels : Nat) (root : Node) :
    optimizeWithin levels (r.resolve root) = (optimizeWithin levels root).map r.resolve := by
  have height : (r.resolve root).height = root.height := Node.height_mapBelow r.attach root
  rw [optimizeWithin, optimizeWithin, height, optimize_resolve]
  by_cases within : root.height ≤ levels
  · rw [if_pos within, if_pos within]
    rfl
  · rw [if_neg within, if_neg within]
    rfl

/-- Clearing all resources clears what a resolver has attached. -/
theorem mapBelow_unresolved_resolve (root : Node) :
    (r.resolve root).mapBelow Content.unresolved = root.mapBelow Content.unresolved := by
  obtain ⟨c, kids⟩ := root
  simp only [resolve, Node.mapBelow, Node.withChildren, Node.mapEach_mapEach, r.unresolved_attach]

/-- What was parsed is left when the resources are cleared. -/
theorem unresolved_parseAnyHeight (t : Text) :
    ((parseAnyHeight t).map r.resolve).map (·.mapBelow Content.unresolved) = parseAnyHeight t := by
  cases parsed : parseAnyHeight t with
  | error fault => rfl
  | ok root =>
    obtain ⟨-, rfl⟩ := parseAnyHeight_eq_ok_iff.1 parsed
    have cleared := mapBelow_unresolved_optimize_tree (readAbbreviation t)
    show Except.ok (Node.mapBelow Content.unresolved (r.resolve _)) = _
    rw [mapBelow_unresolved_resolve]
    exact congrArg Except.ok cleared

/-- The same of a parse that refuses trees with too many levels. -/
theorem unresolved_parse (t : Text) :
    ((parse t).map r.resolve).map (·.mapBelow Content.unresolved) = parse t := by
  by_cases low : parse t = .error (.abbreviation .treeTooDeep)
  · rw [low]
    rfl
  · rw [parse_eq_parseAnyHeight low, unresolved_parseAnyHeight]

variable {σ ε : Type}

/-- A resolver that runs before the tree is optimized gives the parsed tree, resolved. -/
theorem result_preprocessor (t : Text) (memory : σ) :
    (Pipeline.parse (ε := ε) Resolver.act { preprocessors := [r] } memory t).result =
      ((parse t).map r.resolve).mapError .inl := by
  rw [Pipeline.parse, parse, parseRaw]
  cases (readAbbreviation t).fault with
  | some fault => rfl
  | none =>
    have resolved := r.optimizeWithin_resolve treeLimit (readAbbreviation t).tree
    simp only [Pipeline.runHooks, Resolver.act, Run.resolve, resolved, bind, Except.bind]
    cases optimizeWithin treeLimit (readAbbreviation t).tree <;> rfl

/-- So does a resolver that runs after the tree is optimized. -/
theorem result_postprocessor (t : Text) (memory : σ) :
    (Pipeline.parse (ε := ε) Resolver.act { postprocessors := [r] } memory t).result =
      ((parse t).map r.resolve).mapError .inl := by
  rw [Pipeline.parse, parse, parseRaw]
  cases (readAbbreviation t).fault with
  | some fault => rfl
  | none =>
    simp only [Pipeline.runHooks, Resolver.act, Run.resolve, bind, Except.bind]
    cases optimizeWithin treeLimit (readAbbreviation t).tree <;> rfl

/-- A resolver may run before or after the tree is optimized: the tree is the one that is parsed without it, resolved,
and when the resources are cleared it is that very tree. This holds also if the number of levels is not limited. -/
theorem parse_comm (t : Text) (memory : σ) :
    (Pipeline.parse (ε := ε) Resolver.act { preprocessors := [r] } memory t).result =
      (Pipeline.parse Resolver.act { postprocessors := [r] } memory t).result ∧
    (Pipeline.parse (ε := ε) Resolver.act { postprocessors := [r] } memory t).result =
      ((parse t).map r.resolve).mapError .inl ∧
    ((parse t).map r.resolve).map (·.mapBelow Content.unresolved) = parse t ∧
    (parseRaw t).map (fun root => optimize (r.resolve root)) = (parseAnyHeight t).map r.resolve ∧
    ((parseAnyHeight t).map r.resolve).map (·.mapBelow Content.unresolved) = parseAnyHeight t := by
  refine ⟨?_, r.result_postprocessor t memory, r.unresolved_parse t, ?_, r.unresolved_parseAnyHeight t⟩
  · rw [r.result_preprocessor, r.result_postprocessor]
  · rw [parseAnyHeight]
    cases parseRaw t with
    | error fault => rfl
    | ok root => exact congrArg Except.ok (r.optimize_resolve root)

end Resolver

end Shorthand
