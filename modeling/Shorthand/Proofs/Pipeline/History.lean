import Mathlib
import Shorthand.Pipeline

/-! # The history of a pipeline

The lists of a pipeline are edited by calls: a call lists a hook at the end of a phase, where a hook that is listed there
already stays where it is, or it strikes a hook. So the calls that were made tell what is listed, and in which order: a
hook is listed if it was added and has not been struck since, and hooks are ordered by the earliest call that added them
after they were struck last.

* **`Pipeline.Edit`**, **`Pipeline.edited`** — a call, and a pipeline after calls.
* **`Pipeline.IsListed`** — by a history, a hook was added and not struck since.
* **`Pipeline.IsListing`** — the call at a place is the earliest one that added a hook after it was struck last.
* **`Pipeline.Leaves`** — a list is what a history leaves of a phase.
* `Pipeline.leaves_edited` — the lists of a pipeline are what its history leaves. -/

namespace Shorthand

namespace Pipeline

variable {κ : Type}

/-- A call that edits one of the lists of a pipeline. -/
inductive Edit (κ : Type) where
  /-- List a hook at the end of a phase, unless it is listed there already. -/
  | add (phase : Phase) (key : κ)
  /-- Strike a hook from a phase. -/
  | remove (phase : Phase) (key : κ)
  deriving DecidableEq, Repr

/-- The phase whose list a call edits. -/
def Edit.phase : Edit κ → Phase
  | add phase _ => phase
  | remove phase _ => phase

/-- The pipeline after a call. -/
def edit [BEq κ] (p : Pipeline κ) : Edit κ → Pipeline κ
  | .add phase key => p.add phase key
  | .remove phase key => p.remove phase key

/-- The pipeline after calls that are made one after the other. -/
def edited [BEq κ] (p : Pipeline κ) (edits : List (Edit κ)) : Pipeline κ := edits.foldl edit p

section Edited

variable [BEq κ] (p : Pipeline κ)

@[simp] theorem edited_nil : p.edited [] = p := rfl

@[simp] theorem edited_cons (e : Edit κ) (edits : List (Edit κ)) :
    p.edited (e :: edits) = (p.edit e).edited edits := rfl

theorem edited_append (first second : List (Edit κ)) :
    p.edited (first ++ second) = (p.edited first).edited second := List.foldl_append ..

theorem edited_concat (edits : List (Edit κ)) (e : Edit κ) :
    p.edited (edits ++ [e]) = (p.edited edits).edit e := by
  rw [edited_append, edited_cons, edited_nil]

/-- A new pipeline has the given lists added, one hook after the other. -/
theorem ofLists_eq_edited (pre post : List κ) :
    ofLists pre post = Pipeline.edited {} (pre.map (.add .pre) ++ post.map (.add .post)) := by
  rw [edited_append, edited, edited, List.foldl_map, List.foldl_map]
  rfl

omit [BEq κ] in
theorem hooks_withHooks_of_ne {phase other : Phase} (different : other ≠ phase) (keys : List κ) :
    (p.withHooks phase keys).hooks other = p.hooks other := by
  cases phase <;> cases other <;> first | rfl | exact absurd rfl different

theorem hooks_add (phase : Phase) (key : κ) : (p.add phase key).hooks phase =
    if (p.hooks phase).contains key then p.hooks phase else p.hooks phase ++ [key] := by
  rw [add]
  split
  · rfl
  · rw [hooks_withHooks]

theorem hooks_remove (phase : Phase) (key : κ) :
    (p.remove phase key).hooks phase = (p.hooks phase).filter fun k => !(k == key) := by
  rw [remove, hooks_withHooks]

/-- A call edits the list of its phase alone. -/
theorem hooks_edit_of_ne {e : Edit κ} {phase : Phase} (different : phase ≠ e.phase) :
    (p.edit e).hooks phase = p.hooks phase := by
  cases e with
  | add other key =>
    rw [edit, add]
    split
    · rfl
    · exact hooks_withHooks_of_ne p different _
  | remove other key => exact hooks_withHooks_of_ne p different _

end Edited

/-! ## What a history says -/

section History

variable (phase : Phase) (history : List (Edit κ))

/-- The hook was added and has not been struck since. -/
def IsListed (key : κ) : Prop :=
  ∃ i : Nat, history[i]? = some (.add phase key) ∧
    ∀ j, i < j → history[j]? ≠ some (.remove phase key)

/-- The call at a place is the earliest one that added a hook after it was struck last. -/
structure IsListing (key : κ) (i : Nat) : Prop where
  /-- The call adds the hook. -/
  added : history[i]? = some (.add phase key)
  /-- The hook has not been struck since. -/
  kept : ∀ j, i < j → history[j]? ≠ some (.remove phase key)
  /-- Whenever it was added before, it was struck in between. -/
  earliest : ∀ j, j < i → history[j]? = some (.add phase key) →
    ∃ k, j < k ∧ k < i ∧ history[k]? = some (.remove phase key)

/-- The list is what a history leaves of a phase: no hook is in it twice, the hooks in it are those that were added and
not struck since, and they are ordered by the calls that list them. -/
structure Leaves (keys : List κ) : Prop where
  /-- No hook is listed twice. -/
  nodup : keys.Nodup
  /-- The hooks are those that were added and not struck since. -/
  mem_iff : ∀ key, key ∈ keys ↔ IsListed phase history key
  /-- They are ordered by their earliest addition after they were struck last. -/
  ordered : ∃ place : κ → Nat, (∀ key ∈ keys, IsListing phase history key (place key)) ∧
    keys.Pairwise fun key key' => place key < place key'

end History

variable {phase : Phase} {history : List (Edit κ)} {key : κ} {e : Edit κ}

/-- A call of a history with one more call is an earlier one or the new one. -/
theorem getElem?_concat_eq_some_iff {i : Nat} {call : Edit κ} :
    (history ++ [e])[i]? = some call ↔ history[i]? = some call ∨ (i = history.length ∧ e = call) := by
  rcases Nat.lt_trichotomy i history.length with before | rfl | after
  · rw [List.getElem?_append_left before]
    simp [Nat.ne_of_lt before]
  · simp
  · rw [List.getElem?_eq_none (by rw [List.length_append]; exact after),
      List.getElem?_eq_none (Nat.le_of_lt after)]
    simp [Nat.ne_of_gt after]

theorem lt_length_of_getElem? {i : Nat} {call : Edit κ} (found : history[i]? = some call) :
    i < history.length := (List.getElem?_eq_some_iff.1 found).1

/-- After one more call a hook is listed if the call adds it, or if it was listed and the call does not strike it. -/
theorem isListed_concat_iff : IsListed phase (history ++ [e]) key ↔
    e = .add phase key ∨ (e ≠ .remove phase key ∧ IsListed phase history key) := by
  simp only [IsListed, ne_eq, getElem?_concat_eq_some_iff, not_or, not_and]
  constructor
  · rintro ⟨i, found | ⟨rfl, rfl⟩, kept⟩
    · have before := lt_length_of_getElem? found
      exact .inr ⟨(kept history.length before).2 rfl, i, found, fun j later => (kept j later).1⟩
    · exact .inl rfl
  · rintro (rfl | ⟨stays, i, found, kept⟩)
    · refine ⟨history.length, .inr ⟨rfl, rfl⟩, fun j later => ⟨?_, ?_⟩⟩
      · rw [List.getElem?_eq_none (Nat.le_of_lt later)]
        simp
      · intro same
        omega
    · exact ⟨i, .inl found, fun j later => ⟨kept j later, fun _ => stays⟩⟩

/-- The call that lists a hook still does so after a call that does not strike the hook. -/
theorem IsListing.concat {i : Nat} (listing : IsListing phase history key i)
    (stays : e ≠ .remove phase key) : IsListing phase (history ++ [e]) key i := by
  have before := lt_length_of_getElem? listing.added
  constructor
  · exact getElem?_concat_eq_some_iff.2 (.inl listing.added)
  · intro j later found
    rcases getElem?_concat_eq_some_iff.1 found with earlier | ⟨-, struck⟩
    · exact listing.kept j later earlier
    · exact stays struck
  · intro j earlier found
    rcases getElem?_concat_eq_some_iff.1 found with earlierCall | ⟨rfl, -⟩
    · obtain ⟨k, after, until_, struck⟩ := listing.earliest j earlier earlierCall
      exact ⟨k, after, until_, getElem?_concat_eq_some_iff.2 (.inl struck)⟩
    · omega

/-- A call that adds a hook that is not listed lists it. -/
theorem isListing_concat_add (missing : ¬ IsListed phase history key) :
    IsListing phase (history ++ [.add phase key]) key history.length := by
  constructor
  · exact getElem?_concat_eq_some_iff.2 (.inr ⟨rfl, rfl⟩)
  · intro j later found
    rcases getElem?_concat_eq_some_iff.1 found with earlier | ⟨rfl, -⟩
    · have := lt_length_of_getElem? earlier
      omega
    · omega
  · intro j earlier found
    rcases getElem?_concat_eq_some_iff.1 found with before | ⟨rfl, -⟩
    · -- the hook was struck after that call, for otherwise it would be listed
      have struck : ¬ ∀ k, j < k → history[k]? ≠ some (.remove phase key) :=
        fun kept => missing ⟨j, before, kept⟩
      push Not at struck
      obtain ⟨k, after, call⟩ := struck
      exact ⟨k, after, lt_length_of_getElem? call, getElem?_concat_eq_some_iff.2 (.inl call)⟩
    · omega

/-! ## What the lists are -/

section Leaves

variable {keys : List κ}

/-- Nothing is left of no history. -/
theorem leaves_nil : Leaves phase [] ([] : List κ) := by
  refine ⟨List.nodup_nil, ?_, fun _ => 0, ?_, List.Pairwise.nil⟩
  · intro key
    simp [IsListed]
  · intro key inside
    exact absurd inside List.not_mem_nil

/-- A call for the other phase leaves the list as it is. -/
theorem Leaves.concat_of_ne (left : Leaves phase history keys) (different : phase ≠ e.phase) :
    Leaves phase (history ++ [e]) keys := by
  have notAdded : ∀ key, e ≠ .add phase key := by
    rintro key rfl
    exact different rfl
  have notStruck : ∀ key, e ≠ .remove phase key := by
    rintro key rfl
    exact different rfl
  obtain ⟨nodup, mem_iff, place, listing, ordered⟩ := left
  refine ⟨nodup, ?_, place, fun key inside => (listing key inside).concat (notStruck key), ordered⟩
  intro key
  rw [mem_iff, isListed_concat_iff]
  simp [notAdded key, notStruck key]

/-- After a call that adds a hook that hook is listed, and so are those before. -/
theorem Leaves.isListed_concat_add_iff (left : Leaves phase history keys) {key other : κ} :
    IsListed phase (history ++ [.add phase key]) other ↔ other = key ∨ other ∈ keys := by
  rw [isListed_concat_iff, left.mem_iff]
  simp [eq_comm]

/-- A hook that is listed stays where it is when it is added. -/
theorem Leaves.concat_add_of_mem (left : Leaves phase history keys) (inside : key ∈ keys) :
    Leaves phase (history ++ [.add phase key]) keys := by
  obtain ⟨place, listing, ordered⟩ := left.ordered
  refine ⟨left.nodup, ?_, place, fun other found => (listing other found).concat nofun, ordered⟩
  intro other
  rw [left.isListed_concat_add_iff]
  constructor
  · exact .inr
  · rintro (rfl | found)
    · exact inside
    · exact found

variable [BEq κ] [LawfulBEq κ]

/-- A hook that is not listed comes to the end when it is added. -/
theorem Leaves.concat_add_of_not_mem (left : Leaves phase history keys) (outside : key ∉ keys) :
    Leaves phase (history ++ [.add phase key]) (keys ++ [key]) := by
  obtain ⟨place, listing, ordered⟩ := left.ordered
  have different : ∀ other ∈ keys, (other == key) = false := by
    intro other found
    rw [beq_eq_false_iff_ne]
    rintro rfl
    exact outside found
  refine ⟨?_, ?_, fun other => if other == key then history.length else place other, ?_, ?_⟩
  · rw [← List.concat_eq_append]
    exact left.nodup.concat outside
  · intro other
    rw [left.isListed_concat_add_iff, List.mem_append, List.mem_singleton, or_comm]
  · intro other found
    rcases List.mem_append.1 found with earlier | new
    · simp only [different other earlier]
      exact (listing other earlier).concat nofun
    · obtain rfl := List.mem_singleton.1 new
      simp only [beq_self_eq_true]
      exact isListing_concat_add fun found => outside ((left.mem_iff other).2 found)
  · refine List.pairwise_append.2 ⟨?_, List.pairwise_singleton .., ?_⟩
    · refine ordered.imp_of_mem ?_
      intro first second firstInside secondInside before
      simp only [different first firstInside, different second secondInside]
      exact before
    · intro other found new same
      obtain rfl := List.mem_singleton.1 same
      simp only [different other found, beq_self_eq_true]
      exact lt_length_of_getElem? (listing other found).added

/-- A hook that is added stays where it is if it is listed, and otherwise it comes to the end. -/
theorem Leaves.concat_add (left : Leaves phase history keys) (key : κ) :
    Leaves phase (history ++ [.add phase key]) (if keys.contains key then keys else keys ++ [key]) := by
  split
  · next found => exact left.concat_add_of_mem (List.contains_iff_mem.1 found)
  · next missing => exact left.concat_add_of_not_mem fun inside => missing (List.contains_iff_mem.2 inside)

/-- A hook that is struck is gone, and the others stay in order. -/
theorem Leaves.concat_remove (left : Leaves phase history keys) (key : κ) :
    Leaves phase (history ++ [.remove phase key]) (keys.filter fun k => !(k == key)) := by
  obtain ⟨nodup, mem_iff, place, listing, ordered⟩ := left
  have mem_filter : ∀ other, other ∈ keys.filter (fun k => !(k == key)) ↔ other ∈ keys ∧ other ≠ key := by
    intro other
    rw [List.mem_filter, Bool.not_eq_true', beq_eq_false_iff_ne]
  refine ⟨nodup.filter _, ?_, place, ?_, ordered.filter _⟩
  · intro other
    rw [mem_filter, isListed_concat_iff, mem_iff]
    simp [eq_comm, and_comm]
  · intro other found
    obtain ⟨inside, different⟩ := (mem_filter other).1 found
    refine (listing other inside).concat ?_
    intro same
    cases same
    exact different rfl

/-- The lists of a pipeline are what its history leaves. -/
theorem leaves_edited (history : List (Edit κ)) (phase : Phase) :
    Leaves phase history ((Pipeline.edited {} history).hooks phase) := by
  induction history using List.reverseRecOn with
  | nil =>
    cases phase <;> exact leaves_nil
  | append_singleton history e ih =>
    rw [edited_concat]
    by_cases same : phase = e.phase
    · subst same
      cases e with
      | add phase key =>
        rw [edit, Edit.phase, hooks_add]
        exact ih.concat_add key
      | remove phase key =>
        rw [edit, Edit.phase, hooks_remove]
        exact ih.concat_remove key
    · rw [hooks_edit_of_ne _ same]
      exact ih.concat_of_ne same

end Leaves

end Pipeline

end Shorthand
