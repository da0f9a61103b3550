import Shorthand.Hook
import Shorthand.Proofs.Pipeline.History
import Shorthand.Proofs.Pipeline.Journal

/-! # Which hooks run, and in which order

A pipeline lives through calls that edit its lists and through parses, whose hooks make such calls themselves. Whatever
the order of all these calls, each list is at every moment what the calls so far leave of it, also in the middle of a
hook.

* **`Pipeline.EditsBy`** — what hooks do to the pipeline that runs them is a sequence of calls.
* **`Pipeline.Lived`**, **`Pipeline.Moment`** — the calls up to the end of a call or parse, or up to any moment, and the
  pipeline then.
* `Pipeline.Moment.eq_edited` — the lists at a moment are made by the calls up to it.
* `Pipeline.hooks_run_in_order` — what is listed at any moment, and which hooks a parse runs. -/

namespace Shorthand

namespace Pipeline

variable {κ σ ε : Type}

/-! ## What hooks do to the lists -/

section Calls

variable [BEq κ]

/-- What the hooks do to the pipeline that runs them is to make the given calls. -/
def EditsBy (act : Act κ σ ε) (calls : κ → Run κ σ → List (Edit κ)) : Prop :=
  ∀ key run, (act key run).1.pipeline = run.pipeline.edited (calls key run)

/-- The calls that the hooks of a journal made. -/
def callsOf (calls : κ → Run κ σ → List (Edit κ)) (entries : Journal κ σ) : List (Edit κ) :=
  entries.flatMap fun entry => calls entry.1 entry.2

/-- The calls of each hook of a journal lead from the pipeline that it sees to the one that the next hook sees. -/
def Threads (calls : κ → Run κ σ → List (Edit κ)) : Pipeline κ → Journal κ σ → Pipeline κ → Prop
  | p, [], q => q = p
  | p, (key, seen) :: rest, q => seen.pipeline = p ∧ Threads calls (p.edited (calls key seen)) rest q

variable {act : Act κ σ ε} {calls : κ → Run κ σ → List (Edit κ)} {p q r : Pipeline κ}
  {earlier later entries : Journal κ σ}

theorem threads_append : Threads calls p (earlier ++ later) r ↔
    ∃ q, Threads calls p earlier q ∧ Threads calls q later r := by
  induction earlier generalizing p with
  | nil =>
    constructor
    · intro threads
      exact ⟨p, rfl, threads⟩
    · rintro ⟨q, rfl, threads⟩
      exact threads
  | cons entry rest ih =>
    rw [List.cons_append, Threads, ih]
    constructor
    · rintro ⟨same, q, first, second⟩
      exact ⟨q, ⟨same, first⟩, second⟩
    · rintro ⟨q, ⟨same, first⟩, second⟩
      exact ⟨same, q, first, second⟩

/-- A journal leads to the pipeline after all of its calls. -/
theorem Threads.eq_edited (threads : Threads calls p entries q) : q = p.edited (callsOf calls entries) := by
  induction entries generalizing p with
  | nil => exact threads
  | cons entry rest ih =>
    rw [callsOf, List.flatMap_cons, edited_append]
    exact ih threads.2

/-- A hook sees the pipeline after the calls of the hooks before it. -/
theorem Threads.pipeline_seen {key : κ} {seen : Run κ σ}
    (threads : Threads calls p (earlier ++ (key, seen) :: later) q) :
    seen.pipeline = p.edited (callsOf calls earlier) := by
  obtain ⟨middle, before, same, -⟩ := threads_append.1 threads
  rw [same, before.eq_edited]

/-- Hooks that ran one after the other hand on the pipeline. -/
theorem Leads.threads (editsBy : EditsBy act calls) {start stop : Run κ σ}
    (leads : Leads act start entries stop) : Threads calls start.pipeline entries stop.pipeline := by
  induction entries generalizing start with
  | nil => exact congrArg Run.pipeline leads
  | cons entry rest ih =>
    obtain ⟨rfl, leads⟩ := leads
    have handed := ih leads
    rw [editsBy] at handed
    exact ⟨rfl, handed⟩

/-- So do the hooks of a parse, from the pipeline that is parsed with to the one that is left. -/
theorem Course.threads (editsBy : EditsBy act calls) {memory : σ} {t : Text} {pre post : Journal κ σ}
    {outcome : Outcome κ σ ε} (course : Course act p memory t pre post outcome) :
    Threads calls p (pre ++ post) outcome.pipeline := by
  cases course with
  | preprocessorRaised first =>
    rw [List.append_nil]
    exact first.leads.threads editsBy
  | notOptimized first refused =>
    rw [List.append_nil]
    exact first.leads.threads editsBy
  | postprocessorRaised first optimized second =>
    exact threads_append.2 ⟨_, first.leads.threads editsBy, second.leads.threads editsBy⟩
  | done first optimized second =>
    exact threads_append.2 ⟨_, first.leads.threads editsBy, second.leads.threads editsBy⟩

/-- The journal of a parse hands on the pipeline. -/
theorem threads_journal (editsBy : EditsBy act calls) (p : Pipeline κ) (memory : σ) (t : Text) :
    Threads calls p (journal act p memory t) (p.parse act memory t).pipeline := by
  cases raw : parseRaw t with
  | error fault =>
    obtain ⟨noHook, parsed⟩ := parse_of_rejected act p memory raw
    rw [noHook, parsed]
    exact rfl
  | ok root =>
    obtain ⟨pre, post, same, -, course⟩ := journal_course act p memory raw
    rw [same]
    exact course.threads editsBy

end Calls

/-! ## The life of a pipeline -/

section Lives

variable [BEq κ] (act : Act κ σ ε) (calls : κ → Run κ σ → List (Edit κ))

/-- A pipeline came to be through the given calls, those of hooks among them, and no call or parse is under way. -/
inductive Lived : List (Edit κ) → Pipeline κ → Prop where
  /-- The pipeline was made of two lists. -/
  | new (pre post : List κ) : Lived (pre.map (.add .pre) ++ post.map (.add .post)) (ofLists pre post)
  /-- One of its lists was edited. -/
  | call {history p} (before : Lived history p) (e : Edit κ) : Lived (history ++ [e]) (p.edit e)
  /-- It was parsed with, and the hooks that ran made their calls. -/
  | parse {history p} (before : Lived history p) (memory : σ) (t : Text) :
    Lived (history ++ callsOf calls (journal act p memory t)) (p.parse act memory t).pipeline

/-- A moment in the life of a pipeline, by the calls up to it and the pipeline at it. -/
inductive Moment : List (Edit κ) → Pipeline κ → Prop where
  /-- No call or parse is under way. -/
  | between {history p} (lived : Lived act calls history p) : Moment history p
  /-- A parse is under way: some hooks ran before, and a hook has made some of its calls. -/
  | within {history p} (lived : Lived act calls history p) (memory : σ) (t : Text) {earlier key seen later}
      (ran : journal act p memory t = earlier ++ (key, seen) :: later) (made : Nat) :
    Moment (history ++ callsOf calls earlier ++ (calls key seen).take made)
      (seen.pipeline.edited ((calls key seen).take made))

variable {act calls} {history : List (Edit κ)} {p : Pipeline κ}

/-- The lists are made by the calls. -/
theorem Lived.eq_edited (editsBy : EditsBy act calls) (lived : Lived act calls history p) :
    p = Pipeline.edited {} history := by
  induction lived with
  | new pre post => exact ofLists_eq_edited pre post
  | call before e ih => rw [edited_concat, ← ih]
  | @parse history p before memory t ih =>
    have threads := threads_journal editsBy p memory t
    rw [edited_append, ← ih]
    exact threads.eq_edited

/-- The same at any moment. -/
theorem Moment.eq_edited (editsBy : EditsBy act calls) (moment : Moment act calls history p) :
    p = Pipeline.edited {} history := by
  cases moment with
  | between lived => exact lived.eq_edited editsBy
  | @within history p lived memory t earlier key seen later ran made =>
    have threads := threads_journal editsBy p memory t
    rw [ran] at threads
    rw [edited_append, edited_append, ← lived.eq_edited editsBy, ← threads.pipeline_seen]

variable [LawfulBEq κ]

/-- The lists at any moment are what the calls up to it leave. -/
theorem Moment.leaves (editsBy : EditsBy act calls) (moment : Moment act calls history p) (phase : Phase) :
    Leaves phase history (p.hooks phase) := by
  rw [moment.eq_edited editsBy]
  exact leaves_edited history phase

/-- A parse with a pipeline that came to be through calls runs no hook twice in a phase. -/
theorem Course.nodup (editsBy : EditsBy act calls) (lived : Lived act calls history p) {memory : σ} {t : Text}
    {pre post : Journal κ σ} {outcome : Outcome κ σ ε} (course : Course act p memory t pre post outcome) :
    (pre.map Prod.fst).Nodup ∧ (post.map Prod.fst).Nodup := by
  have firstDistinct : p.preprocessors.Nodup := ((Moment.between lived).leaves editsBy .pre).nodup
  have secondDistinct : ∀ {stop raised}, PhaseRun act p.preprocessors (rawRun p memory t) pre stop raised →
      stop.pipeline.postprocessors.Nodup := by
    intro stop raised first
    have handed := (first.leads.threads editsBy).eq_edited
    have left : stop.pipeline = Pipeline.edited {} (history ++ callsOf calls pre) := by
      rw [edited_append, ← lived.eq_edited editsBy]
      exact handed
    rw [left]
    exact (leaves_edited _ .post).nodup
  cases course with
  | preprocessorRaised first => exact ⟨first.map_fst_isPrefix.sublist.nodup firstDistinct, List.nodup_nil⟩
  | notOptimized first refused => exact ⟨first.map_fst_isPrefix.sublist.nodup firstDistinct, List.nodup_nil⟩
  | postprocessorRaised first optimized second =>
    exact ⟨first.map_fst_isPrefix.sublist.nodup firstDistinct,
      second.map_fst_isPrefix.sublist.nodup (secondDistinct first)⟩
  | done first optimized second =>
    exact ⟨first.map_fst_isPrefix.sublist.nodup firstDistinct,
      second.map_fst_isPrefix.sublist.nodup (secondDistinct first)⟩

/-- Which hooks run, and in which order. At any moment each list is what the calls so far leave of it. The parse of a
rejected abbreviation runs no hook and leaves the pipeline as it is. Any other parse goes its course: it begins on the
tree as it was read with the preprocessors that are listed, and it goes on with the postprocessors that are listed when
those have ended, each hook once. -/
theorem hooks_run_in_order (editsBy : EditsBy act calls) :
    (∀ history p, Moment act calls history p → ∀ phase, Leaves phase history (p.hooks phase)) ∧
    (∀ (p : Pipeline κ) (memory : σ) (t : Text) fault, parseRaw t = .error fault →
      journal act p memory t = [] ∧
        p.parse act memory t = ⟨.error (.inl fault), memory, p, (readAbbreviation t).notes⟩) ∧
    ∀ (p : Pipeline κ) (memory : σ) (t : Text) root, parseRaw t = .ok root →
      ∃ pre post, journal act p memory t = pre ++ post ∧ (rawRun p memory t).tree = root ∧
        Course act p memory t pre post (p.parse act memory t) ∧
        ∀ history, Lived act calls history p → (pre.map Prod.fst).Nodup ∧ (post.map Prod.fst).Nodup := by
  refine ⟨fun history p moment => moment.leaves editsBy, fun p memory t fault => parse_of_rejected act p memory, ?_⟩
  intro p memory t root accepted
  obtain ⟨pre, post, same, raw, course⟩ := journal_course act p memory accepted
  exact ⟨pre, post, same, raw, course, fun history lived => course.nodup editsBy lived⟩

end Lives

end Pipeline

namespace HookTable

/-- The calls that the hook of a name makes. -/
def calls (hooks : HookTable) (name : Text) (_ : Run Text HookMemory) : List (Pipeline.Edit Text) :=
  match Table.find? name hooks with
  | some (.edit true phase target) => [.add phase target]
  | some (.edit false phase target) => [.remove phase target]
  | _ => []

/-- Stock hooks do nothing to the pipeline that runs them but to make their calls. -/
theorem editsBy_calls (hooks : HookTable) : Pipeline.EditsBy hooks.act hooks.calls := by
  intro name run
  rw [act, calls]
  cases Table.find? name hooks with
  | none => rfl
  | some hook =>
    cases hook with
    | edit listed phase target => cases listed <;> rfl
    | update property value =>
      simp only [Hook.perform]
      cases Assignment.read property value <;> rfl
    | _ => rfl

end HookTable

namespace Pipeline

/-- Hooks that edit the pipeline that runs them: one strikes itself, and one lists a third hook for the next phase. -/
def editingHooks : HookTable :=
  [("once".toList, .edit false .pre "once".toList), ("late".toList, .edit true .post "seen".toList),
    ("seen".toList, .record)]

/-- The three hooks run, in this order, and the first is gone afterwards. -/
theorem hooks_run_in_order_editingHooks :
    EditsBy editingHooks.act editingHooks.calls ∧
    ∃ pre post, (pre ++ post).map Prod.fst = ["once".toList, "late".toList, "seen".toList] ∧
      Course editingHooks.act (ofLists ["once".toList, "late".toList, "once".toList] []) {} "a".toList pre post
        ((ofLists ["once".toList, "late".toList, "once".toList] []).parse editingHooks.act {} "a".toList) ∧
      Leaves .pre [.add .pre "once".toList, .add .pre "late".toList, .add .pre "once".toList,
        .remove .pre "once".toList, .add .post "seen".toList] ["late".toList] := by
  have editsBy := editingHooks.editsBy_calls
  obtain ⟨leaves, -, runs⟩ := hooks_run_in_order editsBy
  obtain ⟨pre, post, same, -, course, -⟩ :=
    runs (ofLists ["once".toList, "late".toList, "once".toList] []) {} "a".toList _ (by cbv)
  have moment : Moment editingHooks.act editingHooks.calls _ _ :=
    .between (.parse (.new ["once".toList, "late".toList, "once".toList] []) {} "a".toList)
  have history : ["once".toList, "late".toList, "once".toList].map (Edit.add .pre) ++ [].map (Edit.add .post) ++
      callsOf editingHooks.calls (journal editingHooks.act
        (ofLists ["once".toList, "late".toList, "once".toList] []) {} "a".toList) =
      [.add .pre "once".toList, .add .pre "late".toList, .add .pre "once".toList,
        .remove .pre "once".toList, .add .post "seen".toList] := by cbv
  have listed : ((ofLists ["once".toList, "late".toList, "once".toList] []).parse editingHooks.act {}
      "a".toList).pipeline.hooks .pre = ["late".toList] := by cbv
  refine ⟨editsBy, pre, post, ?_, course, ?_⟩
  · rw [← same]
    cbv
  · have left := leaves _ _ moment .pre
    rwa [history, listed] at left

end Pipeline

end Shorthand
