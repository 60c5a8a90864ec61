import Mathlib.Data.Set.Card
import TemplateExpr.Command
import TemplateExpr.Proofs.Engine.Session

/-!
# The cache is transparent

What a client can know of the cache, after any sequence of operations. The cache holds the texts
that were parsed since it was last emptied, and decides which evaluator is handed out, so that a
text keeps its evaluator as long as the cache is not emptied. It decides nothing else: all that
comes of evaluating is what would come of it without a cache.

The first part follows from what one operation can do (`Session.Move`): a text is in the cache after
an operation exactly if it was before and the cache was not emptied, or if it has just been parsed
(`Session.Move.cached_iff`). The second is a simulation, which rests on every evaluator in the cache
being what compiling its text gives (`Session.Sound`).
-/

namespace TemplateExpr

theorem Entries.mem_names {α : Type} {key : String} {entries : Entries α} :
    key ∈ entries.map Prod.fst ↔ ∃ value, Entries.get? key entries = some value := by
  induction entries with
  | nil => simp
  | cons entry rest ih =>
    obtain ⟨k, v⟩ := entry
    rw [List.map_cons, List.mem_cons, ih, Entries.get?_cons]
    by_cases hk : key = k <;> simp [hk]

namespace Session

variable {σ : Type}

/-! ## What is in the cache -/

/-- That a text was parsed with success, to an evaluator, and the cache was not emptied since. -/
def ParsedSince (host : Host σ) (start : Session σ) (operations : List Operation) (text : String)
    (evaluator : Evaluator) : Prop :=
  ∃ before between, operations = before ++ .parse text :: between ∧ Operation.clear ∉ between ∧
    start.answer host before (.parse text) = .obtained evaluator

theorem parsedSince_snoc {host : Host σ} {start : Session σ} {operations : List Operation}
    {next : Operation} {text : String} {evaluator : Evaluator} :
    ParsedSince host start (operations ++ [next]) text evaluator ↔
      next ≠ .clear ∧ ParsedSince host start operations text evaluator ∨
        next = .parse text ∧ start.answer host operations next = .obtained evaluator := by
  constructor
  · rintro ⟨before, between, hsplit, hclear, hanswer⟩
    rcases List.eq_nil_or_concat between with rfl | ⟨rest, last, rfl⟩
    · obtain ⟨rfl, hnext⟩ := List.append_inj' hsplit rfl
      cases hnext
      exact .inr ⟨rfl, hanswer⟩
    · rw [List.concat_eq_append, ← List.cons_append, ← List.append_assoc] at hsplit
      obtain ⟨rfl, hnext⟩ := List.append_inj' hsplit rfl
      cases hnext
      rw [List.concat_eq_append, List.mem_append, not_or] at hclear
      refine .inl ⟨?_, before, rest, rfl, hclear.1, hanswer⟩
      rintro rfl
      exact hclear.2 (List.mem_singleton_self _)
  · rintro (⟨hnext, before, between, rfl, hclear, hanswer⟩ | ⟨rfl, hanswer⟩)
    · refine ⟨before, between ++ [next], by rw [List.append_assoc, List.cons_append], ?_, hanswer⟩
      rw [List.mem_append, List.mem_singleton]
      rintro (hmem | rfl)
      · exact hclear hmem
      · exact hnext rfl
    · exact ⟨operations, [], rfl, List.not_mem_nil, hanswer⟩

theorem Move.cached_iff {session after : Session σ} {operation : Operation} {given : Answer}
    (move : session.Move operation given after) (text : String) (evaluator : Evaluator) :
    Entries.get? text after.engine.cache = some evaluator ↔
      operation ≠ .clear ∧ Entries.get? text session.engine.cache = some evaluator ∨
        operation = .parse text ∧ given = .obtained evaluator := by
  cases move with
  | rest _ _ _ hclear hgiven hengine _ => simp [hengine, hclear, hgiven]
  | passed handle found _ _ hengine _ => simp [hengine]
  | found text' found _ hcached hengine _ =>
    rw [hengine]
    constructor
    · exact fun hget => .inl ⟨nofun, hget⟩
    · rintro (⟨-, hget⟩ | ⟨hparse, hobtained⟩)
      · exact hget
      · cases hparse
        cases hobtained
        exact hcached
  | made _ expression _ hclear hparse hengine _ => simp [hengine, hclear, hparse]
  | cached text' expression _ hmissed _ hengine _ =>
    rw [hengine, Entries.get?_insert]
    by_cases htext : text = text'
    · subst htext
      simp [hmissed]
    · simp [htext, Ne.symm htext]
  | cleared _ hengine _ => simp [hengine, Engine.clear]

/-- An evaluator is in the cache exactly if its text was parsed since the cache was emptied. -/
theorem cached_iff_parsedSince (host : Host σ) (filters : Registry) (state : σ)
    (operations : List Operation) (text : String) (evaluator : Evaluator) :
    Entries.get? text ((new filters state).play host operations).engine.cache = some evaluator ↔
      ParsedSince host (new filters state) operations text evaluator := by
  induction operations using List.reverseRecOn with
  | nil =>
    constructor
    · exact fun hget => nomatch hget
    · rintro ⟨before, between, hsplit, -⟩
      exact absurd hsplit.symm (by simp)
  | append_singleton operations next ih =>
    rw [play_snoc, (step_move host _ next).cached_iff, ih, parsedSince_snoc]
    rfl

/-! ## Identities -/

/-- That identities are given once: every handle has one that was given, and no two evaluators share
one. -/
structure Identified (session : Session σ) : Prop where
  issued : ∀ evaluator ∈ session.handles, evaluator.identity < session.engine.issued
  unique : ∀ first ∈ session.handles, ∀ second ∈ session.handles,
    first.identity = second.identity → first = second

theorem Identified.again {session after : Session σ} {evaluator : Evaluator}
    (h : session.Identified) (hmem : evaluator ∈ session.handles)
    (hissued : after.engine.issued = session.engine.issued)
    (hhandles : after.handles = session.handles ++ [evaluator]) : after.Identified := by
  have hold : ∀ other ∈ after.handles, other ∈ session.handles := by
    intro other hother
    rw [hhandles, List.mem_append, List.mem_singleton] at hother
    rcases hother with hother | rfl
    · exact hother
    · exact hmem
  refine ⟨fun other hother => ?_, fun first hfirst second hsecond => ?_⟩
  · rw [hissued]
    exact h.issued other (hold other hother)
  · exact h.unique first (hold first hfirst) second (hold second hsecond)

theorem Identified.fresh {session after : Session σ} {evaluator : Evaluator}
    (h : session.Identified) (hfresh : evaluator.identity = session.engine.issued)
    (hissued : after.engine.issued = session.engine.issued + 1)
    (hhandles : after.handles = session.handles ++ [evaluator]) : after.Identified := by
  have hcases : ∀ other ∈ after.handles,
      other ∈ session.handles ∧ other.identity < session.engine.issued ∨ other = evaluator := by
    intro other hother
    rw [hhandles, List.mem_append, List.mem_singleton] at hother
    exact hother.imp_left fun hother => ⟨hother, h.issued other hother⟩
  refine ⟨fun other hother => ?_, fun first hfirst second hsecond heq => ?_⟩
  · rw [hissued]
    rcases hcases other hother with ⟨-, hlt⟩ | rfl
    · omega
    · omega
  · rcases hcases first hfirst with ⟨hfirst, hlt⟩ | rfl
    · rcases hcases second hsecond with ⟨hsecond, -⟩ | rfl
      · exact h.unique first hfirst second hsecond heq
      · omega
    · rcases hcases second hsecond with ⟨-, hlt⟩ | rfl
      · omega
      · rfl

/-! ## The invariant -/

structure Sound (session : Session σ) : Prop extends Identified session where
  nodup : (session.engine.cache.map Prod.fst).Nodup
  /-- What is in the cache was handed out. -/
  known : ∀ text evaluator, Entries.get? text session.engine.cache = some evaluator →
    evaluator ∈ session.handles
  /-- What is in the cache is what compiling gives. -/
  compiled : ∀ text evaluator, Entries.get? text session.engine.cache = some evaluator →
    session.engine.compile text = .ok evaluator.expression

theorem sound_new (filters : Registry) (state : σ) : (new filters state).Sound where
  issued _ hmem := nomatch hmem
  unique _ hmem := nomatch hmem
  nodup := List.nodup_nil
  known _ _ hget := nomatch hget
  compiled _ _ hget := nomatch hget

section

variable {session after : Session σ} {operation : Operation} {given : Answer}

theorem Move.compile_eq (move : session.Move operation given after) (text : String) :
    after.engine.compile text = session.engine.compile text := by
  cases move with
  | rest _ _ _ _ _ hengine | passed _ _ _ _ hengine | found _ _ _ _ hengine
  | made _ _ _ _ _ hengine | cached _ _ _ _ _ hengine | cleared _ hengine =>
    simp only [Engine.compile, hengine, Engine.clear]

/-- Only emptying the cache and parsing a text with success can change the cache. -/
theorem Move.cache_eq (move : session.Move operation given after) (hclear : operation ≠ .clear)
    (hparse : ∀ text evaluator, operation = .parse text → given ≠ .obtained evaluator) :
    after.engine.cache = session.engine.cache := by
  cases move with
  | rest _ _ _ _ _ hengine | passed _ _ _ _ hengine | found _ _ _ _ hengine
  | made _ _ _ _ _ hengine => rw [hengine]
  | cached text => exact absurd rfl (hparse text _ rfl)
  | cleared => exact absurd rfl hclear

theorem Move.issued_le (move : session.Move operation given after) :
    session.engine.issued ≤ after.engine.issued := by
  cases move with
  | rest _ _ _ _ _ hengine | passed _ _ _ _ hengine | found _ _ _ _ hengine
  | made _ _ _ _ _ hengine | cached _ _ _ _ _ hengine | cleared _ hengine =>
    simp only [hengine, Engine.clear, le_refl, Nat.le_add_right]

theorem Move.handles_eq (move : session.Move operation given after) :
    after.handles = session.handles ++ given.evaluators := by
  cases move with
  | rest _ _ _ _ hgiven _ hhandles =>
    rw [hhandles]
    cases given with
    | obtained evaluator => exact absurd rfl (hgiven evaluator)
    | _ => exact (List.append_nil _).symm
  | passed _ _ _ _ _ hhandles | found _ _ _ _ _ hhandles | made _ _ _ _ _ _ hhandles
  | cached _ _ _ _ _ _ hhandles => exact hhandles
  | cleared _ _ hhandles =>
    rw [hhandles]
    exact (List.append_nil _).symm

theorem Sound.identified_move (h : session.Sound) (move : session.Move operation given after) :
    after.Identified := by
  cases move with
  | rest _ _ _ _ _ hengine hhandles =>
    obtain ⟨hissued, hunique⟩ := h.toIdentified
    rw [← hengine] at hissued
    rw [← hhandles] at hissued hunique
    exact ⟨hissued, hunique⟩
  | passed handle evaluator _ hhandle hengine hhandles =>
    have hmem := List.mem_of_getElem? hhandle
    exact h.toIdentified.again hmem (congrArg Engine.issued hengine) hhandles
  | found text evaluator _ hcached hengine hhandles =>
    have hmem := h.known text evaluator hcached
    exact h.toIdentified.again hmem (congrArg Engine.issued hengine) hhandles
  | made _ expression _ _ _ hengine hhandles =>
    exact h.toIdentified.fresh rfl (congrArg Engine.issued hengine) hhandles
  | cached text expression _ _ _ hengine hhandles =>
    exact h.toIdentified.fresh rfl (congrArg Engine.issued hengine) hhandles
  | cleared _ hengine hhandles =>
    obtain ⟨hissued, hunique⟩ := h.toIdentified
    rw [← hhandles] at hissued hunique
    refine ⟨?_, hunique⟩
    rw [hengine]
    exact hissued

theorem Sound.nodup_move (h : session.Sound) (move : session.Move operation given after) :
    (after.engine.cache.map Prod.fst).Nodup := by
  cases move with
  | rest _ _ _ _ _ hengine | passed _ _ _ _ hengine | found _ _ _ _ hengine
  | made _ _ _ _ _ hengine =>
    rw [hengine]
    exact h.nodup
  | cached text expression _ _ _ hengine =>
    rw [hengine]
    exact Entries.nodup_insert text _ _ h.nodup
  | cleared _ hengine =>
    rw [hengine]
    exact List.nodup_nil

theorem Sound.parsed_compiles (h : session.Sound) {text : String} {evaluator : Evaluator}
    (move : session.Move (.parse text) (.obtained evaluator) after) :
    session.engine.compile text = .ok evaluator.expression := by
  cases move with
  | rest _ _ _ _ hgiven => exact absurd rfl (hgiven evaluator)
  | found _ _ _ hcached => exact h.compiled text evaluator hcached
  | made _ _ _ _ hparse => exact absurd rfl (hparse text)
  | cached _ _ _ _ hcompile => exact hcompile

theorem Sound.move (h : session.Sound) (move : session.Move operation given after) :
    after.Sound where
  toIdentified := h.identified_move move
  nodup := h.nodup_move move
  known text evaluator hget := by
    rw [move.handles_eq, List.mem_append]
    rcases (move.cached_iff text evaluator).mp hget with ⟨-, hbefore⟩ | ⟨-, rfl⟩
    · exact .inl (h.known text evaluator hbefore)
    · exact .inr (List.mem_singleton_self evaluator)
  compiled text evaluator hget := by
    rw [move.compile_eq]
    rcases (move.cached_iff text evaluator).mp hget with ⟨-, hbefore⟩ | ⟨rfl, rfl⟩
    · exact h.compiled text evaluator hbefore
    · exact h.parsed_compiles move

end

theorem sound_play (host : Host σ) (filters : Registry) (state : σ) (operations : List Operation) :
    ((new filters state).play host operations).Sound := by
  induction operations using List.reverseRecOn with
  | nil => exact sound_new filters state
  | append_singleton operations next ih =>
    rw [play_snoc]
    exact ih.move (step_move host _ next)

/-! ## Answers to a text that is parsed -/

section

variable (host : Host σ) {session : Session σ}

theorem step_parse_cached {text : String} {evaluator : Evaluator}
    (h : Entries.get? text session.engine.cache = some evaluator) :
    (session.step host (.parse text)).1 = .obtained evaluator := by
  rw [step, Engine.parse, h]
  rfl

/-- A text that is not in the cache gets an evaluator with an identity that was not given before. -/
theorem identity_of_missed {text : String} {evaluator : Evaluator}
    (hmissed : Entries.get? text session.engine.cache = none)
    (h : (session.step host (.parse text)).1 = .obtained evaluator) :
    evaluator.identity = session.engine.issued := by
  have move := step_move host session (.parse text)
  rw [h] at move
  cases move with
  | rest _ _ _ _ hgiven => exact absurd rfl (hgiven evaluator)
  | found _ _ _ hcached => cases hmissed.symm.trans hcached
  | made => rfl
  | cached => rfl

/-- That the cache holds only evaluators whose identities were given from a number on. -/
def CachedFrom (least : Nat) (session : Session σ) : Prop :=
  least ≤ session.engine.issued ∧ ∀ text evaluator,
    Entries.get? text session.engine.cache = some evaluator → least ≤ evaluator.identity

theorem CachedFrom.answer {least : Nat} (h : session.CachedFrom least) {text : String}
    {evaluator : Evaluator} (hanswer : (session.step host (.parse text)).1 = .obtained evaluator) :
    least ≤ evaluator.identity := by
  cases hget : Entries.get? text session.engine.cache with
  | none =>
    rw [identity_of_missed host hget hanswer]
    exact h.1
  | some cached =>
    rw [step_parse_cached host hget] at hanswer
    cases hanswer
    exact h.2 text _ hget

theorem CachedFrom.step {least : Nat} (h : session.CachedFrom least) (operation : Operation) :
    (session.step host operation).2.CachedFrom least := by
  have move := step_move host session operation
  constructor
  · exact h.1.trans move.issued_le
  · intro text evaluator hget
    rcases (move.cached_iff text evaluator).mp hget with ⟨-, hbefore⟩ | ⟨rfl, hanswer⟩
    · exact h.2 text evaluator hbefore
    · exact h.answer host hanswer

theorem cachedFrom_clear (operations : List Operation) :
    ((session.step host .clear).2.play host operations).CachedFrom session.engine.issued := by
  induction operations using List.reverseRecOn with
  | nil => exact ⟨le_refl _, fun _ _ hget => nomatch hget⟩
  | append_singleton operations next ih =>
    rw [play_snoc]
    exact ih.step host next

end

/-! ## Without a cache -/

/-- That two sessions differ in nothing but identities and what is in the cache. -/
structure Alike (session plain : Session σ) : Prop where
  filters : session.engine.filters = plain.engine.filters
  handles : session.handles.map Evaluator.expression = plain.handles.map Evaluator.expression
  scopes : session.scopes = plain.scopes
  host : session.host = plain.host

section

variable {host : Host σ} {session plain : Session σ}

/-- That two operations have like answers and leave like sessions. -/
def AlikeAfter (first second : Answer × Session σ) : Prop :=
  first.1.anonymous = second.1.anonymous ∧ first.2.Alike second.2

theorem Alike.refuse (h : session.Alike plain) (fault : CompileError) :
    AlikeAfter (session.receive (.error fault, session.engine))
      (plain.receive (.error fault, plain.engine)) :=
  ⟨rfl, h⟩

theorem Alike.obtain (h : session.Alike plain) {first second : Evaluator}
    (hexpression : first.expression = second.expression) {engine engine' : Engine}
    (hengine : engine.filters = session.engine.filters)
    (hengine' : engine'.filters = plain.engine.filters) :
    AlikeAfter (session.receive (.ok first, engine)) (plain.receive (.ok second, engine')) := by
  refine ⟨?_, ?_, ?_, h.scopes, h.host⟩
  · simp only [receive, Answer.anonymous, hexpression]
  · exact hengine.trans (h.filters.trans hengine'.symm)
  · simp only [receive, List.map_append, h.handles, List.map_singleton, hexpression]

theorem Alike.withHandle (h : session.Alike plain) (handle : Nat)
    {act act' : Evaluator → Answer × Session σ}
    (hact : ∀ first second : Evaluator, first.expression = second.expression →
      AlikeAfter (act first) (act' second)) :
    AlikeAfter (session.withHandle handle act) (plain.withHandle handle act') := by
  have hget := congrArg (·[handle]?) h.handles
  simp only [List.getElem?_map] at hget
  rw [Session.withHandle, Session.withHandle]
  cases hfirst : session.handles[handle]? with
  | some first =>
    rw [hfirst] at hget
    obtain ⟨second, hsecond, hexpression⟩ := Option.map_eq_some_iff.mp hget.symm
    rw [hsecond]
    exact hact first second hexpression.symm
  | none =>
    rw [hfirst] at hget
    rw [Option.map_eq_none_iff.mp hget.symm]
    exact ⟨rfl, h⟩

theorem Alike.runIn (h : session.Alike plain) (context : String) (locals : Option String)
    (run : Run σ Value) :
    AlikeAfter (session.runIn context locals run) (plain.runIn context locals run) := by
  obtain ⟨hfilters, hhandles, hscopes, hhost⟩ := h
  have hscope : session.scope = plain.scope := by
    funext name
    rw [scope, scope, hscopes]
  rw [AlikeAfter, Session.runIn, Session.runIn, hscope, hscopes, hhost]
  exact ⟨rfl, hfilters, hhandles, rfl, rfl⟩

/-- **One operation with the cache and one without.** -/
theorem Alike.step (h : session.Alike plain) (hsound : session.Sound) (operation : Operation) :
    AlikeAfter (session.step host operation) (plain.step host operation.uncached) := by
  have hcompile : plain.engine.compile = session.engine.compile := by
    funext text
    rw [Engine.compile, Engine.compile, h.filters]
  cases operation with
  | parse text =>
    rw [Operation.uncached, Session.step, Session.step, Engine.parse, Engine.compileNew, hcompile]
    cases hget : Entries.get? text session.engine.cache with
    | some evaluator =>
      rw [hsound.compiled text evaluator hget]
      refine h.obtain ?_ ?_ ?_ <;> rfl
    | none =>
      cases session.engine.compile text with
      | error fault => exact h.refuse fault
      | ok expression => refine h.obtain ?_ ?_ ?_ <;> rfl
  | parseHandle handle =>
    exact h.withHandle handle fun first second hexpression => h.obtain hexpression rfl rfl
  | parseEmpty => refine h.obtain ?_ ?_ ?_ <;> rfl
  | compile text =>
    show AlikeAfter (session.receive (session.engine.compileNew text))
      (plain.receive (plain.engine.compileNew text))
    rw [Engine.compileNew, Engine.compileNew, hcompile]
    cases session.engine.compile text with
    | error fault => exact h.refuse fault
    | ok expression => refine h.obtain ?_ ?_ ?_ <;> rfl
  | handWrite name => refine h.obtain ?_ ?_ ?_ <;> rfl
  | clear => exact ⟨rfl, h.filters, h.handles, h.scopes, h.host⟩
  | put scope value =>
    refine ⟨rfl, h.filters, h.handles, ?_, h.host⟩
    exact congrArg (Entries.insert scope value) h.scopes
  | eval handle context locals =>
    refine h.withHandle handle fun first second hexpression => ?_
    rw [hexpression]
    exact h.runIn context locals _
  | assign handle value context locals =>
    refine h.withHandle handle fun first second hexpression => ?_
    rw [hexpression]
    exact h.runIn context locals _

end

/-- **A session with the cache and one without.** -/
theorem alike_play (host : Host σ) (filters : Registry) (state : σ) (operations : List Operation) :
    ((new filters state).play host operations).Alike
      ((new filters state).play host (operations.map .uncached)) := by
  induction operations using List.reverseRecOn with
  | nil => exact ⟨rfl, rfl, rfl, rfl⟩
  | append_singleton operations next ih =>
    rw [List.map_append, List.map_singleton, play_snoc, play_snoc]
    exact (ih.step (sound_play host filters state operations) next).2

/-! ## The laws of the cache -/

/-- What a client finds after a sequence of operations. Two evaluators are the same one if they are
equal, identity included. -/
structure CacheLaws (host : Host σ) (start : Session σ) (operations : List Operation) : Prop where
  /-- The cache holds every text once, -/
  distinct : ((start.play host operations).engine.cache.map Prod.fst).Nodup
  /-- and exactly those that were parsed with success since it was emptied. -/
  texts : ∀ text, text ∈ (start.play host operations).engine.cache.map Prod.fst ↔
    ∃ evaluator, ParsedSince host start operations text evaluator
  /-- Its size is their number. -/
  size : (start.play host operations).engine.size =
    {text | ∃ evaluator, ParsedSince host start operations text evaluator}.ncard
  /-- Handles with one identity are one evaluator. -/
  unique : ∀ first ∈ (start.play host operations).handles,
    ∀ second ∈ (start.play host operations).handles,
      first.identity = second.identity → first = second
  /-- A text that was parsed since the cache was emptied is parsed to the same evaluator again. -/
  again : ∀ text evaluator, ParsedSince host start operations text evaluator →
    start.answer host operations (.parse text) = .obtained evaluator
  /-- Any other text is parsed to an evaluator that is none of the handles. -/
  first : ∀ text evaluator, (¬ ∃ before, ParsedSince host start operations text before) →
    start.answer host operations (.parse text) = .obtained evaluator →
      ∀ handle ∈ (start.play host operations).handles, handle.identity ≠ evaluator.identity
  /-- After the cache was emptied, no text is parsed to an evaluator from before. -/
  afterClear : ∀ before between text evaluator, operations = before ++ .clear :: between →
    start.answer host operations (.parse text) = .obtained evaluator →
      ∀ handle ∈ (start.play host before).handles, handle.identity ≠ evaluator.identity
  /-- An evaluator that is parsed is given back. -/
  passed : ∀ handle evaluator, (start.play host operations).handles[handle]? = some evaluator →
    start.answer host operations (.parseHandle handle) = .obtained evaluator
  /-- A source with nothing in it is parsed to an evaluator that is none of the handles. -/
  empty : ∃ evaluator, start.answer host operations .parseEmpty = .obtained evaluator ∧
    ∀ handle ∈ (start.play host operations).handles, handle.identity ≠ evaluator.identity
  /-- Only emptying the cache and parsing a text with success can change the cache. -/
  kept : ∀ next, next ≠ .clear →
    (∀ text evaluator, next = .parse text →
      start.answer host operations next ≠ .obtained evaluator) →
    (start.play host (operations ++ [next])).engine.cache =
      (start.play host operations).engine.cache
  /-- Without a cache every answer is the same but for identities, -/
  answers : ∀ next, (start.answer host operations next).anonymous =
    (start.answer host (operations.map .uncached) next.uncached).anonymous
  /-- and so is all that the client and the host are left with. -/
  states : (start.play host operations).Alike (start.play host (operations.map .uncached))

section

variable (host : Host σ) (filters : Registry) (state : σ)

theorem mem_texts_iff (operations : List Operation) (text : String) :
    text ∈ ((new filters state).play host operations).engine.cache.map Prod.fst ↔
      ∃ evaluator, ParsedSince host (new filters state) operations text evaluator := by
  rw [Entries.mem_names]
  exact exists_congr (cached_iff_parsedSince host filters state operations text)

theorem size_eq_ncard (operations : List Operation) :
    ((new filters state).play host operations).engine.size =
      {text | ∃ evaluator,
        ParsedSince host (new filters state) operations text evaluator}.ncard := by
  have hset : {text | ∃ evaluator, ParsedSince host (new filters state) operations text evaluator} =
      (((new filters state).play host operations).engine.cache.map Prod.fst).toFinset := by
    ext text
    rw [List.coe_toFinset]
    exact (mem_texts_iff host filters state operations text).symm
  have hdistinct := (sound_play host filters state operations).nodup
  rw [hset, Set.ncard_coe_finset, List.toFinset_card_of_nodup hdistinct, List.length_map,
    Engine.size]

theorem new_of_unparsed {operations : List Operation} {text : String} {evaluator : Evaluator}
    (hunparsed : ¬ ∃ before, ParsedSince host (new filters state) operations text before)
    (hanswer : (new filters state).answer host operations (.parse text) = .obtained evaluator) :
    ∀ handle ∈ ((new filters state).play host operations).handles,
      handle.identity ≠ evaluator.identity := by
  have hmissed : Entries.get? text
      ((new filters state).play host operations).engine.cache = none := by
    refine Option.eq_none_iff_forall_ne_some.mpr fun cached hget => ?_
    have hparsed := (cached_iff_parsedSince host filters state operations text cached).mp hget
    exact hunparsed ⟨cached, hparsed⟩
  intro handle hmem
  rw [identity_of_missed host hmissed hanswer]
  exact ((sound_play host filters state operations).issued handle hmem).ne

theorem new_of_cleared {before between : List Operation} {text : String} {evaluator : Evaluator}
    (hanswer : (new filters state).answer host (before ++ .clear :: between) (.parse text) =
      .obtained evaluator) :
    ∀ handle ∈ ((new filters state).play host before).handles,
      handle.identity ≠ evaluator.identity := by
  intro handle hmem
  have hbefore := (sound_play host filters state before).issued handle hmem
  rw [answer, play_append] at hanswer
  have hafter := (cachedFrom_clear host between).answer host hanswer
  exact (hbefore.trans_le hafter).ne

end

/-- **The cache is transparent.** The laws of the cache hold after every sequence of operations on a
new engine, whatever its registry. -/
theorem cache_transparent (filters : Registry) (host : Host σ) (state : σ)
    (operations : List Operation) : CacheLaws host (new filters state) operations := by
  have hsound := sound_play host filters state operations
  have hcached := cached_iff_parsedSince host filters state operations
  have halike := alike_play host filters state operations
  exact
    { distinct := hsound.nodup
      texts := mem_texts_iff host filters state operations
      size := size_eq_ncard host filters state operations
      unique := hsound.unique
      again := fun text evaluator h => step_parse_cached host ((hcached text evaluator).mpr h)
      first := fun _ _ => new_of_unparsed host filters state
      afterClear := by
        rintro before between text evaluator rfl hanswer
        exact new_of_cleared host filters state hanswer
      passed := fun handle evaluator hhandle => by
        rw [answer, step, withHandle, hhandle]
        rfl
      empty := ⟨_, rfl, fun handle hmem => (hsound.issued handle hmem).ne⟩
      kept := fun next hclear hparse => by
        rw [play_snoc]
        exact (step_move host _ next).cache_eq hclear hparse
      answers := fun next => (halike.step hsound next).1
      states := halike }

/-- The second evaluator comes from the cache, and the third is new. -/
example : ((new .empty ()).play Host.none [.parse "a", .parse "a", .clear, .parse "a"]).handles.map
    Evaluator.identity = [0, 0, 1] := by cbv

end Session

end TemplateExpr
