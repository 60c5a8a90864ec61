import Mathlib
import TemplateExpr.Proofs.Tree.Failing
import TemplateExpr.Proofs.Tree.Lookahead

/-!
# Errors at the first possible token

The parser gives up as early as it can. Up to the token that an error names, some tokens more would
make a list that is read; with that token, none would (`Node.ofTokens_earliest_error`). The first
half asks for a way out of every state of the parser: brackets are closed, a missing colon is put
in, and a name stands in for whatever is missing (`filler`). The second half is the one token of
lookahead: all that was read up to there is read again, and fails again.

Both are carried from the rule that is missing a token to the rules that called it
(`StuckAt.after`). What a rule took before the call has to be taken again, and then stands in front
of something else: of the same token, or of what puts the called rule in order. For that, a loop
that fails has taken at least one token (`StuckLater`), and only a symbol that is missing can be
the first thing behind a part that looks at it.
-/

namespace TemplateExpr

open Token

/-! ## Errors and completions -/

/-- That an error is about what stands at the front of the tokens: it names the first of them, or
says that there is none. -/
inductive ParseError.Blames : ParseError → List Token → Prop
  | missing (expected : Expectation) : Blames (.unexpectedEnd expected) []
  | unexpected (token : Token) (rest : List Token) (expected : Expectation) :
    Blames (.unexpectedToken token.text expected token.position) (token :: rest)
  | noName (token : Token) (rest : List Token) :
    Blames (.invalidIdentifier token.text token.position) (token :: rest)

namespace Grammar

/-- A name that stands in for a missing name, operand, expression or key. -/
def filler : Token := word "x" 0

/-- That a rule fails on `us` and, behind them, `vs` at the first possible token. The tokens `us`
are in order: with some more behind them the rule reads them, in front of whatever may follow it.
The first token of `vs`, or that there is none, is what it fails for, whatever stands further
behind. -/
structure StuckAt {α : Type} {bound : List Token → Nat}
    (rule : (ts : List Token) → Parse α (bound ts)) (follow : List Token → Prop)
    (us vs : List Token) (fault : ParseError) : Prop where
  blames : fault.Blames vs
  fails : ∀ vs', vs'.head? = vs.head? → rule (us ++ vs') = .error fault
  completes : ∃ more, ∀ rest, follow rest → ∃ value, Reads (rule (us ++ (more ++ rest))) value rest

def Stuck {α : Type} {bound : List Token → Nat} (rule : (ts : List Token) → Parse α (bound ts))
    (follow : List Token → Prop) (ts : List Token) (fault : ParseError) : Prop :=
  ∃ us vs, ts = us ++ vs ∧ StuckAt rule follow us vs fault

/-- That a rule fails so, and not at the first token of all. A loop only fails this way: where it
takes no token, it ends. -/
def StuckLater {α : Type} {bound : List Token → Nat} (rule : (ts : List Token) → Parse α (bound ts))
    (follow : List Token → Prop) (ts : List Token) (fault : ParseError) : Prop :=
  ∃ us vs, ts = us ++ vs ∧ us ≠ [] ∧ StuckAt rule follow us vs fault

section

variable {α β : Type} {bound bound' : List Token → Nat}
  {rule : (ts : List Token) → Parse α (bound ts)}
  {called : (ts : List Token) → Parse β (bound' ts)}
  {part : List Token → List Token → Prop} {before follow follow' : List Token → Prop}
  {ts us vs mid : List Token} {fault : ParseError}

theorem StuckLater.stuck (h : StuckLater rule follow ts fault) : Stuck rule follow ts fault := by
  obtain ⟨us, vs, hts, -, h⟩ := h
  exact ⟨us, vs, hts, h⟩

/-- A part that takes a token keeps what stands behind it from being the first of all. -/
theorem StuckAt.later {front : List Token} (h : StuckAt rule follow (front ++ us) vs fault)
    (hfewer : (us ++ vs).length < (front ++ (us ++ vs)).length) :
    StuckLater rule follow (front ++ (us ++ vs)) fault := by
  refine ⟨front ++ us, vs, by rw [List.append_assoc], fun hnil => ?_, h⟩
  rw [(List.append_eq_nil_iff.mp hnil).1] at hfewer
  exact Nat.lt_irrefl _ hfewer

/-- **A rule is stuck where a rule that it calls is**, behind the part that it has taken. It is put
in order by what puts the called rule in order and, behind that, by what it is then missing
itself. -/
theorem StuckAt.after (h : StuckAt called follow' us vs fault)
    (hpart : Stable part before ts (us ++ vs))
    (hbefore : us = [] → ∀ xs value rest, Reads (called xs) value rest → before xs)
    (hfails : ∀ xs mid, part xs mid → called mid = .error fault → rule xs = .error fault)
    (extra : List Token) (hfollow : ∀ rest, follow rest → follow' (extra ++ rest))
    (hreads : ∀ xs mid value rest, follow rest → part xs mid →
      Reads (called mid) value (extra ++ rest) → ∃ value', Reads (rule xs) value' rest) :
    ∃ front, ts = front ++ (us ++ vs) ∧ StuckAt rule follow (front ++ us) vs fault := by
  obtain ⟨front, hts, hfront⟩ := hpart
  obtain ⟨more, hmore⟩ := h.completes
  refine ⟨front, hts, h.blames, fun vs' hhead => ?_, more ++ extra, fun rest hrest => ?_⟩
  · have hsame : (us ++ vs').head? = (us ++ vs).head? := by
      rw [List.head?_append, List.head?_append, hhead]
    rw [List.append_assoc]
    exact hfails _ _ (hfront _ (.inl hsame)) (h.fails vs' hhead)
  · obtain ⟨value, hvalue⟩ := hmore (extra ++ rest) (hfollow rest hrest)
    rw [List.append_assoc, List.append_assoc]
    refine hreads _ _ value rest hrest (hfront _ ?_) hvalue
    -- nothing of the called rule was right: what puts it in order stands behind the part at once
    by_cases hus : us = []
    · exact .inr (hbefore hus _ value _ hvalue)
    · obtain ⟨token, us, rfl⟩ := List.exists_cons_of_ne_nil hus
      exact .inl rfl

/-- The called rule stands behind a part that ends with a token of its own. -/
theorem Stuck.behind (h : Stuck called follow' mid fault)
    (hpart : Stable part (fun _ => True) ts mid) (hfewer : mid.length < ts.length)
    (hfails : ∀ xs mid, part xs mid → called mid = .error fault → rule xs = .error fault)
    (extra : List Token) (hfollow : ∀ rest, follow rest → follow' (extra ++ rest))
    (hreads : ∀ xs mid value rest, follow rest → part xs mid →
      Reads (called mid) value (extra ++ rest) → ∃ value', Reads (rule xs) value' rest) :
    StuckLater rule follow ts fault := by
  obtain ⟨us, vs, rfl, h⟩ := h
  obtain ⟨front, rfl, hstuck⟩ :=
    h.after hpart (fun _ _ _ _ _ => trivial) hfails extra hfollow hreads
  exact hstuck.later hfewer

/-- The called rule is a loop, whose first token ends the part in front of it. -/
theorem StuckLater.after (h : StuckLater called follow' mid fault)
    (hpart : Stable part before ts mid)
    (hfails : ∀ xs mid, part xs mid → called mid = .error fault → rule xs = .error fault)
    (hfollow : ∀ rest, follow rest → follow' rest)
    (hreads : ∀ xs mid value rest, follow rest → part xs mid → Reads (called mid) value rest →
      ∃ value', Reads (rule xs) value' rest) :
    StuckLater rule follow ts fault := by
  obtain ⟨us, vs, rfl, hus, h⟩ := h
  obtain ⟨front, rfl, hstuck⟩ :=
    h.after hpart (fun hnil => absurd hnil hus) hfails [] hfollow hreads
  refine ⟨front ++ us, vs, by rw [List.append_assoc], fun hnil => ?_, hstuck⟩
  exact hus (List.append_eq_nil_iff.mp hnil).2

theorem Stuck.first (h : Stuck called follow' ts fault)
    (hfails : ∀ xs, called xs = .error fault → rule xs = .error fault) (extra : List Token)
    (hfollow : ∀ rest, follow rest → follow' (extra ++ rest))
    (hreads : ∀ xs value rest, follow rest → Reads (called xs) value (extra ++ rest) →
      ∃ value', Reads (rule xs) value' rest) :
    Stuck rule follow ts fault := by
  obtain ⟨us, vs, rfl, hblames, hcalled, more, hmore⟩ := h
  refine ⟨us, vs, rfl, hblames, fun vs' hhead => hfails _ (hcalled vs' hhead),
    more ++ extra, fun rest hrest => ?_⟩
  obtain ⟨value, hvalue⟩ := hmore (extra ++ rest) (hfollow rest hrest)
  rw [List.append_assoc]
  exact hreads _ value rest hrest hvalue

/-- The called rule comes first, and is only called if the first token is none of some others. If
the rule fails for that token, there is another way to put it in order. -/
theorem Stuck.guarded (h : Stuck called follow' ts fault)
    (hfails : ∀ xs, xs.head? = ts.head? → called xs = .error fault → rule xs = .error fault)
    (extra : List Token) (hfollow : ∀ rest, follow rest → follow' (extra ++ rest))
    (hreads : ∀ xs value rest, xs.head? = ts.head? → follow rest →
      Reads (called xs) value (extra ++ rest) → ∃ value', Reads (rule xs) value' rest)
    (other : List Token)
    (hother : ∀ rest, follow rest → ∃ value, Reads (rule (other ++ rest)) value rest) :
    Stuck rule follow ts fault := by
  obtain ⟨us, vs, rfl, hblames, hcalled, more, hmore⟩ := h
  have hfails' : ∀ vs', vs'.head? = vs.head? → rule (us ++ vs') = .error fault := by
    intro vs' hhead
    refine hfails _ ?_ (hcalled vs' hhead)
    rw [List.head?_append, List.head?_append, hhead]
  cases us with
  | nil => exact ⟨[], vs, rfl, hblames, hfails', other, hother⟩
  | cons token us =>
    refine ⟨token :: us, vs, rfl, hblames, hfails', more ++ extra, fun rest hrest => ?_⟩
    obtain ⟨value, hvalue⟩ := hmore (extra ++ rest) (hfollow rest hrest)
    rw [List.append_assoc]
    exact hreads _ value rest rfl hrest hvalue

theorem stuck_for_name (h : rule ts = .error fault) (hblames : fault.Blames ts)
    (hfirst : ∀ token rest rest', rule (token :: rest) = .error fault →
      rule (token :: rest') = .error fault)
    (hfiller : ∀ rest, ∃ value, Reads (rule (filler :: rest)) value rest) :
    Stuck rule follow ts fault := by
  refine ⟨[], ts, rfl, hblames, fun ts' hhead => ?_, [filler], fun rest _ => hfiller rest⟩
  cases ts with
  | nil => rw [List.head?_eq_none_iff.mp hhead, List.append_nil, h]
  | cons token rest =>
    obtain ⟨more, rfl⟩ := List.head?_eq_some_iff.mp hhead
    exact hfirst token rest more h

end

/-! ## Single tokens -/

theorem unexpected_blames (expected : Expectation) (ts : List Token) :
    (unexpected expected ts).Blames ts := by
  cases ts with
  | nil => exact .missing expected
  | cons token rest => exact .unexpected token rest expected

theorem unexpected_congr {ts ts' : List Token} (h : ts'.head? = ts.head?)
    (expected : Expectation) : unexpected expected ts' = unexpected expected ts := by
  cases ts with
  | nil => rw [List.head?_eq_none_iff.mp h]
  | cons token rest =>
    obtain ⟨more, rfl⟩ := List.head?_eq_some_iff.mp h
    rfl

theorem fails_require {text : String} {ts : List Token} {fault : ParseError} :
    require text ts = .error fault ↔
      startsWith text ts = false ∧ fault = unexpected (.symbol text) ts := by
  rw [require, ← accept?_eq_none]
  cases accept? text ts with
  | none => simp [eq_comm]
  | some parsed => simp

theorem Reads.leads {text : String} {ts rest : List Token} {token : Token}
    (h : Reads (require text ts) token rest) : Leads text ts rest := by
  obtain ⟨fits, hrequire⟩ := h
  exact leads_of_require hrequire

section

variable {ts : List Token} {fault : ParseError}

theorem require_stuck {text : String} (h : require text ts = .error fault) :
    Stuck (require text) (fun _ => True) ts fault := by
  obtain ⟨hno, rfl⟩ := fails_require.mp h
  refine ⟨[], ts, rfl, unexpected_blames _ ts, fun ts' hhead => ?_, [symbol text 0],
    fun rest _ => ?_⟩
  · exact fails_require.mpr
      ⟨(startsWith_congr hhead text).trans hno, (unexpected_congr hhead _).symm⟩
  · obtain ⟨token, fits, hrequire⟩ := (leads_symbol text 0 rest).require
    exact ⟨token, fits, hrequire⟩

theorem name_stuck (h : name ts = .error fault) : Stuck name (fun _ => True) ts fault := by
  refine stuck_for_name h ?_ (fun token rest rest' h => ?_)
    fun rest => ⟨"x", reads_name.mpr ⟨0, rfl⟩⟩
  · cases ts with
    | nil =>
      cases h
      exact .missing _
    | cons token rest =>
      rw [name] at h
      split at h <;> cases h
      exact .noName token rest
  · rw [name] at h ⊢
    split at h
    · cases h
    · next hkind =>
      cases h
      exact if_neg hkind

theorem atom_stuck (h : atom ts = .error fault) : Stuck atom (fun _ => True) ts fault := by
  refine stuck_for_name h ?_ (fun token rest rest' h => ?_)
    fun rest => ⟨wordTree "x", reads_atom.mpr (.inl ⟨"x", 0, rfl, rfl⟩)⟩
  · cases ts with
    | nil =>
      cases h
      exact .missing _
    | cons token rest =>
      rw [atom] at h
      split at h <;> cases h
      exact unexpected_blames _ _
  · obtain ⟨text, kind, position⟩ := token
    cases kind <;> cases h
    rfl

theorem propertyKey_stuck (h : propertyKey ts = .error fault) :
    Stuck propertyKey (fun _ => True) ts fault := by
  refine stuck_for_name h ?_ (fun token rest rest' h => ?_)
    fun rest => ⟨.identifier "x", reads_propertyKey.mpr (.inl ⟨"x", 0, rfl, rfl⟩)⟩
  · cases ts with
    | nil =>
      cases h
      exact .missing _
    | cons token rest =>
      rw [propertyKey] at h
      split at h <;> cases h
      exact unexpected_blames _ _
  · obtain ⟨text, kind, position⟩ := token
    cases kind <;> cases h
    rfl

end

/-! ## Symbols that have to be there -/

section

variable {α β : Type} {bound bound' : List Token → Nat}
  {rule : (ts : List Token) → Parse α (bound ts)}
  {inner : (ts : List Token) → Parse β (bound' ts)}
  {part : List Token → List Token → Prop} {before follow : List Token → Prop}
  {text close : String} {ts mid after : List Token} {fault : ParseError}

theorem stuck_for_symbol (h : require text mid = .error fault) (hpart : Stable part before ts mid)
    (hfewer : mid.length < ts.length) (hbefore : ∀ xs, Closes text xs → before xs)
    (hfails : ∀ xs mid, part xs mid → require text mid = .error fault → rule xs = .error fault)
    (extra : List Token)
    (hreads : ∀ xs mid rest, follow rest → part xs mid → Leads text mid (extra ++ rest) →
      ∃ value, Reads (rule xs) value rest) :
    StuckLater rule follow ts fault := by
  obtain ⟨us, vs, rfl, hstuck⟩ := require_stuck h
  obtain ⟨front, rfl, hstuck⟩ := hstuck.after hpart
    (fun _ xs _ _ hxs => hbefore xs ⟨_, hxs.leads⟩) hfails extra (fun _ _ => trivial)
    fun xs mid _ rest hrest hpart' hxs => hreads xs mid rest hrest hpart' hxs.leads
  exact hstuck.later hfewer

/-- **A rule in brackets is stuck inside them or at the closing one.** -/
theorem FailsClosed.stuck (h : FailsClosed inner close after fault) (hopen : Leads text ts after)
    (hstuck : inner after = .error fault → Stuck inner before after fault)
    (hstable : ∀ value mid, Reads (inner after) value mid →
      Stable (Reading inner value) before after mid)
    (hbefore : ∀ xs, Closes close xs → before xs)
    (hfails : ∀ xs after, Leads text xs after → FailsClosed inner close after fault →
      rule xs = .error fault)
    (hreads : ∀ xs after value beforeClose rest, follow rest → Leads text xs after →
      Reads (inner after) value beforeClose → Leads close beforeClose rest →
      ∃ tree, Reads (rule xs) tree rest) :
    StuckLater rule follow ts fault := by
  rcases h with hinner | ⟨value, beforeClose, hinner, hclose⟩
  · exact (hstuck hinner).behind (stable_token hopen.cons) hopen.length_lt
      (fun xs after hopen' hinner' => hfails xs after hopen' (.inl hinner')) [symbol close 0]
      (fun rest _ => hbefore _ ⟨_, leads_symbol close 0 rest⟩)
      fun xs after value rest hrest hopen' hinner' =>
        hreads xs after value _ rest hrest hopen' hinner' (leads_symbol close 0 rest)
  · have hpart := hstable value beforeClose hinner
    have hfewer : beforeClose.length < ts.length := hpart.length_le.trans_lt hopen.length_lt
    refine stuck_for_symbol hclose (hopen.before hpart) hfewer hbefore ?_ [] ?_
    · rintro xs mid ⟨after, hopen', hinner'⟩ hclose'
      exact hfails xs after hopen' (.inr ⟨value, mid, hinner', hclose'⟩)
    · rintro xs mid rest hrest ⟨after, hopen', hinner'⟩ hclose'
      exact hreads xs after value mid rest hrest hopen' hinner' hclose'

end

/-! ## The name that stands in -/

theorem filler_distinct : AllDistinct [filler] := by
  intro token hmem _
  rw [List.mem_singleton.mp hmem]
  decide

theorem derives_filler_operand :
    Derives .innermost (.operand (.identifier false "x")) [filler] :=
  .word (.name (by decide))

theorem derives_filler : Derives .innermost (.prefixed (.identifier false "x")) [filler] :=
  .unprefixed (.bare derives_filler_operand)

theorem prefixed_filler {rest : List Token} (h : Avoids postfixTexts rest) :
    Reads (prefixed (filler :: rest)) (.identifier false "x") rest :=
  derives_filler.readBack filler_distinct rest h

theorem assignment_filler {rest : List Token} (h : Avoids (assignmentTexts true) rest) :
    Reads (assignment (filler :: rest)) (.identifier false "x") rest :=
  derives_filler.assignment_of_prefixed.readBack filler_distinct rest h

/-! ## The rules -/

mutual
theorem pipeline_stuck {ts : List Token} {fault : ParseError} (h : pipeline ts = .error fault) :
    Stuck pipeline (Avoids pipelineTexts) ts fault := by
  rcases fails_pipeline.mp h with hinput | ⟨input, mid, hinput, hstages⟩
  · refine (assignment_stuck hinput).first (fun xs hxs => fails_pipeline.mpr (.inl hxs)) []
      (fun _ h => stageTexts_avoid (pipelineTexts_avoid h)) fun xs value rest hrest hxs =>
        ⟨value, reads_pipeline.mpr ⟨value, rest, hxs, ?_⟩⟩
    exact stages_stop (hrest _ List.mem_cons_self) value
  · have hfewer := hinput.length_lt
    refine ((stages_stuck hstages).after (assignment_stable hinput) ?_ (fun _ h => h) ?_).stuck
    · exact fun xs mid' hinput' hstages' =>
        fails_pipeline.mpr (.inr ⟨input, mid', hinput', hstages'⟩)
    · exact fun xs mid' tree rest _ hinput' hstages' =>
        ⟨tree, reads_pipeline.mpr ⟨input, mid', hinput', hstages'⟩⟩
termination_by 30 * ts.length + 17

theorem stages_stuck {ts : List Token} {input : Node} {fault : ParseError}
    (h : stages input ts = .error fault) :
    StuckLater (stages input) (Avoids pipelineTexts) ts fault := by
  rcases fails_stages.mp h with ⟨after, hbar, hname⟩ |
    ⟨after, filter, afterName, hbar, hname, hgiven⟩ |
    ⟨after, filter, afterName, given, mid, hbar, hname, hgiven, hstages⟩
  · refine (name_stuck hname).behind (stable_token hbar.cons) hbar.length_lt
      (fun xs after' hbar' hname' => fails_stages.mpr (.inl ⟨after', hbar', hname'⟩)) []
      (fun _ _ => trivial) fun xs after' filter rest hrest hbar' hname' => ?_
    have hgiven : Reads (stageArguments rest) [] rest :=
      reads_stageArguments.mpr (.inl ⟨pipelineTexts_avoid hrest _ List.mem_cons_self, rfl, rfl⟩)
    exact ⟨_, reads_stages.mpr (.inr ⟨after', filter, rest, [], rest, hbar', hname', hgiven,
      stages_stop (hrest _ List.mem_cons_self) _⟩)⟩
  · have hfewer := hbar.length_lt
    have hfewer' := hname.length_lt
    refine (stageArguments_stuck hgiven).after (hbar.before (name_stable hname)) ?_
      (fun _ h => pipelineTexts_avoid h) ?_
    · rintro xs afterName' ⟨after', hbar', hname'⟩ hgiven'
      exact fails_stages.mpr (.inr (.inl ⟨after', filter, afterName', hbar', hname', hgiven'⟩))
    · rintro xs afterName' given rest hrest ⟨after', hbar', hname'⟩ hgiven'
      exact ⟨_, reads_stages.mpr (.inr ⟨after', filter, afterName', given, rest, hbar', hname',
        hgiven', stages_stop (hrest _ List.mem_cons_self) _⟩)⟩
  · have hfewer := hbar.length_lt
    have hfewer' := hname.length_lt
    have hfewer'' := hgiven.length_lt
    refine (stages_stuck hstages).after (hbar.before ((name_stable hname).andThen
      (stageArguments_stable hgiven) fun _ _ => trivial)) ?_ (fun _ h => h) ?_
    · rintro xs mid' ⟨after', hbar', afterName', hname', hgiven'⟩ hstages'
      exact fails_stages.mpr (.inr (.inr
        ⟨after', filter, afterName', given, mid', hbar', hname', hgiven', hstages'⟩))
    · rintro xs mid' tree rest - ⟨after', hbar', afterName', hname', hgiven'⟩ hstages'
      exact ⟨tree, reads_stages.mpr (.inr
        ⟨after', filter, afterName', given, mid', hbar', hname', hgiven', hstages'⟩)⟩
termination_by 30 * ts.length

theorem stageArguments_stuck {ts : List Token} {fault : ParseError}
    (h : stageArguments ts = .error fault) :
    StuckLater stageArguments (Avoids stageTexts) ts fault := by
  rcases fails_stageArguments.mp h with ⟨after, hcolon, hargument⟩ |
    ⟨after, argument, mid, hcolon, hargument, hmore⟩
  · have hfewer := hcolon.length_lt
    refine (assignment_stuck hargument).behind (stable_token hcolon.cons) hfewer
      (fun xs after' hcolon' hargument' =>
        fails_stageArguments.mpr (.inl ⟨after', hcolon', hargument'⟩)) []
      (fun _ h => stageTexts_avoid h) fun xs after' argument rest hrest hcolon' hargument' => ?_
    have hmore : Reads (stageArguments rest) [] rest :=
      reads_stageArguments.mpr (.inl ⟨hrest _ List.mem_cons_self, rfl, rfl⟩)
    exact ⟨_, reads_stageArguments.mpr
      (.inr ⟨after', argument, rest, [], hcolon', hargument', hmore, rfl⟩)⟩
  · have hfewer := hcolon.length_lt
    have hfewer' := hargument.length_lt
    refine (stageArguments_stuck hmore).after (hcolon.before (assignment_stable hargument)) ?_
      (fun _ h => h) ?_
    · rintro xs mid' ⟨after', hcolon', hargument'⟩ hmore'
      exact fails_stageArguments.mpr
        (.inr ⟨after', argument, mid', hcolon', hargument', hmore'⟩)
    · rintro xs mid' more rest - ⟨after', hcolon', hargument'⟩ hmore'
      exact ⟨_, reads_stageArguments.mpr
        (.inr ⟨after', argument, mid', more, hcolon', hargument', hmore', rfl⟩)⟩
termination_by 30 * ts.length

theorem assignment_stuck {ts : List Token} {fault : ParseError}
    (h : assignment ts = .error fault) :
    Stuck assignment (Avoids (assignmentTexts true)) ts fault := by
  rcases fails_assignment.mp h with hleft | ⟨left, mid, after, hleft, hsign, hright⟩
  · refine (ternary_stuck hleft).first (fun xs hxs => fails_assignment.mpr (.inl hxs)) []
      (fun _ h => h) fun xs value rest hrest hxs => ⟨value, reads_assignment.mpr ?_⟩
    exact ⟨value, rest, hxs, .inl ⟨hrest _ (by decide), rfl, rfl⟩⟩
  · have hfewer := hleft.length_lt
    have hfewer' := hsign.length_lt
    refine ((ternary_stuck hright).behind ((ternary_stable hleft).upTo hsign) (by omega) ?_ []
      (fun _ h => h) ?_).stuck
    · rintro xs after' ⟨mid', hleft', hsign'⟩ hright'
      exact fails_assignment.mpr (.inr ⟨left, mid', after', hleft', hsign', hright'⟩)
    · rintro xs after' right rest - ⟨mid', hleft', hsign'⟩ hright'
      exact ⟨_, reads_assignment.mpr
        ⟨left, mid', hleft', .inr ⟨after', right, hsign', hright', rfl⟩⟩⟩
termination_by 30 * ts.length + 16

theorem ternary_stuck {ts : List Token} {fault : ParseError} (h : ternary ts = .error fault) :
    Stuck ternary (Avoids (assignmentTexts true)) ts fault := by
  rcases fails_ternary.mp h with htest |
    ⟨test, mid, after, htest, hmark, hconsequent⟩ |
    ⟨test, mid, after, consequent, beforeColon, htest, hmark, hconsequent, hcolon⟩ |
    ⟨test, mid, after, consequent, beforeColon, afterColon, htest, hmark, hconsequent, hcolon,
      halternate⟩
  · refine (chain_stuck htest).first (fun xs hxs => fails_ternary.mpr (.inl hxs)) []
      (fun _ h => assignmentTexts_avoid h) fun xs value rest hrest hxs =>
        ⟨value, reads_ternary.mpr ?_⟩
    exact ⟨value, rest, hxs, .inl ⟨hrest _ List.mem_cons_self, rfl, rfl⟩⟩
  all_goals
    have hfewer := htest.length_lt
    have hfewer' := hmark.length_lt
  · refine ((assignment_stuck hconsequent).behind ((chain_stable htest).upTo hmark) (by omega) ?_
      [symbol ":" 0, filler] (fun rest _ => avoids_symbol (by decide) 0 _) ?_).stuck
    · rintro xs after' ⟨mid', htest', hmark'⟩ hconsequent'
      exact fails_ternary.mpr (.inr (.inl ⟨test, mid', after', htest', hmark', hconsequent'⟩))
    · rintro xs after' consequent rest hrest ⟨mid', htest', hmark'⟩ hconsequent'
      exact ⟨_, reads_ternary.mpr ⟨test, mid', htest', .inr ⟨after', consequent, _, _, _, hmark',
        hconsequent', leads_symbol ":" 0 _, assignment_filler hrest, rfl⟩⟩⟩
  · have hfewer'' := hconsequent.length_lt
    refine (stuck_for_symbol hcolon ((chain_stable htest).separated hmark
      (assignment_stable hconsequent)) (by omega) (fun _ h => h.avoids (by decide)) ?_
      [filler] ?_).stuck
    · rintro xs beforeColon' ⟨mid', htest', after', hmark', hconsequent'⟩ hcolon'
      exact fails_ternary.mpr (.inr (.inr (.inl
        ⟨test, mid', after', consequent, beforeColon', htest', hmark', hconsequent', hcolon'⟩)))
    · rintro xs beforeColon' rest hrest ⟨mid', htest', after', hmark', hconsequent'⟩ hcolon'
      exact ⟨_, reads_ternary.mpr ⟨test, mid', htest', .inr ⟨after', consequent, beforeColon', _, _,
        hmark', hconsequent', hcolon', assignment_filler hrest, rfl⟩⟩⟩
  · have hfewer'' := hconsequent.length_lt
    have hfewest := hcolon.length_lt
    refine ((assignment_stuck halternate).behind ((chain_stable htest).separated hmark
      ((assignment_stable hconsequent).upTo hcolon)) (by omega) ?_ [] (fun _ h => h) ?_).stuck
    · rintro xs afterColon'
        ⟨mid', htest', after', hmark', beforeColon', hconsequent', hcolon'⟩ halternate'
      exact fails_ternary.mpr (.inr (.inr (.inr ⟨test, mid', after', consequent, beforeColon',
        afterColon', htest', hmark', hconsequent', hcolon', halternate'⟩)))
    · rintro xs afterColon' alternate rest -
        ⟨mid', htest', after', hmark', beforeColon', hconsequent', hcolon'⟩ halternate'
      exact ⟨_, reads_ternary.mpr ⟨test, mid', htest', .inr ⟨after', consequent, beforeColon',
        afterColon', alternate, hmark', hconsequent', hcolon', halternate', rfl⟩⟩⟩
termination_by 30 * ts.length + 15
decreasing_by
  · rw [show Level.or.rank = 5 from rfl]
    omega
  · omega
  · omega

theorem chain_stuck {level : Level} {ts : List Token} {fault : ParseError}
    (h : chain level ts = .error fault) :
    Stuck (chain level) (Avoids level.chainTexts) ts fault := by
  rcases fails_chain.mp h with hleft | ⟨left, mid, hleft, hrest⟩
  · refine (tighter_stuck hleft).first (fun xs hxs => fails_chain.mpr (.inl hxs)) []
      (fun _ h => chainTexts_avoid h) fun xs value rest hrest hxs =>
        ⟨value, reads_chain.mpr ⟨value, rest, hxs, ?_⟩⟩
    exact chainRest_stop (hrest.mono fun _ => List.mem_append_left _) value
  · have hfewer := hleft.length_lt
    refine ((chainRest_stuck hrest).after (tighter_stable hleft) ?_ (fun _ h => h) ?_).stuck
    · exact fun xs mid' hleft' hrest' => fails_chain.mpr (.inr ⟨left, mid', hleft', hrest'⟩)
    · exact fun xs mid' tree rest _ hleft' hrest' =>
        ⟨tree, reads_chain.mpr ⟨left, mid', hleft', hrest'⟩⟩
termination_by 30 * ts.length + 2 * level.rank + 4

theorem tighter_stuck {level : Level} {ts : List Token} {fault : ParseError}
    (h : tighter level ts = .error fault) :
    Stuck (tighter level) (Avoids level.continuations) ts fault := by
  cases hnext : level.tighter? with
  | some next =>
    have hrank := Level.rank_tighter hnext
    exact (chain_stuck ((fails_tighter_level hnext).mp h)).first
      (fun xs hxs => (fails_tighter_level hnext).mpr hxs) []
      (fun _ h => h.mono (Level.continuations_tighter hnext))
      fun xs value rest _ hxs => ⟨value, (reads_tighter_level hnext).mpr hxs⟩
  | none =>
    exact (prefixed_stuck ((fails_tighter_prefixed hnext).mp h)).first
      (fun xs hxs => (fails_tighter_prefixed hnext).mpr hxs) []
      (fun _ h => h.mono level.postfixTexts_subset)
      fun xs value rest _ hxs => ⟨value, (reads_tighter_prefixed hnext).mpr hxs⟩
termination_by 30 * ts.length + 2 * level.rank + 3

theorem chainRest_stuck {level : Level} {ts : List Token} {left : Node} {fault : ParseError}
    (h : chainRest level left ts = .error fault) :
    StuckLater (chainRest level left) (Avoids level.chainTexts) ts fault := by
  have hrank : level.rank ≤ 5 := by cases level <;> decide
  rcases fails_chainRest.mp h with ⟨op, after, hfewer, hop, hright⟩ |
    ⟨op, after, hfewer, right, mid, hop, hright, hrest⟩
  · have hsign : InfixSign level op ts after := ⟨hfewer, hop⟩
    refine (tighter_stuck hright).behind (stable_token hsign.cons) hfewer ?_ []
      (fun _ h => chainTexts_avoid h) ?_
    · rintro xs after' ⟨fits, hop'⟩ hright'
      exact fails_chainRest.mpr (.inl ⟨op, after', fits, hop', hright'⟩)
    · rintro xs after' right rest hrest ⟨fits, hop'⟩ hright'
      have hstop : Avoids level.symbols rest := hrest.mono fun _ => List.mem_append_left _
      exact ⟨_, reads_chainRest.mpr
        (.inr ⟨op, right, after', rest, fits, hop', hright', chainRest_stop hstop _⟩)⟩
  · have hfewer' := hright.length_lt
    have hsign : InfixSign level op ts after := ⟨hfewer, hop⟩
    refine (chainRest_stuck hrest).after ((stable_token hsign.cons).andThen (tighter_stable hright)
      fun _ _ => trivial) ?_ (fun _ h => h) ?_
    · rintro xs mid' ⟨after', ⟨fits, hop'⟩, hright'⟩ hrest'
      exact fails_chainRest.mpr (.inr ⟨op, after', fits, right, mid', hop', hright', hrest'⟩)
    · rintro xs mid' tree rest - ⟨after', ⟨fits, hop'⟩, hright'⟩ hrest'
      exact ⟨tree, reads_chainRest.mpr
        (.inr ⟨op, right, after', mid', fits, hop', hright', hrest'⟩)⟩
termination_by 30 * ts.length

theorem prefixed_stuck {ts : List Token} {fault : ParseError} (h : prefixed ts = .error fault) :
    Stuck prefixed (Avoids postfixTexts) ts fault := by
  rcases fails_prefixed.mp h with ⟨hno, hoperand⟩ | ⟨op, after, hfewer, hop, hargument⟩
  · exact (postfixed_stuck hoperand).guarded
      (fun xs hhead hxs => fails_prefixed.mpr (.inl ⟨prefixOp?_congr hhead hno, hxs⟩)) []
      (fun _ h => h) (fun xs value rest hhead _ hxs =>
        ⟨value, reads_prefixed.mpr (.inl ⟨prefixOp?_congr hhead hno, hxs⟩)⟩)
      [filler] fun rest hrest => ⟨_, prefixed_filler hrest⟩
  · have hsign : PrefixSign op ts after := ⟨hfewer, hop⟩
    refine ((prefixed_stuck hargument).behind (stable_token hsign.cons) hfewer ?_ [] (fun _ h => h)
      ?_).stuck
    · rintro xs after' ⟨fits, hop'⟩ hargument'
      exact fails_prefixed.mpr (.inr ⟨op, after', fits, hop', hargument'⟩)
    · rintro xs after' argument rest - ⟨fits, hop'⟩ hargument'
      exact ⟨_, reads_prefixed.mpr (.inr ⟨op, argument, after', fits, hop', hargument', rfl⟩)⟩
termination_by 30 * ts.length + 2

theorem postfixed_stuck {ts : List Token} {fault : ParseError}
    (h : postfixed ts = .error fault) : Stuck postfixed (Avoids postfixTexts) ts fault := by
  rcases fails_postfixed.mp h with hhead | ⟨head, mid, hhead, hrest⟩
  · exact (operand_stuck hhead).first (fun xs hxs => fails_postfixed.mpr (.inl hxs)) []
      (fun _ _ => trivial) fun xs value rest hrest hxs =>
        ⟨value, reads_postfixed.mpr ⟨value, rest, hxs, postfixes_stop hrest value⟩⟩
  · have hfewer := hhead.length_lt
    refine ((postfixes_stuck hrest).after (operand_stable hhead) ?_ (fun _ h => h) ?_).stuck
    · exact fun xs mid' hhead' hrest' => fails_postfixed.mpr (.inr ⟨head, mid', hhead', hrest'⟩)
    · exact fun xs mid' tree rest _ hhead' hrest' =>
        ⟨tree, reads_postfixed.mpr ⟨head, mid', hhead', hrest'⟩⟩
termination_by 30 * ts.length + 1

theorem postfixes_stuck {ts : List Token} {head : Node} {fault : ParseError}
    (h : postfixes head ts = .error fault) :
    StuckLater (postfixes head) (Avoids postfixTexts) ts fault := by
  rcases fails_postfixes.mp h with
    (⟨after, hopen, hgiven⟩ | ⟨after, given, beforeClose, mid, hopen, hgiven, hclose, hrest⟩) |
    (⟨after, hopen, hkey⟩ | ⟨after, key, beforeClose, mid, hopen, hkey, hclose, hrest⟩) |
    ⟨after, hpoint, hkey⟩ | ⟨after, key, mid, hpoint, hkey, hrest⟩
  · have hfewer := hopen.length_lt
    refine hgiven.stuck hopen arguments_stuck (fun _ _ => arguments_stable) (fun _ h => h) ?_ ?_
    · exact fun xs after' hopen' hgiven' =>
        fails_postfixes.mpr (.inl (.inl ⟨after', hopen', hgiven'⟩))
    · exact fun xs after' given beforeClose rest hrest hopen' hgiven' hclose' =>
        ⟨_, reads_postfixes.mpr (.inr (.inl ⟨after', given, beforeClose, rest, hopen', hgiven',
          hclose', postfixes_stop hrest _⟩))⟩
  · have hfewer := hopen.length_lt
    have hfewer' := hgiven.length_lt
    have hfewer'' := hclose.length_lt
    refine (postfixes_stuck hrest).after (hopen.before ((arguments_stable hgiven).upTo hclose)) ?_
      (fun _ h => h) ?_
    · rintro xs mid' ⟨after', hopen', beforeClose', hgiven', hclose'⟩ hrest'
      exact fails_postfixes.mpr (.inl (.inr
        ⟨after', given, beforeClose', mid', hopen', hgiven', hclose', hrest'⟩))
    · rintro xs mid' tree rest - ⟨after', hopen', beforeClose', hgiven', hclose'⟩ hrest'
      exact ⟨tree, reads_postfixes.mpr (.inr (.inl
        ⟨after', given, beforeClose', mid', hopen', hgiven', hclose', hrest'⟩))⟩
  · have hfewer := hopen.length_lt
    refine hkey.stuck hopen pipeline_stuck (fun _ _ => pipeline_stable)
      (fun _ h => h.avoids (by decide)) ?_ ?_
    · exact fun xs after' hopen' hkey' =>
        fails_postfixes.mpr (.inr (.inl (.inl ⟨after', hopen', hkey'⟩)))
    · exact fun xs after' key beforeClose rest hrest hopen' hkey' hclose' =>
        ⟨_, reads_postfixes.mpr (.inr (.inr (.inl ⟨after', key, beforeClose, rest, hopen', hkey',
          hclose', postfixes_stop hrest _⟩)))⟩
  · have hfewer := hopen.length_lt
    have hfewer' := hkey.length_lt
    have hfewer'' := hclose.length_lt
    refine (postfixes_stuck hrest).after (hopen.before ((pipeline_stable hkey).upTo hclose)) ?_
      (fun _ h => h) ?_
    · rintro xs mid' ⟨after', hopen', beforeClose', hkey', hclose'⟩ hrest'
      exact fails_postfixes.mpr (.inr (.inl (.inr
        ⟨after', key, beforeClose', mid', hopen', hkey', hclose', hrest'⟩)))
    · rintro xs mid' tree rest - ⟨after', hopen', beforeClose', hkey', hclose'⟩ hrest'
      exact ⟨tree, reads_postfixes.mpr (.inr (.inr (.inl
        ⟨after', key, beforeClose', mid', hopen', hkey', hclose', hrest'⟩)))⟩
  · exact (name_stuck hkey).behind (stable_token hpoint.cons) hpoint.length_lt
      (fun xs after' hpoint' hkey' =>
        fails_postfixes.mpr (.inr (.inr (.inl ⟨after', hpoint', hkey'⟩)))) [] (fun _ _ => trivial)
      fun xs after' key rest hrest hpoint' hkey' => ⟨_, reads_postfixes.mpr
        (.inr (.inr (.inr ⟨after', key, rest, hpoint', hkey', postfixes_stop hrest _⟩)))⟩
  · have hfewer := hpoint.length_lt
    have hfewer' := hkey.length_lt
    refine (postfixes_stuck hrest).after (hpoint.before (name_stable hkey)) ?_ (fun _ h => h) ?_
    · rintro xs mid' ⟨after', hpoint', hkey'⟩ hrest'
      exact fails_postfixes.mpr
        (.inr (.inr (.inr ⟨after', key, mid', hpoint', hkey', hrest'⟩)))
    · rintro xs mid' tree rest - ⟨after', hpoint', hkey'⟩ hrest'
      exact ⟨tree, reads_postfixes.mpr
        (.inr (.inr (.inr ⟨after', key, mid', hpoint', hkey', hrest'⟩)))⟩
termination_by 30 * ts.length

theorem operand_stuck {ts : List Token} {fault : ParseError} (h : operand ts = .error fault) :
    Stuck operand (fun _ => True) ts fault := by
  rcases fails_operand.mp h with ⟨hparen, hbracket, hbrace, hatom⟩ | ⟨after, hopen, hinner⟩ |
    ⟨after, hopen, hitems⟩ | ⟨after, hopen, hfields⟩
  · refine (atom_stuck hatom).guarded (fun xs hhead hxs => fails_operand.mpr (.inl ?_)) []
      (fun _ _ => trivial) (fun xs value rest hhead _ hxs => ⟨value, reads_operand.mpr (.inl ?_)⟩)
      [filler] fun rest _ => ⟨_, derives_filler_operand.readBack filler_distinct rest⟩
    all_goals
      rw [startsWith_congr hhead, startsWith_congr hhead, startsWith_congr hhead]
      exact ⟨hparen, hbracket, hbrace, hxs⟩
  all_goals have hfewer := hopen.length_lt
  · refine (hinner.stuck hopen pipeline_stuck (fun _ _ => pipeline_stable)
      (fun _ h => h.avoids (by decide)) ?_ ?_).stuck
    · exact fun xs after' hopen' hinner' =>
        fails_operand.mpr (.inr (.inl ⟨after', hopen', hinner'⟩))
    · exact fun xs after' tree beforeClose rest _ hopen' hinner' hclose' =>
        ⟨tree, reads_operand.mpr (.inr (.inl ⟨after', beforeClose, hopen', hinner', hclose'⟩))⟩
  · refine (hitems.stuck hopen elements_stuck (fun _ _ => elements_stable) (fun _ h => h) ?_
      ?_).stuck
    · exact fun xs after' hopen' hitems' =>
        fails_operand.mpr (.inr (.inr (.inl ⟨after', hopen', hitems'⟩)))
    · exact fun xs after' items beforeClose rest _ hopen' hitems' hclose' => ⟨_, reads_operand.mpr
        (.inr (.inr (.inl ⟨after', items, beforeClose, hopen', hitems', hclose', rfl⟩)))⟩
  · refine (hfields.stuck hopen entries_stuck (fun _ _ => entries_stable) (fun _ h => h) ?_
      ?_).stuck
    · exact fun xs after' hopen' hfields' =>
        fails_operand.mpr (.inr (.inr (.inr ⟨after', hopen', hfields'⟩)))
    · exact fun xs after' fields beforeClose rest _ hopen' hfields' hclose' => ⟨_, reads_operand.mpr
        (.inr (.inr (.inr ⟨after', fields, beforeClose, hopen', hfields', hclose', rfl⟩)))⟩
termination_by 30 * ts.length

theorem arguments_stuck {ts : List Token} {fault : ParseError} (h : arguments ts = .error fault) :
    Stuck arguments (Closes ")") ts fault := by
  obtain ⟨hno, hlist⟩ := fails_arguments.mp h
  refine (argumentList_stuck hlist).guarded
    (fun xs hhead hxs => fails_arguments.mpr ⟨by rw [startsWith_congr hhead, hno], hxs⟩) []
    (fun _ h => h) (fun xs given rest hhead _ hxs => ⟨given, reads_arguments.mpr (.inr ?_)⟩)
    [] fun rest hrest => ⟨[], reads_arguments.mpr (.inl ⟨hrest.startsWith, rfl, rfl⟩)⟩
  exact ⟨by rw [startsWith_congr hhead, hno], hxs⟩
termination_by 30 * ts.length + 19

theorem argumentList_stuck {ts : List Token} {fault : ParseError}
    (h : argumentList ts = .error fault) : Stuck argumentList (Closes ")") ts fault := by
  rcases fails_argumentList.mp h with hargument | ⟨argument, mid, after, hargument, hcomma, hmore⟩
  · refine (pipeline_stuck hargument).first (fun xs hxs => fails_argumentList.mpr (.inl hxs)) []
      (fun _ h => h.avoids (by decide)) fun xs argument rest hrest hxs => ?_
    exact ⟨_, reads_argumentList.mpr
      ⟨argument, rest, hxs, .inl ⟨hrest.endsList (by decide), rfl, rfl⟩⟩⟩
  · have hfewer := hargument.length_lt
    have hfewer' := hcomma.length_lt
    refine ((argumentList_stuck hmore).behind ((pipeline_stable hargument).upTo hcomma) (by omega)
      ?_ [] (fun _ h => h) ?_).stuck
    · rintro xs after' ⟨mid', hargument', hcomma'⟩ hmore'
      exact fails_argumentList.mpr (.inr ⟨argument, mid', after', hargument', hcomma', hmore'⟩)
    · rintro xs after' more rest - ⟨mid', hargument', hcomma'⟩ hmore'
      exact ⟨_, reads_argumentList.mpr
        ⟨argument, mid', hargument', .inr ⟨after', more, hcomma', hmore', rfl⟩⟩⟩
termination_by 30 * ts.length + 18

theorem elements_stuck {ts : List Token} {fault : ParseError} (h : elements ts = .error fault) :
    Stuck elements (Closes "]") ts fault := by
  obtain ⟨hno, hitem | ⟨item, mid, after, hitem, hcomma, hmore⟩⟩ := fails_elements.mp h
  · refine (assignment_stuck hitem).guarded
      (fun xs hhead hxs => fails_elements.mpr ⟨by rw [startsWith_congr hhead, hno], .inl hxs⟩) []
      (fun _ h => h.avoids (by decide)) (fun xs item rest hhead hrest hxs => ?_)
      [] fun rest hrest => ⟨[], reads_elements.mpr (.inl ⟨hrest.startsWith, rfl, rfl⟩)⟩
    exact ⟨_, reads_elements.mpr (.inr ⟨by rw [startsWith_congr hhead, hno], item, rest, hxs,
      .inl ⟨hrest.endsList (by decide), rfl, rfl⟩⟩)⟩
  · have hfewer := hitem.length_lt
    have hfewer' := hcomma.length_lt
    refine ((elements_stuck hmore).behind (((assignment_stable hitem).upTo hcomma).guarded
      (by omega) hno) (by omega) ?_ [] (fun _ h => h) ?_).stuck
    · rintro xs after' ⟨hno', mid', hitem', hcomma'⟩ hmore'
      exact fails_elements.mpr ⟨hno', .inr ⟨item, mid', after', hitem', hcomma', hmore'⟩⟩
    · rintro xs after' more rest - ⟨hno', mid', hitem', hcomma'⟩ hmore'
      exact ⟨_, reads_elements.mpr
        (.inr ⟨hno', item, mid', hitem', .inr ⟨after', more, hcomma', hmore', rfl⟩⟩)⟩
termination_by 30 * ts.length + 18

theorem entries_stuck {ts : List Token} {fault : ParseError} (h : entries ts = .error fault) :
    Stuck entries (Closes "\x7d") ts fault := by
  obtain ⟨hno, hkey | ⟨key, beforeColon, hkey, hcolon⟩ |
    ⟨key, beforeColon, afterColon, hkey, hcolon, hvalue⟩ |
    ⟨key, beforeColon, afterColon, value, mid, after, hkey, hcolon, hvalue, hcomma, hmore⟩⟩ :=
    fails_entries.mp h
  · refine (propertyKey_stuck hkey).guarded
      (fun xs hhead hxs => fails_entries.mpr ⟨by rw [startsWith_congr hhead, hno], .inl hxs⟩)
      [symbol ":" 0, filler] (fun _ _ => trivial) (fun xs key rest hhead hrest hxs => ?_)
      [] fun rest hrest => ⟨[], reads_entries.mpr (.inl ⟨hrest.startsWith, rfl, rfl⟩)⟩
    exact ⟨_, reads_entries.mpr (.inr ⟨by rw [startsWith_congr hhead, hno], key, _, _, _, rest, hxs,
      leads_symbol ":" 0 _, assignment_filler (hrest.avoids (by decide)),
      .inl ⟨hrest.endsList (by decide), rfl, rfl⟩⟩)⟩
  all_goals
    have hfewer := hkey.length_lt
  · refine (stuck_for_symbol hcolon ((propertyKey_stable hkey).guarded hfewer hno) hfewer
      (fun _ _ => trivial) ?_ [filler] ?_).stuck
    · rintro xs beforeColon' ⟨hno', hkey'⟩ hcolon'
      exact fails_entries.mpr ⟨hno', .inr (.inl ⟨key, beforeColon', hkey', hcolon'⟩)⟩
    · rintro xs beforeColon' rest hrest ⟨hno', hkey'⟩ hcolon'
      exact ⟨_, reads_entries.mpr (.inr ⟨hno', key, beforeColon', _, _, rest, hkey', hcolon',
        assignment_filler (hrest.avoids (by decide)),
        .inl ⟨hrest.endsList (by decide), rfl, rfl⟩⟩)⟩
  · have hfewer' := hcolon.length_lt
    refine ((assignment_stuck hvalue).behind (((propertyKey_stable hkey).upTo hcolon).guarded
      (by omega) hno) (by omega) ?_ [] (fun _ h => h.avoids (by decide)) ?_).stuck
    · rintro xs afterColon' ⟨hno', beforeColon', hkey', hcolon'⟩ hvalue'
      exact fails_entries.mpr
        ⟨hno', .inr (.inr (.inl ⟨key, beforeColon', afterColon', hkey', hcolon', hvalue'⟩))⟩
    · rintro xs afterColon' value rest hrest ⟨hno', beforeColon', hkey', hcolon'⟩ hvalue'
      exact ⟨_, reads_entries.mpr (.inr ⟨hno', key, beforeColon', afterColon', value, rest, hkey',
        hcolon', hvalue', .inl ⟨hrest.endsList (by decide), rfl, rfl⟩⟩)⟩
  · have hfewer' := hcolon.length_lt
    have hfewer'' := hvalue.length_lt
    have hfewest := hcomma.length_lt
    refine ((entries_stuck hmore).behind (((propertyKey_stable hkey).separated hcolon
      ((assignment_stable hvalue).upTo hcomma)).guarded (by omega) hno) (by omega) ?_ []
      (fun _ h => h) ?_).stuck
    · rintro xs after'
        ⟨hno', beforeColon', hkey', afterColon', hcolon', mid', hvalue', hcomma'⟩ hmore'
      exact fails_entries.mpr ⟨hno', .inr (.inr (.inr ⟨key, beforeColon', afterColon', value, mid',
        after', hkey', hcolon', hvalue', hcomma', hmore'⟩))⟩
    · rintro xs after' more rest -
        ⟨hno', beforeColon', hkey', afterColon', hcolon', mid', hvalue', hcomma'⟩ hmore'
      exact ⟨_, reads_entries.mpr (.inr ⟨hno', key, beforeColon', afterColon', value, mid', hkey',
        hcolon', hvalue', .inr ⟨after', more, hcomma', hmore', rfl⟩⟩)⟩
termination_by 30 * ts.length + 18
end

/-! ## Statements -/

theorem statement?_stuck {ts : List Token} {fault : ParseError} (h : statement? ts = .error fault) :
    Stuck statement? EndsStatement ts fault := by
  obtain ⟨hno, htree⟩ := fails_statement?.mp h
  refine (pipeline_stuck htree).guarded
    (fun xs hhead hxs => fails_statement?.mpr ⟨by rw [startsNoStatement_congr hhead, hno], hxs⟩) []
    (fun _ h => h.avoids (by decide)) (fun xs tree rest hhead _ hxs => ?_)
    [] fun rest hrest => ⟨[], reads_statement?.mpr (.inl ⟨hrest.startsNoStatement, rfl, rfl⟩)⟩
  exact ⟨[tree], reads_statement?.mpr
    (.inr ⟨by rw [startsNoStatement_congr hhead, hno], tree, hxs, rfl⟩)⟩

theorem statements_stuck {ts : List Token} {fault : ParseError} (h : statements ts = .error fault) :
    Stuck statements (· = []) ts fault := by
  rcases fails_statements.mp h with hfirst | ⟨first, mid, after, hfirst, hsemicolon, hmore⟩
  · refine (statement?_stuck hfirst).first (fun xs hxs => fails_statements.mpr (.inl hxs)) []
      (fun _ h => .inl h) fun xs first rest hrest hxs => ⟨first, reads_statements.mpr ?_⟩
    exact ⟨first, rest, hxs, .inl ⟨by rw [hrest]; rfl, rfl, rfl⟩⟩
  · have hfewer := hfirst.length_lt
    have hfewer' := hsemicolon.length_lt
    refine ((statements_stuck hmore).behind ((statement?_stable hfirst).upTo hsemicolon) (by omega)
      ?_ [] (fun _ h => h) ?_).stuck
    · rintro xs after' ⟨mid', hfirst', hsemicolon'⟩ hmore'
      exact fails_statements.mpr (.inr ⟨first, mid', after', hfirst', hsemicolon', hmore'⟩)
    · rintro xs after' more rest - ⟨mid', hfirst', hsemicolon'⟩ hmore'
      exact ⟨_, reads_statements.mpr
        ⟨first, mid', hfirst', .inr ⟨after', more, hsemicolon', hmore', rfl⟩⟩⟩
termination_by ts.length

end Grammar

/-! ## Programs -/

namespace Node

open Grammar

/-- **Where the parser fails, the tokens before are in order**: they are those of a program or of
the beginning of one. With the same token behind them, no list is read. -/
theorem ofTokens_error {ts : List Token} {fault : ParseError}
    (h : ofTokens ts = .error fault) :
    ∃ before behind, ts = before ++ behind ∧ fault.Blames behind ∧
      (∃ more tree, ofTokens (before ++ more) = .ok tree) ∧
      ∀ behind', behind'.head? = behind.head? →
        ∃ fault', ofTokens (before ++ behind') = .error fault' := by
  unfold ofTokens at h
  split at h
  · next fault' hstatements =>
    cases h
    obtain ⟨us, vs, hts, hblames, hfails, more, hmore⟩ := statements_stuck hstatements
    obtain ⟨body, fits, hbody⟩ := hmore [] rfl
    refine ⟨us, vs, hts, hblames, ⟨more ++ [], .program false body, ?_⟩,
      fun vs' hhead => ⟨fault, ?_⟩⟩
    · rw [ofTokens, hbody]
    · rw [ofTokens, hfails vs' hhead]
  · cases h
  · next body token rest fits hbody =>
    cases h
    obtain ⟨us, hts, hus⟩ := statements_stable ⟨fits, hbody⟩
    refine ⟨us, token :: rest, hts, .unexpected token rest .endOfExpression,
      ⟨[], .program false body, ?_⟩, fun vs' hhead => ?_⟩
    · obtain ⟨fits, hall⟩ := hus [] (.inr rfl)
      rw [ofTokens, hall]
    · obtain ⟨more, rfl⟩ := List.head?_eq_some_iff.mp hhead
      obtain ⟨fits, hall⟩ := hus (token :: more) (.inl rfl)
      exact ⟨_, by rw [ofTokens, hall]⟩

/-- **An error is reported at the first possible token.** If the parser misses a token at the end,
some more tokens make a list that it reads. If it is about a token, it is about one in the list:
some tokens behind those before it make a list that is read, and with it at its place none does. -/
theorem ofTokens_earliest_error (ts : List Token) :
    (∀ expected, ofTokens ts = .error (.unexpectedEnd expected) →
      ∃ more tree, ofTokens (ts ++ more) = .ok tree) ∧
    ∀ fault text position, ofTokens ts = .error fault →
      (fault = .invalidIdentifier text position ∨
        ∃ expected, fault = .unexpectedToken text expected position) →
      ∃ before token behind, ts = before ++ token :: behind ∧ token.text = text ∧
        token.position = position ∧
        (∃ more tree, ofTokens (before ++ more) = .ok tree) ∧
        ∀ behind' tree, ofTokens (before ++ token :: behind') ≠ .ok tree := by
  constructor
  · intro expected h
    obtain ⟨before, behind, rfl, hblames, hmore, -⟩ := ofTokens_error h
    cases hblames
    rwa [List.append_nil]
  · intro fault text position h hfault
    obtain ⟨before, behind, rfl, hblames, hmore, hfails⟩ := ofTokens_error h
    have hnone : ∀ token rest, behind = token :: rest → ∀ behind' tree,
        ofTokens (before ++ token :: behind') ≠ .ok tree := by
      rintro token rest rfl behind' tree hread
      obtain ⟨fault', hfails⟩ := hfails (token :: behind') rfl
      rw [hread] at hfails
      cases hfails
    cases hblames with
    | missing expected => rcases hfault with heq | ⟨_, heq⟩ <;> cases heq
    | unexpected token rest expected =>
      rcases hfault with heq | ⟨_, heq⟩ <;> cases heq
      exact ⟨before, token, rest, rfl, rfl, rfl, hmore, hnone token rest rfl⟩
    | noName token rest =>
      rcases hfault with heq | ⟨_, heq⟩ <;> cases heq
      exact ⟨before, token, rest, rfl, rfl, rfl, hmore, hnone token rest rfl⟩

/-- `a ? b` wants its colon, `a ? b c` has something else in the place of it, and `a | (b)` has no
name where the one of a filter should be. -/
theorem ofTokens_earliest_error_conditional :
    ∃ us vs ws, tokenize "a ? b" = .ok us ∧ tokenize "a ? b c" = .ok vs ∧
      tokenize "a | (b)" = .ok ws ∧
      (∃ more tree, ofTokens (us ++ more) = .ok tree) ∧
      (∃ before token behind, vs = before ++ token :: behind ∧ token.text = "c" ∧
        token.position = 6 ∧ (∃ more tree, ofTokens (before ++ more) = .ok tree) ∧
        ∀ behind' tree, ofTokens (before ++ token :: behind') ≠ .ok tree) ∧
      ∃ before token behind, ws = before ++ token :: behind ∧ token.text = "(" ∧
        token.position = 4 ∧ (∃ more tree, ofTokens (before ++ more) = .ok tree) ∧
        ∀ behind' tree, ofTokens (before ++ token :: behind') ≠ .ok tree := by
  obtain ⟨us, hus, hend⟩ : ∃ us, tokenize "a ? b" = .ok us ∧
      ofTokens us = .error (.unexpectedEnd (.symbol ":")) := ⟨_, by cbv, by cbv⟩
  obtain ⟨vs, hvs, hcolon⟩ : ∃ vs, tokenize "a ? b c" = .ok vs ∧
      ofTokens vs = .error (.unexpectedToken "c" (.symbol ":") 6) := ⟨_, by cbv, by cbv⟩
  obtain ⟨ws, hws, hname⟩ : ∃ ws, tokenize "a | (b)" = .ok ws ∧
      ofTokens ws = .error (.invalidIdentifier "(" 4) := ⟨_, by cbv, by cbv⟩
  exact ⟨us, vs, ws, hus, hvs, hws, (ofTokens_earliest_error us).1 _ hend,
    (ofTokens_earliest_error vs).2 _ _ _ hcolon (.inr ⟨_, rfl⟩),
    (ofTokens_earliest_error ws).2 _ _ _ hname (.inl rfl)⟩

end Node

end TemplateExpr
