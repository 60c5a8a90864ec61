import Mathlib
import TemplateExpr.Proofs.Tree.Completeness

/-!
# One token of lookahead

What a rule reads depends on the tokens that it takes and on the one behind them, of which it only
asks whether it goes on there. So tokens that were read once are read again, with the same result,
in front of whatever begins with the same token, and in front of whatever may follow the rule, such
as the bracket that closes a list (`Stable`). This holds of any tokens, also of those that no source
has, and nothing is said of the grammar here.

A rule is stable because its parts are, one after the other. Each proof puts the parts together in
the order in which the rule takes them. As in `Tree.Soundness`, the recursion is the parser's own.
-/

namespace TemplateExpr

def Level.chainTexts (level : Level) : List String := level.symbols ++ level.continuations

def pipelineTexts : List String := "|" :: stageTexts

namespace Grammar

/-! ## What stands behind -/

/-- That `rest'` can stand where `rest` stood: it begins with the same token, or may follow. -/
def Follows (follow : List Token → Prop) (rest rest' : List Token) : Prop :=
  rest'.head? = rest.head? ∨ follow rest'

def Closes (text : String) (ts : List Token) : Prop := ∃ after, Leads text ts after

theorem startsWith_congr {rest rest' : List Token} (h : rest'.head? = rest.head?) (text : String) :
    startsWith text rest' = startsWith text rest := by
  cases rest with
  | nil => rw [List.head?_eq_none_iff.mp h]
  | cons token rest =>
    obtain ⟨more, rfl⟩ := List.head?_eq_some_iff.mp h
    rw [startsWith_cons, startsWith_cons]

theorem startsNoStatement_congr {rest rest' : List Token} (h : rest'.head? = rest.head?) :
    startsNoStatement rest' = startsNoStatement rest := by
  have hempty : rest'.isEmpty = rest.isEmpty := by
    cases rest with
    | nil => rw [List.head?_eq_none_iff.mp h]
    | cons token rest =>
      obtain ⟨more, rfl⟩ := List.head?_eq_some_iff.mp h
      rfl
  rw [startsNoStatement, startsNoStatement, hempty]
  simp only [startsWith_congr h]

theorem infixOp?_congr {level : Level} {rest rest' : List Token} (h : rest'.head? = rest.head?)
    (hnone : infixOp? level rest = none) : infixOp? level rest' = none := by
  cases rest with
  | nil => rw [List.head?_eq_none_iff.mp h]; rfl
  | cons token rest =>
    obtain ⟨more, rfl⟩ := List.head?_eq_some_iff.mp h
    simpa [infixOp?] using hnone

theorem prefixOp?_congr {rest rest' : List Token} (h : rest'.head? = rest.head?)
    (hnone : prefixOp? rest = none) : prefixOp? rest' = none := by
  cases rest with
  | nil => rw [List.head?_eq_none_iff.mp h]; rfl
  | cons token rest =>
    obtain ⟨more, rfl⟩ := List.head?_eq_some_iff.mp h
    simpa [prefixOp?] using hnone

theorem Closes.avoids {text : String} {texts : List String} {ts : List Token}
    (h : Closes text ts) (hno : text ∉ texts) : Avoids texts ts := by
  obtain ⟨after, hleads⟩ := h
  exact .of_leads hleads hno

theorem Closes.startsWith {text : String} {ts : List Token} (h : Closes text ts) :
    startsWith text ts = true := by
  obtain ⟨after, hleads⟩ := h
  exact hleads.startsWith

theorem Closes.endsList {close text : String} {ts : List Token} (h : Closes close ts)
    (hne : close ∉ [text]) : Grammar.startsWith text ts = false :=
  avoids_singleton.mp (h.avoids hne)

namespace Follows

variable {follow follow' : List Token → Prop} {rest rest' : List Token}

theorem map (h : Follows follow rest rest') (hsub : ∀ ts, follow ts → follow' ts) :
    Follows follow' rest rest' :=
  h.imp id (hsub rest')

/-- Behind tokens that stay, anything can change, as long as it may follow there. -/
theorem append (h : Follows follow rest rest') (us : List Token) :
    Follows follow (us ++ rest) (us ++ rest') := by
  cases us with
  | nil => exact h
  | cons token us => exact .inl rfl

theorem stops {texts : List String} {text : String} (h : Follows (Avoids texts) rest rest')
    (hno : startsWith text rest = false) (hmem : text ∈ texts) : startsWith text rest' = false := by
  rcases h with hhead | havoids
  · rw [startsWith_congr hhead, hno]
  · exact havoids text hmem

theorem closes {text : String} (h : Follows (Closes text) rest rest')
    (hyes : startsWith text rest = true) : startsWith text rest' = true := by
  rcases h with hhead | hcloses
  · rw [startsWith_congr hhead, hyes]
  · exact hcloses.startsWith

theorem endsList {close text : String} (h : Follows (Closes close) rest rest')
    (hne : close ∉ [text]) (hno : startsWith text rest = false) :
    startsWith text rest' = false := by
  rcases h with hhead | hcloses
  · rw [startsWith_congr hhead, hno]
  · exact hcloses.endsList hne

end Follows

/-! ## Parts of rules -/

/-- A rule as a part of another: it reads `value` off the tokens up to `rest`. -/
abbrev Reading {α : Type} {bound : List Token → Nat} (rule : (ts : List Token) → Parse α (bound ts))
    (value : α) (ts rest : List Token) : Prop :=
  Reads (rule ts) value rest

/-- A part takes the tokens of `ts` up to `rest`, and takes the same ones in front of whatever can
stand where `rest` stands. -/
def Stable (part : List Token → List Token → Prop) (follow : List Token → Prop)
    (ts rest : List Token) : Prop :=
  ∃ us, ts = us ++ rest ∧ ∀ rest', Follows follow rest rest' → part (us ++ rest') rest'

theorem stable_token {part : List Token → List Token → Prop} {ts rest : List Token}
    (h : ∃ token, ts = token :: rest ∧ ∀ xs, part (token :: xs) xs) :
    Stable part (fun _ => True) ts rest := by
  obtain ⟨token, rfl, hpart⟩ := h
  exact ⟨[token], rfl, fun rest' _ => hpart rest'⟩

theorem Leads.cons {text : String} {ts rest : List Token} (h : Leads text ts rest) :
    ∃ token, ts = token :: rest ∧ ∀ xs, Leads text (token :: xs) xs := by
  obtain ⟨token, rfl, htext⟩ := h
  exact ⟨token, rfl, fun xs => ⟨token, rfl, htext⟩⟩

namespace Stable

variable {part part' first second : List Token → List Token → Prop}
  {follow follow' : List Token → Prop} {text : String} {ts mid after rest : List Token}

theorem length_le (h : Stable part follow ts rest) : rest.length ≤ ts.length := by
  obtain ⟨us, rfl, -⟩ := h
  simp

theorem nothing (h : ∀ rest', Follows follow rest rest' → part rest' rest') :
    Stable part follow rest rest :=
  ⟨[], rfl, h⟩

theorem weaken (h : Stable part follow ts rest) (hsub : ∀ xs, follow' xs → follow xs) :
    Stable part follow' ts rest := by
  obtain ⟨us, hts, hus⟩ := h
  exact ⟨us, hts, fun rest' hrest => hus rest' (hrest.map hsub)⟩

theorem imp (h : Stable part follow ts rest)
    (hpart : ∀ xs rest', Follows follow rest rest' → part xs rest' → part' xs rest') :
    Stable part' follow ts rest := by
  obtain ⟨us, hts, hus⟩ := h
  exact ⟨us, hts, fun rest' hrest => hpart _ rest' hrest (hus rest' hrest)⟩

theorem imp_head (h : Stable part follow ts rest) (hfewer : rest.length < ts.length)
    (hpart : ∀ xs rest', xs.head? = ts.head? → Follows follow rest rest' → part xs rest' →
      part' xs rest') :
    Stable part' follow ts rest := by
  obtain ⟨us, rfl, hus⟩ := h
  refine ⟨us, rfl, fun rest' hrest => hpart _ rest' ?_ hrest (hus rest' hrest)⟩
  cases us with
  | nil => exact absurd hfewer (Nat.lt_irrefl _)
  | cons token us => rfl

theorem guarded (h : Stable part follow ts rest) (hfewer : rest.length < ts.length)
    (hno : startsWith text ts = false) :
    Stable (fun xs rest' => startsWith text xs = false ∧ part xs rest') follow ts rest :=
  h.imp_head hfewer fun _ _ hhead _ hpart => ⟨(startsWith_congr hhead text).trans hno, hpart⟩

/-- One part and then another, behind which the first might end as well. -/
theorem andThen (h : Stable first follow ts mid) (h' : Stable second follow' mid rest)
    (hsub : ∀ xs, follow' xs → follow xs) :
    Stable (Relation.Comp first second) follow' ts rest := by
  obtain ⟨us, rfl, hus⟩ := h
  obtain ⟨vs, rfl, hvs⟩ := h'
  refine ⟨us ++ vs, by rw [List.append_assoc], fun rest' hrest =>
    ⟨vs ++ rest', ?_, hvs rest' hrest⟩⟩
  rw [List.append_assoc]
  exact hus _ ((hrest.map hsub).append vs)

theorem upToToken {token : Token} (h : Stable part follow ts (token :: rest)) :
    Stable (fun xs rest' => part xs (token :: rest')) (fun _ => True) ts rest := by
  obtain ⟨us, rfl, hus⟩ := h
  refine ⟨us ++ [token], by simp, fun rest' _ => ?_⟩
  rw [List.append_assoc]
  exact hus _ (.inl rfl)

theorem upTo (h : Stable part follow ts mid) (hleads : Leads text mid rest) :
    Stable (Relation.Comp part (Leads text)) (fun _ => True) ts rest := by
  obtain ⟨token, rfl, htoken⟩ := hleads.cons
  exact h.upToToken.imp fun xs rest' _ hpart => ⟨token :: rest', hpart, htoken rest'⟩

theorem separated (h : Stable first follow ts mid) (hleads : Leads text mid after)
    (h' : Stable second follow' after rest) :
    Stable (Relation.Comp first (Relation.Comp (Leads text) second)) follow' ts rest := by
  refine ((h.upTo hleads).andThen h' fun _ _ => trivial).imp ?_
  rintro xs rest' - ⟨after', ⟨mid', hfirst, hleads'⟩, hsecond⟩
  exact ⟨mid', hfirst, after', hleads', hsecond⟩

end Stable

theorem Leads.before {part : List Token → List Token → Prop} {follow : List Token → Prop}
    {text : String} {ts mid rest : List Token} (hleads : Leads text ts mid)
    (h : Stable part follow mid rest) :
    Stable (Relation.Comp (Leads text) part) follow ts rest :=
  (stable_token hleads.cons).andThen h fun _ _ => trivial

/-! ## Single tokens -/

def InfixSign (level : Level) (op : InfixOp) (ts rest : List Token) : Prop :=
  ∃ fits, infixOp? level ts = some ⟨op, rest, fits⟩

def PrefixSign (op : UnaryOp) (ts rest : List Token) : Prop :=
  ∃ fits, prefixOp? ts = some ⟨op, rest, fits⟩

theorem InfixSign.cons {level : Level} {op : InfixOp} {ts rest : List Token}
    (h : InfixSign level op ts rest) :
    ∃ token, ts = token :: rest ∧ ∀ xs, InfixSign level op (token :: xs) xs := by
  obtain ⟨fits, h⟩ := h
  cases ts with
  | nil => cases h
  | cons token ts =>
    simp only [infixOp?, Option.map_eq_some_iff] at h
    obtain ⟨op', hop, heq⟩ := h
    cases heq
    exact ⟨token, rfl, fun xs => ⟨by simp, by simp [infixOp?, hop]⟩⟩

theorem PrefixSign.cons {op : UnaryOp} {ts rest : List Token} (h : PrefixSign op ts rest) :
    ∃ token, ts = token :: rest ∧ ∀ xs, PrefixSign op (token :: xs) xs := by
  obtain ⟨fits, h⟩ := h
  cases ts with
  | nil => cases h
  | cons token ts =>
    simp only [prefixOp?, Option.map_eq_some_iff] at h
    obtain ⟨op', hop, heq⟩ := h
    cases heq
    exact ⟨token, rfl, fun xs => ⟨by simp, by simp [prefixOp?, hop]⟩⟩

theorem name_stable {ts rest : List Token} {text : String} (h : Reads (name ts) text rest) :
    Stable (Reading name text) (fun _ => True) ts rest := by
  obtain ⟨p, rfl⟩ := reads_name.mp h
  exact stable_token ⟨_, rfl, fun xs => reads_name.mpr ⟨p, rfl⟩⟩

theorem atom_stable {ts rest : List Token} {tree : Node} (h : Reads (atom ts) tree rest) :
    Stable (Reading atom tree) (fun _ => True) ts rest := by
  rcases reads_atom.mp h with ⟨text, p, rfl, rfl⟩ | ⟨text, value, p, rfl, rfl⟩
  · exact stable_token ⟨_, rfl, fun xs => reads_atom.mpr (.inl ⟨text, p, rfl, rfl⟩)⟩
  · exact stable_token ⟨_, rfl, fun xs => reads_atom.mpr (.inr ⟨text, value, p, rfl, rfl⟩)⟩

theorem propertyKey_stable {ts rest : List Token} {key : PropertyKey}
    (h : Reads (propertyKey ts) key rest) :
    Stable (Reading propertyKey key) (fun _ => True) ts rest := by
  rcases reads_propertyKey.mp h with ⟨text, p, rfl, rfl⟩ | ⟨text, value, p, rfl, rfl⟩
  · exact stable_token ⟨_, rfl, fun xs => reads_propertyKey.mpr (.inl ⟨text, p, rfl, rfl⟩)⟩
  · exact stable_token
      ⟨_, rfl, fun xs => reads_propertyKey.mpr (.inr ⟨text, value, p, rfl, rfl⟩)⟩

/-! ## What continues which rule -/

theorem stageTexts_avoid {ts : List Token} (h : Avoids stageTexts ts) :
    Avoids (assignmentTexts true) ts :=
  h.mono fun _ => List.mem_cons_of_mem _

theorem pipelineTexts_avoid {ts : List Token} (h : Avoids pipelineTexts ts) :
    Avoids stageTexts ts :=
  h.mono fun _ => List.mem_cons_of_mem _

theorem assignmentTexts_avoid {ts : List Token} (h : Avoids (assignmentTexts true) ts) :
    Avoids (Level.chainTexts .or) ts :=
  h.mono (by decide)

theorem chainTexts_avoid {level : Level} {ts : List Token} (h : Avoids level.chainTexts ts) :
    Avoids level.continuations ts :=
  h.mono fun _ => List.mem_append_right _

/-! ## The rules -/

mutual
theorem pipeline_stable {ts rest : List Token} {tree : Node} (h : Reads (pipeline ts) tree rest) :
    Stable (Reading pipeline tree) (Avoids pipelineTexts) ts rest := by
  obtain ⟨input, mid, hinput, hstages⟩ := reads_pipeline.mp h
  have hfewer := hinput.length_lt
  refine ((assignment_stable hinput).andThen (stages_stable hstages)
    fun _ h => stageTexts_avoid (pipelineTexts_avoid h)).imp ?_
  rintro xs rest' - ⟨mid', hinput', hstages'⟩
  exact reads_pipeline.mpr ⟨input, mid', hinput', hstages'⟩
termination_by 30 * ts.length + 17

theorem stages_stable {ts rest : List Token} {input tree : Node}
    (h : Reads (stages input ts) tree rest) :
    Stable (Reading (stages input) tree) (Avoids pipelineTexts) ts rest := by
  rcases reads_stages.mp h with ⟨hno, rfl, rfl⟩ |
    ⟨afterBar, filter, afterName, given, mid, hbar, hname, hgiven, hstages⟩
  · exact .nothing fun rest' hrest =>
      reads_stages.mpr (.inl ⟨hrest.stops hno List.mem_cons_self, rfl, rfl⟩)
  have hfewer := hbar.length_lt
  have hfewer' := hname.length_lt
  have hfewer'' := hgiven.length_lt
  have hbehind := (stageArguments_stable hgiven).andThen (stages_stable hstages)
    fun _ h => pipelineTexts_avoid h
  refine (hbar.before ((name_stable hname).andThen hbehind fun _ _ => trivial)).imp ?_
  rintro xs rest' - ⟨afterBar', hbar', afterName', hname', mid', hgiven', hstages'⟩
  exact reads_stages.mpr
    (.inr ⟨afterBar', filter, afterName', given, mid', hbar', hname', hgiven', hstages'⟩)
termination_by 30 * ts.length

theorem stageArguments_stable {ts rest : List Token} {given : List Node}
    (h : Reads (stageArguments ts) given rest) :
    Stable (Reading stageArguments given) (Avoids stageTexts) ts rest := by
  rcases reads_stageArguments.mp h with ⟨hno, rfl, rfl⟩ |
    ⟨afterColon, argument, mid, more, hcolon, hargument, hmore, rfl⟩
  · exact .nothing fun rest' hrest =>
      reads_stageArguments.mpr (.inl ⟨hrest.stops hno List.mem_cons_self, rfl, rfl⟩)
  have hfewer := hcolon.length_lt
  have hfewer' := hargument.length_lt
  refine (hcolon.before ((assignment_stable hargument).andThen (stageArguments_stable hmore)
    fun _ h => stageTexts_avoid h)).imp ?_
  rintro xs rest' - ⟨afterColon', hcolon', mid', hargument', hmore'⟩
  exact reads_stageArguments.mpr
    (.inr ⟨afterColon', argument, mid', more, hcolon', hargument', hmore', rfl⟩)
termination_by 30 * ts.length

theorem assignment_stable {ts rest : List Token} {tree : Node}
    (h : Reads (assignment ts) tree rest) :
    Stable (Reading assignment tree) (Avoids (assignmentTexts true)) ts rest := by
  obtain ⟨left, mid, hleft, ⟨hno, rfl, rfl⟩ | ⟨afterSign, right, hsign, hright, rfl⟩⟩ :=
    reads_assignment.mp h
  · refine (ternary_stable hleft).imp fun xs rest' hrest hleft' => ?_
    exact reads_assignment.mpr
      ⟨_, rest', hleft', .inl ⟨hrest.stops hno (by decide), rfl, rfl⟩⟩
  have hfewer := hleft.length_lt
  have hfewer' := hsign.length_lt
  refine ((ternary_stable hleft).separated hsign (ternary_stable hright)).imp ?_
  rintro xs rest' - ⟨mid', hleft', afterSign', hsign', hright'⟩
  exact reads_assignment.mpr
    ⟨left, mid', hleft', .inr ⟨afterSign', right, hsign', hright', rfl⟩⟩
termination_by 30 * ts.length + 16

theorem ternary_stable {ts rest : List Token} {tree : Node} (h : Reads (ternary ts) tree rest) :
    Stable (Reading ternary tree) (Avoids (assignmentTexts true)) ts rest := by
  obtain ⟨test, mid, htest, ⟨hno, rfl, rfl⟩ | ⟨afterMark, consequent, beforeColon, afterColon,
    alternate, hmark, hconsequent, hcolon, halternate, rfl⟩⟩ := reads_ternary.mp h
  · refine ((chain_stable htest).weaken fun _ h => assignmentTexts_avoid h).imp
      fun xs rest' hrest htest' => ?_
    exact reads_ternary.mpr
      ⟨_, rest', htest', .inl ⟨hrest.stops hno List.mem_cons_self, rfl, rfl⟩⟩
  have hfewer := htest.length_lt
  have hfewer' := hmark.length_lt
  have hfewer'' := hconsequent.length_lt
  have hfewest := hcolon.length_lt
  refine ((chain_stable htest).separated hmark ((assignment_stable hconsequent).separated hcolon
    (assignment_stable halternate))).imp ?_
  rintro xs rest' -
    ⟨mid', htest', afterMark', hmark', beforeColon', hconsequent', afterColon', hcolon',
      halternate'⟩
  exact reads_ternary.mpr ⟨test, mid', htest', .inr ⟨afterMark', consequent, beforeColon',
    afterColon', alternate, hmark', hconsequent', hcolon', halternate', rfl⟩⟩
termination_by 30 * ts.length + 15
decreasing_by
  · rw [show Level.or.rank = 5 from rfl]
    omega
  · rw [show Level.or.rank = 5 from rfl]
    omega
  · omega
  · omega

theorem chain_stable {level : Level} {ts rest : List Token} {tree : Node}
    (h : Reads (chain level ts) tree rest) :
    Stable (Reading (chain level) tree) (Avoids level.chainTexts) ts rest := by
  obtain ⟨left, mid, hleft, hrest⟩ := reads_chain.mp h
  have hfewer := hleft.length_lt
  refine ((tighter_stable hleft).andThen (chainRest_stable hrest)
    fun _ h => chainTexts_avoid h).imp ?_
  rintro xs rest' - ⟨mid', hleft', hrest'⟩
  exact reads_chain.mpr ⟨left, mid', hleft', hrest'⟩
termination_by 30 * ts.length + 2 * level.rank + 4

theorem tighter_stable {level : Level} {ts rest : List Token} {tree : Node}
    (h : Reads (tighter level ts) tree rest) :
    Stable (Reading (tighter level) tree) (Avoids level.continuations) ts rest := by
  cases hnext : level.tighter? with
  | some next =>
    have hrank := Level.rank_tighter hnext
    exact ((chain_stable ((reads_tighter_level hnext).mp h)).weaken
      fun _ h => h.mono (Level.continuations_tighter hnext)).imp
      fun _ _ _ htree => (reads_tighter_level hnext).mpr htree
  | none =>
    exact ((prefixed_stable ((reads_tighter_prefixed hnext).mp h)).weaken
      fun _ h => h.mono level.postfixTexts_subset).imp
      fun _ _ _ htree => (reads_tighter_prefixed hnext).mpr htree
termination_by 30 * ts.length + 2 * level.rank + 3

theorem chainRest_stable {level : Level} {ts rest : List Token} {left tree : Node}
    (h : Reads (chainRest level left ts) tree rest) :
    Stable (Reading (chainRest level left) tree) (Avoids level.chainTexts) ts rest := by
  rcases reads_chainRest.mp h with ⟨hno, rfl, rfl⟩ |
    ⟨op, right, afterOp, mid, hfewer, hop, hright, hrest⟩
  · refine .nothing fun rest' hrest => reads_chainRest.mpr (.inl ⟨?_, rfl, rfl⟩)
    rcases hrest with hhead | havoids
    · exact infixOp?_congr hhead hno
    · exact infixOp?_eq_none (havoids.mono fun _ => List.mem_append_left _)
  have hfewer' := hright.length_lt
  have hrank : level.rank ≤ 5 := by cases level <;> decide
  have hsign : InfixSign level op ts afterOp := ⟨hfewer, hop⟩
  have hbehind := (tighter_stable hright).andThen (chainRest_stable hrest)
    fun _ h => chainTexts_avoid h
  refine ((stable_token hsign.cons).andThen hbehind fun _ _ => trivial).imp ?_
  rintro xs rest' - ⟨afterOp', ⟨fits, hop'⟩, mid', hright', hrest'⟩
  exact reads_chainRest.mpr (.inr ⟨op, right, afterOp', mid', fits, hop', hright', hrest'⟩)
termination_by 30 * ts.length

theorem prefixed_stable {ts rest : List Token} {tree : Node} (h : Reads (prefixed ts) tree rest) :
    Stable (Reading prefixed tree) (Avoids postfixTexts) ts rest := by
  rcases reads_prefixed.mp h with ⟨hno, hoperand⟩ |
    ⟨op, argument, afterOp, hfewer, hop, hargument, rfl⟩
  · exact (postfixed_stable hoperand).imp_head hoperand.length_lt
      fun xs rest' hhead _ hoperand' =>
        reads_prefixed.mpr (.inl ⟨prefixOp?_congr hhead hno, hoperand'⟩)
  have hsign : PrefixSign op ts afterOp := ⟨hfewer, hop⟩
  refine ((stable_token hsign.cons).andThen (prefixed_stable hargument) fun _ _ => trivial).imp ?_
  rintro xs rest' - ⟨afterOp', ⟨fits, hop'⟩, hargument'⟩
  exact reads_prefixed.mpr (.inr ⟨op, argument, afterOp', fits, hop', hargument', rfl⟩)
termination_by 30 * ts.length + 2

theorem postfixed_stable {ts rest : List Token} {tree : Node}
    (h : Reads (postfixed ts) tree rest) :
    Stable (Reading postfixed tree) (Avoids postfixTexts) ts rest := by
  obtain ⟨head, mid, hhead, hrest⟩ := reads_postfixed.mp h
  have hfewer := hhead.length_lt
  refine ((operand_stable hhead).andThen (postfixes_stable hrest) fun _ _ => trivial).imp ?_
  rintro xs rest' - ⟨mid', hhead', hrest'⟩
  exact reads_postfixed.mpr ⟨head, mid', hhead', hrest'⟩
termination_by 30 * ts.length + 1

theorem postfixes_stable {ts rest : List Token} {head tree : Node}
    (h : Reads (postfixes head ts) tree rest) :
    Stable (Reading (postfixes head) tree) (Avoids postfixTexts) ts rest := by
  rcases reads_postfixes.mp h with ⟨hparen, hbracket, hpoint, rfl, rfl⟩ |
    ⟨after, given, beforeClose, mid, hopen, hgiven, hclose, hrest⟩ |
    ⟨after, key, beforeClose, mid, hopen, hkey, hclose, hrest⟩ |
    ⟨after, key, mid, hpoint, hkey, hrest⟩
  · exact .nothing fun rest' hrest => reads_postfixes.mpr (.inl
      ⟨hrest.stops hparen (by decide), hrest.stops hbracket (by decide),
        hrest.stops hpoint (by decide), rfl, rfl⟩)
  · have hfewer := hopen.length_lt
    have hfewer' := hgiven.length_lt
    have hfewer'' := hclose.length_lt
    refine (hopen.before ((arguments_stable hgiven).separated hclose
      (postfixes_stable hrest))).imp ?_
    rintro xs rest' - ⟨after', hopen', beforeClose', hgiven', mid', hclose', hrest'⟩
    exact reads_postfixes.mpr (.inr (.inl
      ⟨after', given, beforeClose', mid', hopen', hgiven', hclose', hrest'⟩))
  · have hfewer := hopen.length_lt
    have hfewer' := hkey.length_lt
    have hfewer'' := hclose.length_lt
    refine (hopen.before ((pipeline_stable hkey).separated hclose
      (postfixes_stable hrest))).imp ?_
    rintro xs rest' - ⟨after', hopen', beforeClose', hkey', mid', hclose', hrest'⟩
    exact reads_postfixes.mpr (.inr (.inr (.inl
      ⟨after', key, beforeClose', mid', hopen', hkey', hclose', hrest'⟩)))
  · have hfewer := hpoint.length_lt
    have hfewer' := hkey.length_lt
    refine (hpoint.before ((name_stable hkey).andThen (postfixes_stable hrest)
      fun _ _ => trivial)).imp ?_
    rintro xs rest' - ⟨after', hpoint', mid', hkey', hrest'⟩
    exact reads_postfixes.mpr (.inr (.inr (.inr ⟨after', key, mid', hpoint', hkey', hrest'⟩)))
termination_by 30 * ts.length

theorem operand_stable {ts rest : List Token} {tree : Node} (h : Reads (operand ts) tree rest) :
    Stable (Reading operand tree) (fun _ => True) ts rest := by
  rcases reads_operand.mp h with ⟨hparen, hbracket, hbrace, hatom⟩ |
    ⟨after, beforeClose, hopen, hinner, hclose⟩ |
    ⟨after, items, beforeClose, hopen, hitems, hclose, rfl⟩ |
    ⟨after, fields, beforeClose, hopen, hfields, hclose, rfl⟩
  · refine (atom_stable hatom).imp_head hatom.length_lt
      fun xs rest' hhead _ hatom' => reads_operand.mpr (.inl ?_)
    rw [startsWith_congr hhead, startsWith_congr hhead, startsWith_congr hhead]
    exact ⟨hparen, hbracket, hbrace, hatom'⟩
  · have hfewer := hopen.length_lt
    refine (hopen.before ((pipeline_stable hinner).upTo hclose)).imp ?_
    rintro xs rest' - ⟨after', hopen', beforeClose', hinner', hclose'⟩
    exact reads_operand.mpr (.inr (.inl ⟨after', beforeClose', hopen', hinner', hclose'⟩))
  · have hfewer := hopen.length_lt
    refine (hopen.before ((elements_stable hitems).upTo hclose)).imp ?_
    rintro xs rest' - ⟨after', hopen', beforeClose', hitems', hclose'⟩
    exact reads_operand.mpr
      (.inr (.inr (.inl ⟨after', items, beforeClose', hopen', hitems', hclose', rfl⟩)))
  · have hfewer := hopen.length_lt
    refine (hopen.before ((entries_stable hfields).upTo hclose)).imp ?_
    rintro xs rest' - ⟨after', hopen', beforeClose', hfields', hclose'⟩
    exact reads_operand.mpr
      (.inr (.inr (.inr ⟨after', fields, beforeClose', hopen', hfields', hclose', rfl⟩)))
termination_by 30 * ts.length

theorem arguments_stable {ts rest : List Token} {given : List Node}
    (h : Reads (arguments ts) given rest) :
    Stable (Reading arguments given) (Closes ")") ts rest := by
  rcases reads_arguments.mp h with ⟨hyes, rfl, rfl⟩ | ⟨hno, hlist⟩
  · exact .nothing fun rest' hrest => reads_arguments.mpr (.inl ⟨hrest.closes hyes, rfl, rfl⟩)
  exact ((argumentList_stable hlist).guarded hlist.length_lt hno).imp
    fun xs rest' _ hlist' => reads_arguments.mpr (.inr hlist')
termination_by 30 * ts.length + 19

theorem argumentList_stable {ts rest : List Token} {given : List Node}
    (h : Reads (argumentList ts) given rest) :
    Stable (Reading argumentList given) (Closes ")") ts rest := by
  obtain ⟨argument, mid, hargument, ⟨hno, rfl, rfl⟩ | ⟨after, more, hcomma, hmore, rfl⟩⟩ :=
    reads_argumentList.mp h
  · refine ((pipeline_stable hargument).weaken fun _ h => h.avoids (by decide)).imp
      fun xs rest' hrest hargument' => ?_
    exact reads_argumentList.mpr
      ⟨argument, rest', hargument', .inl ⟨hrest.endsList (by decide) hno, rfl, rfl⟩⟩
  have hfewer := hargument.length_lt
  have hfewer' := hcomma.length_lt
  refine ((pipeline_stable hargument).separated hcomma (argumentList_stable hmore)).imp ?_
  rintro xs rest' - ⟨mid', hargument', after', hcomma', hmore'⟩
  exact reads_argumentList.mpr
    ⟨argument, mid', hargument', .inr ⟨after', more, hcomma', hmore', rfl⟩⟩
termination_by 30 * ts.length + 18

theorem elements_stable {ts rest : List Token} {items : List Node}
    (h : Reads (elements ts) items rest) :
    Stable (Reading elements items) (Closes "]") ts rest := by
  rcases reads_elements.mp h with ⟨hyes, rfl, rfl⟩ |
    ⟨hno, item, mid, hitem, ⟨hlast, rfl, rfl⟩ | ⟨after, more, hcomma, hmore, rfl⟩⟩
  · exact .nothing fun rest' hrest => reads_elements.mpr (.inl ⟨hrest.closes hyes, rfl, rfl⟩)
  · refine (((assignment_stable hitem).weaken fun _ h => h.avoids (by decide)).guarded
      hitem.length_lt hno).imp ?_
    rintro xs rest' hrest ⟨hno', hitem'⟩
    exact reads_elements.mpr (.inr ⟨hno', item, rest', hitem',
      .inl ⟨hrest.endsList (by decide) hlast, rfl, rfl⟩⟩)
  have hfewer := hitem.length_lt
  have hfewer' := hcomma.length_lt
  have hfewest := hmore.length_lt
  refine (((assignment_stable hitem).separated hcomma (elements_stable hmore)).guarded (by omega)
    hno).imp ?_
  rintro xs rest' - ⟨hno', mid', hitem', after', hcomma', hmore'⟩
  exact reads_elements.mpr
    (.inr ⟨hno', item, mid', hitem', .inr ⟨after', more, hcomma', hmore', rfl⟩⟩)
termination_by 30 * ts.length + 18

theorem entries_stable {ts rest : List Token} {fields : List (PropertyKey × Node)}
    (h : Reads (entries ts) fields rest) :
    Stable (Reading entries fields) (Closes "\x7d") ts rest := by
  rcases reads_entries.mp h with ⟨hyes, rfl, rfl⟩ |
    ⟨hno, key, beforeColon, afterColon, value, mid, hkey, hcolon, hvalue,
      ⟨hlast, rfl, rfl⟩ | ⟨after, more, hcomma, hmore, rfl⟩⟩
  · exact .nothing fun rest' hrest => reads_entries.mpr (.inl ⟨hrest.closes hyes, rfl, rfl⟩)
  all_goals
    have hfewer := hkey.length_lt
    have hfewer' := hcolon.length_lt
    have hfewer'' := hvalue.length_lt
  · refine ((((propertyKey_stable hkey).separated hcolon (assignment_stable hvalue)).weaken
      fun _ h => h.avoids (by decide)).guarded (by omega) hno).imp ?_
    rintro xs rest' hrest ⟨hno', beforeColon', hkey', afterColon', hcolon', hvalue'⟩
    exact reads_entries.mpr (.inr ⟨hno', key, beforeColon', afterColon', value, rest', hkey',
      hcolon', hvalue', .inl ⟨hrest.endsList (by decide) hlast, rfl, rfl⟩⟩)
  have hfewest := hcomma.length_lt
  have hfewest' := hmore.length_lt
  refine (((propertyKey_stable hkey).separated hcolon ((assignment_stable hvalue).separated hcomma
    (entries_stable hmore))).guarded (by omega) hno).imp ?_
  rintro xs rest' -
    ⟨hno', beforeColon', hkey', afterColon', hcolon', mid', hvalue', after', hcomma', hmore'⟩
  exact reads_entries.mpr (.inr ⟨hno', key, beforeColon', afterColon', value, mid', hkey', hcolon',
    hvalue', .inr ⟨after', more, hcomma', hmore', rfl⟩⟩)
termination_by 30 * ts.length + 18
end

/-! ## Statements -/

def EndsStatement (ts : List Token) : Prop := ts = [] ∨ Closes ";" ts

theorem EndsStatement.avoids {texts : List String} {ts : List Token} (h : EndsStatement ts)
    (hno : ";" ∉ texts) : Avoids texts ts := by
  rcases h with rfl | hcloses
  · exact avoids_nil texts
  · exact hcloses.avoids hno

theorem EndsStatement.startsNoStatement {ts : List Token} (h : EndsStatement ts) :
    startsNoStatement ts = true := by
  rcases h with rfl | hcloses
  · rfl
  · simp [Grammar.startsNoStatement, hcloses.startsWith]

theorem statement?_stable {ts rest : List Token} {body : List Node}
    (h : Reads (statement? ts) body rest) :
    Stable (Reading statement? body) EndsStatement ts rest := by
  rcases reads_statement?.mp h with ⟨hyes, rfl, rfl⟩ | ⟨hno, tree, htree, rfl⟩
  · refine .nothing fun rest' hrest => reads_statement?.mpr (.inl ⟨?_, rfl, rfl⟩)
    rcases hrest with hhead | hends
    · rw [startsNoStatement_congr hhead, hyes]
    · exact hends.startsNoStatement
  refine ((pipeline_stable htree).weaken fun _ h => h.avoids (by decide)).imp_head htree.length_lt
    fun xs rest' hhead _ htree' => reads_statement?.mpr (.inr ⟨?_, tree, htree', rfl⟩)
  rw [startsNoStatement_congr hhead, hno]

theorem statements_stable {ts rest : List Token} {body : List Node}
    (h : Reads (statements ts) body rest) :
    Stable (Reading statements body) (· = []) ts rest := by
  obtain ⟨first, mid, hfirst, ⟨hno, rfl, rfl⟩ | ⟨after, more, hsemicolon, hmore, rfl⟩⟩ :=
    reads_statements.mp h
  · refine ((statement?_stable hfirst).weaken fun _ h => .inl h).imp
      fun xs rest' hrest hfirst' => ?_
    have hend : Follows (Avoids [";"]) rest rest' := hrest.map fun _ h => h ▸ avoids_nil _
    exact reads_statements.mpr
      ⟨body, rest', hfirst', .inl ⟨hend.stops hno List.mem_cons_self, rfl, rfl⟩⟩
  have hfewer := hfirst.length_lt
  have hfewer' := hsemicolon.length_lt
  refine ((statement?_stable hfirst).separated hsemicolon (statements_stable hmore)).imp ?_
  rintro xs rest' - ⟨mid', hfirst', after', hsemicolon', hmore'⟩
  exact reads_statements.mpr
    ⟨first, mid', hfirst', .inr ⟨after', more, hsemicolon', hmore', rfl⟩⟩
termination_by ts.length

end Grammar

end TemplateExpr
