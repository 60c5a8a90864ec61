import TemplateExpr.Proofs.Token.Seam
import TemplateExpr.Proofs.Tree.Completeness

/-!
# Statements one behind the other

The grammar does not look at where a token stands (`Derives.moved`), and two lists of statements
with a semicolon between them are one list (`Derives.append_statements`). So the tree of two sources
with a semicolon between them has the statements of the first and then those of the second
(`Node.ofTokens_semicolon`), also where one of them has none.
-/

namespace TemplateExpr

open Token

/-- **The grammar does not look at positions.** -/
theorem Derives.moved {rule : Attachment} {phrase : Phrase} {ts : List Token}
    (h : Derives rule phrase ts) (distance : Nat) :
    Derives rule phrase (ts.map (·.moved distance)) := by
  induction h with
  | assigned _ _ hclosed ihl ihr =>
    rw [List.map_append, List.map_cons]
    exact .assigned ihl ihr hclosed
  | moreStatements _ _ ihf ihm =>
    rw [List.map_append, List.map_cons]
    exact .moreStatements ihf ihm
  | piped _ _ ihi iha =>
    rw [List.map_append, List.map_cons, List.map_cons]
    exact .piped ihi iha
  | stageArgument _ _ iha ihm =>
    rw [List.map_append, List.map_cons]
    exact .stageArgument iha ihm
  | conditional _ _ _ iht ihc iha =>
    rw [List.map_append, List.map_append, List.map_cons, List.map_cons]
    exact .conditional iht ihc iha
  | chained _ hop _ ihl ihr =>
    rw [List.map_append, List.map_cons]
    exact .chained ihl hop ihr
  | level hnext _ ih => exact .level hnext ih
  | tightest hnext _ ih => exact .tightest hnext ih
  | signed hop _ ih => exact .signed hop ih
  | member _ ih =>
    rw [List.map_append]
    exact .member ih
  | index _ _ iht ihk =>
    rw [List.map_append, List.map_append, List.map_cons]
    exact .index iht ihk
  | call _ _ ihc ihg =>
    rw [List.map_append, List.map_append, List.map_cons]
    exact .call ihc ihg
  | moreArguments _ _ iha ihm =>
    rw [List.map_append, List.map_cons]
    exact .moreArguments iha ihm
  | moreElements _ _ iha ihm =>
    rw [List.map_append, List.map_cons]
    exact .moreElements iha ihm
  | moreEntries _ _ iha ihm =>
    rw [List.map_append, List.map_cons]
    exact .moreEntries iha ihm
  | bracketed _ ih =>
    rw [List.map_append, List.map_cons]
    exact .bracketed ih
  | array _ ih =>
    rw [List.map_append, List.map_cons]
    exact .array ih
  | object _ ih =>
    rw [List.map_append, List.map_cons]
    exact .object ih
  | word hword => exact .word hword
  | noStatement => exact .noStatement
  | noStageArgument => exact .noStageArgument
  | constant => exact .constant
  | noArgument => exact .noArgument
  | noElement => exact .noElement
  | noEntry => exact .noEntry
  | program _ ih => exact .program ih
  | lastStatement _ ih => exact .lastStatement ih
  | oneStatement _ ih => exact .oneStatement ih
  | unpiped _ ih => exact .unpiped ih
  | unassigned _ ih => exact .unassigned ih
  | unconditional _ ih => exact .unconditional ih
  | unchained _ ih => exact .unchained ih
  | unprefixed _ ih => exact .unprefixed ih
  | bare _ ih => exact .bare ih
  | someArguments _ ih => exact .someArguments ih
  | lastArgument _ ih => exact .lastArgument ih
  | lastElement _ ih => exact .lastElement ih
  | namedEntry _ ih => exact .namedEntry ih
  | constantEntry _ ih => exact .constantEntry ih
  | lastEntry _ ih => exact .lastEntry ih

/-- **A semicolon between statements.** The lists on its two sides become one. -/
theorem Derives.append_statements {rule : Attachment} {first more : List Node} {us vs : List Token}
    (hfirst : Derives rule (.statements first) us) (hmore : Derives rule (.statements more) vs)
    (position : Nat) :
    Derives rule (.statements (first ++ more)) (us ++ symbol ";" position :: vs) := by
  generalize hphrase : Phrase.statements first = phrase at hfirst
  induction hfirst generalizing first with
  | lastStatement hlast =>
    cases hphrase
    exact .moreStatements hlast hmore
  | moreStatements hhead _ _ ih =>
    cases hphrase
    rw [List.append_assoc, List.append_assoc, List.cons_append]
    exact .moreStatements hhead (ih rfl)
  | _ => cases hphrase

theorem Node.ofTokens_statements {ts : List Token} {tree : Node} (hts : AllDistinct ts)
    (h : Node.ofTokens ts = .ok tree) :
    ∃ body, tree = .program false body ∧ Derives .innermost (.statements body) ts := by
  cases Node.ofTokens_sound hts h with
  | program hbody => exact ⟨_, rfl, hbody⟩

/-- **A semicolon between sources.** The whole is a tree with the statements of both. -/
theorem Node.ofTokens_semicolon {first second : String} {us vs : List Token} {left right : Node}
    (hus : tokenize first = .ok us) (hvs : tokenize second = .ok vs)
    (hleft : Node.ofTokens us = .ok left) (hright : Node.ofTokens vs = .ok right) :
    ∃ before after ts, left = .program false before ∧ right = .program false after ∧
      tokenize (first ++ ";" ++ second) = .ok ts ∧
      Node.ofTokens ts = .ok (.program false (before ++ after)) := by
  obtain ⟨before, rfl, hbefore⟩ := Node.ofTokens_statements (tokenize_distinct hus) hleft
  obtain ⟨after, rfl, hafter⟩ := Node.ofTokens_statements (tokenize_distinct hvs) hright
  obtain ⟨position, distance, htokens⟩ := tokenize_semicolon hus hvs
  have hall := hbefore.append_statements (hafter.moved distance) position
  exact ⟨before, after, _, rfl, rfl, htokens,
    Node.ofTokens_complete (tokenize_distinct htokens) (.program hall)⟩

end TemplateExpr
