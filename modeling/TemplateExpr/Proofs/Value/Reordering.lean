import Mathlib
import TemplateExpr.Proofs.Json.Shape
import TemplateExpr.Proofs.Value.Symmetry

/-!
# The order of entries

A record is a list of entries, and equality, reading and writing do not depend on the order in which
they stand. Two values are reorderings of each other (`Value.Reordered`) if they differ in the order
of entries only, of any records at any depth. Then they are equal to the same values and written as
the same JSON, and their members are reorderings of each other again.

Names must be distinct where one entry could hide another. Where the program asks the host about
entries, as a filter does whose criterion or comparator is a function of the host, the order is the
order of the questions, and nothing is said of the answers here.
-/

namespace TemplateExpr

namespace Value

/-! ## Reorderings -/

/-- That two values differ in the order of entries only. The entries of a record are reordered each
by itself, and then put in another order. -/
inductive Reordered : Value → Value → Prop
  | atom {value : Value} : value.isContainer = false → Reordered value value
  | array {items others : List Value} :
      List.Forall₂ Reordered items others → Reordered (.array items) (.array others)
  | record {entries listed others : Entries Value} :
      entries.map Prod.fst = listed.map Prod.fst →
      List.Forall₂ Reordered (entries.map Prod.snd) (listed.map Prod.snd) →
      listed.Perm others → Reordered (.record entries) (.record others)

def EntryReordered (entry other : String × Value) : Prop :=
  entry.1 = other.1 ∧ entry.2.Reordered other.2

theorem forall₂_entryReordered {entries listed : Entries Value} :
    List.Forall₂ EntryReordered entries listed ↔
      entries.map Prod.fst = listed.map Prod.fst ∧
        List.Forall₂ Reordered (entries.map Prod.snd) (listed.map Prod.snd) := by
  induction entries generalizing listed with
  | nil => cases listed <;> simp
  | cons entry entries ih =>
    cases listed with
    | nil => simp
    | cons other listed =>
      simp only [List.forall₂_cons, List.map_cons, List.cons.injEq, ih, EntryReordered]
      tauto

theorem reordered_array {items : List Value} {value : Value} :
    (Value.array items).Reordered value ↔
      ∃ others, value = .array others ∧ List.Forall₂ Reordered items others := by
  constructor
  · intro h
    cases h with
    | atom h => cases h
    | array hitems => exact ⟨_, rfl, hitems⟩
  · rintro ⟨others, rfl, hitems⟩
    exact .array hitems

theorem reordered_record {entries : Entries Value} {value : Value} :
    (Value.record entries).Reordered value ↔
      ∃ listed others, value = .record others ∧ List.Forall₂ EntryReordered entries listed ∧
        listed.Perm others := by
  constructor
  · intro h
    cases h with
    | atom h => cases h
    | record hnames hvalues hperm =>
      exact ⟨_, _, rfl, forall₂_entryReordered.mpr ⟨hnames, hvalues⟩, hperm⟩
  · rintro ⟨listed, others, rfl, hentries, hperm⟩
    obtain ⟨hnames, hvalues⟩ := forall₂_entryReordered.mp hentries
    exact .record hnames hvalues hperm

theorem Reordered.refl (value : Value) : value.Reordered value := by
  induction value using Value.byParts with
  | atom value hatom => exact .atom hatom
  | array items ih => exact .array (List.forall₂_same.mpr ih)
  | record entries ih =>
    exact reordered_record.mpr
      ⟨entries, entries, rfl, List.forall₂_same.mpr fun entry h => ⟨rfl, ih entry h⟩, .refl _⟩

theorem Reordered.of_perm {entries others : Entries Value} (h : entries.Perm others) :
    (Value.record entries).Reordered (.record others) :=
  reordered_record.mpr
    ⟨entries, others, rfl, List.forall₂_same.mpr fun entry _ => ⟨rfl, .refl entry.2⟩, h⟩

section

variable {value other : Value}

/-! ## What does not change -/

theorem Reordered.kind_eq (h : value.Reordered other) : value.kind = other.kind := by
  cases h <;> rfl

theorem Reordered.isContainer_eq (h : value.Reordered other) :
    value.isContainer = other.isContainer := by
  cases h <;> rfl

theorem Reordered.isNullish_eq (h : value.Reordered other) : value.isNullish = other.isNullish := by
  cases h <;> rfl

theorem Reordered.isUnwritable_eq (h : value.Reordered other) :
    value.isUnwritable = other.isUnwritable := by
  cases h <;> rfl

theorem Reordered.toNumber_eq (h : value.Reordered other) : value.toNumber = other.toNumber := by
  cases h <;> rfl

theorem Reordered.eq_of_atom (h : value.Reordered other) (hatom : value.isContainer = false) :
    other = value := by
  cases h with
  | atom => rfl
  | array | record => cases hatom

theorem Reordered.booleanAsNumber (h : value.Reordered other) :
    value.booleanAsNumber.Reordered other.booleanAsNumber := by
  cases h with
  | atom => exact .refl _
  | array hitems => exact .array hitems
  | record hnames hvalues hperm => exact .record hnames hvalues hperm

theorem Reordered.entries {entries others : Entries Value}
    (h : (Value.record entries).Reordered (.record others)) :
    ∃ listed, List.Forall₂ EntryReordered entries listed ∧ listed.Perm others := by
  obtain ⟨listed, _, heq, hentries, hperm⟩ := reordered_record.mp h
  exact ⟨listed, hentries, record.inj heq ▸ hperm⟩

theorem Reordered.names_perm {entries others : Entries Value}
    (h : (Value.record entries).Reordered (.record others)) :
    (entries.map Prod.fst).Perm (others.map Prod.fst) := by
  obtain ⟨listed, hentries, hperm⟩ := h.entries
  rw [(forall₂_entryReordered.mp hentries).1]
  exact hperm.map Prod.fst

theorem Reordered.namesDistinct :
    ∀ {other : Value}, value.Reordered other → value.NamesDistinct → other.NamesDistinct := by
  induction value using Value.byParts with
  | atom value hatom =>
    intro other h hnames
    rwa [h.eq_of_atom hatom]
  | array items ih =>
    intro other h hnames
    obtain ⟨others, rfl, hitems⟩ := reordered_array.mp h
    rw [namesDistinct_array] at hnames ⊢
    intro other hother
    obtain ⟨item, hitem, hpair⟩ := exists_left_of_forall₂ hitems hother
    exact ih item hitem hpair (hnames item hitem)
  | record entries ih =>
    intro other h hnames
    obtain ⟨listed, others, rfl, hentries, hperm⟩ := reordered_record.mp h
    rw [namesDistinct_record] at hnames ⊢
    refine ⟨h.names_perm.nodup_iff.mp hnames.1, fun other hother => ?_⟩
    obtain ⟨entry, hentry, hpair⟩ := exists_left_of_forall₂ hentries (hperm.mem_iff.mpr hother)
    exact ih entry hentry hpair.2 (hnames.2 entry hentry)

/-! ## Members -/

theorem get?_perm {entries others : Entries Value} (hnodup : (others.map Prod.fst).Nodup)
    (hperm : entries.Perm others) (key : String) :
    Entries.get? key entries = Entries.get? key others := by
  have hentries : (entries.map Prod.fst).Nodup := (hperm.map Prod.fst).nodup_iff.mpr hnodup
  ext member
  have hentry : (key, member) ∈ entries ↔ (key, member) ∈ others := hperm.mem_iff
  rwa [Entries.mem_iff_get? hentries, Entries.mem_iff_get? hnodup] at hentry

theorem Reordered.get?_cases {entries others : Entries Value}
    (h : (Value.record entries).Reordered (.record others))
    (hnames : (Value.record entries).NamesDistinct) (key : String) :
    Entries.get? key entries = none ∧ Entries.get? key others = none ∨
      ∃ member found, Entries.get? key entries = some member ∧
        Entries.get? key others = some found ∧ member.Reordered found := by
  have hnodup := (namesDistinct_record.mp (h.namesDistinct hnames)).1
  obtain ⟨listed, hentries, hperm⟩ := h.entries
  rw [← get?_perm hnodup hperm]
  clear h hnames hnodup hperm
  induction hentries with
  | nil => exact .inl ⟨rfl, rfl⟩
  | @cons entry other _ _ hpair _ ih =>
    obtain ⟨name, value⟩ := entry
    obtain ⟨name', value'⟩ := other
    obtain ⟨rfl, hvalue⟩ := hpair
    rw [Entries.get?_cons, Entries.get?_cons]
    split
    · exact .inr ⟨value, value', rfl, rfl, hvalue⟩
    · exact ih

theorem Reordered.hasKey_eq (h : value.Reordered other) (hnames : value.NamesDistinct)
    (key : String) : value.hasKey key = other.hasKey key := by
  cases value with
  | record entries =>
    obtain ⟨_, others, rfl, -, -⟩ := reordered_record.mp h
    rw [hasKey, hasKey, Entries.contains, Entries.contains]
    rcases h.get?_cases hnames key with ⟨hget, hget'⟩ | ⟨_, _, hget, hget', -⟩
    · rw [hget, hget']
    · rw [hget, hget']
      rfl
  | array items =>
    obtain ⟨_, rfl, -⟩ := reordered_array.mp h
    rfl
  | _ => rw [h.eq_of_atom rfl]

/-- **Members of reordered values are reordered.** -/
theorem Reordered.getMember (h : value.Reordered other) (hnames : value.NamesDistinct)
    (key : String) : (value.getMember key).Reordered (other.getMember key) := by
  cases value with
  | record entries =>
    obtain ⟨_, others, rfl, -, -⟩ := reordered_record.mp h
    rw [Value.getMember, Value.getMember]
    rcases h.get?_cases hnames key with ⟨hget, hget'⟩ | ⟨_, _, hget, hget', hmember⟩ <;>
      rw [hget, hget']
    · exact .refl _
    · exact hmember
  | array items =>
    obtain ⟨others, rfl, hitems⟩ := reordered_array.mp h
    rw [Value.getMember, Value.getMember, hitems.length_eq]
    split
    · exact .refl _
    · cases index? key with
      | none => exact .refl _
      | some place =>
        by_cases hplace : place < items.length
        · have hplace' : place < others.length := hitems.length_eq ▸ hplace
          simpa [hplace, hplace'] using hitems.get hplace hplace'
        · have hplace' : ¬place < others.length := hitems.length_eq ▸ hplace
          simpa [hplace, hplace'] using Reordered.refl _
  | _ =>
    rw [h.eq_of_atom rfl]
    exact .refl _

/-! ## Equality -/

theorem entriesFound_eq (entries others : Entries Value) :
    entriesFound entries others =
      entries.all fun entry => (Entries.get? entry.1 others).any (entry.2.strictEquals ·) := by
  induction entries with
  | nil => rfl
  | cons entry entries ih =>
    obtain ⟨key, value⟩ := entry
    rw [entriesFound, List.all_cons, ih]
    cases Entries.get? key others <;> rfl

theorem itemsEqual_congr {items items' others others' : List Value}
    (hitems : List.Forall₂ Reordered items items') (hothers : List.Forall₂ Reordered others others')
    (hagree : ∀ item ∈ items, ∀ item', item.Reordered item' → ∀ other ∈ others, ∀ other',
      other.Reordered other' → item.strictEquals other = item'.strictEquals other') :
    itemsEqual items others = itemsEqual items' others' := by
  induction hitems generalizing others others' with
  | nil => cases hothers <;> rfl
  | cons hitem _ ih =>
    cases hothers with
    | nil => rfl
    | cons hother hothers =>
      rw [itemsEqual, itemsEqual, ih hothers,
        hagree _ List.mem_cons_self _ hitem _ List.mem_cons_self _ hother]
      intro item hmem item' hitem other hmem' other' hother
      exact hagree item (List.mem_cons_of_mem _ hmem) item' hitem other
        (List.mem_cons_of_mem _ hmem') other' hother

/-- **Strict equality does not see the order of entries.** -/
theorem Reordered.strictEquals_eq {left : Value} :
    ∀ {left' right right' : Value}, left.Reordered left' → right.Reordered right' →
      right.NamesDistinct → left.strictEquals right = left'.strictEquals right' := by
  induction left using Value.byParts with
  | atom left hatom =>
    intro left' right right' hleft hright _
    rw [hleft.eq_of_atom hatom]
    cases hright with
    | atom => rfl
    | array | record => cases left <;> first | rfl | cases hatom
  | array items ih =>
    intro left' right right' hleft hright hnames
    obtain ⟨items', rfl, hitems⟩ := reordered_array.mp hleft
    cases right with
    | array others =>
      obtain ⟨others', rfl, hothers⟩ := reordered_array.mp hright
      rw [namesDistinct_array] at hnames
      rw [strictEquals, strictEquals]
      refine itemsEqual_congr hitems hothers
        fun item hmem item' hitem other hmem' other' hother => ?_
      exact ih item hmem hitem hother (hnames other hmem')
    | record others =>
      obtain ⟨_, others', rfl, -, -⟩ := reordered_record.mp hright
      rfl
    | _ =>
      rw [hright.eq_of_atom rfl]
      rfl
  | record entries ih =>
    intro left' right right' hleft hright hnames
    obtain ⟨listed, entries', rfl, hentries, hperm⟩ := reordered_record.mp hleft
    cases right with
    | record others =>
      obtain ⟨_, others', rfl, -, -⟩ := reordered_record.mp hright
      have hlength : entries.length = entries'.length := by
        simpa using hleft.names_perm.length_eq
      have hlength' : others.length = others'.length := by
        simpa using hright.names_perm.length_eq
      rw [strictEquals, strictEquals, hlength, hlength', entriesFound_eq, entriesFound_eq,
        ← hperm.all_eq]
      refine congrArg _ (all_eq_of_forall₂ hentries fun entry hentry other hpair => ?_)
      rw [← hpair.1]
      have hmembers := (namesDistinct_record.mp hnames).2
      rcases hright.get?_cases hnames entry.1 with
        ⟨hget, hget'⟩ | ⟨found, found', hget, hget', hfound⟩ <;> rw [hget, hget']
      · rfl
      · exact ih entry hentry hpair.2 hfound (hmembers _ (Entries.mem_of_get? hget))
    | array others =>
      obtain ⟨_, rfl, -⟩ := reordered_array.mp hright
      rfl
    | _ =>
      rw [hright.eq_of_atom rfl]
      rfl

/-- **Nor does loose equality.** -/
theorem Reordered.looseEquals_eq {left left' right right' : Value} (hleft : left.Reordered left')
    (hright : right.Reordered right') (hnames : right.NamesDistinct) :
    looseEquals left right = looseEquals left' right' := by
  by_cases hnullish : left.isNullish = true ∨ right.isNullish = true
  · have hnullish' : left'.isNullish = true ∨ right'.isNullish = true := by
      rwa [← hleft.isNullish_eq, ← hright.isNullish_eq]
    rw [looseEquals_of_isNullish hnullish, looseEquals_of_isNullish hnullish', hleft.isNullish_eq,
      hright.isNullish_eq]
  · rw [not_or, Bool.not_eq_true, Bool.not_eq_true] at hnullish
    obtain ⟨hl, hr⟩ := hnullish
    have hl' : left'.isNullish = false := hleft.isNullish_eq ▸ hl
    have hr' : right'.isNullish = false := hright.isNullish_eq ▸ hr
    have hnumber := hleft.booleanAsNumber
    have hnumber' := hright.booleanAsNumber
    have htext : TextWithNumber left.booleanAsNumber right.booleanAsNumber ↔
        TextWithNumber left'.booleanAsNumber right'.booleanAsNumber := by
      rw [TextWithNumber, TextWithNumber, hnumber.kind_eq, hnumber'.kind_eq]
    rcases looseEquals_cases hl hr with ⟨hcase, heq⟩ | ⟨hcase, heq⟩ <;>
      rcases looseEquals_cases hl' hr' with ⟨hcase', heq'⟩ | ⟨hcase', heq'⟩
    · rw [heq, heq', hnumber.toNumber_eq, hnumber'.toNumber_eq]
    · exact absurd (htext.mp hcase) hcase'
    · exact absurd (htext.mpr hcase') hcase
    · rw [heq, heq', hnumber.strictEquals_eq hnumber' hnames.booleanAsNumber]

end

/-! ## JSON -/

open Json in
theorem sortByName_eq_of_perm {α : Type} {entries others : Entries α}
    (hnodup : (entries.map Prod.fst).Nodup) (hperm : entries.Perm others) :
    sortByName entries = sortByName others := by
  have hsorted : ∀ entries : Entries α,
      (sortByName entries).Pairwise fun a b => decide (a.1 ≤ b.1) = true := by
    refine List.pairwise_mergeSort ?_ ?_
    · intro a b c hab hbc
      rw [decide_eq_true_eq] at hab hbc ⊢
      exact hab.trans hbc
    · intro a b
      simpa using le_total a.1 b.1
  refine List.Perm.eq_of_pairwise ?_ (hsorted entries) (hsorted others)
    (((sortByName_perm entries).trans hperm).trans (sortByName_perm others).symm)
  intro a b ha hb hab hba
  rw [(sortByName_perm entries).mem_iff] at ha
  rw [(sortByName_perm others).mem_iff, ← hperm.mem_iff] at hb
  rw [decide_eq_true_eq] at hab hba
  exact List.inj_on_of_nodup_map hnodup ha hb (le_antisymm hab hba)

open Json in
theorem renderEntries_congr (layout : Layout) (level : Nat) {entries listed : Entries Value}
    (hentries : List.Forall₂ EntryReordered entries listed)
    (hagree : ∀ entry ∈ entries, ∀ other, EntryReordered entry other →
      render layout level entry.2 = render layout level other.2) :
    renderEntries layout level entries = renderEntries layout level listed := by
  induction hentries with
  | nil => rfl
  | @cons entry other _ _ hpair _ ih =>
    rw [List.forall_mem_cons] at hagree
    have hrendered := hagree.1 other hpair
    obtain ⟨name, value⟩ := entry
    obtain ⟨name', value'⟩ := other
    obtain ⟨rfl, hvalue⟩ := hpair
    rw [renderEntries, renderEntries, ih hagree.2, hrendered, hvalue.isUnwritable_eq]

open Json in
/-- **A reordered value is written as the same JSON.** -/
theorem Reordered.render_eq (layout : Layout) {value : Value} :
    ∀ {other : Value} (level : Nat), value.Reordered other → value.NamesDistinct →
      render layout level value = render layout level other := by
  induction value using Value.byParts with
  | atom value hatom =>
    intro other level h _
    rw [h.eq_of_atom hatom]
  | array items ih =>
    intro other level h hnames
    obtain ⟨others, rfl, hitems⟩ := reordered_array.mp h
    rw [namesDistinct_array] at hnames
    rw [render, render, renderItems_eq, renderItems_eq]
    refine congrArg _ (map_eq_of_forall₂ hitems fun item hitem other hpair => ?_)
    exact ih item hitem (level + 1) hpair (hnames item hitem)
  | record entries ih =>
    intro other level h hnames
    obtain ⟨listed, others, rfl, hentries, hperm⟩ := reordered_record.mp h
    rw [namesDistinct_record] at hnames
    have hlisted := renderEntries_congr layout (level + 1) hentries fun entry hentry other hpair =>
      ih entry hentry (level + 1) hpair.2 (hnames.2 entry hentry)
    have hshuffled : (renderEntries layout (level + 1) entries).Perm
        (renderEntries layout (level + 1) others) := by
      rw [hlisted, renderEntries_eq, renderEntries_eq]
      exact (hperm.filter isWritten).map _
    have hnodup : ((renderEntries layout (level + 1) entries).map Prod.fst).Nodup := by
      rw [renderEntries_eq, List.map_map]
      exact hnames.1.sublist (List.filter_sublist.map Prod.fst)
    rw [render, render]
    simp only [sortByName_eq_of_perm hnodup hshuffled]

theorem Reordered.toJson_eq {value other : Value} (h : value.Reordered other)
    (hnames : value.NamesDistinct) (layout : Json.Layout) :
    value.toJson layout = other.toJson layout :=
  congrArg String.ofList (h.render_eq layout 0 hnames)

end Value

end TemplateExpr
