import Mathlib
import TemplateExpr.Value.Member

/-!
# Parts of values

A value is made of parts: itself, and the parts of its items or members. Induction goes from the
parts to the whole (`Value.byParts`). That names are distinct is asked of every record in a value,
and so of each of its parts.
-/

namespace TemplateExpr

namespace Value

/-! ## Parts and induction -/

inductive Inside (part : Value) : Value → Prop
  | here : Inside part part
  | item {item : Value} {items : List Value} (mem : item ∈ items) :
      Inside part item → Inside part (.array items)
  | entry {entry : String × Value} {entries : Entries Value} (mem : entry ∈ entries) :
      Inside part entry.2 → Inside part (.record entries)

@[elab_as_elim]
theorem byParts {motive : Value → Prop}
    (atom : ∀ value, value.isContainer = false → motive value)
    (array : ∀ items, (∀ item ∈ items, motive item) → motive (.array items))
    (record : ∀ entries : Entries Value, (∀ entry ∈ entries, motive entry.2) →
      motive (.record entries)) : (value : Value) → motive value
  | .array items => array items fun item _ => byParts atom array record item
  | .record entries => record entries fun entry _ => byParts atom array record entry.2
  | .undefined | .null | .boolean _ | .integer _ | .float _ | .text _ | .function _ => atom _ rfl
termination_by value => value
decreasing_by
  · have hlt := List.sizeOf_lt_of_mem ‹item ∈ items›
    simp only [Value.array.sizeOf_spec]
    omega
  · have hlt := List.sizeOf_lt_of_mem ‹entry ∈ entries›
    obtain ⟨key, item⟩ := entry
    simp only [Prod.mk.sizeOf_spec, Value.record.sizeOf_spec] at hlt ⊢
    omega

theorem inside_atom {part value : Value} (h : value.isContainer = false) :
    Inside part value ↔ part = value := by
  constructor
  · intro hinside
    cases hinside with
    | here => rfl
    | item | entry => cases h
  · rintro rfl
    exact .here

theorem inside_array {part : Value} {items : List Value} :
    Inside part (.array items) ↔ part = .array items ∨ ∃ item ∈ items, Inside part item := by
  constructor
  · intro h
    cases h with
    | here => exact .inl rfl
    | item mem hinside => exact .inr ⟨_, mem, hinside⟩
  · rintro (rfl | ⟨item, mem, hinside⟩)
    · exact .here
    · exact .item mem hinside

theorem inside_record {part : Value} {entries : Entries Value} :
    Inside part (.record entries) ↔
      part = .record entries ∨ ∃ entry ∈ entries, Inside part entry.2 := by
  constructor
  · intro h
    cases h with
    | here => exact .inl rfl
    | entry mem hinside => exact .inr ⟨_, mem, hinside⟩
  · rintro (rfl | ⟨entry, mem, hinside⟩)
    · exact .here
    · exact .entry mem hinside

theorem Inside.trans {part middle whole : Value} (h : Inside part middle)
    (h' : Inside middle whole) : Inside part whole := by
  induction h' with
  | here => exact h
  | item mem _ ih => exact .item mem ih
  | entry mem _ ih => exact .entry mem ih

/-- That a value has no parts and is no function. -/
def Atomic (value : Value) : Prop := value.isContainer = false ∧ value.kind ≠ .function

/-- A member is a part, or an atom: a length, a character, or nothing. -/
theorem getMember_inside_or_atomic (container : Value) (key : String) :
    Inside (container.getMember key) container ∨ (container.getMember key).Atomic := by
  have hundefined : undefined.Atomic := ⟨rfl, by simp [kind]⟩
  have hlength : ∀ n, (ofLength n).Atomic := fun n => ⟨rfl, by simp [ofLength, kind]⟩
  cases container with
  | record entries =>
    rw [getMember]
    cases hget : Entries.get? key entries with
    | none => exact .inr hundefined
    | some member =>
      obtain ⟨before, after, heq, -⟩ := List.lookup_eq_some_iff.mp hget
      have hmem : (key, member) ∈ entries := heq ▸ List.mem_append_right _ List.mem_cons_self
      exact .inl (.entry hmem .here)
  | array items =>
    rw [getMember]
    split
    · exact .inr (hlength _)
    · cases hitem : (index? key).bind (items[·]?) with
      | none => exact .inr hundefined
      | some item =>
        obtain ⟨place, -, hplace⟩ := Option.bind_eq_some_iff.mp hitem
        exact .inl (.item (List.mem_of_getElem? hplace) .here)
  | text s =>
    rw [getMember]
    split
    · exact .inr (hlength _)
    · split
      · exact .inr ⟨rfl, by simp [kind]⟩
      · exact .inr hundefined
  | _ => exact .inr hundefined

/-- That a value is found in another one: it is there, or is an atom and need not be. -/
def FoundIn (whole value : Value) : Prop := Inside value whole ∨ value.Atomic

theorem FoundIn.item {whole : Value} {items : List Value} (h : FoundIn whole (.array items)) :
    ∀ item ∈ items, FoundIn whole item := by
  rcases h with h | h
  · exact fun item hitem => .inl (Inside.trans (.item hitem .here) h)
  · cases h.1

theorem FoundIn.entry {whole : Value} {entries : Entries Value}
    (h : FoundIn whole (.record entries)) : ∀ entry ∈ entries, FoundIn whole entry.2 := by
  rcases h with h | h
  · exact fun entry hentry => .inl (Inside.trans (.entry hentry .here) h)
  · cases h.1

theorem FoundIn.member {whole : Value} {entries : Entries Value}
    (h : FoundIn whole (.record entries)) (key : String) :
    FoundIn whole ((record entries).getMember key) := by
  rcases h with h | h
  · exact (getMember_inside_or_atomic _ key).imp_left fun hpart => hpart.trans h
  · cases h.1

/-! ## Distinct names -/

/-- That no record in a value has two entries of one name. All values are built so. -/
def NamesDistinct (value : Value) : Prop :=
  ∀ entries, Inside (.record entries) value → (entries.map Prod.fst).Nodup

theorem namesDistinct_array {items : List Value} :
    (Value.array items).NamesDistinct ↔ ∀ item ∈ items, item.NamesDistinct := by
  simp only [NamesDistinct, inside_array, reduceCtorEq, false_or]
  constructor
  · exact fun h item hitem entries hinside => h entries ⟨item, hitem, hinside⟩
  · rintro h entries ⟨item, hitem, hinside⟩
    exact h item hitem entries hinside

theorem namesDistinct_record {entries : Entries Value} :
    (Value.record entries).NamesDistinct ↔
      (entries.map Prod.fst).Nodup ∧ ∀ entry ∈ entries, entry.2.NamesDistinct := by
  simp only [NamesDistinct, inside_record, record.injEq]
  constructor
  · exact fun h => ⟨h entries (.inl rfl), fun entry hentry others hinside =>
      h others (.inr ⟨entry, hentry, hinside⟩)⟩
  · rintro ⟨hnodup, h⟩ others (rfl | ⟨entry, hentry, hinside⟩)
    · exact hnodup
    · exact h entry hentry others hinside

theorem namesDistinct_of_atom {value : Value} (h : value.isContainer = false) :
    value.NamesDistinct := by
  intro entries hinside
  obtain rfl := (inside_atom h).mp hinside
  cases h

theorem NamesDistinct.getMember {container : Value} (h : container.NamesDistinct) (key : String) :
    (container.getMember key).NamesDistinct := by
  rcases getMember_inside_or_atomic container key with hpart | hatomic
  · exact fun entries hinside => h entries (hinside.trans hpart)
  · exact namesDistinct_of_atom hatomic.1

end Value

end TemplateExpr
