import Mathlib
import TemplateExpr.Program.Place
import TemplateExpr.Proofs.Number.Digits

/-!
# Laws of members

What reading a member makes of a value in which a member was written: the member that was written
reads what was stored, every other one reads what it read before, and writing a member again
replaces it. The length of an array is no member in this sense; it changes when the array grows, and
cannot be written.

Opening a member for writing is writing it back as it is, or as an empty record where nothing is
(`openMember_eq`). So a walk to a place needs no laws but those of writing.
-/

namespace TemplateExpr

open Number

theorem Entries.insert_of_get? {α : Type} {key : String} {value : α} {entries : Entries α}
    (h : entries.get? key = some value) : Entries.insert key value entries = entries := by
  induction entries with
  | nil => cases h
  | cons entry rest ih =>
    obtain ⟨k, v⟩ := entry
    rw [get?_cons] at h
    by_cases hk : key = k
    · rw [if_pos hk] at h
      cases h
      rw [insert, if_pos hk.symm]
    · rw [if_neg hk] at h
      rw [insert, if_neg (Ne.symm hk), ih h]

namespace Value

/-! ## Indices -/

theorem index?_eq_some {key : String} {index : Nat} (h : index? key = some index) :
    key.toList = Nat.toDigits 10 index := by
  simp only [index?] at h
  split at h
  · next hspelt =>
    obtain ⟨hne, hdigits, hcanonical⟩ := hspelt
    obtain ⟨-, hvalue⟩ := Option.ite_none_right_eq_some.mp h
    obtain rfl := Option.some.inj hvalue
    rcases hcanonical with hzero | hhead
    · rw [hzero]
      rfl
    · exact (toDigits_digitsValue (List.all_eq_true.mp hdigits) hhead hne).1.symm
  · cases h

theorem index?_injective {key other : String} {index : Nat} (hkey : index? key = some index)
    (hother : index? other = some index) : other = key := by
  rw [← String.toList_inj, index?_eq_some hkey, index?_eq_some hother]

theorem index?_length : index? "length" = none := by decide

/-! ## Items of an array -/

theorem getElem?_setItem (index : Nat) (value : Value) (items : List Value) (i : Nat) :
    (setItem index value items)[i]? =
      if i = index then some value
      else if i < items.length then items[i]?
      else if i < index then some .undefined else none := by
  rw [setItem, List.getElem?_set]
  by_cases hi : i = index
  · subst hi
    rw [if_pos rfl, if_pos rfl, if_pos]
    rw [List.length_append, List.length_replicate]
    omega
  · rw [if_neg (Ne.symm hi), if_neg hi, List.getElem?_append]
    split
    · rfl
    · rw [List.getElem?_replicate]
      grind

theorem length_setItem (index : Nat) (value : Value) (items : List Value) :
    (setItem index value items).length = max items.length (index + 1) := by
  rw [setItem, List.length_set, List.length_append, List.length_replicate]
  omega

theorem setItem_setItem (index : Nat) (first second : Value) (items : List Value) :
    setItem index second (setItem index first items) = setItem index second items := by
  apply List.ext_getElem?
  intro i
  rw [getElem?_setItem, getElem?_setItem, length_setItem, getElem?_setItem]
  grind

theorem setItem_of_getElem? {index : Nat} {value : Value} {items : List Value}
    (h : items[index]? = some value) : setItem index value items = items := by
  obtain ⟨hlt, hget⟩ := List.getElem?_eq_some_iff.mp h
  have hroom : index + 1 - items.length = 0 := by omega
  rw [setItem, hroom, List.replicate_zero, List.append_nil, ← hget, List.set_getElem_self]

/-! ## What a write does -/

theorem setMember_ok {container changed value : Value} {key : String}
    (h : container.setMember key value = .ok changed) :
    (∃ entries, container = .record entries ∧
      changed = .record (Entries.insert key value entries)) ∨
    ∃ items index, container = .array items ∧ index? key = some index ∧
      index < items.length + maxGrowth ∧ changed = .array (setItem index value items) := by
  unfold setMember at h
  split at h
  · next entries =>
    cases h
    exact .inl ⟨entries, rfl, rfl⟩
  · next items =>
    split at h
    · cases h
    · next index hindex =>
      split at h
      · cases h
      · cases h
        exact .inr ⟨items, index, rfl, hindex, by omega, rfl⟩
  · cases h

theorem setMember_array {items : List Value} {key : String} {index : Nat}
    (hindex : index? key = some index) (hnear : index < items.length + maxGrowth) (value : Value) :
    (Value.array items).setMember key value = .ok (.array (setItem index value items)) := by
  have hfar : ¬ items.length + maxGrowth ≤ index := by omega
  simp only [setMember, hindex, if_neg hfar]

/-- Whether a member can be written does not depend on what is written. -/
theorem setMember_ok_again {container changed value : Value} {key : String}
    (h : container.setMember key value = .ok changed) (other : Value) :
    ∃ changed', container.setMember key other = .ok changed' := by
  rcases setMember_ok h with ⟨entries, rfl, -⟩ | ⟨items, index, rfl, hindex, hnear, -⟩
  · exact ⟨_, rfl⟩
  · exact ⟨_, setMember_array hindex hnear other⟩

theorem setMember_error_again {container value : Value} {key : String} {fault : MemberFault}
    (h : container.setMember key value = .error fault) (other : Value) :
    container.setMember key other = .error fault := by
  unfold setMember at h ⊢
  cases container with
  | record entries => cases h
  | array items =>
    cases hindex : index? key with
    | none =>
      rw [hindex] at h
      exact h
    | some index =>
      rw [hindex] at h
      dsimp only at h ⊢
      split at h
      · next hfar => rw [if_pos hfar, h]
      · cases h
  | _ => exact h

/-- **Reading what was written.** -/
theorem getMember_setMember {container changed value : Value} {key : String}
    (h : container.setMember key value = .ok changed) : changed.getMember key = value := by
  rcases setMember_ok h with ⟨entries, -, rfl⟩ | ⟨items, index, -, hindex, -, rfl⟩
  · rw [getMember, Entries.get?_insert, if_pos rfl, Option.getD_some]
  · have hlength : key ≠ "length" := by
      rintro rfl
      rw [index?_length] at hindex
      cases hindex
    rw [getMember, if_neg hlength, hindex, Option.bind_some, getElem?_setItem, if_pos rfl,
      Option.getD_some]

/-- **Reading what was not written.** -/
theorem getMember_setMember_of_ne {container changed value : Value} {key other : String}
    (h : container.setMember key value = .ok changed) (hne : other ≠ key)
    (hlength : other ≠ "length") : changed.getMember other = container.getMember other := by
  rcases setMember_ok h with ⟨entries, rfl, rfl⟩ | ⟨items, index, rfl, hindex, -, rfl⟩
  · rw [getMember, getMember, Entries.get?_insert, if_neg hne]
  · rw [getMember, getMember, if_neg hlength, if_neg hlength]
    cases hother : index? other with
    | none => rfl
    | some i =>
      have hi : i ≠ index := fun heq => hne (index?_injective hindex (heq ▸ hother))
      rw [Option.bind_some, Option.bind_some, getElem?_setItem, if_neg hi]
      -- Where items were added the array reads as undefined, as it did before.
      grind

/-- **Writing twice is writing the second time only.** -/
theorem setMember_setMember {container changed value : Value} {key : String}
    (h : container.setMember key value = .ok changed) (second : Value) :
    changed.setMember key second = container.setMember key second := by
  rcases setMember_ok h with ⟨entries, rfl, rfl⟩ | ⟨items, index, rfl, hindex, hnear, rfl⟩
  · rw [setMember, setMember, Entries.insert_insert]
  · have hnear' : index < (setItem index value items).length + maxGrowth := by
      rw [length_setItem]
      omega
    rw [setMember_array hindex hnear', setMember_array hindex hnear, setItem_setItem]

theorem isNullish_of_setMember {container changed value : Value} {key : String}
    (h : container.setMember key value = .ok changed) :
    container.isNullish = false ∧ changed.isNullish = false := by
  rcases setMember_ok h with ⟨entries, rfl, rfl⟩ | ⟨items, index, rfl, -, -, rfl⟩
  · exact ⟨rfl, rfl⟩
  · exact ⟨rfl, rfl⟩

/-! ## Opening a member -/

/-- Storing a member where it is stored is no change. -/
theorem setMember_of_ownMember? {container member : Value} {key : String}
    (h : container.ownMember? key = some member) :
    container.setMember key member = .ok container := by
  cases container with
  | record entries => rw [setMember, Entries.insert_of_get? h]
  | array items =>
    obtain ⟨index, hindex, hitem⟩ := Option.bind_eq_some_iff.mp h
    obtain ⟨hlt, -⟩ := List.getElem?_eq_some_iff.mp hitem
    rw [setMember_array hindex (by omega), setItem_of_getElem? hitem]
  | _ => cases h

theorem putBack_of_ownMember? {container member : Value} {key : String}
    (h : container.ownMember? key = some member) : container.putBack key member = container := by
  rw [putBack, setMember_of_ownMember? h]

theorem putBack_of_setMember {container changed member : Value} {key : String}
    (h : container.setMember key member = .ok changed) :
    container.putBack key member = changed := by
  rw [putBack, h]

theorem getMember_of_ownMember? {container : Value} {key : String}
    (h : ∃ changed value, container.setMember key value = .ok changed) :
    container.getMember key = (container.ownMember? key).getD .undefined := by
  obtain ⟨changed, value, h⟩ := h
  rcases setMember_ok h with ⟨entries, rfl, -⟩ | ⟨items, index, rfl, hindex, -, -⟩
  · rfl
  · have hlength : key ≠ "length" := by
      rintro rfl
      rw [index?_length] at hindex
      cases hindex
    rw [getMember, if_neg hlength]
    rfl

/-- **Opening a member is writing it back.** A member that is absent or `null` is written as an
empty record, and every other one as what it is, which changes nothing. -/
theorem openMember_eq (container : Value) (key : String) :
    container.openMember key true =
      (container.setMember key (container.getMember key).orRecord).map
        (·, (container.getMember key).orRecord) := by
  cases hset : container.setMember key emptyRecord with
  | error fault =>
    have hown : container.ownMember? key = none := by
      cases hown : container.ownMember? key with
      | none => rfl
      | some member =>
        have hok := setMember_of_ownMember? hown
        rw [setMember_error_again hset] at hok
        cases hok
    have hagain := setMember_error_again hset (container.getMember key).orRecord
    simp only [openMember, hown, Option.filter_none, if_true, hset, hagain]
    rfl
  | ok changed =>
    rw [getMember_of_ownMember? ⟨changed, _, hset⟩, openMember]
    cases hown : container.ownMember? key with
    | none =>
      simp only [Option.filter_none, if_true, Option.getD_none]
      rfl
    | some member =>
      rw [Option.getD_some, orRecord]
      cases hnullish : member.isNullish with
      | true => simp [Option.filter, hnullish]
      | false =>
        simp [Option.filter, hnullish, setMember_of_ownMember? hown, Except.map]

theorem openMember_ok {container opened member : Value} {key : String} {create : Bool}
    (h : container.openMember key create = .ok (opened, member)) :
    (container.ownMember? key = some member ∧ opened = container) ∨ member = emptyRecord := by
  unfold openMember at h
  split at h
  · next found hfound =>
    obtain ⟨hown, -⟩ := Option.filter_eq_some_iff.mp hfound
    cases h
    exact .inl ⟨hown, rfl⟩
  · split at h
    · cases hset : container.setMember key emptyRecord with
      | ok changed =>
        rw [hset] at h
        cases h
        exact .inr rfl
      | error fault =>
        rw [hset] at h
        cases h
    · cases h

end Value

end TemplateExpr
