import Mathlib
import TemplateExpr.Proofs.Value.Member

/-!
# Reading, writing and opening agree

The three ways to a member agree on what a member is. A write succeeds exactly where the value can
hold a member of that name (`Value.CanHold`), and an opened member is one that could be written:
what is put back into it is a write of it. So the laws of reading after writing are laws of all
three (`Value.member_laws`).

An index is a 64-bit word. A name that spells a larger number is no index, however long the array.
-/

namespace TemplateExpr

open Number

namespace Value

/-! ## Indices by their spelling -/

theorem index?_eq_some_iff {key : String} {index : Nat} :
    index? key = some index ↔ key = toString index ∧ index < twoTo 64 := by
  constructor
  · intro h
    refine ⟨String.toList_inj.mp ?_, ?_⟩
    · rw [index?_eq_some h]
      exact String.toList_ofList.symm
    · simp only [index?] at h
      split at h
      · obtain ⟨hlt, heq⟩ := Option.ite_none_right_eq_some.mp h
        exact Option.some.inj heq ▸ hlt
      · cases h
  · rintro ⟨rfl, hlt⟩
    have hspelt : (toString index).toList = Nat.toDigits 10 index := String.toList_ofList
    have hdigits : (Nat.toDigits 10 index).all Char.isDigit = true :=
      List.all_eq_true.mpr fun c hc => Nat.isDigit_of_mem_toDigits (by decide) (by decide) hc
    have hcanonical : Nat.toDigits 10 index = ['0'] ∨ (Nat.toDigits 10 index).head? ≠ some '0' := by
      rcases Nat.eq_zero_or_pos index with rfl | hpos
      · exact .inl rfl
      · exact .inr (head?_toDigits hpos)
    simp only [index?, hspelt]
    rw [if_pos ⟨Nat.toDigits_ne_nil, hdigits, hcanonical⟩, digitsValue_toDigits, if_pos hlt]

theorem exists_index?_iff {key : String} {P : Nat → Prop} :
    (∃ index, index? key = some index ∧ P index) ↔
      ∃ index : UInt64, key = toString index.toNat ∧ P index.toNat := by
  constructor
  · rintro ⟨index, hindex, hP⟩
    obtain ⟨hkey, hlt⟩ := index?_eq_some_iff.mp hindex
    have hword : (UInt64.ofNatLT index hlt).toNat = index := UInt64.toNat_ofNatLT
    exact ⟨UInt64.ofNatLT index hlt, by rw [hword]; exact hkey, by rw [hword]; exact hP⟩
  · rintro ⟨index, hkey, hP⟩
    exact ⟨index.toNat, index?_eq_some_iff.mpr ⟨hkey, index.toNat_lt⟩, hP⟩

/-! ## Where members can be written -/

/-- Whether a value can hold a member of a name: a record any, and an array an item that is at most
9999 places behind its end. -/
def CanHold (key : String) : Value → Prop
  | .record _ => True
  | .array items => ∃ index : UInt64, key = toString index.toNat ∧ index.toNat ≤ items.length + 9999
  | _ => False

/-- **A member can be written exactly where there can be one.** -/
theorem exists_setMember_iff (container : Value) (key : String) (value : Value) :
    (∃ changed, container.setMember key value = .ok changed) ↔ container.CanHold key := by
  cases container with
  | record entries => exact iff_of_true ⟨_, rfl⟩ trivial
  | array items =>
    rw [CanHold, ← exists_index?_iff (P := fun index => index ≤ items.length + 9999)]
    constructor
    · rintro ⟨changed, h⟩
      rcases setMember_ok h with ⟨_, heq, -⟩ | ⟨_, index, heq, hindex, hnear, -⟩ <;> cases heq
      exact ⟨index, hindex, Nat.le_of_lt_succ hnear⟩
    · rintro ⟨index, hindex, hnear⟩
      exact ⟨_, setMember_array hindex (Nat.lt_succ_of_le hnear) value⟩
  | _ =>
    refine iff_of_false ?_ id
    rintro ⟨changed, h⟩
    cases h

/-- What a write leaves of an array: as long as it was, or just long enough for the member, and
undefined wherever else something was added. -/
theorem setMember_array_ok {items : List Value} {changed value : Value} {key : String}
    (h : (Value.array items).setMember key value = .ok changed) :
    ∃ (index : UInt64) (grown : List Value), key = toString index.toNat ∧
      changed = .array grown ∧ grown.length = max items.length (index.toNat + 1) ∧
      grown.length ≤ items.length + 10000 ∧
      ∀ place, items.length ≤ place → place < grown.length → place ≠ index.toNat →
        grown[place]? = some .undefined := by
  rcases setMember_ok h with ⟨_, heq, -⟩ | ⟨_, index, heq, hindex, hnear, rfl⟩ <;> cases heq
  obtain ⟨word, hkey, rfl⟩ :=
    (exists_index?_iff (P := fun i => i = index)).mp ⟨index, hindex, rfl⟩
  have hlength := length_setItem word.toNat value items
  refine ⟨word, _, hkey, rfl, hlength, ?_, fun place hbehind hinside hne => ?_⟩
  · unfold maxGrowth at hnear
    omega
  · rw [getElem?_setItem, if_neg hne, if_neg (by omega), if_pos (by omega)]

theorem writePath_setMember_error {container value : Value} {key : String} {fault : MemberFault}
    (h : container.setMember key value = .error fault) :
    writePath value [key] container = (.error (memberError fault), container) := by
  rw [writePath, h]

/-! ## Opening a member -/

theorem openMember_of_ownMember? {container member : Value} {key : String}
    (hown : container.ownMember? key = some member) (hthere : member.isNullish = false)
    (create : Bool) : container.openMember key create = .ok (container, member) := by
  rw [openMember, hown, Option.filter_some_pos (by rw [hthere]; rfl)]

theorem openMember_false_ok {container opened member : Value} {key : String}
    (h : container.openMember key false = .ok (opened, member)) :
    container.ownMember? key = some member ∧ member.isNullish = false ∧ opened = container := by
  unfold openMember at h
  split at h
  · next found hfound =>
    obtain ⟨hown, hthere⟩ := Option.filter_eq_some_iff.mp hfound
    cases h
    exact ⟨hown, Bool.not_eq_true' _ ▸ hthere, rfl⟩
  · cases h

theorem openMember_create {container opened member : Value} {key : String} {create : Bool}
    (h : container.openMember key create = .ok (opened, member)) :
    container.openMember key true = .ok (opened, member) := by
  cases create with
  | true => exact h
  | false =>
    obtain ⟨hown, hthere, rfl⟩ := openMember_false_ok h
    exact openMember_of_ownMember? hown hthere true

/-- **An opened member** is the member that reading gives, or an empty record where that is absent
or `null`, and the container holds it. -/
theorem openMember_holds {container opened member : Value} {key : String} {create : Bool}
    (h : container.openMember key create = .ok (opened, member)) :
    member = (container.getMember key).orRecord ∧
      container.setMember key member = .ok opened := by
  have hmade := openMember_create h
  rw [openMember_eq] at hmade
  cases hset : container.setMember key (container.getMember key).orRecord with
  | error fault =>
    rw [hset] at hmade
    cases hmade
  | ok changed =>
    rw [hset] at hmade
    cases hmade
    exact ⟨rfl, hset⟩

/-- Putting something into an opened member is writing that member. -/
theorem setMember_opened {container opened member : Value} {key : String}
    (h : container.setMember key member = .ok opened) (value : Value) :
    container.setMember key value = .ok (opened.putBack key value) := by
  obtain ⟨changed, hchanged⟩ := setMember_ok_again h value
  rw [putBack_of_setMember ((setMember_setMember h value).trans hchanged), hchanged]

/-- **A member can be opened** where there can be one, and, if none may be made, there is one that
is not `null`. -/
theorem exists_openMember_iff (container : Value) (key : String) (create : Bool) :
    (∃ opened, container.openMember key create = .ok opened) ↔
      container.CanHold key ∧ (create = true ∨ (container.getMember key).isNullish = false) := by
  rw [← exists_setMember_iff container key (container.getMember key).orRecord]
  constructor
  · rintro ⟨⟨opened, member⟩, h⟩
    obtain ⟨hmember, hset⟩ := openMember_holds h
    refine ⟨⟨opened, hmember ▸ hset⟩, ?_⟩
    cases create with
    | true => exact .inl rfl
    | false =>
      obtain ⟨hown, hthere, -⟩ := openMember_false_ok h
      rw [getMember_of_ownMember? ⟨opened, _, hset⟩, hown]
      exact .inr hthere
  · rintro ⟨⟨changed, hset⟩, hcreate⟩
    rcases hcreate with rfl | hthere
    · rw [openMember_eq, hset]
      exact ⟨_, rfl⟩
    · rw [getMember_of_ownMember? ⟨changed, _, hset⟩] at hthere
      cases hown : container.ownMember? key with
      | none =>
        rw [hown] at hthere
        cases hthere
      | some member =>
        rw [hown] at hthere
        exact ⟨_, openMember_of_ownMember? hown hthere create⟩

/-! ## The laws -/

/-- **Laws of members**, for all values and names. A write succeeds where there can be such a
member; then it reads as what was written, and every other member as before; an array grows by at
most 10000 items, which are undefined but for the one that was written. A write that fails changes
nothing. An opened member is the one that reading gives, or an empty record in its place, and what
is put into it is written there; without leave to make members nothing changes. -/
theorem member_laws (container : Value) (key : String) :
    (∀ value, (∃ changed, container.setMember key value = .ok changed) ↔ container.CanHold key) ∧
    (∀ value changed, container.setMember key value = .ok changed →
      changed.getMember key = value ∧
      (∀ other, other ≠ key → other ≠ "length" →
        changed.getMember other = container.getMember other) ∧
      ∀ items, container = .array items →
        ∃ (index : UInt64) (grown : List Value), key = toString index.toNat ∧
          changed = .array grown ∧ grown.length = max items.length (index.toNat + 1) ∧
          grown.length ≤ items.length + 10000 ∧
          ∀ place, items.length ≤ place → place < grown.length → place ≠ index.toNat →
            grown[place]? = some .undefined) ∧
    (∀ value fault, container.setMember key value = .error fault →
      writePath value [key] container = (.error (memberError fault), container)) ∧
    ∀ create,
      ((∃ opened, container.openMember key create = .ok opened) ↔
        container.CanHold key ∧
          (create = true ∨ (container.getMember key).isNullish = false)) ∧
      ∀ opened member, container.openMember key create = .ok (opened, member) →
        member = (container.getMember key).orRecord ∧
        opened.getMember key = member ∧
        container.setMember key member = .ok opened ∧
        (∀ value, container.setMember key value = .ok (opened.putBack key value)) ∧
        (create = false → opened = container) := by
  refine ⟨exists_setMember_iff container key, fun value changed h => ⟨?reads, ?others, ?grown⟩,
    fun value fault => writePath_setMember_error, fun create =>
      ⟨exists_openMember_iff container key create, fun opened member h => ?opened⟩⟩
  case reads => exact getMember_setMember h
  case others => exact fun other => getMember_setMember_of_ne h
  case grown =>
    rintro items rfl
    exact setMember_array_ok h
  case opened =>
    obtain ⟨hmember, hset⟩ := openMember_holds h
    refine ⟨hmember, getMember_setMember hset, hset, setMember_opened hset, ?_⟩
    rintro rfl
    exact (openMember_false_ok h).2.2

/-- An array of two items, one of them `null`: the last place that can be written and the first that
cannot, a write that leaves a gap, and the `null` opened. -/
theorem member_laws_edge :
    let before := array [integer 1, null]
    let after := array [integer 1, null, undefined, boolean true]
    let opened := array [integer 1, emptyRecord]
    (∃ changed, before.setMember "10001" null = .ok changed) ∧
      before.setMember "10002" null = .error (.tooFar "10002" 2) ∧
      writePath null ["10002"] before =
        (.error (memberError (.tooFar "10002" 2)), before) ∧
      before.setMember "3" (boolean true) = .ok after ∧
      after.getMember "3" = boolean true ∧ after.getMember "0" = before.getMember "0" ∧
      before.openMember "1" true = .ok (opened, emptyRecord) ∧
      before.setMember "1" (integer 5) = .ok (opened.putBack "1" (integer 5)) ∧
      ¬∃ opened, before.openMember "1" false = .ok opened := by
  intro before after opened
  have hfar : before.setMember "10002" null = .error (.tooFar "10002" 2) := rfl
  have hset : before.setMember "3" (boolean true) = .ok after := rfl
  have hopen : before.openMember "1" true = .ok (opened, emptyRecord) := rfl
  have hlast : before.CanHold "10001" := ⟨10001, by decide +kernel, by decide⟩
  obtain ⟨hreads, hothers, -⟩ := (member_laws before "3").2.1 _ _ hset
  obtain ⟨-, -, -, hput, -⟩ := ((member_laws before "1").2.2.2 true).2 _ _ hopen
  refine ⟨((member_laws before "10001").1 null).mpr hlast, hfar,
    (member_laws before "10002").2.2.1 _ _ hfar, hset, hreads,
    hothers "0" (by decide) (by decide), hopen, hput _, fun hopened => ?_⟩
  rcases (((member_laws before "1").2.2.2 false).1.mp hopened).2 with hcreate | hthere
  · cases hcreate
  · cases hthere

end Value

end TemplateExpr
