import OpsPilot.Foundations.FirstWrites
import OpsPilot.Foundations.Json
import Mathlib.Data.String.Basic

/-!
# Building and shrinking JSON objects

* `Json.dict`: an object from fields in any order; its lookups are those of the fields.
* `Json.Within`: a value that is another one with fields and items left out, at any depth.
-/

namespace OpsPilot.Json

/-! ## Objects from fields -/

/-- `{key: value, …}`: the fields are kept in the order of their keys. -/
def dict (fields : List (String × Json)) : Json :=
  obj (fields.insertionSort fun a b => a.1 ≤ b.1)

variable {fields fields' : List (String × Json)} {key : String} {value : Json}

theorem field?_dict (h : (fields.map Prod.fst).Nodup) (key : String) :
    (dict fields).field? key = fields.lookup key := by
  have hperm := List.perm_insertionSort (fun a b : String × Json => a.1 ≤ b.1) fields
  have hnodup := (hperm.map Prod.fst).nodup_iff.2 h
  refine lookup_congr (fun e => hperm.mem_iff) (fun e he e' he' heq => ?_) key
  exact List.inj_on_of_nodup_map hnodup he he' heq

theorem mem_dict : (key, value) ∈ fields.insertionSort (fun a b => a.1 ≤ b.1) ↔
    (key, value) ∈ fields :=
  (List.perm_insertionSort _ _).mem_iff

theorem isObject_dict : (dict fields).isObject = true := rfl

/-- `fields[key] = value`, where there is a value. -/
def assign (key : String) (value : Option Json) : List (String × Json) := value.toList.map (key, ·)

theorem assign_keys (key : String) (value : Option Json) :
    ((assign key value).map Prod.fst).Sublist [key] := by
  cases value with
  | none => exact List.nil_sublist _
  | some value => exact List.Sublist.refl _

theorem lookup_assign (key key' : String) (value : Option Json) :
    (assign key value).lookup key' = if key' = key then value else none := by
  cases value with
  | none => simp [assign]
  | some value =>
    rw [assign, Option.toList_some, List.map_singleton, List.lookup_cons]
    by_cases h : key' = key
    · rw [beq_iff_eq.2 h, if_pos h]
    · rw [beq_eq_false_iff_ne.2 h, if_neg h]
      rfl

theorem mem_assign {key key' : String} {value : Option Json} {value' : Json} :
    (key', value') ∈ assign key value ↔ key' = key ∧ value = some value' := by
  cases value with
  | none => simp [assign]
  | some value => simp [assign, eq_comm]

/-- A field that is found is there. -/
theorem mem_of_field? (h : (obj fields).field? key = some value) : (key, value) ∈ fields := by
  obtain ⟨front, back, rfl, -⟩ := List.lookup_eq_some_iff.1 h
  simp

/-! ## Shrunk values -/

/-- Every field and every item of the first value is one of the second, shrunk in turn; an object
without fields may stand for anything. -/
inductive Within : Json → Json → Prop
  | refl (value : Json) : Within value value
  | empty (value : Json) : Within (obj []) value
  | obj {fields fields' : List (String × Json)} (source : String × Json → Json)
      (hmem : ∀ f ∈ fields, (f.1, source f) ∈ fields')
      (hwithin : ∀ f ∈ fields, Within f.2 (source f)) : Within (obj fields) (obj fields')
  | arr {items : List (Json × Json)} {items' : List Json}
      (hmem : List.Sublist (items.map Prod.snd) items')
      (hwithin : ∀ item ∈ items, Within item.1 item.2) :
      Within (arr (items.map Prod.fst)) (arr items')

/-- An object shrinks to fields that each come from one of its own. -/
theorem within_obj (h : ∀ f ∈ fields, ∃ value, (f.1, value) ∈ fields' ∧ Within f.2 value) :
    Within (obj fields) (obj fields') := by
  classical
  choose source hsource using h
  refine .obj (fun f => if hf : f ∈ fields then source f hf else .null) (fun f hf => ?_)
    fun f hf => ?_
  · rw [dif_pos hf]
    exact (hsource f hf).1
  · rw [dif_pos hf]
    exact (hsource f hf).2

/-- An object of fields that each shrink the field of a value with their key shrinks the value. -/
theorem within_of_field? {source : Json}
    (h : ∀ f ∈ fields, ∃ value, source.field? f.1 = some value ∧ Within f.2 value) :
    Within (dict fields) source := by
  cases source with
  | obj fields' =>
    refine within_obj fun f hf => ?_
    obtain ⟨value, hvalue, hwithin⟩ := h f (mem_dict.1 hf)
    exact ⟨value, mem_of_field? hvalue, hwithin⟩
  | null | bool | num | str | arr =>
    have hnone : fields = [] := by
      refine List.eq_nil_iff_forall_not_mem.2 fun f hf => ?_
      obtain ⟨value, hvalue, -⟩ := h f hf
      cases hvalue
    rw [hnone]
    exact .empty _

/-- An array shrinks to images of some of its items, in their order. -/
theorem within_filterMap {items : List Json} {f : Json → Option Json}
    (h : ∀ item ∈ items, ∀ image, f item = some image → Within image item) :
    Within (arr (items.filterMap f)) (arr items) := by
  have hpairs : ∃ pairs : List (Json × Json), pairs.map Prod.fst = items.filterMap f ∧
      List.Sublist (pairs.map Prod.snd) items ∧ ∀ p ∈ pairs, Within p.1 p.2 := by
    induction items with
    | nil => exact ⟨[], rfl, .slnil, by simp⟩
    | cons item items ih =>
      obtain ⟨pairs, hfst, hsnd, hwithin⟩ := ih fun x hx => h x (List.mem_cons_of_mem _ hx)
      cases himage : f item with
      | none => exact ⟨pairs, by rw [List.filterMap_cons_none himage, hfst], hsnd.cons _, hwithin⟩
      | some image =>
        refine ⟨(image, item) :: pairs, ?_, hsnd.cons_cons _, ?_⟩
        · rw [List.filterMap_cons_some himage, List.map_cons, hfst]
        · rintro p (_ | ⟨_, hp⟩)
          · exact h item List.mem_cons_self image himage
          · exact hwithin p hp
  obtain ⟨pairs, hfst, hsnd, hwithin⟩ := hpairs
  rw [← hfst]
  exact .arr hsnd hwithin

end OpsPilot.Json
