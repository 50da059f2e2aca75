import Intake.Proofs.Compilation
import Intake.Proofs.Run

namespace Intake

namespace Update

def applyElement : Json → Update → Except Rejection Json
  | .obj members, update => (apply members update).map .obj
  | _, _ => .error (.of .notObject none)

variable {updates : List Update}

theorem foldlM_applyElement_obj (updates : List Update) (members : Entries Json) :
    updates.foldlM applyElement (.obj members) = (run updates members).map .obj := by
  induction updates generalizing members with
  | nil => rfl
  | cons update updates ih =>
    rw [List.foldlM_cons, run_cons, applyElement]
    cases apply members update with
    | error rejection => rfl
    | ok next => exact ih next

theorem foldlM_applyElement_eq_ok_iff (h : updates ≠ []) (element result : Json) :
    updates.foldlM applyElement element = .ok result ↔
      ∃ members cleaned, element = .obj members ∧ run updates members = .ok cleaned ∧
        result = .obj cleaned := by
  cases element with
  | obj members =>
    rw [foldlM_applyElement_obj, Except.map_eq_ok_iff]
    constructor
    . rintro ⟨cleaned, hcleaned, rfl⟩
      exact ⟨members, cleaned, rfl, hcleaned, rfl⟩
    . rintro ⟨given, cleaned, heq, hcleaned, rfl⟩
      rw [Json.obj.injEq] at heq
      exact ⟨cleaned, heq ▸ hcleaned, rfl⟩
  | _ =>
    obtain ⟨update, rest, rfl⟩ := List.exists_cons_of_ne_nil h
    simp [List.foldlM_cons, applyElement, bind, Except.bind]

end Update

namespace Field

variable [Engine]

def memberUpdate (field : Field) (sub : String) : Update where
  key := sub
  clean := field.definition.clean

def memberUpdates (fields : List Field) (key : String) : List Update :=
  fields.filterMap fun field =>
    if field.path.prop.text = key then
      field.path.sub?.map fun sub => field.memberUpdate sub.text
    else none

variable {field : Field} {fields : List Field} {sub : Word} {doc : Entries Json} {key : String}
  {slot cleaned : Option Json}

theorem cleanElement_eq (field : Field) (sub : String) (element : Json) :
    field.cleanElement sub element = Update.applyElement element (field.memberUpdate sub) := by
  cases element with
  | obj members =>
    unfold cleanElement Update.applyElement Update.apply memberUpdate
    dsimp only
    cases field.definition.clean (Entries.get? members sub) <;> rfl
  | _ => rfl

theorem memberUpdates_cons_self (hsub : field.path.sub? = some sub) (fields : List Field) :
    memberUpdates (field :: fields) field.path.prop.text =
      field.memberUpdate sub.text :: memberUpdates fields field.path.prop.text := by
  simp [memberUpdates, hsub]

theorem memberUpdates_cons_of_ne (h : field.path.prop.text ≠ key) (fields : List Field) :
    memberUpdates (field :: fields) key = memberUpdates fields key := by
  simp [memberUpdates, h]

theorem mem_memberUpdates_iff (update : Update) :
    update ∈ memberUpdates fields key ↔ ∃ field ∈ fields, field.path.prop.text = key ∧
      ∃ sub, field.path.sub? = some sub ∧ field.memberUpdate sub.text = update := by
  unfold memberUpdates
  rw [List.mem_filterMap]
  constructor
  . rintro ⟨field, hfield, h⟩
    split at h
    . next hkey => exact ⟨field, hfield, hkey, Option.map_eq_some_iff.mp h⟩
    . simp at h
  . rintro ⟨field, hfield, hkey, h⟩
    exact ⟨field, hfield, by rw [if_pos hkey, Option.map_eq_some_iff]; exact h⟩

theorem chain_arr_eq_ok_iff
    (hsubs : ∀ field ∈ fields, field.path.prop.text = key → field.path.sub? ≠ none)
    (given : List Json) :
    Update.chain (fields.map (·.update doc)) key (some (.arr given)) = .ok cleaned ↔
      ∃ results, List.Forall₂ (fun element result =>
          (memberUpdates fields key).foldlM Update.applyElement element = .ok result)
        given results ∧ cleaned = some (.arr results) := by
  induction fields generalizing given with
  | nil =>
    simp [memberUpdates, Update.chain_nil, List.forall₂_eq_eq_eq, pure, Except.pure, eq_comm]
  | cons field fields ih =>
    have ih := ih fun other hother => hsubs other (List.mem_cons_of_mem _ hother)
    by_cases hkey : field.path.prop.text = key
    . obtain ⟨sub, hsub⟩ := Option.ne_none_iff_exists'.mp (hsubs field List.mem_cons_self hkey)
      subst hkey
      rw [memberUpdates_cons_self hsub, chain_cons_self]
      -- The pass of this field and those of the others are one pass of both.
      simp only [cleanSlot_eq_ok_iff_of_array hsub, Document.elements?, Option.some.injEq,
        List.foldlM_cons, Except.bind_eq_ok_iff, ← cleanElement_eq, ← List.forall₂_comp_iff]
      constructor
      . rintro ⟨_, ⟨_, between, rfl, hbetween, rfl⟩, hrest⟩
        obtain ⟨results, hresults, rfl⟩ := (ih between).mp hrest
        exact ⟨results, ⟨between, hbetween, hresults⟩, rfl⟩
      . rintro ⟨results, ⟨between, hbetween, hresults⟩, rfl⟩
        exact ⟨_, ⟨given, between, rfl, hbetween, rfl⟩, (ih between).mpr ⟨results, hresults, rfl⟩⟩
    . rw [memberUpdates_cons_of_ne hkey, chain_cons_of_ne hkey]
      exact ih given

theorem chain_eq_ok_iff_of_exists
    (hsubs : ∀ field ∈ fields, field.path.prop.text = key → field.path.sub? ≠ none)
    (hexists : ∃ field ∈ fields, field.path.prop.text = key) :
    Update.chain (fields.map (·.update doc)) key slot = .ok cleaned ↔
      ∃ given, Document.elements? slot = some given ∧
        Update.chain (fields.map (·.update doc)) key (some (.arr given)) = .ok cleaned := by
  induction fields with
  | nil => simp at hexists
  | cons field fields ih =>
    by_cases hkey : field.path.prop.text = key
    . obtain ⟨sub, hsub⟩ := Option.ne_none_iff_exists'.mp (hsubs field List.mem_cons_self hkey)
      subst hkey
      -- Only the first field of the array can be the one that creates it.
      simp only [chain_cons_self, cleanSlot_eq_ok_iff_of_array hsub]
      constructor
      . rintro ⟨next, ⟨given, results, hgiven, hresults, rfl⟩, hrest⟩
        exact ⟨given, hgiven, _, ⟨given, results, rfl, hresults, rfl⟩, hrest⟩
      . rintro ⟨given, hgiven, next, ⟨_, results, heq, hresults, rfl⟩, hrest⟩
        rw [Document.elements?, Option.some.injEq] at heq
        subst heq
        exact ⟨_, ⟨given, results, hgiven, hresults, rfl⟩, hrest⟩
    . simp only [chain_cons_of_ne hkey]
      apply ih fun other hother => hsubs other (List.mem_cons_of_mem _ hother)
      obtain ⟨other, hother, hprop⟩ := hexists
      cases List.mem_cons.mp hother with
      | inl heq => exact absurd (heq ▸ hprop) hkey
      | inr htail => exact ⟨other, htail, hprop⟩

theorem memberUpdates_ne_nil (hfield : field ∈ fields) (hsub : field.path.sub? = some sub) :
    memberUpdates fields field.path.prop.text ≠ [] :=
  List.ne_nil_of_mem ((mem_memberUpdates_iff _).mpr ⟨field, hfield, rfl, sub, hsub, rfl⟩)

theorem map_memberUpdates_sublist (fields : List Field) (key : String) :
    ((memberUpdates fields key).map fun update => key ++ "." ++ update.key).Sublist
      (fields.map (·.path.text)) := by
  induction fields with
  | nil => exact List.Sublist.refl []
  | cons field fields ih =>
    rw [List.map_cons]
    by_cases hkey : field.path.prop.text = key
    . subst hkey
      cases hsub : field.path.sub? with
      | none =>
        have heq : memberUpdates (field :: fields) field.path.prop.text =
            memberUpdates fields field.path.prop.text := by
          simp [memberUpdates, hsub]
        rw [heq]
        exact ih.cons _
      | some sub =>
        rw [memberUpdates_cons_self hsub, List.map_cons, FieldPath.text_eq_of_sub?_eq_some hsub]
        exact ih.cons_cons _
    . rw [memberUpdates_cons_of_ne hkey]
      exact ih.cons _

end Field

namespace Validator

variable [Engine] {schema : Schema} {validator : Validator} {field : Field} {sub : Word}
  {key : String}

theorem distinct_memberUpdates (compiled : ofSchema schema = .ok validator) (key : String) :
    ((Field.memberUpdates validator.fields key).map (·.key)).Nodup := by
  have h := (Field.map_memberUpdates_sublist validator.fields key).nodup (nodup_paths compiled)
  apply List.Nodup.of_map (key ++ "." ++ ·)
  rw [List.map_map]
  exact h

theorem chain_memberUpdates_of_mem (compiled : ofSchema schema = .ok validator)
    (hfield : field ∈ validator.fields) (hsub : field.path.sub? = some sub)
    (slot cleaned : Option Json) :
    Update.chain (Field.memberUpdates validator.fields field.path.prop.text) sub.text slot =
        .ok cleaned ↔
      field.definition.clean slot = .ok cleaned := by
  have hmem : field.memberUpdate sub.text ∈
      Field.memberUpdates validator.fields field.path.prop.text :=
    (Field.mem_memberUpdates_iff _).mpr ⟨field, hfield, rfl, sub, hsub, rfl⟩
  exact Update.chain_of_mem (distinct_memberUpdates compiled _) hmem slot cleaned

theorem chain_memberUpdates_of_notMem {subkey : String}
    (h : key ++ "." ++ subkey ∉ validator.paths) (slot : Option Json) :
    Update.chain (Field.memberUpdates validator.fields key) subkey slot = .ok slot := by
  apply Update.chain_of_notMem
  intro update hmem
  obtain ⟨field, hfield, hkey, sub, hsub, rfl⟩ := (Field.mem_memberUpdates_iff _).mp hmem
  rintro rfl
  apply h
  subst hkey
  exact List.mem_map.mpr ⟨field, hfield, FieldPath.text_eq_of_sub?_eq_some hsub⟩

end Validator

end Intake
