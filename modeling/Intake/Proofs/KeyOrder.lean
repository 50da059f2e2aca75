import Intake.Pattern.Engine
import Intake.Proofs.Refinement

/-!
This module contains the order of the keys in an accepted document. The keys that were there keep
their order, and new ones come after them in the order in which the fields mention them.
-/

namespace List

variable {α : Type} [BEq α] [LawfulBEq α]

theorem eraseDups_of_nodup {xs : List α} (h : xs.Nodup) : xs.eraseDups = xs := by
  induction xs with
  | nil => rfl
  | cons x xs ih =>
    rw [nodup_cons] at h
    have hfilter : xs.filter (fun y => !y == x) = xs := by
      rw [filter_eq_self]
      intro y hy
      have hne : y ≠ x := fun heq => h.1 (heq ▸ hy)
      simpa using hne
    rw [eraseDups_cons, hfilter, ih h.2]

theorem eraseDups_append_cons_of_mem {xs : List α} {x : α} (h : x ∈ xs) (ys : List α) :
    (xs ++ x :: ys).eraseDups = (xs ++ ys).eraseDups := by
  rw [eraseDups_append, eraseDups_append]
  simp [removeAll, h]

theorem eraseDups_filter_append_cons_of_mem {xs : List α} {x : α} (h : x ∈ xs) (ys : List α)
    (p : α → Bool) : ((xs ++ x :: ys).filter p).eraseDups = ((xs ++ ys).filter p).eraseDups := by
  rw [filter_append, filter_append, filter_cons]
  split
  . next hp => exact eraseDups_append_cons_of_mem (mem_filter.mpr ⟨h, hp⟩) _
  . rfl

end List

namespace Intake

def Coercion.isEmpty (slot : Option Json) : Bool :=
  match text slot with
  | .ok converted => converted = ""
  | .error _ => false

theorem Coercion.isEmpty_iff {slot : Option Json} :
    isEmpty slot = true ↔ slot = none ∨ slot = some (.str "") := by
  rw [← text_eq_empty_iff]
  unfold isEmpty
  split
  . next converted heq => simp [heq]
  . next heq => simp [heq]

namespace Entries

/--
The keys of a dictionary after the fields with the given keys have been cleaned: the keys that were
there, in the same order, and then the others, in the order in which they are first mentioned. An
optional field that is empty or absent has no key.
-/
def keysAfter (entries : Entries Json) (mentioned optional : List String) : List String :=
  (entries.keys.filter fun key =>
      !(decide (key ∈ optional) && Coercion.isEmpty (entries.get? key))) ++
    (mentioned.filter fun key => decide (key ∉ entries.keys) && decide (key ∉ optional)).eraseDups

theorem isEmpty_get?_of_notMem {entries : Entries Json} {key : String} (h : key ∉ entries.keys) :
    Coercion.isEmpty (entries.get? key) = true :=
  Coercion.isEmpty_iff.mpr (Or.inl ((get?_eq_none_iff entries key).mpr h))

theorem keysAfter_eq {entries : Entries Json} (nodup : entries.keys.Nodup)
    (mentioned optional : List String) {kept : String → Bool}
    (hkept : ∀ key ∈ entries.keys ++ mentioned,
      kept key = !(decide (key ∈ optional) && Coercion.isEmpty (entries.get? key))) :
    entries.keysAfter mentioned optional =
      ((entries.keys ++ mentioned).filter kept).eraseDups := by
  have hold : entries.keys.filter kept = entries.keys.filter fun key =>
      !(decide (key ∈ optional) && Coercion.isEmpty (entries.get? key)) := by
    apply List.filter_congr
    intro key hmem
    exact hkept key (List.mem_append_left _ hmem)
  have hnew : (mentioned.filter kept).removeAll (entries.keys.filter kept) =
      mentioned.filter fun key => decide (key ∉ entries.keys) && decide (key ∉ optional) := by
    rw [List.removeAll, List.filter_filter]
    apply List.filter_congr
    intro key hmem
    by_cases hkey : key ∈ entries.keys
    . by_cases hp : kept key = true <;> simp [hkey, hp]
    . rw [hkept key (List.mem_append_right _ hmem), isEmpty_get?_of_notMem hkey]
      simp [hkey]
  unfold keysAfter
  rw [List.filter_append, List.eraseDups_append, hnew, List.eraseDups_of_nodup (nodup.filter _),
    hold]

end Entries

namespace Update

variable {updates : List Update} {update : Update} {entries out : Entries Json}

theorem keys_store_some (entries : Entries Json) (key : String) (value : Json) :
    (Field.store entries key (some value)).keys =
      if key ∈ entries.keys then entries.keys else entries.keys ++ [key] :=
  Entries.keys_insert entries key value

theorem filter_keys_erase (entries : Entries Json) (key : String) {kept : String → Bool}
    (h : kept key = false) : (entries.erase key).keys.filter kept = entries.keys.filter kept := by
  induction entries with
  | nil => rfl
  | cons pair rest ih =>
    obtain ⟨k, value⟩ := pair
    unfold Entries.erase
    split
    . next heq => simp [heq, h]
    . simp [List.filter_cons, ih]

/--
An update that can remove its key is the last one of the key. Otherwise the key could come back, and
then it would stand in another place.
-/
def RemovesLast (updates : List Update) : Prop :=
  updates.Pairwise fun update later => update.key = later.key → ∀ slot, update.clean slot ≠ .ok none

theorem keys_run (nodup : entries.keys.Nodup) (h : run updates entries = .ok out)
    (hremoved : RemovesLast updates) :
    out.keys = ((entries.keys ++ updates.map (·.key)).filter
      fun key => (out.get? key).isSome).eraseDups := by
  induction updates generalizing entries with
  | nil =>
    rw [run_nil, Except.ok.injEq] at h
    subst h
    have hfilter : (entries.keys.filter fun key => (entries.get? key).isSome) = entries.keys := by
      rw [List.filter_eq_self]
      intro key hkey
      rw [← Option.ne_none_iff_isSome, ne_eq, Entries.get?_eq_none_iff]
      simpa using hkey
    rw [List.map_nil, List.append_nil, hfilter, List.eraseDups_of_nodup nodup]
  | cons update updates ih =>
    obtain ⟨next, hnext, hrest⟩ := run_cons_eq_ok_iff.mp h
    rw [RemovesLast, List.pairwise_cons] at hremoved
    have hnodup := nodup_keys_apply nodup hnext
    have ih := ih hnodup hrest hremoved.2
    obtain ⟨cleaned, hcleaned, rfl⟩ := apply_eq_ok_iff.mp hnext
    rw [List.map_cons]
    cases cleaned with
    | some value =>
      rw [keys_store_some] at ih
      split at ih
      . next hmem =>
        rw [List.eraseDups_filter_append_cons_of_mem hmem]
        exact ih
      . rw [List.append_assoc] at ih
        exact ih
    | none =>
      -- No later update brings the key back.
      have hlater : ∀ later ∈ updates, later.key ≠ update.key := by
        intro later hmem heq
        exact hremoved.1 later hmem heq.symm _ hcleaned
      have hchain := get?_run hnodup hrest update.key
      rw [chain_of_notMem hlater, Field.get?_store nodup, if_pos rfl, Except.ok.injEq] at hchain
      have hgone : (out.get? update.key).isSome = false := by simp [← hchain]
      rw [List.filter_append, Field.store, filter_keys_erase _ _ hgone] at ih
      rw [List.filter_append, List.filter_cons, hgone]
      exact ih

theorem keys_run_eq_keysAfter (nodup : entries.keys.Nodup) (h : run updates entries = .ok out)
    (hremoved : RemovesLast updates) {optional : List String}
    (hnone : ∀ key ∈ entries.keys ++ updates.map (·.key),
      out.get? key = none ↔ key ∈ optional ∧ Coercion.isEmpty (entries.get? key) = true) :
    out.keys = entries.keysAfter (updates.map (·.key)) optional := by
  rw [keys_run nodup h hremoved]
  symm
  apply Entries.keysAfter_eq nodup
  intro key hmem
  have hnone := hnone key hmem
  rw [← Option.not_isSome_iff_eq_none] at hnone
  rw [Bool.eq_iff_iff, ← not_iff_not, hnone]
  simp

end Update

theorem Document.isEmpty_map_workingValue (slot : Option Json) :
    Coercion.isEmpty (slot.map workingValue) = Coercion.isEmpty slot := by
  cases slot with
  | none => rfl
  | some value => cases value <;> rfl

theorem Document.keysAfter_workingCopy (doc : Entries Json) (mentioned optional : List String) :
    (workingCopy doc).keysAfter mentioned optional = doc.keysAfter mentioned optional := by
  unfold Entries.keysAfter
  simp only [keys_workingCopy, get?_workingCopy, isEmpty_map_workingValue]

namespace Definition

variable [Engine]

def omitsEmpty : Definition → Bool
  | string rule => rule.omitEmpty
  | _ => false

theorem eq_none_iff_of_clean {definition : Definition} {slot cleaned : Option Json}
    (h : definition.clean slot = .ok cleaned) :
    cleaned = none ↔ definition.omitsEmpty = true ∧ Coercion.isEmpty slot = true := by
  cases definition with
  | string rule =>
    obtain ⟨text, htext, _, rfl⟩ := clean_string_eq_ok_iff.mp h
    simp [omitsEmpty, Coercion.isEmpty, htext]
  | number bounds =>
    obtain ⟨_, _, _, _, rfl⟩ := clean_number_eq_ok_iff.mp h
    simp [omitsEmpty]
  | integer bounds =>
    obtain ⟨_, _, _, _, _, _, rfl⟩ := clean_integer_eq_ok_iff.mp h
    simp [omitsEmpty]
  | boolean =>
    obtain ⟨_, _, rfl⟩ := clean_boolean_eq_ok_iff.mp h
    simp [omitsEmpty]

end Definition

namespace Validator

section

variable [Engine]

def props (validator : Validator) : List String :=
  validator.fields.map (·.path.prop.text)

def optionalProps (validator : Validator) : List String :=
  (validator.fields.filter fun field =>
    field.path.sub?.isNone && field.definition.omitsEmpty).map (·.path.prop.text)

def subs (validator : Validator) (key : String) : List String :=
  (validator.fields.filter (·.path.prop.text = key)).filterMap (·.path.sub?.map Word.text)

def optionalSubs (validator : Validator) (key : String) : List String :=
  (validator.fields.filter fun field =>
    field.path.prop.text = key && field.definition.omitsEmpty).filterMap
      (·.path.sub?.map Word.text)

variable {schema : Schema} {validator : Validator} {field : Field} {doc out : Entries Json}
  {key : String}

theorem mem_optionalProps_iff (compiled : ofSchema schema = .ok validator)
    (conflictFree : validator.ConflictFree) (hfield : field ∈ validator.fields) :
    field.path.prop.text ∈ validator.optionalProps ↔
      field.path.sub? = none ∧ field.definition.omitsEmpty = true := by
  unfold optionalProps
  simp only [List.mem_map, List.mem_filter, Bool.and_eq_true, Option.isNone_iff_eq_none]
  constructor
  . rintro ⟨other, ⟨hother, hnone, homits⟩, hprop⟩
    cases hsub : field.path.sub? with
    | none =>
      have heq := field_eq_of_prop_eq compiled hother hfield hnone hsub hprop
      exact ⟨rfl, heq ▸ homits⟩
    | some sub =>
      have hne := conflictFree other hother field hfield hnone (by simp [hsub])
      exact absurd (Word.text_inj.mp hprop) hne
  . rintro ⟨hnone, homits⟩
    exact ⟨field, ⟨hfield, hnone, homits⟩, rfl⟩

theorem get?_eq_none_iff_of_cleans (compiled : ofSchema schema = .ok validator)
    (conflictFree : validator.ConflictFree) (cleans : validator.Cleans doc out)
    (hkey : key ∈ doc.keys ++ validator.props) :
    out.get? key = none ↔
      key ∈ validator.optionalProps ∧ Coercion.isEmpty (doc.get? key) = true := by
  by_cases hprop : ∃ field ∈ validator.fields, field.path.prop.text = key
  . obtain ⟨field, hfield, rfl⟩ := hprop
    rw [mem_optionalProps_iff compiled conflictFree hfield]
    cases hsub : field.path.sub? with
    | none => simpa using Definition.eq_none_iff_of_clean (cleans.members field hfield hsub)
    | some sub =>
      obtain ⟨_, _, _, _, hout⟩ := cleans.elements field hfield (by simp [hsub])
      simp [hout]
  . have hprop : ∀ field ∈ validator.fields, field.path.prop.text ≠ key := by
      simpa using hprop
    have hprops : key ∉ validator.props := by simpa [props] using hprop
    have hoptional : key ∉ validator.optionalProps :=
      fun hmem => hprops ((List.filter_sublist.map _).subset hmem)
    have hmem : key ∈ doc.keys := (List.mem_append.mp hkey).resolve_right hprops
    rw [cleans.rest key hprop, Option.map_eq_none_iff, Entries.get?_eq_none_iff]
    simp [hmem, hoptional]

theorem map_key_memberUpdates (validator : Validator) (key : String) :
    (Field.memberUpdates validator.fields key).map (·.key) = validator.subs key := by
  unfold Field.memberUpdates subs
  rw [List.map_filterMap, List.filterMap_filter]
  apply List.filterMap_congr
  intro field _
  by_cases hkey : field.path.prop.text = key
  . cases hsub : field.path.sub? <;> simp [hkey, Field.memberUpdate]
  . simp [hkey]

theorem mem_optionalSubs_iff (compiled : ofSchema schema = .ok validator)
    (hfield : field ∈ validator.fields) {sub : Word} (hsub : field.path.sub? = some sub) :
    sub.text ∈ validator.optionalSubs field.path.prop.text ↔
      field.definition.omitsEmpty = true := by
  unfold optionalSubs
  simp only [List.mem_filterMap, List.mem_filter, Bool.and_eq_true, decide_eq_true_eq,
    Option.map_eq_some_iff]
  constructor
  . rintro ⟨other, ⟨hother, hprop, homits⟩, sub', hsub', htext⟩
    have hpath : field.path = other.path := by
      rw [← FieldPath.text_inj, FieldPath.text_eq_of_sub?_eq_some hsub,
        FieldPath.text_eq_of_sub?_eq_some hsub', hprop, htext]
    rw [field_eq_of_path_eq compiled hfield hother hpath]
    exact homits
  . intro homits
    exact ⟨field, ⟨hfield, rfl, homits⟩, sub, hsub, rfl⟩

theorem dotted_mem_paths_of_mem_subs {subkey : String} (h : subkey ∈ validator.subs key) :
    key ++ "." ++ subkey ∈ validator.paths := by
  rw [← map_key_memberUpdates, List.mem_map] at h
  obtain ⟨update, hupdate, rfl⟩ := h
  apply (Field.map_memberUpdates_sublist validator.fields key).subset
  exact List.mem_map_of_mem hupdate

theorem keys_of_run_memberUpdates (compiled : ofSchema schema = .ok validator)
    {members cleaned : Entries Json} (nodup : members.keys.Nodup)
    (h : Update.run (Field.memberUpdates validator.fields key) members = .ok cleaned) :
    cleaned.keys = members.keysAfter (validator.subs key) (validator.optionalSubs key) := by
  have hdistinct := distinct_memberUpdates compiled key
  have hremoved : Update.RemovesLast (Field.memberUpdates validator.fields key) := by
    rw [List.Nodup, List.pairwise_map] at hdistinct
    exact hdistinct.imp fun hne heq => absurd heq hne
  rw [← map_key_memberUpdates]
  apply Update.keys_run_eq_keysAfter nodup h hremoved
  intro subkey hmem
  have hchain := Update.get?_run nodup h subkey
  by_cases hpath : key ++ "." ++ subkey ∈ validator.paths
  . obtain ⟨field, hfield, htext⟩ := List.mem_map.mp hpath
    obtain ⟨rfl, hsubkey⟩ := (FieldPath.text_eq_dotted_iff _ _ _).mp htext
    obtain ⟨sub, hsub, rfl⟩ := Option.map_eq_some_iff.mp hsubkey
    rw [chain_memberUpdates_of_mem compiled hfield hsub] at hchain
    rw [mem_optionalSubs_iff compiled hfield hsub]
    exact Definition.eq_none_iff_of_clean hchain
  . have hsubs : subkey ∉ validator.subs key := fun h => hpath (dotted_mem_paths_of_mem_subs h)
    have hoptional : subkey ∉ validator.optionalSubs key := by
      intro h
      apply hsubs
      exact ((List.monotone_filter_right _ (by simp +contextual)).filterMap _).subset h
    rw [map_key_memberUpdates] at hmem
    have hmem := (List.mem_append.mp hmem).resolve_right hsubs
    rw [chain_memberUpdates_of_notMem hpath, Except.ok.injEq] at hchain
    rw [← hchain, Entries.get?_eq_none_iff]
    simp [hmem, hoptional]

theorem removesLast_updates (compiled : ofSchema schema = .ok validator)
    (conflictFree : validator.ConflictFree) : Update.RemovesLast (validator.updates doc) := by
  unfold Update.RemovesLast updates
  rw [List.pairwise_map]
  apply (nodup_fields compiled).imp_of_mem
  intro field later hfield hlater hne hprop slot hnone
  cases hsub : field.path.sub? with
  | none =>
    cases hlaterSub : later.path.sub? with
    | none => exact hne (field_eq_of_prop_eq compiled hfield hlater hsub hlaterSub hprop)
    | some sub =>
      have hdiffer := conflictFree field hfield later hlater hsub (by simp [hlaterSub])
      exact hdiffer (Word.text_inj.mp hprop)
  | some sub =>
    obtain ⟨_, _, _, _, hsome⟩ := (Field.cleanSlot_eq_ok_iff_of_array hsub slot none).mp hnone
    simp at hsome

theorem keys_of_validate (compiled : ofSchema schema = .ok validator)
    (conflictFree : validator.ConflictFree) (wellFormed : Json.WellFormed (.obj doc))
    (h : validator.validate (.obj doc) = .ok out) :
    out.keys = doc.keysAfter validator.props validator.optionalProps ∧
    ∀ field ∈ validator.fields, field.path.sub?.isSome = true →
      ∀ given, doc.get? field.path.prop.text = some (.arr given) →
        ∃ results, out.get? field.path.prop.text = some (.arr results) ∧
          List.Forall₂ (fun element result => ∃ members cleaned,
              element = .obj members ∧ result = .obj cleaned ∧
                Entries.keys cleaned = Entries.keysAfter members
                  (validator.subs field.path.prop.text)
                  (validator.optionalSubs field.path.prop.text))
            given results := by
  have cleans := cleans_of_validateObject compiled conflictFree wellFormed h
  have hslot := slot_of_validateObject wellFormed.nodup h
  constructor
  . rw [validate_obj, validateObject_eq_ok_iff] at h
    have hprops : (validator.updates doc).map (·.key) = validator.props := by
      simp [updates, props, Field.update]
    rw [← Document.keysAfter_workingCopy, ← hprops]
    apply Update.keys_run_eq_keysAfter (Document.nodup_keys_workingCopy wellFormed.nodup) h.1
      (removesLast_updates compiled conflictFree)
    intro key hkey
    rw [Document.keys_workingCopy, hprops] at hkey
    rw [Document.get?_workingCopy, Document.isEmpty_map_workingValue]
    exact get?_eq_none_iff_of_cleans compiled conflictFree cleans hkey
  . intro field hfield hsub given hgiven
    obtain ⟨elements, results, helements, hresults, hout⟩ :=
      (slot_of_array conflictFree hfield hsub _).mp (hslot _)
    rw [hgiven, Document.elements?, Option.some.injEq] at helements
    subst helements
    refine ⟨results, hout, ?_⟩
    apply List.forall₂_imp_of_mem hresults
    rintro element hmem result _ ⟨members, cleaned, rfl, hrun, rfl⟩
    have hwell := wellFormed.of_mem_obj (Entries.mem_of_get?_eq_some hgiven)
    have hnodup := (hwell.of_mem_arr hmem).nodup
    exact ⟨members, cleaned, rfl, rfl, keys_of_run_memberUpdates compiled hnodup hrun⟩

end

theorem keys_items :
    ∃ validator out, ofSchema (.ofList [("n", .number {}), ("s", .string ⟨none, true⟩),
        ("items.x", .integer {}), ("items.t", .string ⟨none, true⟩)]) = .ok validator ∧
      validator.validate (.obj [("s", .str ""), ("items", .arr [.obj [("t", .str "a")]])]) =
        .ok out ∧
      out.keys = ["items", "n"] ∧ ∃ results, out.get? "items" = some (.arr results) ∧
        ∀ result ∈ results, ∃ cleaned, result = .obj cleaned ∧
          Entries.keys cleaned = ["t", "x"] := by
  have hcompiled : ofSchema (.ofList [("n", .number {}), ("s", .string ⟨none, true⟩),
      ("items.x", .integer {}), ("items.t", .string ⟨none, true⟩)]) =
      .ok ⟨[⟨⟨⟨"n", by decide⟩, none⟩, .number {}⟩,
        ⟨⟨⟨"s", by decide⟩, none⟩, .string ⟨none, true⟩⟩,
        ⟨⟨⟨"items", by decide⟩, some ⟨"x", by decide⟩⟩, .integer {}⟩,
        ⟨⟨⟨"items", by decide⟩, some ⟨"t", by decide⟩⟩, .string ⟨none, true⟩⟩]⟩ := by
    decide
  have hwell : Json.WellFormed
      (.obj [("s", .str ""), ("items", .arr [.obj [("t", .str "a")]])]) := by
    refine .obj (by decide) (List.forall_mem_cons.mpr ⟨.str "", ?_⟩)
    refine List.forall_mem_singleton.mpr (.arr (List.forall_mem_singleton.mpr ?_))
    exact .obj (by decide) (List.forall_mem_singleton.mpr (.str "a"))
  have haccepted :
      validate ⟨[⟨⟨⟨"n", by decide⟩, none⟩, .number {}⟩,
          ⟨⟨⟨"s", by decide⟩, none⟩, .string ⟨none, true⟩⟩,
          ⟨⟨⟨"items", by decide⟩, some ⟨"x", by decide⟩⟩, .integer {}⟩,
          ⟨⟨⟨"items", by decide⟩, some ⟨"t", by decide⟩⟩, .string ⟨none, true⟩⟩]⟩
        (.obj [("s", .str ""), ("items", .arr [.obj [("t", .str "a")]])]) =
        .ok [("items", .arr [.obj [("t", .str "a"), ("x", .ofNat 0)]]), ("n", .ofNat 0)] := by
    decide +kernel
  obtain ⟨hkeys, helements⟩ := keys_of_validate hcompiled (by decide) hwell haccepted
  obtain ⟨results, hresults, hforall⟩ := helements
    ⟨⟨⟨"items", by decide⟩, some ⟨"x", by decide⟩⟩, .integer {}⟩ (by decide) rfl _ rfl
  refine ⟨_, _, hcompiled, haccepted, hkeys.trans (by decide), results, hresults, ?_⟩
  intro result hmem
  obtain ⟨element, helement, members, cleaned, rfl, rfl, hcleaned⟩ :=
    List.exists_mem_of_forall₂ hforall hmem
  rw [List.mem_singleton, Json.obj.injEq] at helement
  subst helement
  exact ⟨cleaned, rfl, hcleaned.trans (by decide)⟩

end Validator

end Intake
