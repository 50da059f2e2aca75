import Intake.Pattern.Engine
import Intake.Proofs.Declaration

namespace Intake

namespace Declaration

section

variable {declaration : Declaration} {type : FieldType}
  {setting : Setting} {members members' : Entries Json} {key : String}

theorem exists_set_iff (declaration : Declaration) (setting : Setting) (value : Json) :
    (∃ next, declaration.set setting value = .ok next) ↔ setting.Takes value := by
  cases setting <;> cases value <;> simp [set, Setting.Takes]

theorem exists_setMember_iff (declaration : Declaration) (member : String × Json) :
    (∃ next, declaration.setMember member.1 member.2 = .ok next) ↔
      ∃ setting, Setting.name setting = member.1 ∧ setting.Takes member.2 := by
  unfold setMember
  split
  . next setting heq =>
    rw [Setting.ofName?_eq_some_iff] at heq
    rw [exists_set_iff, ← heq]
    constructor
    . intro h
      exact ⟨setting, rfl, h⟩
    . rintro ⟨other, hname, h⟩
      exact Setting.name_inj hname ▸ h
  . next heq =>
    simp only [reduceCtorEq, exists_false, false_iff]
    rintro ⟨setting, hname, _⟩
    rw [← hname, Setting.ofName?_name] at heq
    contradiction

theorem ofMembers_eq_ok_iff (nodup : members.keys.Nodup) :
    ofMembers members = .ok declaration ↔
      (∀ member ∈ members, ∃ setting, Setting.name setting = member.1 ∧
        setting.Takes member.2) ∧
      (ofLookup fun setting => members.get? setting.name) = declaration := by
  constructor
  . intro h
    have htakes := (Except.exists_foldlM_iff exists_setMember_iff members {}).mp ⟨_, h⟩
    rw [ofMembers_eq_ok nodup htakes, Except.ok.injEq] at h
    exact ⟨htakes, h⟩
  . rintro ⟨htakes, rfl⟩
    exact ofMembers_eq_ok nodup htakes

theorem misplaced?_eq_none_iff :
    declaration.misplaced? type = none ↔
      ∀ setting, declaration.gives setting = true → setting.allowedOn type = true := by
  simp [misplaced?, Setting.mem_all]

theorem mem_settingNames_iff :
    key ∈ ["type", "match", "omitEmpty", "gt", "gte", "lt", "lte"] ↔
      ∃ setting, Setting.name setting = key := by
  have hnames : Setting.all.map Setting.name =
      ["type", "match", "omitEmpty", "gt", "gte", "lt", "lte"] := rfl
  rw [← hnames, List.mem_map]
  simp [Setting.mem_all]

theorem mem_limitNames_iff :
    key ∈ ["gt", "gte", "lt", "lte"] ↔ ∃ limit, Limit.name limit = key := by
  have hnames : Limit.all.map Limit.name = ["gt", "gte", "lt", "lte"] := rfl
  rw [← hnames, List.mem_map]
  simp [Limit.mem_all]

theorem mem_typeNames_iff :
    key ∈ ["string", "number", "integer", "boolean"] ↔ ∃ type, FieldType.name type = key := by
  constructor
  . simp only [List.mem_cons, List.not_mem_nil, or_false]
    rintro (rfl | rfl | rfl | rfl)
    . exact ⟨.string, rfl⟩
    . exact ⟨.number, rfl⟩
    . exact ⟨.integer, rfl⟩
    . exact ⟨.boolean, rfl⟩
  . rintro ⟨type, rfl⟩
    cases type <;> decide

theorem typeName_inj {type other : FieldType} (h : type.name = other.name) : type = other := by
  have hother := FieldType.ofName?_name other
  rw [← h, FieldType.ofName?_name, Option.some.injEq] at hother
  exact hother

def Unset (members : Entries Json) (key : String) : Prop :=
  members.get? key = none ∨ members.get? key = some .null

theorem forall_barred_iff (type : FieldType) (p : String → Prop) :
    (∀ setting, Setting.allowedOn setting type = false → p setting.name) ↔
      match type with
      | .string => ∀ key ∈ ["gt", "gte", "lt", "lte"], p key
      | .number => ∀ key ∈ ["match", "omitEmpty"], p key
      | .integer => ∀ key ∈ ["match", "omitEmpty"], p key
      | .boolean => ∀ key ∈ ["match", "omitEmpty", "gt", "gte", "lt", "lte"], p key := by
  have hbarred : (∀ setting, Setting.allowedOn setting type = false → p setting.name) ↔
      ∀ key ∈ (Setting.all.filter (!·.allowedOn type)).map Setting.name, p key := by
    simp [Setting.mem_all]
  rw [hbarred]
  cases type <;> rfl

theorem forall_null_or_iff {α : Type} (f : α → Json) :
    (∀ value, members.get? key = some value → value = .null ∨ ∃ a, value = f a) ↔
      Unset members key ∨ ∃ a, members.get? key = some (f a) := by
  unfold Unset
  cases members.get? key <;> simp [or_comm, eq_comm]

theorem Unset.get?_ne_str (h : Unset members key) (text : String) :
    members.get? key ≠ some (.str text) := by
  obtain h | h := h <;> simp [h]

theorem bind_text?_eq_some_iff {slot : Option Json} {text : String} :
    slot.bind Json.text? = some text ↔ slot = some (.str text) := by
  cases slot with
  | none => simp
  | some value => cases value <;> simp [Json.text?]

theorem gives_ofLookup {lookup : Setting → Option Json}
    (htakes : ∀ value, lookup setting = some value → setting.Takes value) :
    (ofLookup lookup).gives setting = true ↔
      ¬ (lookup setting = none ∨ lookup setting = some .null) := by
  rw [not_or]
  refine ⟨get?_ne_null_of_gives, ?_⟩
  rintro ⟨hsome, hnull⟩
  obtain ⟨value, hvalue⟩ := Option.ne_none_iff_exists'.mp hsome
  have hne : value ≠ .null := fun heq => hnull (heq ▸ hvalue)
  have hkind := htakes value hvalue
  cases setting with
  | type =>
    obtain ⟨name, rfl⟩ := hkind
    simp [gives, ofLookup, hvalue, Json.text?]
  | pattern =>
    obtain ⟨source, rfl⟩ := hkind.resolve_left hne
    simp [gives, ofLookup, hvalue, Json.text?]
  | omitEmpty =>
    obtain ⟨flag, rfl⟩ := hkind.resolve_left hne
    simp [gives, ofLookup, hvalue, Json.flag?]
  | limit limit =>
    obtain ⟨number, rfl⟩ := hkind.resolve_left hne
    simp [gives, get_bounds_ofLookup, hvalue, Json.double?]

def Readable (members : Entries Json) : Prop :=
  ∀ member ∈ members, ∃ setting, Setting.name setting = member.1 ∧ setting.Takes member.2

theorem Readable.takes (h : Readable members) (setting : Setting) {value : Json}
    (hget : members.get? setting.name = some value) : setting.Takes value := by
  obtain ⟨other, hname, htakes⟩ := h _ (Entries.mem_of_get?_eq_some hget)
  exact Setting.name_inj hname ▸ htakes

theorem readable_iff (nodup : members.keys.Nodup) :
    Readable members ↔ (∀ key ∈ members.keys, ∃ setting, Setting.name setting = key) ∧
      ∀ setting value, members.get? (Setting.name setting) = some value → setting.Takes value := by
  constructor
  . intro h
    refine ⟨?_, fun setting value => h.takes setting⟩
    intro key hkey
    obtain ⟨value, hmem⟩ := (Entries.mem_keys_iff _ _).mp hkey
    obtain ⟨setting, hname, _⟩ := h _ hmem
    exact ⟨setting, hname⟩
  . rintro ⟨hknown, htakes⟩ ⟨key, value⟩ hmem
    obtain ⟨setting, rfl⟩ := hknown key ((Entries.mem_keys_iff _ _).mpr ⟨value, hmem⟩)
    exact ⟨setting, rfl, htakes setting value ((Entries.get?_eq_some_iff nodup _ _).mpr hmem)⟩

theorem Readable.of_perm (h : Readable members) (hperm : members.Perm members') :
    Readable members' :=
  fun member hmem => h member (hperm.mem_iff.mpr hmem)

theorem foldlM_zip_names (elements : List Json) :
    ofMembers ((Setting.all.map Setting.name).zip elements) =
      (Setting.all.zip elements).foldlM
        (fun declaration (setting, value) => declaration.set setting value) {} := by
  unfold ofMembers
  rw [List.zip_map_left, List.foldlM_map]
  simp only [setMember, Prod.map_fst, Prod.map_snd, Setting.ofName?_name, id]

theorem ofElements_eq_ok_iff {elements : List Json} :
    ofElements elements = .ok declaration ↔ elements.length = 7 ∧
      ofMembers ((Setting.all.map Setting.name).zip elements) = .ok declaration := by
  have hlength : Setting.all.length = 7 := rfl
  rw [foldlM_zip_names]
  unfold ofElements
  rw [Except.bind_eq_ok_iff, hlength]
  constructor
  . rintro ⟨read, hread, h⟩
    split at h
    . simp at h
    . split at h
      . simp at h
      . exact ⟨by omega, Except.ok.inj h ▸ hread⟩
  . rintro ⟨hseven, hread⟩
    refine ⟨declaration, hread, ?_⟩
    rw [if_neg (by omega), if_neg (by omega)]

theorem setMember_eq_error_iff {fault : Fault} (declaration : Declaration)
    (member : String × Json) :
    declaration.setMember member.1 member.2 = .error fault ↔
      setMember {} member.1 member.2 = .error fault := by
  unfold setMember
  split
  . next setting _ =>
    generalize member.2 = value
    cases setting <;> cases value <;> simp [set]
  . rfl

variable [Engine] {definition : Definition}

theorem define_eq_ok_iff :
    declaration.define = .ok definition ↔ ∃ type, declaration.type = some (FieldType.name type) ∧
      declaration.misplaced? type = none ∧ declaration.build type = .ok definition := by
  constructor
  . intro h
    unfold define at h
    split at h
    . simp at h
    . next name hname =>
      split at h
      . simp at h
      . next type htype =>
        rw [FieldType.ofName?_eq_some_iff] at htype
        split at h
        . simp at h
        . next hplaced => exact ⟨type, htype ▸ hname, hplaced, h⟩
  . rintro ⟨type, htype, hplaced, hbuild⟩
    rw [define_eq_build htype hplaced, hbuild]

theorem exists_matchingSource_iff {source : String} :
    (∃ rule, TextRule.matchingSource {} source = .ok rule) ↔
      ∃ pattern, Pattern.ofSource source = .ok pattern := by
  unfold TextRule.matchingSource
  split
  . next heq => simp [heq]
  . next heq => simp [heq]

theorem exists_build_iff :
    (∃ definition, declaration.build type = .ok definition) ↔
      (type = .string → ∀ source, declaration.pattern = some source →
        ∃ pattern, Pattern.ofSource source = .ok pattern) := by
  cases type with
  | string =>
    rw [build_string_eq_map]
    simp only [Except.map_eq_ok_iff]
    cases declaration.pattern with
    | none => simp
    | some source =>
      simp only [forall_const, Option.some.injEq, forall_eq', ← exists_matchingSource_iff]
      constructor
      . rintro ⟨_, rule, hrule, _⟩
        exact ⟨rule, hrule⟩
      . rintro ⟨rule, hrule⟩
        exact ⟨_, rule, hrule, rfl⟩
  | _ => simp [build]

/--
The members that declare a definition: there is a type, every member is a setting that has a value
of its kind, and what does not belong to the type is missing or null.
-/
structure WellFormed (members : Entries Json) : Prop where
  known : ∀ key ∈ members.keys, key ∈ ["type", "match", "omitEmpty", "gt", "gte", "lt", "lte"]
  typed : ∃ name ∈ ["string", "number", "integer", "boolean"],
    members.get? "type" = some (.str name)
  pattern : Unset members "match" ∨ ∃ source, members.get? "match" = some (.str source)
  omitEmpty : Unset members "omitEmpty" ∨ ∃ flag, members.get? "omitEmpty" = some (.bool flag)
  bounds : ∀ key ∈ ["gt", "gte", "lt", "lte"],
    Unset members key ∨ ∃ number, members.get? key = some (.num number)
  ofString : members.get? "type" = some (.str "string") →
    ∀ key ∈ ["gt", "gte", "lt", "lte"], Unset members key
  ofNumber : members.get? "type" = some (.str "number") ∨
      members.get? "type" = some (.str "integer") →
    ∀ key ∈ ["match", "omitEmpty"], Unset members key
  ofBoolean : members.get? "type" = some (.str "boolean") →
    ∀ key ∈ ["match", "omitEmpty", "gt", "gte", "lt", "lte"], Unset members key
  compiles : ∀ source, members.get? "match" = some (.str source) →
    ∃ pattern, Pattern.ofSource source = .ok pattern

theorem definition_ofJson_eq_ok_iff {value : Json} :
    Definition.ofJson value = .ok definition ↔
      ∃ declaration, ofJson value = .ok declaration ∧ declaration.define = .ok definition := by
  unfold Definition.ofJson
  split
  . next heq => simp [heq]
  . next heq => simp [heq]

theorem ofJson_obj_eq_ok_iff (nodup : members.keys.Nodup) :
    Definition.ofJson (.obj members) = .ok definition ↔ Readable members ∧
      (ofLookup fun setting => members.get? setting.name).define = .ok definition := by
  rw [definition_ofJson_eq_ok_iff]
  simp only [ofJson, ofMembers_eq_ok_iff nodup]
  constructor
  . rintro ⟨_, ⟨hreadable, rfl⟩, hdefine⟩
    exact ⟨hreadable, hdefine⟩
  . rintro ⟨hreadable, hdefine⟩
    exact ⟨_, ⟨hreadable, rfl⟩, hdefine⟩

theorem exists_ofJson_obj_iff (nodup : members.keys.Nodup) :
    (∃ definition, Definition.ofJson (.obj members) = .ok definition) ↔
      Readable members ∧ ∃ type, members.get? "type" = some (.str (FieldType.name type)) ∧
        (∀ setting, Setting.allowedOn setting type = false → Unset members setting.name) ∧
        (type = .string → ∀ source, members.get? "match" = some (.str source) →
          ∃ pattern, Pattern.ofSource source = .ok pattern) := by
  simp only [ofJson_obj_eq_ok_iff nodup, define_eq_ok_iff, misplaced?_eq_none_iff]
  constructor
  . rintro ⟨definition, hreadable, type, htype, hplaced, hbuild⟩
    refine ⟨hreadable, type, bind_text?_eq_some_iff.mp htype, ?_, ?_⟩
    . intro setting hnot
      by_contra hset
      have hallowed := hplaced setting ((gives_ofLookup fun _ => hreadable.takes setting).mpr hset)
      rw [hnot] at hallowed
      contradiction
    . intro hstring source hsource
      exact exists_build_iff.mp ⟨definition, hbuild⟩ hstring source
        (bind_text?_eq_some_iff.mpr hsource)
  . rintro ⟨hreadable, type, htype, hunset, hcompiles⟩
    have hbuild : ∃ definition,
        (ofLookup fun setting => members.get? setting.name).build type = .ok definition := by
      rw [exists_build_iff]
      intro hstring source hsource
      exact hcompiles hstring source (bind_text?_eq_some_iff.mp hsource)
    obtain ⟨definition, hbuild⟩ := hbuild
    refine ⟨definition, hreadable, type, bind_text?_eq_some_iff.mpr htype, ?_, hbuild⟩
    intro setting hgives
    by_contra hnot
    exact (gives_ofLookup fun _ => hreadable.takes setting).mp hgives
      (hunset setting (Bool.not_eq_true _ ▸ hnot))

theorem WellFormed.of_readable (hreadable : Readable members)
    (htype : members.get? "type" = some (.str type.name))
    (hbarred : ∀ setting, Setting.allowedOn setting type = false → Unset members setting.name)
    (hcompiles : type = .string → ∀ source, members.get? "match" = some (.str source) →
      ∃ pattern, Pattern.ofSource source = .ok pattern) : WellFormed members := by
  have htypeEq (other : FieldType) (h : members.get? "type" = some (.str other.name)) :
      type = other := by
    rw [htype, Option.some.injEq, Json.str.injEq] at h
    exact typeName_inj h
  rw [forall_barred_iff] at hbarred
  refine ⟨?known, ?typed, ?pattern, ?omitEmpty, ?bounds, ?ofString, ?ofNumber, ?ofBoolean,
    ?compiles⟩
  case known =>
    intro key hkey
    obtain ⟨value, hmem⟩ := (Entries.mem_keys_iff _ _).mp hkey
    obtain ⟨setting, hname, _⟩ := hreadable _ hmem
    exact mem_settingNames_iff.mpr ⟨setting, hname⟩
  case typed => exact ⟨type.name, mem_typeNames_iff.mpr ⟨type, rfl⟩, htype⟩
  case pattern => exact (forall_null_or_iff Json.str).mp fun _ => hreadable.takes .pattern
  case omitEmpty => exact (forall_null_or_iff Json.bool).mp fun _ => hreadable.takes .omitEmpty
  case bounds =>
    intro key hkey
    obtain ⟨limit, rfl⟩ := mem_limitNames_iff.mp hkey
    exact (forall_null_or_iff Json.num).mp fun _ => hreadable.takes (.limit limit)
  case ofString =>
    intro h
    obtain rfl := htypeEq .string h
    exact hbarred
  case ofNumber =>
    rintro (h | h)
    . obtain rfl := htypeEq .number h
      exact hbarred
    . obtain rfl := htypeEq .integer h
      exact hbarred
  case ofBoolean =>
    intro h
    obtain rfl := htypeEq .boolean h
    exact hbarred
  case compiles =>
    intro source hsource
    cases type with
    | string => exact hcompiles rfl source hsource
    | _ => exact absurd hsource ((hbarred "match" (by simp)).get?_ne_str source)

theorem WellFormed.readable (h : WellFormed members) (nodup : members.keys.Nodup) :
    Readable members := by
  rw [readable_iff nodup]
  refine ⟨fun key hkey => mem_settingNames_iff.mp (h.known key hkey), ?_⟩
  intro setting
  cases setting with
  | type =>
    intro value hvalue
    obtain ⟨name, _, htype⟩ := h.typed
    exact ⟨name, Option.some.inj (hvalue.symm.trans htype)⟩
  | pattern => exact (forall_null_or_iff Json.str).mpr h.pattern
  | omitEmpty => exact (forall_null_or_iff Json.bool).mpr h.omitEmpty
  | limit limit =>
    exact (forall_null_or_iff Json.num).mpr (h.bounds _ (mem_limitNames_iff.mpr ⟨limit, rfl⟩))

theorem WellFormed.barred (h : WellFormed members)
    (htype : members.get? "type" = some (.str type.name)) :
    ∀ setting, Setting.allowedOn setting type = false → Unset members setting.name := by
  rw [forall_barred_iff]
  cases type with
  | string => exact h.ofString htype
  | number => exact h.ofNumber (Or.inl htype)
  | integer => exact h.ofNumber (Or.inr htype)
  | boolean => exact h.ofBoolean htype

theorem exists_ofJson_obj_iff_wellFormed (nodup : members.keys.Nodup) :
    (∃ definition, Definition.ofJson (.obj members) = .ok definition) ↔ WellFormed members := by
  rw [exists_ofJson_obj_iff nodup]
  constructor
  . rintro ⟨hreadable, type, htype, hbarred, hcompiles⟩
    exact .of_readable hreadable htype hbarred hcompiles
  . intro h
    obtain ⟨name, hname, htype⟩ := h.typed
    obtain ⟨type, rfl⟩ := mem_typeNames_iff.mp hname
    exact ⟨h.readable nodup, type, htype, h.barred htype, fun _ => h.compiles⟩

theorem definition_ofJson_arr_eq_ok_iff {elements : List Json} :
    Definition.ofJson (.arr elements) = .ok definition ↔ elements.length = 7 ∧
      Definition.ofJson
        (.obj (["type", "match", "omitEmpty", "gt", "gte", "lt", "lte"].zip elements)) =
          .ok definition := by
  have hnames : Setting.all.map Setting.name =
      ["type", "match", "omitEmpty", "gt", "gte", "lt", "lte"] := rfl
  rw [definition_ofJson_eq_ok_iff, definition_ofJson_eq_ok_iff, ← hnames]
  simp only [ofJson, ofElements_eq_ok_iff, and_assoc, exists_and_left]

def ReportsFirst (members : Entries Json) (result : Except Rejection Definition) : Prop :=
  ∃ before member after fault, members = before ++ member :: after ∧ Readable before ∧
    setMember {} member.1 member.2 = .error fault ∧
      result = .error (.of (.malformedDeclaration fault) none)

theorem ReportsFirst.ne_ok {result : Except Rejection Definition} (h : ReportsFirst members result)
    (definition : Definition) : result ≠ .ok definition := by
  obtain ⟨_, _, _, _, _, _, _, rfl⟩ := h
  simp

theorem reportsFirst_of_not_readable (h : ¬ Readable members) :
    ReportsFirst members (Definition.ofJson (.obj members)) := by
  have hmembers : ¬ ∃ declaration, ofMembers members = .ok declaration := by
    intro hok
    exact h ((Except.exists_foldlM_iff exists_setMember_iff members {}).mp hok)
  cases hread : ofMembers members with
  | ok declaration => exact absurd ⟨declaration, hread⟩ hmembers
  | error fault =>
    obtain ⟨before, member, after, mid, rfl, hbefore, hfault⟩ :=
      (Except.foldlM_eq_error_iff _ _ _ _).mp hread
    refine ⟨before, member, after, fault, rfl,
      (Except.exists_foldlM_iff exists_setMember_iff before {}).mp ⟨mid, hbefore⟩,
      (setMember_eq_error_iff mid member).mp hfault, ?_⟩
    unfold Definition.ofJson ofJson
    dsimp only
    rw [hread]

theorem ofJson_obj_of_perm (nodup : members.keys.Nodup) (hperm : members.Perm members') :
    Definition.ofJson (.obj members) = Definition.ofJson (.obj members') ∨
      ReportsFirst members (Definition.ofJson (.obj members)) ∧
        ReportsFirst members' (Definition.ofJson (.obj members')) := by
  have nodup' : members'.keys.Nodup := (hperm.map Prod.fst).nodup_iff.mp nodup
  by_cases hreadable : Readable members
  . left
    have hread : ofMembers members = ofMembers members' := by
      rw [ofMembers_eq_ok nodup hreadable, ofMembers_eq_ok nodup' (hreadable.of_perm hperm)]
      simp only [Entries.get?_eq_of_perm nodup hperm]
    unfold Definition.ofJson ofJson
    dsimp only
    rw [hread]
  . right
    exact ⟨reportsFirst_of_not_readable hreadable,
      reportsFirst_of_not_readable fun h => hreadable (h.of_perm hperm.symm)⟩

theorem kind_of_build {rejection : Rejection} (h : declaration.build type = .error rejection) :
    rejection.kind = .schema := by
  cases type with
  | string =>
    rw [build_string_eq_map, Except.map_eq_error_iff] at h
    split at h
    . unfold TextRule.matchingSource at h
      split at h
      . simp at h
      . exact Except.error.inj h ▸ rfl
    . simp at h
  | _ => simp [build] at h

theorem kind_of_define {rejection : Rejection} (h : declaration.define = .error rejection) :
    rejection.kind = .schema := by
  unfold define at h
  split at h
  . exact Except.error.inj h ▸ rfl
  . split at h
    . exact Except.error.inj h ▸ rfl
    . split at h
      . exact Except.error.inj h ▸ rfl
      . exact kind_of_build h

theorem kind_of_ofJson {value : Json} {rejection : Rejection}
    (h : Definition.ofJson value = .error rejection) : rejection.kind = .schema := by
  unfold Definition.ofJson at h
  split at h
  . exact kind_of_define h
  . exact Except.error.inj h ▸ rfl

theorem exists_error_of_scalar {value : Json} (hobj : ∀ members, value ≠ .obj members)
    (harr : ∀ elements, value ≠ .arr elements) :
    ∃ rejection, Definition.ofJson value = .error rejection := by
  cases value with
  | obj members => exact absurd rfl (hobj members)
  | arr elements => exact absurd rfl (harr elements)
  | _ => exact ⟨_, rfl⟩

/--
The values that declare a definition are the objects with well-formed members and the arrays that
list such members. The order of the members can only decide which of several wrong ones is reported.
-/
theorem declares_iff_wellFormed (nodup : members.keys.Nodup) :
    ((∃ definition, Definition.ofJson (.obj members) = .ok definition) ↔ WellFormed members) ∧
    (∀ members', members.Perm members' →
      (∀ definition, Definition.ofJson (.obj members) = .ok definition ↔
        Definition.ofJson (.obj members') = .ok definition) ∧
      (Definition.ofJson (.obj members) = Definition.ofJson (.obj members') ∨
        ReportsFirst members (Definition.ofJson (.obj members)) ∧
          ReportsFirst members' (Definition.ofJson (.obj members')))) ∧
    (∀ elements definition, Definition.ofJson (.arr elements) = .ok definition ↔
      elements.length = 7 ∧ Definition.ofJson
        (.obj (["type", "match", "omitEmpty", "gt", "gte", "lt", "lte"].zip elements)) =
          .ok definition) ∧
    (∀ value, (∀ members, value ≠ .obj members) → (∀ elements, value ≠ .arr elements) →
      ∃ rejection, Definition.ofJson value = .error rejection) ∧
    ∀ value rejection, Definition.ofJson value = .error rejection → rejection.kind = .schema := by
  refine ⟨exists_ofJson_obj_iff_wellFormed nodup, ?_, fun _ _ => definition_ofJson_arr_eq_ok_iff,
    fun _ => exists_error_of_scalar, fun _ _ => kind_of_ofJson⟩
  intro members' hperm
  have hcases := ofJson_obj_of_perm nodup hperm
  refine ⟨?_, hcases⟩
  intro definition
  obtain heq | ⟨hreports, hreports'⟩ := hcases
  . rw [heq]
  . exact iff_of_false (hreports.ne_ok definition) (hreports'.ne_ok definition)

end

theorem declares_in_both_orders :
    ∃ definition,
      Definition.ofJson (.obj [("lte", .num (.float (.zero true))), ("match", .null),
        ("type", .str "integer")]) = .ok definition ∧
      Definition.ofJson (.obj [("type", .str "integer"), ("match", .null),
        ("lte", .num (.float (.zero true)))]) = .ok definition := by
  have nodup : (Entries.keys [("lte", Json.num (.float (.zero true))), ("match", .null),
      ("type", .str "integer")]).Nodup := by decide
  obtain ⟨hiff, hperm, _⟩ := declares_iff_wellFormed nodup
  have hwell : WellFormed [("lte", .num (.float (.zero true))), ("match", .null),
      ("type", .str "integer")] := by
    refine ⟨by decide, ⟨"integer", by decide, rfl⟩, Or.inl (Or.inr rfl), Or.inl (Or.inl rfl), ?_,
      fun h => absurd h (by decide), ?_, fun h => absurd h (by decide), ?_⟩
    . intro key hkey
      obtain ⟨limit, rfl⟩ := mem_limitNames_iff.mp hkey
      cases limit with
      | lte => exact Or.inr ⟨_, rfl⟩
      | _ => exact Or.inl (Or.inl rfl)
    . intro _
      simp only [List.forall_mem_cons]
      exact ⟨Or.inr rfl, Or.inl rfl, by simp⟩
    . intro source hsource
      exact absurd hsource (Unset.get?_ne_str (Or.inr rfl) source)
  obtain ⟨definition, hdefinition⟩ := hiff.mpr hwell
  obtain ⟨hsame, _⟩ := hperm _ (List.reverse_perm _).symm
  exact ⟨definition, hdefinition, (hsame definition).mp hdefinition⟩

theorem first_wrong_member_reported :
    ∃ members members' : Entries Json, members.keys.Nodup ∧ members.Perm members' ∧
      Definition.ofJson (.obj members) ≠ Definition.ofJson (.obj members') :=
  ⟨[("min", .bool true), ("type", .bool true)], [("type", .bool true), ("min", .bool true)],
    by decide, .swap _ _ _, by decide⟩

end Declaration

end Intake
