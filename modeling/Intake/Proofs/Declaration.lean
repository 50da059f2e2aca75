import Intake.Proofs.Building
import Intake.Proofs.Entries
import Intake.Proofs.Outcome
import Intake.Schema.Source
import Intake.Validator

namespace Intake

namespace Json

def text? : Json → Option String
  | .str text => some text
  | _ => none

def flag? : Json → Option Bool
  | .bool flag => some flag
  | _ => none

def double? : Json → Option Double
  | .num number => some number.toDouble
  | _ => none

end Json

def Setting.Takes : Setting → Json → Prop
  | .type, value => ∃ name, value = .str name
  | .pattern, value => value = .null ∨ ∃ source, value = .str source
  | .omitEmpty, value => value = .null ∨ ∃ flag, value = .bool flag
  | .limit _, value => value = .null ∨ ∃ number, value = .num number

namespace Declaration

def ofLookup (lookup : Setting → Option Json) : Declaration where
  type := (lookup .type).bind Json.text?
  pattern := (lookup .pattern).bind Json.text?
  omitEmpty := (lookup .omitEmpty).bind Json.flag?
  bounds :=
    { gt := (lookup (.limit .gt)).bind Json.double?
      gte := (lookup (.limit .gte)).bind Json.double?
      lt := (lookup (.limit .lt)).bind Json.double?
      lte := (lookup (.limit .lte)).bind Json.double? }

variable {lookup : Setting → Option Json} {setting : Setting} {value : Json}
  {members : Entries Json}

theorem get_bounds_ofLookup (limit : Limit) :
    (ofLookup lookup).bounds.get limit = (lookup (.limit limit)).bind Json.double? := by
  cases limit <;> rfl

theorem set_ofLookup (hnone : lookup setting = none) (htakes : setting.Takes value) :
    (ofLookup lookup).set setting value =
      .ok (ofLookup (Function.update lookup setting (some value))) := by
  cases setting with
  | type =>
    obtain ⟨name, rfl⟩ := htakes
    rfl
  | pattern =>
    obtain rfl | ⟨source, rfl⟩ := htakes
    . simp [set, ofLookup, Function.update, hnone, Json.text?]
    . rfl
  | omitEmpty =>
    obtain rfl | ⟨flag, rfl⟩ := htakes
    . simp [set, ofLookup, Function.update, hnone, Json.flag?]
    . rfl
  | limit limit =>
    obtain rfl | ⟨number, rfl⟩ := htakes
    . cases limit <;> simp [set, ofLookup, Function.update, hnone, Json.double?]
    . cases limit <;> rfl

theorem setMember_ofLookup (hnone : lookup setting = none) (htakes : setting.Takes value) :
    (ofLookup lookup).setMember setting.name value =
      .ok (ofLookup (Function.update lookup setting (some value))) := by
  unfold setMember
  rw [Setting.ofName?_name]
  exact set_ofLookup hnone htakes

theorem foldlM_setMember (lookup : Setting → Option Json) (nodup : members.keys.Nodup)
    (htakes : ∀ member ∈ members, ∃ setting, Setting.name setting = member.1 ∧
      setting.Takes member.2)
    (hnone : ∀ setting, Setting.name setting ∈ members.keys → lookup setting = none) :
    members.foldlM (fun declaration (name, value) => declaration.setMember name value)
        (ofLookup lookup) =
      .ok (ofLookup fun setting => (members.get? setting.name).or (lookup setting)) := by
  induction members generalizing lookup with
  | nil => rfl
  | cons member rest ih =>
    obtain ⟨name, value⟩ := member
    rw [List.forall_mem_cons] at htakes
    obtain ⟨⟨setting, rfl, hvalue⟩, htakes⟩ := htakes
    rw [Entries.keys_cons, List.nodup_cons] at nodup
    have hmember := setMember_ofLookup (hnone setting (by simp)) hvalue
    rw [List.foldlM_cons]
    dsimp only
    rw [hmember]
    -- The members that follow are for other settings.
    have hrest : ∀ other, Setting.name other ∈ Entries.keys rest →
        Function.update lookup setting (some value) other = none := by
      intro other hmem
      have hne : other ≠ setting := fun heq => nodup.1 (heq ▸ hmem)
      rw [Function.update_of_ne hne]
      exact hnone other (by simp [hmem])
    apply (ih _ nodup.2 htakes hrest).trans
    congr
    funext other
    rw [Entries.get?_cons]
    by_cases h : setting = other
    . subst h
      have hget := (Entries.get?_eq_none_iff rest setting.name).mpr nodup.1
      simp [hget]
    . have hname : setting.name ≠ other.name := fun heq => h (Setting.name_inj heq)
      rw [if_neg hname, Function.update_of_ne (Ne.symm h)]

theorem ofMembers_eq_ok (nodup : members.keys.Nodup)
    (htakes : ∀ member ∈ members, ∃ setting, Setting.name setting = member.1 ∧
      setting.Takes member.2) :
    ofMembers members = .ok (ofLookup fun setting => members.get? setting.name) := by
  have h := foldlM_setMember (fun _ => none) nodup htakes fun _ _ => rfl
  simp only [Option.or_none] at h
  exact h

end Declaration

/--
The members of a declaration: what is set stands there, and nothing else but nulls and, for texts,
that they may not be left out.
-/
structure Declares (set : Setting → Option Json) (type : FieldType) (members : Entries Json) :
    Prop where
  nodup : members.keys.Nodup
  given : ∀ setting, set setting ≠ none → members.get? setting.name = set setting
  others : ∀ member ∈ members, ∃ setting, Setting.name setting = member.1 ∧
    (set setting = some member.2 ∨ set setting = none ∧
      (member.2 = .null ∨ setting = .omitEmpty ∧ type = .string ∧ member.2 = .bool false))

namespace Declares

variable {set : Setting → Option Json} {type : FieldType} {members : Entries Json}

theorem get?_name (h : Declares set type members) (setting : Setting) :
    members.get? setting.name = set setting ∨ set setting = none ∧
      (members.get? setting.name = some .null ∨
        setting = .omitEmpty ∧ type = .string ∧
          members.get? setting.name = some (.bool false)) := by
  cases hset : set setting with
  | some value =>
    left
    rw [← hset]
    exact h.given setting (by simp [hset])
  | none =>
    cases hget : members.get? setting.name with
    | none => exact Or.inl rfl
    | some value =>
      obtain ⟨other, hname, hvalue⟩ := h.others _ (Entries.mem_of_get?_eq_some hget)
      obtain rfl := Setting.name_inj hname
      simpa [hset] using hvalue

theorem bind_get?_name {α : Type} (h : Declares set type members) {setting : Setting}
    (hne : setting ≠ .omitEmpty) {f : Json → Option α} (hnull : f .null = none) :
    (members.get? setting.name).bind f = (set setting).bind f := by
  obtain heq | ⟨hset, hget | ⟨homit, _⟩⟩ := h.get?_name setting
  . rw [heq]
  . rw [hset, hget]
    exact hnull
  . exact absurd homit hne

end Declares

theorem Declaration.define_eq_build [Engine] {declaration : Declaration} {type : FieldType}
    (htype : declaration.type = some type.name) (hplaced : declaration.misplaced? type = none) :
    declaration.define = declaration.build type := by
  unfold define
  rw [htype]
  dsimp only
  rw [FieldType.ofName?_name]
  dsimp only
  rw [hplaced]

theorem Declaration.build_string_eq_map [Engine] (declaration : Declaration) :
    declaration.build .string =
      (match declaration.pattern with
        | some source => TextRule.matchingSource {} source
        | none => .ok {}).map fun rule : TextRule =>
          .string (if declaration.omitEmpty = some true then rule.omittingEmpty else rule) := by
  unfold build
  cases declaration.pattern with
  | none => rfl
  | some source =>
    dsimp only
    cases TextRule.matchingSource {} source <;> rfl

theorem Declaration.build_string [Engine] {declaration : Declaration} {rule : TextRule}
    (plain : ∀ pattern, rule.pattern = some pattern → pattern.IsPlain)
    (hpattern : declaration.pattern = rule.pattern.map (·.source))
    (homit : declaration.omitEmpty = some true ↔ rule.omitEmpty = true) :
    declaration.build .string = .ok (.string rule) := by
  obtain ⟨pattern, omitEmpty⟩ := rule
  have hrule : (if declaration.omitEmpty = some true then TextRule.omittingEmpty ⟨pattern, false⟩
      else ⟨pattern, false⟩) = ⟨pattern, omitEmpty⟩ := by
    split
    . next hflag =>
      have htrue : omitEmpty = true := homit.mp hflag
      rw [htrue]
      rfl
    . next hflag =>
      have hfalse : omitEmpty = false := by simpa using mt homit.mpr hflag
      rw [hfalse]
  unfold build
  dsimp only
  rw [hpattern]
  cases pattern with
  | none => exact congrArg (Except.ok ∘ Definition.string) hrule
  | some pattern =>
    have hsource : TextRule.matchingSource {} pattern.source = .ok ⟨some pattern, false⟩ := by
      unfold TextRule.matchingSource
      rw [plain pattern rfl]
      rfl
    dsimp only [Option.map_some]
    rw [hsource]
    exact congrArg (Except.ok ∘ Definition.string) hrule

theorem Declaration.get?_ne_null_of_gives {lookup : Setting → Option Json} {setting : Setting}
    (h : (ofLookup lookup).gives setting = true) :
    lookup setting ≠ none ∧ lookup setting ≠ some .null := by
  constructor
  all_goals
    intro hlookup
    cases setting with
    | limit limit =>
      simp [gives, get_bounds_ofLookup, hlookup, Json.double?] at h
    | _ => simp [gives, ofLookup, hlookup, Json.text?, Json.flag?] at h

namespace Definition

variable [Engine] {definition : Definition} {setting : Setting} {value : Json}
  {members : Entries Json}

theorem allowedOn_of_setting? (h : definition.setting? setting = some value) :
    setting.allowedOn definition.type = true := by
  cases definition <;> cases setting <;> simp_all [setting?, Setting.allowedOn, Definition.type]

theorem takes_of_setting? (h : definition.setting? setting = some value) :
    setting.Takes value := by
  have hliteral (bound : Double) :
      bound.literal = .null ∨ ∃ number, bound.literal = .num number := by
    cases bound <;> simp [Double.literal]
  cases setting with
  | type => exact ⟨_, (Option.some.inj h).symm⟩
  | pattern =>
    cases definition with
    | string rule =>
      obtain ⟨pattern, _, rfl⟩ := Option.map_eq_some_iff.mp h
      exact Or.inr ⟨_, rfl⟩
    | _ => simp [setting?] at h
  | omitEmpty =>
    cases definition with
    | string rule =>
      obtain ⟨_, htrue⟩ := Option.ite_none_right_eq_some.mp h
      exact Or.inr ⟨true, (Option.some.inj htrue).symm⟩
    | _ => simp [setting?] at h
  | limit limit =>
    cases definition with
    | number bounds =>
      obtain ⟨bound, _, rfl⟩ := Option.map_eq_some_iff.mp h
      exact hliteral bound
    | integer bounds =>
      obtain ⟨bound, _, rfl⟩ := Option.map_eq_some_iff.mp h
      exact hliteral bound
    | _ => simp [setting?] at h

end Definition

namespace Declares

variable [Engine] {definition : Definition} {members : Entries Json}

theorem takes (h : Declares definition.setting? definition.type members) :
    ∀ member ∈ members, ∃ setting, Setting.name setting = member.1 ∧ setting.Takes member.2 := by
  intro member hmem
  obtain ⟨setting, hname, hvalue⟩ := h.others member hmem
  refine ⟨setting, hname, ?_⟩
  obtain hset | ⟨hnone, hnull | ⟨rfl, _, hfalse⟩⟩ := hvalue
  . exact Definition.takes_of_setting? hset
  . rw [hnull]
    cases setting with
    | type => simp [Definition.setting?] at hnone
    | _ => exact Or.inl rfl
  . exact Or.inr ⟨false, hfalse⟩

theorem misplaced? (h : Declares definition.setting? definition.type members) :
    (Declaration.ofLookup fun setting => members.get? setting.name).misplaced? definition.type =
      none := by
  unfold Declaration.misplaced?
  rw [List.find?_eq_none]
  intro setting _
  rw [Bool.and_eq_true, not_and, Bool.not_eq_true', Bool.not_eq_false]
  intro hgives
  obtain ⟨hsome, hnull⟩ := Declaration.get?_ne_null_of_gives hgives
  obtain heq | ⟨_, hget | ⟨rfl, htype, _⟩⟩ := h.get?_name setting
  . obtain ⟨value, hvalue⟩ := Option.ne_none_iff_exists'.mp hsome
    exact Definition.allowedOn_of_setting? (heq.symm.trans hvalue)
  . exact absurd hget hnull
  . rw [htype]
    rfl

theorem omitEmpty {rule : TextRule}
    (h : Declares (Definition.string rule).setting? .string members) :
    (members.get? Setting.omitEmpty.name).bind Json.flag? = some true ↔ rule.omitEmpty = true := by
  obtain heq | ⟨hnone, hget⟩ := h.get?_name .omitEmpty
  . rw [heq]
    cases homit : rule.omitEmpty <;> simp [Definition.setting?, homit, Json.flag?]
  . have homit : rule.omitEmpty = false := by simpa [Definition.setting?] using hnone
    obtain hget | ⟨_, _, hget⟩ := hget
    all_goals
      rw [hget, homit]
      simp [Json.flag?]

theorem bounds {kind : Bounds → Definition} (hkind : kind = .number ∨ kind = .integer)
    {bounds : Bounds} (finite : bounds.checkFinite = .ok ()) {type : FieldType}
    (h : Declares (kind bounds).setting? type members) :
    (Declaration.ofLookup fun setting => members.get? setting.name).bounds = bounds := by
  apply Bounds.ext_get
  intro limit
  have hget : (kind bounds).setting? (.limit limit) = (bounds.get limit).map Double.literal := by
    obtain rfl | rfl := hkind <;> rfl
  rw [Declaration.get_bounds_ofLookup, h.bind_get?_name (by simp) rfl, hget]
  cases hbound : bounds.get limit with
  | none => rfl
  | some bound =>
    have hfinite := (Bounds.checkFinite_eq_ok_iff bounds).mp finite limit bound hbound
    cases bound with
    | finite value => rfl
    | _ => simp [Double.isFinite] at hfinite

theorem build {definition : Definition} (finite : definition.checkBounds = .ok ())
    (plain : definition.IsPlain)
    (h : Declares definition.setting? definition.type members) :
    (Declaration.ofLookup fun setting => members.get? setting.name).build definition.type =
      .ok definition := by
  cases definition with
  | string rule =>
    have hget : (Definition.string rule).setting? .pattern = rule.pattern.map (.str ·.source) := rfl
    apply Declaration.build_string (plain rule · rfl) _ h.omitEmpty
    apply (h.bind_get?_name (by simp) rfl).trans
    rw [hget]
    cases rule.pattern <;> rfl
  | number bounds =>
    have hbounds := h.bounds (Or.inl rfl) finite
    unfold Declaration.build
    simp [Definition.type, hbounds]
  | integer bounds =>
    have hbounds := h.bounds (Or.inr rfl) finite
    unfold Declaration.build
    simp [Definition.type, hbounds]
  | boolean => rfl

end Declares

namespace Definition

variable [Engine]

theorem ofJson_of_declares {definition : Definition} {members : Entries Json}
    (finite : definition.checkBounds = .ok ()) (plain : definition.IsPlain)
    (h : Declares definition.setting? definition.type members) :
    ofJson (.obj members) = .ok definition := by
  have htype : (members.get? Setting.type.name).bind Json.text? = some definition.type.name := by
    rw [h.given .type (by simp [setting?])]
    rfl
  have hmembers : Declaration.ofJson (.obj members) =
      .ok (Declaration.ofLookup fun setting => members.get? setting.name) :=
    Declaration.ofMembers_eq_ok h.nodup h.takes
  unfold ofJson
  rw [hmembers]
  dsimp only
  rw [Declaration.define_eq_build htype h.misplaced?]
  exact h.build finite plain

end Definition

end Intake
