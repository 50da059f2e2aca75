import Intake.Pattern.Engine
import Intake.Proofs.Declaration

namespace Intake

theorem Entries.insert_of_notMem {α : Type} {entries : Entries α} {k : String}
    (h : k ∉ entries.keys) (v : α) : entries.insert k v = entries ++ [(k, v)] := by
  induction entries with
  | nil => rfl
  | cons pair rest ih =>
    obtain ⟨key, value⟩ := pair
    rw [keys_cons, List.mem_cons, not_or] at h
    unfold insert
    rw [if_neg (Ne.symm h.1), ih h.2, List.cons_append]

namespace Schema

section

variable [Engine] {pairs : List (String × Definition)} {declarations : Entries Json}

theorem entries_foldl_insert {schema : Schema}
    (distinct : (schema.paths ++ pairs.map Prod.fst).Nodup) :
    (pairs.foldl (fun schema pair => schema.insert pair.1 pair.2) schema).entries =
      schema.entries ++ pairs := by
  induction pairs generalizing schema with
  | nil => simp
  | cons pair rest ih =>
    have hnew : pair.1 ∉ schema.entries.keys := by
      intro hmem
      exact (List.nodup_append.mp distinct).2.2 _ hmem pair.1 (by simp) rfl
    have hentries : (schema.insert pair.1 pair.2).entries = schema.entries ++ [pair] :=
      Entries.insert_of_notMem hnew pair.2
    have hpaths : (schema.insert pair.1 pair.2).paths = schema.paths ++ [pair.1] := by
      simp [paths, hentries, Entries.keys]
    rw [List.foldl_cons, ih, hentries, List.append_assoc, List.singleton_append]
    rw [hpaths, List.append_assoc]
    exact distinct

theorem entries_ofList (distinct : (pairs.map Prod.fst).Nodup) :
    (ofList pairs).entries = pairs := by
  apply entries_foldl_insert
  simpa using distinct

theorem ofJson_of_forall₂ (h : List.Forall₂ (fun declaration pair => declaration.1 = pair.1 ∧
    Definition.ofJson declaration.2 = .ok pair.2) declarations pairs) :
    ofJson (.obj declarations) = .ok (ofList pairs) := by
  apply Except.foldlM_eq_ok_of_forall₂ _ h
  rintro schema ⟨path, value⟩ pair ⟨rfl, hdefinition⟩
  dsimp only at hdefinition ⊢
  rw [hdefinition]
  rfl

/--
A schema can be declared or built. Whatever calls have set the bounds, patterns and flags of its
definitions, both ways lead to the same schema, and therefore to the same verdicts.
-/
theorem declared_eq_built (distinct : (pairs.map Prod.fst).Nodup)
    (finite : ∀ pair ∈ pairs, pair.2.checkBounds = .ok ())
    (plain : ∀ pair ∈ pairs, pair.2.IsPlain)
    (declared : List.Forall₂ (fun declaration pair => declaration.1 = pair.1 ∧
        ∃ type setters members, Definition.Builds type setters pair.2 ∧
          declaration.2 = .obj members ∧ Declares (Setter.outcome type setters) type members)
      declarations pairs) :
    ofJson (.obj declarations) = .ok (ofList pairs) ∧ (ofList pairs).entries = pairs ∧
      pairs.foldl (fun schema pair => schema.insert pair.1 pair.2) empty = ofList pairs ∧
      (ofJson (.obj declarations) >>= Validator.ofSchema) = Validator.ofSchema (ofList pairs) ∧
      ∀ document, (ofJson (.obj declarations) >>= Validator.ofSchema >>= (·.validate document)) =
        (Validator.ofSchema (ofList pairs) >>= (·.validate document)) := by
  have hdeclared : ofJson (.obj declarations) = .ok (ofList pairs) := by
    apply ofJson_of_forall₂
    apply List.forall₂_imp_of_mem declared
    rintro declaration _ pair hmem ⟨hpath, type, setters, members, hbuilds, hobj, hdeclares⟩
    refine ⟨hpath, ?_⟩
    rw [hobj]
    apply Definition.ofJson_of_declares (finite pair hmem) (plain pair hmem)
    rw [Definition.setting?_of_builds hbuilds, Definition.type_of_builds hbuilds]
    exact hdeclares
  refine ⟨hdeclared, entries_ofList distinct, rfl, ?_, ?_⟩
  . rw [hdeclared]
    rfl
  . intro document
    rw [hdeclared]
    rfl

end

theorem declared_eq_built_items :
    ∃ pattern, Pattern.ofSource "a" = .ok pattern ∧
      ofJson (.obj
          [("n", .obj [("gt", .num (.float (.zero true))), ("lte", .null),
            ("type", .str "integer")]),
          ("items.s", .obj [("omitEmpty", .bool false), ("type", .str "string"),
            ("match", .str "a")])]) =
        .ok (ofList [("n", .integer { gt := some (.finite (.zero true)) }),
          ("items.s", .string ⟨some pattern, false⟩)]) := by
  obtain ⟨pattern, hread⟩ : ∃ pattern, Pattern.ofSource "a" = .ok pattern :=
    (Except.isOk_iff _).mp (by decide +kernel)
  have hinteger : Definition.Builds .integer [.bound .gt .nan, .bound .gt (.finite (.zero true))]
      (.integer { gt := some (.finite (.zero true)) }) := by
    have hstart : Definition.Builds .integer [] (.integer {}) := .start
    have hfirst := hstart.call (.integerBound {} .gt .nan)
    exact hfirst.call (.integerBound _ .gt (.finite (.zero true)))
  have hstring : Definition.Builds .string [.matchingSource "a"]
      (.string ⟨some pattern, false⟩) := by
    have hstart : Definition.Builds .string [] (.string {}) := .start
    apply hstart.call (.matchingSource _)
    unfold TextRule.matchingSource
    rw [hread]
    rfl
  have hbounds : Declares (Setter.outcome .integer
      [.bound .gt .nan, .bound .gt (.finite (.zero true))]) .integer
      [("gt", .num (.float (.zero true))), ("lte", .null), ("type", .str "integer")] := by
    refine ⟨by decide, ?_, ?_⟩
    . intro setting
      cases setting with
      | limit limit => cases limit <;> decide
      | _ => decide
    . simp only [List.forall_mem_cons]
      exact ⟨⟨.limit .gt, rfl, by decide⟩, ⟨.limit .lte, rfl, by decide⟩, ⟨.type, rfl, by decide⟩,
        by simp⟩
  have hpattern : Declares (Setter.outcome .string [.matchingSource "a"]) .string
      [("omitEmpty", .bool false), ("type", .str "string"), ("match", .str "a")] := by
    refine ⟨by decide, ?_, ?_⟩
    . intro setting
      cases setting with
      | limit limit => cases limit <;> decide
      | _ => decide
    . simp only [List.forall_mem_cons]
      exact ⟨⟨.omitEmpty, rfl, by decide⟩, ⟨.type, rfl, by decide⟩, ⟨.pattern, rfl, by decide⟩,
        by simp⟩
  refine ⟨pattern, hread, (declared_eq_built (by simp) ?finite ?plain ?declared).1⟩
  case finite =>
    simp only [List.forall_mem_cons]
    exact ⟨by decide, rfl, by simp⟩
  case plain =>
    simp only [List.forall_mem_cons]
    refine ⟨by simp [Definition.IsPlain], ?_, by simp⟩
    rintro _ _ ⟨⟩ ⟨⟩
    exact Pattern.isPlain_of_ofSource hread
  case declared =>
    exact .cons ⟨rfl, _, _, _, hinteger, rfl, hbounds⟩
      (.cons ⟨rfl, _, _, _, hstring, rfl, hpattern⟩ .nil)

end Schema

end Intake
