import Mathlib.Data.List.Basic
import Mathlib.Data.List.TakeWhile
import Intake.Proofs.Word

namespace Intake

inductive IsPath : String → Prop where
  | word {prop : String} (isWord : IsWord prop.toList) : IsPath prop
  | dotted {prop sub : String} (isWord : IsWord prop.toList) (isWord' : IsWord sub.toList) :
      IsPath (prop ++ "." ++ sub)

namespace FieldPath

theorem text_eq_of_sub?_eq_none {path : FieldPath} (h : path.sub? = none) :
    path.text = path.prop.text := by
  simp [text, h]

theorem text_eq_of_sub?_eq_some {path : FieldPath} {sub : Word} (h : path.sub? = some sub) :
    path.text = path.prop.text ++ "." ++ sub.text := by
  simp [text, h]

theorem toList_text_of_sub?_eq_some {path : FieldPath} {sub : Word} (h : path.sub? = some sub) :
    path.text.toList = path.prop.text.toList ++ '.' :: sub.text.toList := by
  simp [text, h, String.toList_append]

theorem dot_mem_text_iff (path : FieldPath) :
    '.' ∈ path.text.toList ↔ path.sub?.isSome = true := by
  cases h : path.sub? with
  | none =>
    rw [text_eq_of_sub?_eq_none h]
    simp [path.prop.dot_notMem]
  | some sub =>
    rw [toList_text_of_sub?_eq_some h]
    simp

theorem text_eq_dotted_iff (path : FieldPath) (key subkey : String) :
    path.text = key ++ "." ++ subkey ↔
      path.prop.text = key ∧ path.sub?.map Word.text = some subkey := by
  have hdotted : (key ++ "." ++ subkey).toList = key.toList ++ '.' :: subkey.toList := by
    simp [String.toList_append]
  rw [← String.toList_inj, hdotted]
  cases h : path.sub? with
  | none =>
    rw [text_eq_of_sub?_eq_none h]
    simp only [Option.map_none, reduceCtorEq, and_false, iff_false]
    intro heq
    apply path.prop.dot_notMem
    rw [heq]
    simp
  | some sub =>
    rw [toList_text_of_sub?_eq_some h,
      List.append_cons_inj_of_notMem path.prop.dot_notMem sub.dot_notMem]
    simp only [true_and, String.toList_inj, Option.map_some, Option.some.injEq]

theorem text_inj {path other : FieldPath} : path.text = other.text ↔ path = other := by
  refine ⟨?_, congrArg text⟩
  intro heq
  cases h : other.sub? with
  | none =>
    have hsub : path.sub? = none := by
      have hdot := other.dot_mem_text_iff
      rw [← heq, path.dot_mem_text_iff, h] at hdot
      simpa using hdot
    rw [text_eq_of_sub?_eq_none h, text_eq_of_sub?_eq_none hsub, Word.text_inj] at heq
    cases path
    cases other
    simp_all
  | some sub =>
    have hother : other.text = other.prop.text ++ "." ++ sub.text := by
      simp [text, h]
    rw [hother, text_eq_dotted_iff, Word.text_inj] at heq
    obtain ⟨hprop, hsub⟩ := heq
    obtain ⟨sub', hsub', htext⟩ := Option.map_eq_some_iff.mp hsub
    rw [Word.text_inj] at htext
    cases path
    cases other
    simp_all

theorem text_of_ofText? {raw : String} {path : FieldPath} (h : ofText? raw = some path) :
    path.text = raw := by
  have hsplit := List.takeWhile_append_dropWhile (p := (· ≠ '.')) (l := raw.toList)
  unfold ofText? at h
  dsimp only at h
  split at h
  . next prop hprop hrest =>
    rw [Option.some.injEq] at h
    subst h
    rw [hrest, List.append_nil] at hsplit
    rw [text_eq_of_sub?_eq_none rfl, ← String.toList_inj, Word.text_of_ofList? hprop, hsplit]
  . next prop c rest hprop hrest =>
    obtain ⟨sub, hsub, rfl⟩ := Option.map_eq_some_iff.mp h
    have hc : c = '.' := by
      have hhead := List.head?_dropWhile_not (· ≠ '.') raw.toList
      rw [hrest] at hhead
      simpa using hhead
    rw [hrest, hc] at hsplit
    rw [← String.toList_inj, toList_text_of_sub?_eq_some rfl, Word.text_of_ofList? hprop,
      Word.text_of_ofList? hsub, hsplit]
  . simp at h

theorem text_of_parse {raw : String} {path : FieldPath} (h : parse raw = .ok path) :
    path.text = raw := by
  unfold parse at h
  split at h
  . next parsed hparsed =>
    rw [Except.ok.injEq] at h
    exact h ▸ text_of_ofText? hparsed
  . simp at h

theorem ofText?_text (path : FieldPath) : ofText? path.text = some path := by
  have hword : ∀ c ∈ path.prop.text.toList, decide (c ≠ '.') = true := by
    intro c hc
    exact decide_eq_true fun heq => path.prop.dot_notMem (heq ▸ hc)
  unfold ofText?
  dsimp only
  cases hsub : path.sub? with
  | none =>
    rw [text_eq_of_sub?_eq_none hsub, List.takeWhile_eq_self_iff.mpr hword,
      List.dropWhile_eq_nil_iff.mpr hword, Word.ofList?_toList]
    exact congrArg some (congrArg (mk path.prop) hsub.symm)
  | some sub =>
    rw [toList_text_of_sub?_eq_some hsub, List.takeWhile_append_of_pos hword,
      List.dropWhile_append_of_pos hword, List.takeWhile_cons_of_neg (by simp),
      List.dropWhile_cons_of_neg (by simp), List.append_nil, Word.ofList?_toList]
    dsimp only
    rw [Word.ofList?_toList, Option.map_some]
    exact congrArg some (congrArg (mk path.prop) hsub.symm)

theorem parse_eq_ok_iff (raw : String) (path : FieldPath) :
    parse raw = .ok path ↔ path.text = raw := by
  refine ⟨text_of_parse, ?_⟩
  rintro rfl
  unfold parse
  rw [ofText?_text]

theorem isPath_text (path : FieldPath) : IsPath path.text := by
  cases hsub : path.sub? with
  | none =>
    rw [text_eq_of_sub?_eq_none hsub]
    exact .word path.prop.isWord
  | some sub =>
    rw [text_eq_of_sub?_eq_some hsub]
    exact .dotted path.prop.isWord sub.isWord

theorem exists_text_eq_iff (raw : String) : (∃ path : FieldPath, path.text = raw) ↔ IsPath raw := by
  constructor
  . rintro ⟨path, rfl⟩
    exact path.isPath_text
  . intro h
    cases h with
    | word isWord => exact ⟨⟨⟨_, (isWord_iff _).mpr isWord⟩, none⟩, rfl⟩
    | dotted isWord isWord' =>
      exact ⟨⟨⟨_, (isWord_iff _).mpr isWord⟩, some ⟨_, (isWord_iff _).mpr isWord'⟩⟩, rfl⟩

theorem exists_parse_iff (raw : String) : (∃ path, parse raw = .ok path) ↔ IsPath raw := by
  simp only [parse_eq_ok_iff, exists_text_eq_iff]

theorem exists_words_iff (prop : String) (sub? : Option String) :
    (∃ path : FieldPath, path.prop.text = prop ∧ path.sub?.map Word.text = sub?) ↔
      IsWord prop.toList ∧ ∀ sub ∈ sub?, IsWord sub.toList := by
  constructor
  . rintro ⟨path, rfl, rfl⟩
    refine ⟨path.prop.isWord, ?_⟩
    intro text htext
    obtain ⟨sub, _, rfl⟩ := Option.map_eq_some_iff.mp htext
    exact sub.isWord
  . rintro ⟨isWord, isWord'⟩
    cases sub? with
    | none => exact ⟨⟨⟨prop, (isWord_iff _).mpr isWord⟩, none⟩, rfl, rfl⟩
    | some sub =>
      exact ⟨⟨⟨prop, (isWord_iff _).mpr isWord⟩, some ⟨sub, (isWord_iff _).mpr (isWord' sub rfl)⟩⟩,
        rfl, rfl⟩

theorem parse_inverse :
    (∀ raw, (∃ path, parse raw = .ok path) ↔ IsPath raw) ∧
      (∀ raw path, parse raw = .ok path ↔ path.text = raw) ∧
      ∀ prop sub?, (∃ path : FieldPath, path.prop.text = prop ∧ path.sub?.map Word.text = sub?) ↔
        IsWord prop.toList ∧ ∀ sub ∈ sub?, IsWord sub.toList :=
  ⟨exists_parse_iff, parse_eq_ok_iff, exists_words_iff⟩

end FieldPath

end Intake
