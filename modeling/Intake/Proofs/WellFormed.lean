import Intake.Json.Reader
import Intake.Proofs.Entries

namespace Intake

namespace Json

inductive WellFormed : Json → Prop where
  | null : WellFormed .null
  | bool (value : Bool) : WellFormed (.bool value)
  | num (value : Number) : WellFormed (.num value)
  | str (value : String) : WellFormed (.str value)
  | arr {elements : List Json} (helements : ∀ element ∈ elements, WellFormed element) :
    WellFormed (.arr elements)
  | obj {members : List (String × Json)} (nodup : (Entries.keys members).Nodup)
      (hmembers : ∀ member ∈ members, WellFormed member.2) : WellFormed (.obj members)

theorem WellFormed.nodup {members : List (String × Json)} (h : WellFormed (.obj members)) :
    (Entries.keys members).Nodup := by
  cases h with
  | obj nodup _ => exact nodup

theorem WellFormed.of_mem_obj {members : List (String × Json)} (h : WellFormed (.obj members))
    {member : String × Json} (hmem : member ∈ members) : WellFormed member.2 := by
  cases h with
  | obj _ hmembers => exact hmembers member hmem

theorem WellFormed.of_mem_arr {elements : List Json} (h : WellFormed (.arr elements))
    {element : Json} (hmem : element ∈ elements) : WellFormed element := by
  cases h with
  | arr helements => exact helements element hmem

theorem wellFormed_of_scalarValue? {cs : List Char} {step : Step Json cs}
    (h : scalarValue? cs = some step) : WellFormed step.value := by
  unfold scalarValue? at h
  split at h
  . rw [← Option.some.inj h]
    exact .null
  . rw [← Option.some.inj h]
    exact .bool true
  . rw [← Option.some.inj h]
    exact .bool false
  . obtain ⟨text, _, rfl⟩ := Option.map_eq_some_iff.mp h
    exact .str text.value
  . obtain ⟨number, _, rfl⟩ := Option.map_eq_some_iff.mp h
    exact .num number
  . simp at h

theorem wellFormed_of_elements? {value? : (cs : List Char) → Option (Step Json cs)}
    (hvalue : ∀ cs step, value? cs = some step → WellFormed step.value) {cs : List Char}
    {step : Step (List Json) cs} (h : elements? value? cs = some step) :
    ∀ element ∈ step.value, WellFormed element := by
  fun_induction elements? value? cs with
  | case1 cs ih =>
    obtain ⟨first, hfirst, h⟩ := Option.bind_eq_some_iff.mp h
    have hhead := hvalue _ _ hfirst
    dsimp only at h
    split at h
    . rw [← Option.some.inj h]
      simpa using hhead
    . next rest heq =>
      obtain ⟨others, hothers, h⟩ := Option.bind_eq_some_iff.mp h
      rw [← Option.some.inj h]
      exact List.forall_mem_cons.mpr ⟨hhead, ih first rest heq hothers⟩
    . simp at h

theorem wellFormed_of_members? {value? : (cs : List Char) → Option (Step Json cs)}
    (hvalue : ∀ cs step, value? cs = some step → WellFormed step.value) {cs : List Char}
    {step : Step (List (String × Json)) cs} (h : members? value? cs = some step) :
    ∀ member ∈ step.value, WellFormed member.2 := by
  fun_induction members? value? cs with
  | case1 cs ih =>
    obtain ⟨key, _, h⟩ := Option.bind_eq_some_iff.mp h
    obtain ⟨first, hfirst, h⟩ := Option.bind_eq_some_iff.mp h
    have hhead := hvalue _ _ hfirst
    dsimp only at h
    split at h
    . rw [← Option.some.inj h]
      simpa using hhead
    . next rest heq =>
      obtain ⟨others, hothers, h⟩ := Option.bind_eq_some_iff.mp h
      rw [← Option.some.inj h]
      exact List.forall_mem_cons.mpr ⟨hhead, ih key first rest heq hothers⟩
    . simp at h

theorem wellFormed_of_value? {depth : Nat} {cs : List Char} {step : Step Json cs}
    (h : value? depth cs = some step) : WellFormed step.value := by
  induction depth generalizing cs step with
  | zero =>
    rw [value?] at h
    obtain ⟨scalar, hscalar, rfl⟩ := Option.map_eq_some_iff.mp h
    have hwell := wellFormed_of_scalarValue? hscalar
    exact hwell
  | succ depth ih =>
    rw [value?] at h
    split at h
    . dsimp only at h
      split at h
      . rw [← Option.some.inj h]
        exact .arr (by simp)
      . obtain ⟨elements, helements, rfl⟩ := Option.map_eq_some_iff.mp h
        exact .arr (wellFormed_of_elements? (fun _ _ => ih) helements)
    . dsimp only at h
      split at h
      . rw [← Option.some.inj h]
        exact .obj List.nodup_nil (by simp)
      . obtain ⟨members, hmembers, rfl⟩ := Option.map_eq_some_iff.mp h
        have hwell := wellFormed_of_members? (fun _ _ => ih) hmembers
        refine .obj (Entries.nodup_keys_ofList members.value) ?_
        intro member hmem
        exact hwell member (Entries.mem_of_mem_ofList hmem)
    . obtain ⟨scalar, hscalar, rfl⟩ := Option.map_eq_some_iff.mp h
      have hwell := wellFormed_of_scalarValue? hscalar
      exact hwell

theorem wellFormed_of_ofText? {text : String} {value : Json} (h : ofText? text = some value) :
    WellFormed value := by
  unfold ofText? at h
  split at h
  . next step heq =>
    split at h
    . rw [← Option.some.inj h]
      exact wellFormed_of_value? heq
    . simp at h
  . simp at h

end Json

end Intake
