import Mathlib.Data.Finset.Dedup
import Mathlib.Data.Finset.Card
import Mathlib.Data.List.Induction
import Intake.Pattern.Engine
import Intake.Proofs.Entries
import Intake.Schema

namespace Intake

theorem Entries.map_get?_keys {α : Type} {entries : Entries α} (nodup : entries.keys.Nodup) :
    entries.keys.map (fun key => (key, entries.get? key)) =
      entries.map fun pair => (pair.1, some pair.2) := by
  unfold keys
  rw [List.map_map]
  apply List.map_congr_left
  intro pair hmem
  rw [Function.comp, (get?_eq_some_iff nodup pair.1 pair.2).mpr hmem]

namespace Schema

section

variable [Engine]

def LastInserts (history : List (String × Definition)) (path : String) (definition : Definition) :
    Prop :=
  ∃ before after, history = before ++ (path, definition) :: after ∧ path ∉ after.map Prod.fst

structure Records (schema : Schema) (history : List (String × Definition)) : Prop where
  nodup : schema.paths.Nodup
  mem_paths_iff : ∀ path, path ∈ schema.paths ↔ path ∈ history.map Prod.fst
  ordered : schema.paths.Pairwise fun first second =>
    (history.map Prod.fst).idxOf first < (history.map Prod.fst).idxOf second
  get?_eq_some_iff : ∀ path definition,
    schema.get? path = some definition ↔ LastInserts history path definition

variable {schema : Schema} {history : List (String × Definition)} {path other : String}
  {definition definition' : Definition}

theorem lastInserts_append_iff :
    LastInserts (history ++ [(path, definition)]) other definition' ↔
      if path = other then definition = definition' else LastInserts history other definition' := by
  unfold LastInserts
  constructor
  . rintro ⟨before, after, heq, hnot⟩
    cases after using List.reverseRecOn with
    | nil =>
      obtain ⟨_, hlast⟩ := List.append_inj' heq rfl
      obtain ⟨rfl, rfl⟩ := Prod.mk.inj (List.cons.inj hlast).1
      rw [if_pos rfl]
    | append_singleton after last =>
      rw [← List.cons_append, ← List.append_assoc] at heq
      obtain ⟨rfl, hlast⟩ := List.append_inj' heq rfl
      obtain rfl := (List.cons.inj hlast).1
      rw [List.map_append, List.mem_append, not_or] at hnot
      have hne : path ≠ other := by
        rintro rfl
        exact hnot.2 List.mem_cons_self
      rw [if_neg hne]
      exact ⟨before, after, rfl, hnot.1⟩
  . intro h
    split at h
    . next heq => exact ⟨history, [], by rw [h, heq], List.not_mem_nil⟩
    . next hne =>
      obtain ⟨before, after, rfl, hnot⟩ := h
      refine ⟨before, after ++ [(path, definition)], by simp, ?_⟩
      rw [List.map_append, List.mem_append, not_or]
      exact ⟨hnot, by simpa using Ne.symm hne⟩

theorem records_empty : empty.Records [] where
  nodup := List.nodup_nil
  mem_paths_iff := fun _ => Iff.rfl
  ordered := List.Pairwise.nil
  get?_eq_some_iff := by simp [LastInserts]

theorem Records.idxOf_append (h : schema.Records history) (hmem : other ∈ schema.paths) :
    ((history ++ [(path, definition)]).map Prod.fst).idxOf other =
      (history.map Prod.fst).idxOf other := by
  rw [List.map_append]
  exact List.idxOf_append_of_mem ((h.mem_paths_iff other).mp hmem)

theorem Records.pairwise_append (h : schema.Records history) :
    schema.paths.Pairwise fun first second =>
      ((history ++ [(path, definition)]).map Prod.fst).idxOf first <
        ((history ++ [(path, definition)]).map Prod.fst).idxOf second := by
  apply h.ordered.imp_of_mem
  intro first second hfirst hsecond hlt
  rw [h.idxOf_append hfirst, h.idxOf_append hsecond]
  exact hlt

theorem Records.insert (h : schema.Records history) (path : String) (definition : Definition) :
    (schema.insert path definition).Records (history ++ [(path, definition)]) where
  nodup := (schema.insert path definition).nodup
  mem_paths_iff := by
    intro other
    rw [paths_insert, List.map_append, List.mem_append, ← h.mem_paths_iff]
    split
    . next hmem =>
      rw [iff_self_or]
      intro hother
      exact List.mem_singleton.mp hother ▸ hmem
    . exact List.mem_append
  ordered := by
    rw [paths_insert]
    split
    . exact h.pairwise_append
    . next hnot =>
      rw [List.pairwise_append]
      refine ⟨h.pairwise_append, List.pairwise_singleton _ _, ?_⟩
      intro first hfirst second hsecond
      have hnew : path ∉ history.map Prod.fst := (h.mem_paths_iff path).not.mp hnot
      rw [List.mem_singleton.mp hsecond, h.idxOf_append hfirst, List.map_append,
        List.idxOf_append, if_neg hnew]
      exact Nat.lt_add_left _ (List.idxOf_lt_length_iff.mpr ((h.mem_paths_iff first).mp hfirst))
  get?_eq_some_iff := by
    intro other definition'
    rw [get?_insert, lastInserts_append_iff]
    split
    . exact Option.some_inj
    . exact h.get?_eq_some_iff other definition'

theorem ofList_append (history : List (String × Definition)) (path : String)
    (definition : Definition) :
    ofList (history ++ [(path, definition)]) = (ofList history).insert path definition := by
  simp [ofList]

theorem records_ofList (history : List (String × Definition)) :
    (ofList history).Records history := by
  induction history using List.reverseRecOn with
  | nil => exact records_empty
  | append_singleton history last ih =>
    rw [ofList_append]
    exact ih.insert last.1 last.2

theorem Records.get?_eq_none_iff (h : schema.Records history) (path : String) :
    schema.get? path = none ↔ path ∉ history.map Prod.fst := by
  rw [← h.mem_paths_iff]
  exact Entries.get?_eq_none_iff schema.entries path

theorem Records.size_eq (h : schema.Records history) :
    schema.size = (history.map Prod.fst).toFinset.card := by
  have hpaths : schema.paths.toFinset = (history.map Prod.fst).toFinset := by
    ext path
    rw [List.mem_toFinset, List.mem_toFinset, h.mem_paths_iff]
  rw [← hpaths, List.toFinset_card_of_nodup h.nodup]
  exact (List.length_map _).symm

theorem isEmpty_iff_size (schema : Schema) : schema.isEmpty = true ↔ schema.size = 0 := by
  unfold isEmpty size
  rw [List.isEmpty_iff, List.length_eq_zero_iff]

theorem idxOf_paths_insert (schema : Schema) (path : String) (definition : Definition)
    (hmem : other ∈ schema.paths) :
    (schema.insert path definition).paths.idxOf other = schema.paths.idxOf other := by
  rw [paths_insert]
  split
  . rfl
  . exact List.idxOf_append_of_mem hmem

/--
After any insertions a schema holds the paths in the order of their first insertions and for each of
them the definition of its last one. Its size is the number of different paths, and its entries are
the paths with their definitions. A further insertion leaves all other paths where and as they are.
-/
theorem history_recorded (history : List (String × Definition)) :
    (ofList history).Records history ∧
      (∀ path, (ofList history).get? path = none ↔ path ∉ history.map Prod.fst) ∧
      (ofList history).size = (history.map Prod.fst).toFinset.card ∧
      ((ofList history).isEmpty = true ↔ (ofList history).size = 0) ∧
      (ofList history).paths.map (fun path => (path, (ofList history).get? path)) =
        (ofList history).entries.map (fun pair => (pair.1, some pair.2)) ∧
      ∀ path definition,
        ofList (history ++ [(path, definition)]) = (ofList history).insert path definition ∧
        ∀ other ∈ (ofList history).paths, other ≠ path →
          ((ofList history).insert path definition).get? other = (ofList history).get? other ∧
            ((ofList history).insert path definition).paths.idxOf other =
              (ofList history).paths.idxOf other := by
  have hrecords := records_ofList history
  refine ⟨hrecords, hrecords.get?_eq_none_iff, hrecords.size_eq, isEmpty_iff_size _,
    Entries.map_get?_keys (ofList history).nodup, ?_⟩
  intro path definition
  refine ⟨ofList_append history path definition, ?_⟩
  intro other hmem hne
  rw [get?_insert, if_neg hne.symm]
  exact ⟨rfl, idxOf_paths_insert _ path definition hmem⟩

end

theorem history_recorded_again :
    (ofList [("a", .string {}), ("b", .number {}), ("a", .boolean)]).paths = ["a", "b"] ∧
      (ofList [("a", .string {}), ("b", .number {}), ("a", .boolean)]).get? "a" = some .boolean ∧
      (ofList [("a", .string {}), ("b", .number {}), ("a", .boolean)]).get? "b" =
        (ofList [("a", .string {}), ("b", .number {})]).get? "b" := by
  obtain ⟨_, _, _, _, _, hinsert⟩ := history_recorded [("a", .string {}), ("b", .number {})]
  obtain ⟨heq, hothers⟩ := hinsert "a" .boolean
  obtain ⟨hget, _⟩ := hothers "b" (by decide) (by decide)
  rw [← heq] at hget
  exact ⟨by decide, by decide, hget⟩

end Schema

end Intake
