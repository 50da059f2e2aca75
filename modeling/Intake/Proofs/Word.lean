import Intake.FieldPath
import Intake.Proofs.Utf8

namespace Intake

open Intake.Utf8

def IsWordChar (c : Char) : Prop :=
  'A' ≤ c ∧ c ≤ 'Z' ∨ 'a' ≤ c ∧ c ≤ 'z' ∨ '0' ≤ c ∧ c ≤ '9' ∨ c = '_'

structure IsWord (cs : List Char) : Prop where
  nonempty : cs ≠ []
  chars : ∀ c ∈ cs, IsWordChar c

variable {c : Char} {cs : List Char}

instance : DecidablePred IsWordChar :=
  fun c => inferInstanceAs (Decidable ('A' ≤ c ∧ c ≤ 'Z' ∨ _))

theorem isWordChar_iff_toNat :
    IsWordChar c ↔ 65 ≤ c.toNat ∧ c.toNat ≤ 90 ∨ 97 ≤ c.toNat ∧ c.toNat ≤ 122 ∨
      48 ≤ c.toNat ∧ c.toNat ≤ 57 ∨ c.toNat = 95 := by
  have hunderscore : c = '_' ↔ c.toNat = 95 := Char.toNat_inj.symm
  unfold IsWordChar
  rw [hunderscore]
  rfl

theorem IsWordChar.toNat_lt (h : IsWordChar c) : c.toNat < 128 := by
  rw [isWordChar_iff_toNat] at h
  omega

theorem isWordByte_iff_toNat (b : UInt8) :
    isWordByte b = true ↔ 65 ≤ b.toNat ∧ b.toNat ≤ 90 ∨ 97 ≤ b.toNat ∧ b.toNat ≤ 122 ∨
      48 ≤ b.toNat ∧ b.toNat ≤ 57 ∨ b.toNat = 95 := by
  unfold isWordByte
  simp only [Bool.or_eq_true, Bool.and_eq_true, decide_eq_true_eq, UInt8.le_iff_toNat_le,
    ← UInt8.toNat_inj, or_assoc]
  rfl

theorem isWordByte_toUInt8 (h : c.toNat < 128) :
    isWordByte c.toUInt8 = true ↔ IsWordChar c := by
  rw [isWordByte_iff_toNat, toNat_toUInt8 h, isWordChar_iff_toNat]

theorem all_isWordByte_encode (cs : List Char) :
    (encode cs).all isWordByte = true ↔ ∀ c ∈ cs, IsWordChar c := by
  induction cs with
  | nil => simp
  | cons c cs ih =>
    rw [List.forall_mem_cons]
    by_cases hascii : c.toNat < 128
    . rw [encode_cons_of_ascii hascii, List.all_cons, Bool.and_eq_true, isWordByte_toUInt8 hascii,
        ih]
    . obtain ⟨b, rest, hbytes, hb⟩ := exists_utf8EncodeChar hascii
      have hbyte : ¬ isWordByte b = true := by
        rw [isWordByte_iff_toNat]
        omega
      rw [encode_cons, hbytes, List.cons_append, List.all_cons, Bool.and_eq_true]
      constructor
      . intro h
        exact absurd h.1 hbyte
      . intro h
        exact absurd h.1.toNat_lt hascii

theorem isWord_iff (cs : List Char) : isWord cs = true ↔ IsWord cs := by
  unfold isWord
  rw [Bool.and_eq_true, all_isWordByte_encode, Bool.not_eq_true', List.isEmpty_eq_false_iff]
  constructor
  . rintro ⟨nonempty, chars⟩
    exact ⟨nonempty, chars⟩
  . rintro ⟨nonempty, chars⟩
    exact ⟨nonempty, chars⟩

theorem IsWord.notMem (h : IsWord cs) (hc : ¬ IsWordChar c) : c ∉ cs :=
  fun hmem => hc (h.chars c hmem)

theorem IsWord.dot_notMem (h : IsWord cs) : '.' ∉ cs :=
  h.notMem (by decide)

theorem isWordChar_of_isDigit (h : c.isDigit = true) : IsWordChar c := by
  unfold Char.isDigit at h
  rw [Bool.and_eq_true, decide_eq_true_eq, decide_eq_true_eq] at h
  exact Or.inr (Or.inr (Or.inl h))

namespace Word

theorem isWord (word : Word) : IsWord word.text.toList :=
  (isWord_iff _).mp word.wellFormed

theorem dot_notMem (word : Word) : '.' ∉ word.text.toList :=
  word.isWord.dot_notMem

theorem text_inj {word other : Word} : word.text = other.text ↔ word = other := by
  cases word
  cases other
  simp

theorem text_of_ofList? {word : Word} (h : ofList? cs = some word) : word.text.toList = cs := by
  unfold ofList? at h
  split at h
  . rw [Option.some.injEq] at h
    rw [← h]
    apply String.toList_ofList
  . simp at h

theorem ofList?_toList (word : Word) : ofList? word.text.toList = some word := by
  have htext : String.ofList word.text.toList = word.text := String.ofList_toList
  have hword : Intake.isWord (String.ofList word.text.toList).toList = true := by
    rw [htext]
    exact word.wellFormed
  unfold ofList?
  rw [dif_pos hword, Option.some.injEq, ← text_inj]
  exact htext

end Word

end Intake
