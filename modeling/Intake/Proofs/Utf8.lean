import Intake.Utf8

namespace Intake

namespace Utf8

variable {c : Char} {cs : List Char}

@[simp]
theorem encode_nil : encode [] = [] := rfl

theorem encode_cons (c : Char) (cs : List Char) :
    encode (c :: cs) = String.utf8EncodeChar c ++ encode cs := rfl

@[simp]
theorem encode_append (cs rest : List Char) : encode (cs ++ rest) = encode cs ++ encode rest :=
  List.flatMap_append

theorem utf8EncodeChar_of_ascii (h : c.toNat < 128) :
    String.utf8EncodeChar c = [c.toUInt8] := by
  have hle : c.val.toNat ≤ 127 := Nat.le_of_lt_succ h
  unfold String.utf8EncodeChar
  rw [if_pos hle]
  rfl

theorem exists_utf8EncodeChar (h : ¬ c.toNat < 128) :
    ∃ b rest, String.utf8EncodeChar c = b :: rest ∧ 128 ≤ b.toNat := by
  have hlt : ¬ c.val.toNat ≤ 127 := fun hle => h (Nat.lt_succ_of_le hle)
  unfold String.utf8EncodeChar
  rw [if_neg hlt]
  split
  . refine ⟨_, _, rfl, ?_⟩
    rw [UInt8.toNat_ofNat']
    omega
  . split
    . refine ⟨_, _, rfl, ?_⟩
      rw [UInt8.toNat_ofNat']
      omega
    . refine ⟨_, _, rfl, ?_⟩
      rw [UInt8.toNat_ofNat']
      omega

theorem encode_cons_of_ascii (h : c.toNat < 128) (cs : List Char) :
    encode (c :: cs) = c.toUInt8 :: encode cs := by
  rw [encode_cons, utf8EncodeChar_of_ascii h]
  rfl

theorem toNat_toUInt8 (h : c.toNat < 128) : c.toUInt8.toNat = c.toNat := by
  unfold Char.toUInt8
  rw [UInt32.toNat_toUInt8]
  exact Nat.mod_eq_of_lt (by unfold Char.toNat at h; omega)

theorem head?_encode_iff {a : Char} (ha : a.toNat < 128) :
    (encode cs).head? = some a.toUInt8 ↔ cs.head? = some a := by
  cases cs with
  | nil => simp
  | cons c cs =>
    by_cases hc : c.toNat < 128
    . rw [encode_cons_of_ascii hc, List.head?_cons, List.head?_cons, Option.some.injEq,
        Option.some.injEq]
      constructor
      . intro heq
        have hnat := congrArg UInt8.toNat heq
        rw [toNat_toUInt8 hc, toNat_toUInt8 ha] at hnat
        exact Char.toNat_inj.mp hnat
      . exact congrArg Char.toUInt8
    . obtain ⟨b, rest, hbytes, hb⟩ := exists_utf8EncodeChar hc
      rw [encode_cons, hbytes, List.cons_append, List.head?_cons, List.head?_cons,
        Option.some.injEq, Option.some.injEq]
      constructor
      . intro heq
        rw [heq, toNat_toUInt8 ha] at hb
        omega
      . intro heq
        rw [heq] at hc
        omega

theorem length_encode {p : List Char} (h : ∀ c ∈ p, c.toNat < 128) :
    (encode p).length = p.length := by
  induction p with
  | nil => rfl
  | cons c p ih =>
    rw [List.forall_mem_cons] at h
    rw [encode_cons_of_ascii h.1, List.length_cons, ih h.2, List.length_cons]

theorem isPrefixOf_encode_iff {p : List Char} (h : ∀ c ∈ p, c.toNat < 128) :
    (encode p).isPrefixOf (encode cs) = true ↔ p <+: cs := by
  induction p generalizing cs with
  | nil => simp
  | cons a p ih =>
    rw [List.forall_mem_cons] at h
    cases cs with
    | nil => simp [encode_cons_of_ascii h.1]
    | cons c cs =>
      rw [List.cons_prefix_cons, List.isPrefixOf_iff_prefix, encode_cons_of_ascii h.1]
      constructor
      . intro hinit
        have hhead : (encode (c :: cs)).head? = some a.toUInt8 := by
          obtain ⟨rest, hrest⟩ := hinit
          rw [← hrest]
          rfl
        obtain rfl := Option.some.inj ((head?_encode_iff h.1).mp hhead)
        rw [encode_cons_of_ascii h.1, List.cons_prefix_cons] at hinit
        refine ⟨rfl, (ih h.2).mp ?_⟩
        exact List.isPrefixOf_iff_prefix.mpr hinit.2
      . rintro ⟨rfl, hinit⟩
        rw [encode_cons_of_ascii h.1, List.cons_prefix_cons]
        exact ⟨rfl, List.isPrefixOf_iff_prefix.mp ((ih h.2).mpr hinit)⟩

theorem take?_cons (c : Char) (cs : List Char) {n : Nat} (h : n ≠ 0) :
    take? (c :: cs) n =
      if c.utf8Size ≤ n then (take? cs (n - c.utf8Size)).map (c :: ·) else none := by
  cases n with
  | zero => exact absurd rfl h
  | succ n => rfl

theorem take?_append (p rest : List Char) : take? (p ++ rest) (encode p).length = some p := by
  induction p with
  | nil => simp [take?]
  | cons c p ih =>
    have hsize := c.utf8Size_pos
    have hlength : (encode (c :: p)).length = c.utf8Size + (encode p).length := by
      rw [encode_cons, List.length_append, String.length_utf8EncodeChar]
    rw [hlength, List.cons_append, take?_cons _ _ (by omega), if_pos (by omega),
      Nat.add_sub_cancel_left, ih]
    rfl

section Positions

variable {bytes : List UInt8} {i : Nat}

theorem getElem?_iff (h : bytes.drop i = encode cs) {a : Char} (ha : a.toNat < 128) :
    bytes[i]? = some a.toUInt8 ↔ ∃ rest, cs = a :: rest := by
  rw [← List.head?_drop, h, head?_encode_iff ha, List.head?_eq_some_iff]

theorem drop_of_append {p rest : List Char} (h : bytes.drop i = encode (p ++ rest))
    (hp : ∀ c ∈ p, c.toNat < 128) : bytes.drop (i + p.length) = encode rest := by
  rw [← List.drop_drop, h, encode_append, ← length_encode hp, List.drop_left]

end Positions

end Utf8

end Intake
