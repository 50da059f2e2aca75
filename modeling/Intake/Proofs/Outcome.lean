import Mathlib.Data.List.Forall2

namespace Except

variable {α β ε ε' : Type}

theorem bind_eq_ok_iff (result : Except ε α) (f : α → Except ε β) (b : β) :
    (result >>= f) = .ok b ↔ ∃ a, result = .ok a ∧ f a = .ok b := by
  cases result <;> simp [bind, Except.bind]

theorem pure_eq_ok_iff (a b : α) : (pure a : Except ε α) = .ok b ↔ a = b := by
  simp [pure, Except.pure]

theorem map_eq_ok_iff (f : α → β) (result : Except ε α) (b : β) :
    result.map f = .ok b ↔ ∃ a, result = .ok a ∧ f a = b := by
  cases result <;> simp [Except.map]

theorem mapError_eq_ok_iff (f : ε → ε') (result : Except ε α) (a : α) :
    result.mapError f = .ok a ↔ result = .ok a := by
  cases result <;> simp [Except.mapError]

theorem isOk_iff (result : Except ε α) : result.isOk = true ↔ ∃ a, result = .ok a := by
  cases result <;> simp [Except.isOk, Except.toBool]

theorem mapM_eq_ok_iff (f : α → Except ε β) (xs : List α) (ys : List β) :
    xs.mapM f = .ok ys ↔ List.Forall₂ (fun x y => f x = .ok y) xs ys := by
  induction xs generalizing ys with
  | nil =>
    rw [List.mapM_nil, pure_eq_ok_iff, List.forall₂_nil_left_iff]
    exact eq_comm
  | cons x xs ih =>
    rw [List.mapM_cons, List.forall₂_cons_left_iff]
    simp only [bind_eq_ok_iff, pure_eq_ok_iff, ih]
    constructor
    . rintro ⟨y, hy, rest, hrest, rfl⟩
      exact ⟨y, rest, hy, hrest, rfl⟩
    . rintro ⟨y, rest, hy, hrest, rfl⟩
      exact ⟨y, hy, rest, hrest, rfl⟩

theorem exists_eq_ok_iff (result : Except ε α) :
    (∃ a, result = .ok a) ↔ ∀ e, result ≠ .error e := by
  cases result <;> simp

theorem bind_eq_error_iff (result : Except ε α) (f : α → Except ε β) (e : ε) :
    (result >>= f) = .error e ↔ result = .error e ∨ ∃ a, result = .ok a ∧ f a = .error e := by
  cases result <;> simp [bind, Except.bind]

theorem map_eq_error_iff (f : α → β) (result : Except ε α) (e : ε) :
    result.map f = .error e ↔ result = .error e := by
  cases result <;> simp [Except.map]

theorem mapError_eq_error_iff (f : ε → ε') (result : Except ε α) (e' : ε') :
    result.mapError f = .error e' ↔ ∃ e, result = .error e ∧ f e = e' := by
  cases result <;> simp [Except.mapError]

theorem foldlM_eq_error_iff (f : β → α → Except ε β) (xs : List α) (b : β) (e : ε) :
    xs.foldlM f b = .error e ↔ ∃ before x after mid, xs = before ++ x :: after ∧
      before.foldlM f b = .ok mid ∧ f mid x = .error e := by
  induction xs generalizing b with
  | nil => simp [pure, Except.pure]
  | cons x xs ih =>
    rw [List.foldlM_cons, bind_eq_error_iff]
    simp only [ih]
    constructor
    . rintro (herror | ⟨next, hnext, before, y, after, mid, rfl, hbefore, herror⟩)
      . exact ⟨[], x, xs, b, rfl, rfl, herror⟩
      . refine ⟨x :: before, y, after, mid, rfl, ?_, herror⟩
        rw [List.foldlM_cons, bind_eq_ok_iff]
        exact ⟨next, hnext, hbefore⟩
    . rintro ⟨before, y, after, mid, heq, hbefore, herror⟩
      cases before with
      | nil =>
        rw [List.foldlM_nil, pure_eq_ok_iff] at hbefore
        obtain ⟨rfl, rfl⟩ := List.cons.inj heq
        exact Or.inl (hbefore ▸ herror)
      | cons z before =>
        obtain ⟨rfl, rfl⟩ := List.cons.inj heq
        rw [List.foldlM_cons, bind_eq_ok_iff] at hbefore
        obtain ⟨next, hnext, hbefore⟩ := hbefore
        exact Or.inr ⟨next, hnext, before, y, after, mid, rfl, hbefore, herror⟩

theorem mapM_eq_error_iff (f : α → Except ε β) (xs : List α) (e : ε) :
    xs.mapM f = .error e ↔ ∃ before x after, xs = before ++ x :: after ∧
      (∀ y ∈ before, ∃ b, f y = .ok b) ∧ f x = .error e := by
  induction xs with
  | nil => simp [pure, Except.pure]
  | cons x xs ih =>
    simp only [List.mapM_cons, bind_eq_error_iff, ih, List.cons_eq_append_iff]
    constructor
    . rintro (herror | ⟨b, hb, ⟨before, y, after, rfl, hbefore, herror⟩ | ⟨_, _, hpure⟩⟩)
      . exact ⟨[], x, xs, Or.inl ⟨rfl, rfl⟩, by simp, herror⟩
      . refine ⟨x :: before, y, after, Or.inr ⟨before, rfl, rfl⟩, ?_, herror⟩
        exact List.forall_mem_cons.mpr ⟨⟨b, hb⟩, hbefore⟩
      . simp [pure, Except.pure] at hpure
    . rintro ⟨before, y, after, ⟨rfl, hcons⟩ | ⟨before, rfl, rfl⟩, hbefore, herror⟩
      . obtain ⟨rfl, rfl⟩ := List.cons.inj hcons
        exact Or.inl herror
      . obtain ⟨⟨b, hb⟩, hbefore⟩ := List.forall_mem_cons.mp hbefore
        exact Or.inr ⟨b, hb, Or.inl ⟨before, y, after, rfl, hbefore, herror⟩⟩

theorem foldlM_induction {p : β → Prop} {f : β → α → Except ε β}
    (hstep : ∀ b x b', p b → f b x = .ok b' → p b') {xs : List α} {b b' : β} (hb : p b)
    (h : xs.foldlM f b = .ok b') : p b' := by
  induction xs generalizing b with
  | nil =>
    rw [List.foldlM_nil, pure_eq_ok_iff] at h
    exact h ▸ hb
  | cons x xs ih =>
    rw [List.foldlM_cons, bind_eq_ok_iff] at h
    obtain ⟨next, hnext, h⟩ := h
    exact ih (hstep _ _ _ hb hnext) h

theorem exists_foldlM_iff {p : α → Prop} {f : β → α → Except ε β}
    (hstep : ∀ b x, (∃ b', f b x = .ok b') ↔ p x) (xs : List α) (b : β) :
    (∃ b', xs.foldlM f b = .ok b') ↔ ∀ x ∈ xs, p x := by
  induction xs generalizing b with
  | nil => simp [pure, Except.pure]
  | cons x xs ih =>
    simp only [List.foldlM_cons, bind_eq_ok_iff, List.forall_mem_cons, ← hstep b x]
    constructor
    . rintro ⟨b', next, hnext, h⟩
      exact ⟨⟨next, hnext⟩, (ih next).mp ⟨b', h⟩⟩
    . rintro ⟨⟨next, hnext⟩, hxs⟩
      obtain ⟨b', h⟩ := (ih next).mpr hxs
      exact ⟨b', next, hnext, h⟩

theorem foldlM_eq_ok_of_forall₂ {σ : Type} {R : α → β → Prop} {f : σ → α → Except ε σ}
    {g : σ → β → σ} (hstep : ∀ s x y, R x y → f s x = .ok (g s y)) {xs : List α} {ys : List β}
    (h : List.Forall₂ R xs ys) (s : σ) : xs.foldlM f s = .ok (ys.foldl g s) := by
  induction h generalizing s with
  | nil => rfl
  | cons hhead _ ih =>
    rw [List.foldlM_cons, hstep _ _ _ hhead, List.foldl_cons]
    exact ih _

inductive Rel (E : ε → ε → Prop) (R : α → α → Prop) : Except ε α → Except ε α → Prop where
  | ok {a a' : α} (h : R a a') : Rel E R (.ok a) (.ok a')
  | error {e e' : ε} (h : E e e') : Rel E R (.error e) (.error e')

variable {E : ε → ε → Prop} {R : α → α → Prop} {S : β → β → Prop} {result result' : Except ε α}

theorem rel_refl (hE : ∀ e, E e e) (hR : ∀ a, R a a) (result : Except ε α) :
    Rel E R result result := by
  cases result with
  | ok a => exact .ok (hR a)
  | error e => exact .error (hE e)

theorem Rel.mono {E' : ε → ε → Prop} (h : Rel E R result result') (hE : ∀ e e', E e e' → E' e e') :
    Rel E' R result result' := by
  cases h with
  | ok ha => exact .ok ha
  | error he => exact .error (hE _ _ he)

theorem Rel.bind (h : Rel E R result result') {f f' : α → Except ε β}
    (hf : ∀ a a', R a a' → Rel E S (f a) (f' a')) : Rel E S (result >>= f) (result' >>= f') := by
  cases h with
  | ok ha => exact hf _ _ ha
  | error he => exact .error he

theorem Rel.map (h : Rel E R result result') {f f' : α → β}
    (hf : ∀ a a', R a a' → S (f a) (f' a')) : Rel E S (result.map f) (result'.map f') := by
  cases h with
  | ok ha => exact .ok (hf _ _ ha)
  | error he => exact .error he

theorem Rel.mapError {E' : ε' → ε' → Prop} (h : Rel E R result result') {f f' : ε → ε'}
    (hf : ∀ e e', E e e' → E' (f e) (f' e')) :
    Rel E' R (result.mapError f) (result'.mapError f') := by
  cases h with
  | ok ha => exact .ok ha
  | error he => exact .error (hf _ _ he)

end Except

namespace List

variable {α β γ : Type}

theorem forall₂_comp_iff {R : α → β → Prop} {S : β → γ → Prop} (xs : List α) (zs : List γ) :
    (∃ ys, Forall₂ R xs ys ∧ Forall₂ S ys zs) ↔
      Forall₂ (fun x z => ∃ y, R x y ∧ S y z) xs zs := by
  induction xs generalizing zs with
  | nil => simp
  | cons x xs ih =>
    simp only [forall₂_cons_left_iff, ← ih]
    constructor
    . rintro ⟨_, ⟨y, ys, hxy, hys, rfl⟩, htail⟩
      obtain ⟨z, zs, hyz, hzs, rfl⟩ := forall₂_cons_left_iff.mp htail
      exact ⟨z, zs, ⟨y, hxy, hyz⟩, ⟨ys, hys, hzs⟩, rfl⟩
    . rintro ⟨z, zs, ⟨y, hxy, hyz⟩, ⟨ys, hys, hzs⟩, rfl⟩
      exact ⟨y :: ys, ⟨y, ys, hxy, hys, rfl⟩, Forall₂.cons hyz hzs⟩

theorem exists_forall₂_iff {R : α → β → Prop} (xs : List α) :
    (∃ ys, Forall₂ R xs ys) ↔ ∀ x ∈ xs, ∃ y, R x y := by
  induction xs with
  | nil => simp
  | cons x xs ih =>
    rw [forall_mem_cons, ← ih]
    simp only [forall₂_cons_left_iff]
    constructor
    . rintro ⟨_, y, ys, hxy, hys, _⟩
      exact ⟨⟨y, hxy⟩, ys, hys⟩
    . rintro ⟨⟨y, hxy⟩, ys, hys⟩
      exact ⟨y :: ys, y, ys, hxy, hys, rfl⟩

theorem forall₂_imp_of_mem {R S : α → β → Prop} {xs : List α} {ys : List β} (h : Forall₂ R xs ys)
    (himp : ∀ x ∈ xs, ∀ y ∈ ys, R x y → S x y) : Forall₂ S xs ys := by
  induction h with
  | nil => exact .nil
  | @cons x y xs ys hxy _ ih =>
    refine .cons (himp x mem_cons_self y mem_cons_self hxy) (ih ?_)
    intro x' hx' y' hy'
    exact himp x' (mem_cons_of_mem x hx') y' (mem_cons_of_mem y hy')

theorem exists_mem_of_forall₂ {R : α → β → Prop} {xs : List α} {ys : List β}
    (h : Forall₂ R xs ys) {y : β} (hmem : y ∈ ys) : ∃ x ∈ xs, R x y := by
  induction h with
  | nil => simp at hmem
  | cons hxy _ ih =>
    cases mem_cons.mp hmem with
    | inl heq => exact ⟨_, mem_cons_self, heq ▸ hxy⟩
    | inr htail =>
      obtain ⟨x, hx, hR⟩ := ih htail
      exact ⟨x, mem_cons_of_mem _ hx, hR⟩

end List
