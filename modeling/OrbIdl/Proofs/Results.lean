import Mathlib.Data.List.Forall2
import OrbIdl.Logged

/-! # What comes of a sequence of steps -/

namespace OrbIdl

variable {ε α β : Type}

/-! ## One step after the other -/

theorem bind_eq_ok_iff {x : Except ε α} {f : α → Except ε β} {b : β} :
    (x >>= f) = .ok b ↔ ∃ a, x = .ok a ∧ f a = .ok b := by
  cases x <;> simp [Bind.bind, Except.bind]

theorem bind_eq_error_iff {x : Except ε α} {f : α → Except ε β} {e : ε} :
    (x >>= f) = .error e ↔ x = .error e ∨ ∃ a, x = .ok a ∧ f a = .error e := by
  cases x <;> simp [Bind.bind, Except.bind]

/-- What comes behind a check has a result when the check is passed. -/
theorem guard_eq_ok_iff {c : Prop} [Decidable c] {e : ε} {f : β → Except ε α} {x : Except ε α}
    {a : α} : (if c then .error e >>= f else x) = .ok a ↔ ¬c ∧ x = .ok a := by
  by_cases hc : c
  · simp [hc, Bind.bind, Except.bind]
  · simp [hc]

theorem mapError_eq_error_iff {ε' : Type} {x : Except ε α} {f : ε → ε'} {e : ε'} :
    x.mapError f = .error e ↔ ∃ e', x = .error e' ∧ f e' = e := by
  cases x <;> simp [Except.mapError]

theorem toOption_eq_some_iff {x : Except ε α} {a : α} : x.toOption = some a ↔ x = .ok a := by
  cases x <;> simp [Except.toOption]

theorem isOk_iff {x : Except ε α} : x.isOk = true ↔ ∃ a, x = .ok a := by
  cases x <;> simp [Except.isOk, Except.toBool]

theorem toOption_eq_none_iff {x : Except ε α} : x.toOption = none ↔ ∃ e, x = .error e := by
  cases x <;> simp [Except.toOption]

/-- A step for each item succeeds as a whole with what the steps give, item by item. -/
theorem mapM_eq_ok_iff {f : α → Except ε β} {xs : List α} {ys : List β} :
    xs.mapM f = .ok ys ↔ List.Forall₂ (fun x y => f x = .ok y) xs ys := by
  induction xs generalizing ys with
  | nil =>
    rw [List.mapM_nil]
    cases ys <;> simp [pure, Except.pure]
  | cons x xs ih =>
    rw [List.mapM_cons]
    cases ys with
    | nil => simp [bind_eq_ok_iff, pure, Except.pure]
    | cons y ys =>
      simp only [bind_eq_ok_iff, ih, List.forall₂_cons]
      simp [pure, Except.pure]

theorem exists_of_forall₂ {R : α → β → Prop} {xs : List α} {ys : List β}
    (h : List.Forall₂ R xs ys) {x : α} (hx : x ∈ xs) : ∃ y ∈ ys, R x y := by
  induction h with
  | nil => exact absurd hx List.not_mem_nil
  | cons hfirst _ ih =>
    obtain rfl | hx := List.mem_cons.mp hx
    · exact ⟨_, List.mem_cons_self, hfirst⟩
    · obtain ⟨y, hy, hR⟩ := ih hx
      exact ⟨y, List.mem_cons_of_mem _ hy, hR⟩

theorem exists_forall₂ {R : α → β → Prop} {xs : List α} (h : ∀ x ∈ xs, ∃ y, R x y) :
    ∃ ys, List.Forall₂ R xs ys := by
  induction xs with
  | nil => exact ⟨[], .nil⟩
  | cons x xs ih =>
    rw [List.forall_mem_cons] at h
    obtain ⟨y, hy⟩ := h.1
    obtain ⟨ys, hys⟩ := ih h.2
    exact ⟨y :: ys, .cons hy hys⟩

theorem exists_of_mapM_eq_ok {f : α → Except ε β} {xs : List α} {ys : List β}
    (h : xs.mapM f = .ok ys) {x : α} (hx : x ∈ xs) : ∃ y ∈ ys, f x = .ok y :=
  exists_of_forall₂ (mapM_eq_ok_iff.mp h) hx

theorem exists_of_mapM_eq_error {f : α → Except ε β} {xs : List α} {e : ε}
    (h : xs.mapM f = .error e) : ∃ x ∈ xs, f x = .error e := by
  induction xs with
  | nil => cases h
  | cons x xs ih =>
    rw [List.mapM_cons, bind_eq_error_iff] at h
    obtain hx | ⟨y, _, h⟩ := h
    · exact ⟨x, List.mem_cons_self, hx⟩
    · rw [bind_eq_error_iff] at h
      obtain hxs | ⟨ys, _, h⟩ := h
      · obtain ⟨x', hmem, hx'⟩ := ih hxs
        exact ⟨x', List.mem_cons_of_mem _ hmem, hx'⟩
      · cases h

/-- The first step to fail settles it. -/
theorem mapM_eq_error_of_first {f : α → Except ε β} {before after : List α} {x : α} {e : ε}
    (hbefore : ∀ y ∈ before, (f y).isOk = true) (hx : f x = .error e) :
    (before ++ x :: after).mapM f = .error e := by
  induction before with
  | nil =>
    rw [List.nil_append, List.mapM_cons, hx]
    rfl
  | cons y before ih =>
    obtain ⟨b, hy⟩ := isOk_iff.mp (hbefore y List.mem_cons_self)
    have hrest := ih fun z hz => hbefore z (List.mem_cons_of_mem y hz)
    rw [List.cons_append, List.mapM_cons, hy, hrest]
    rfl

/-- What holds before the first step and is kept by each step holds after the last one. -/
theorem foldlM_invariant {f : β → α → Except ε β} (P : List α → β → Prop) {init out : β}
    {xs : List α} (hinit : P [] init)
    (hstep : ∀ done b x b', P done b → f b x = .ok b' → P (done ++ [x]) b')
    (h : xs.foldlM f init = .ok out) : P xs out := by
  suffices hrest : ∀ done b, P done b → xs.foldlM f b = .ok out → P (done ++ xs) out from
    hrest [] init hinit h
  clear hinit h
  induction xs with
  | nil =>
    intro done b hdone h
    cases h
    rwa [List.append_nil]
  | cons x xs ih =>
    intro done b hdone h
    rw [List.foldlM_cons, bind_eq_ok_iff] at h
    obtain ⟨b', hx, h⟩ := h
    rw [List.append_cons]
    exact ih _ b' (hstep done b x b' hdone hx) h

/-! ## What may go wrong -/

/-- The errors that there may be satisfy `P`. -/
def FailsOnly (P : ε → Prop) (x : Except ε α) : Prop :=
  ∀ e, x = .error e → P e

/-- There is a result. -/
abbrev NeverFails (x : Except ε α) : Prop :=
  FailsOnly (fun _ => False) x

namespace FailsOnly

variable {P Q : ε → Prop}

theorem ok (a : α) : FailsOnly P (.ok a) := by
  intro e h
  cases h

theorem error {e : ε} (h : P e) : FailsOnly P (.error e : Except ε α) := by
  intro e' he
  cases he
  exact h

theorem mono {x : Except ε α} (h : FailsOnly P x) (hPQ : ∀ e, P e → Q e) : FailsOnly Q x :=
  fun e he => hPQ e (h e he)

theorem of_never {x : Except ε α} (h : NeverFails x) : FailsOnly P x :=
  h.mono fun _ => False.elim

theorem exists_ok {x : Except ε α} (h : NeverFails x) : ∃ a, x = .ok a := by
  cases x with
  | error e => exact (h e rfl).elim
  | ok a => exact ⟨a, rfl⟩

theorem bind {x : Except ε α} {f : α → Except ε β} (hx : FailsOnly P x)
    (hf : ∀ a, x = .ok a → FailsOnly P (f a)) : FailsOnly P (x >>= f) := by
  intro e h
  obtain h | ⟨a, ha, h⟩ := bind_eq_error_iff.mp h
  · exact hx e h
  · exact hf a ha e h

/-- A step whose result is known goes on with that result. -/
theorem bind_of_ok {x : Except ε α} {f : α → Except ε β} {a : α} (hx : x = .ok a)
    (hf : FailsOnly P (f a)) : FailsOnly P (x >>= f) := by
  rw [hx]
  exact hf

/-- An error under a condition, before whatever comes next. -/
theorem guard {c : Prop} [Decidable c] {e : ε} {f : α → Except ε β} {x : Except ε β} (he : P e)
    (hx : FailsOnly P x) : FailsOnly P (if c then .error e >>= f else x) := by
  by_cases hc : c
  · rw [if_pos hc]
    exact error he
  · rw [if_neg hc]
    exact hx

theorem mapM {f : α → Except ε β} {xs : List α} (h : ∀ x ∈ xs, FailsOnly P (f x)) :
    FailsOnly P (xs.mapM f) := by
  intro e he
  obtain ⟨x, hx, he⟩ := exists_of_mapM_eq_error he
  exact h x hx e he

/-- Each step may rely on what the steps before it have led to. -/
theorem foldlM {f : β → α → Except ε β} {xs : List α} {init : β} (I : List α → β → Prop)
    (hinit : I [] init) (hkeep : ∀ done b x b', I done b → f b x = .ok b' → I (done ++ [x]) b')
    (hstep : ∀ done b x rest, xs = done ++ x :: rest → I done b → FailsOnly P (f b x)) :
    FailsOnly P (xs.foldlM f init) := by
  suffices hrest : ∀ done b rest, xs = done ++ rest → I done b → FailsOnly P (rest.foldlM f b) from
    hrest [] init xs rfl hinit
  intro done b rest
  induction rest generalizing done b with
  | nil =>
    intro _ _
    exact ok b
  | cons x rest ih =>
    intro hxs hdone
    rw [List.foldlM_cons]
    refine bind (hstep done b x rest hxs hdone) fun b' hb' => ?_
    exact ih (done ++ [x]) b' (by rw [hxs, List.append_cons]) (hkeep done b x b' hdone hb')

end FailsOnly

/-! ## What may go wrong and what comes of it -/

/-- The error, if there is one, satisfies `P`; otherwise the result satisfies `Q`. -/
structure Ends (P : ε → Prop) (Q : α → Prop) (x : Except ε α) : Prop where
  fails : FailsOnly P x
  returns : ∀ a, x = .ok a → Q a

namespace Ends

variable {P : ε → Prop} {Q : α → Prop} {R : β → Prop}

theorem ok {a : α} (h : Q a) : Ends P Q (.ok a) where
  fails := .ok a
  returns := by
    rintro _ ⟨⟩
    exact h

theorem error {e : ε} (h : P e) : Ends P Q (.error e : Except ε α) :=
  ⟨.error h, nofun⟩

theorem bind {x : Except ε α} {f : α → Except ε β} (hx : Ends P Q x)
    (hf : ∀ a, Q a → Ends P R (f a)) : Ends P R (x >>= f) where
  fails := hx.fails.bind fun a ha => (hf a (hx.returns a ha)).fails
  returns := by
    intro b hb
    obtain ⟨a, ha, hb⟩ := bind_eq_ok_iff.mp hb
    exact (hf a (hx.returns a ha)).returns b hb

theorem of_fails {x : Except ε α} (h : FailsOnly P x) : Ends P (fun _ => True) x :=
  ⟨h, fun _ _ => trivial⟩

/-- Only the errors of the first step matter. -/
theorem bind_failsOnly {x : Except ε α} {f : α → Except ε β} (hx : FailsOnly P x)
    (hf : ∀ a, Ends P R (f a)) : Ends P R (x >>= f) :=
  bind (of_fails hx) fun a _ => hf a

theorem mapError {ε' : Type} {P' : ε' → Prop} {f : ε → ε'} {x : Except ε α} (hx : Ends P Q x)
    (hf : ∀ e, P e → P' (f e)) : Ends P' Q (x.mapError f) := by
  cases x with
  | error e => exact error (hf e (hx.fails e rfl))
  | ok a => exact ok (hx.returns a rfl)

theorem mapM {f : α → Except ε β} {xs : List α} (h : ∀ x ∈ xs, Ends P R (f x)) :
    Ends P (fun ys => ∀ y ∈ ys, R y) (xs.mapM f) where
  fails := .mapM fun x hx => (h x hx).fails
  returns := by
    intro ys hys
    have hall := mapM_eq_ok_iff.mp hys
    clear hys
    induction hall with
    | nil => exact nofun
    | cons hy _ ih =>
      rw [List.forall_mem_cons] at h ⊢
      exact ⟨h.1.returns _ hy, ih h.2⟩

/-- What holds at first and is kept by each step holds of the result. -/
theorem foldlM {f : β → α → Except ε β} {xs : List α} {init : β} (hinit : R init)
    (h : ∀ b, R b → ∀ x ∈ xs, Ends P R (f b x)) : Ends P R (xs.foldlM f init) := by
  induction xs generalizing init with
  | nil => exact ok hinit
  | cons x xs ih =>
    rw [List.foldlM_cons]
    refine bind (h init hinit x List.mem_cons_self) fun b hb => ih hb ?_
    exact fun b hb x hx => h b hb x (List.mem_cons_of_mem _ hx)

end Ends

/-! ## The same with a log -/

namespace Logged

theorem bind_ok_iff {x : Logged ε α} {f : α → Logged ε β} {b : β} :
    (x >>= f).result = .ok b ↔ ∃ a, x.result = .ok a ∧ (f a).result = .ok b := by
  rw [result_bind, bind_eq_ok_iff]

theorem bind_error_iff {x : Logged ε α} {f : α → Logged ε β} {e : ε} :
    (x >>= f).result = .error e ↔
      x.result = .error e ∨ ∃ a, x.result = .ok a ∧ (f a).result = .error e := by
  rw [result_bind, bind_eq_error_iff]

theorem failsOnly_bind {P : ε → Prop} {x : Logged ε α} {f : α → Logged ε β}
    (hx : FailsOnly P x.result) (hf : ∀ a, x.result = .ok a → FailsOnly P (f a).result) :
    FailsOnly P (x >>= f).result := by
  rw [result_bind]
  exact hx.bind hf

theorem failsOnly_bind_of_ok {P : ε → Prop} {x : Logged ε α} {f : α → Logged ε β} {a : α}
    (hx : x.result = .ok a) (hf : FailsOnly P (f a).result) : FailsOnly P (x >>= f).result := by
  rw [result_bind]
  exact .bind_of_ok hx hf

theorem ends_bind {P : ε → Prop} {Q : α → Prop} {R : β → Prop} {x : Logged ε α}
    {f : α → Logged ε β} (hx : Ends P Q x.result) (hf : ∀ a, Q a → Ends P R (f a).result) :
    Ends P R (x >>= f).result := by
  rw [result_bind]
  exact hx.bind hf

theorem result_mapM (f : α → Logged ε β) (xs : List α) :
    (xs.mapM f).result = xs.mapM fun x => (f x).result := by
  induction xs with
  | nil => rfl
  | cons x xs ih => simp only [List.mapM_cons, result_bind, result_pure, ih]; rfl

theorem result_foldlM (f : β → α → Logged ε β) (init : β) (xs : List α) :
    (xs.foldlM f init).result = xs.foldlM (fun b x => (f b x).result) init := by
  induction xs generalizing init with
  | nil => rfl
  | cons x xs ih => simp only [List.foldlM_cons, result_bind, ih]

end Logged

end OrbIdl
