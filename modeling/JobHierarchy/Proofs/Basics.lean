/-!
# Look-ups and results

What looking a key up in a list of entries gives after the list has been changed, and what a result that is there
says about how it came about.
-/

namespace JobHierarchy

/-! ## Look-ups -/

section
variable {κ β γ : Type} [BEq κ] [LawfulBEq κ]

theorem lookup_cons_of_ne {q k : κ} (h : q ≠ k) (n : β) (rest : List (κ × β)) :
    ((k, n) :: rest).lookup q = rest.lookup q := by
  have hb : (q == k) = false := by simpa using h
  rw [List.lookup_cons, hb]

/-- Dropping entries by their keys hides those keys and no other. -/
theorem lookup_keepKeys (keep : κ → Bool) (q : κ) :
    ∀ entries : List (κ × β), (entries.filter fun e => keep e.1).lookup q =
      if keep q then entries.lookup q else none
  | [] => by simp
  | (k, n) :: rest => by
    have ih := lookup_keepKeys keep q rest
    by_cases hk : keep k = true
    · rw [List.filter_cons_of_pos (by simpa using hk)]
      by_cases hq : q = k
      · rw [hq, hk, List.lookup_cons_self, List.lookup_cons_self, if_pos rfl]
      · rw [lookup_cons_of_ne hq, lookup_cons_of_ne hq, ih]
    · rw [List.filter_cons_of_neg (by simpa using hk), ih]
      by_cases hq : q = k
      · rw [hq, if_neg hk, if_neg hk]
      · rw [lookup_cons_of_ne hq]

theorem lookup_mapValues (f : κ → β → γ) (q : κ) : ∀ entries : List (κ × β),
    (entries.map fun e => (e.1, f e.1 e.2)).lookup q = (entries.lookup q).map (f q)
  | [] => rfl
  | (k, n) :: rest => by
    rw [List.map_cons]
    by_cases hq : q = k
    · rw [hq, List.lookup_cons_self, List.lookup_cons_self, Option.map_some]
    · rw [lookup_cons_of_ne hq, lookup_cons_of_ne hq, lookup_mapValues f q rest]

end

/-! ## Results -/

section
variable {ε ε' α β : Type}

theorem Except.bind_eq_ok {x : Except ε α} {f : α → Except ε β} {b : β} (h : x >>= f = .ok b) :
    ∃ a, x = .ok a ∧ f a = .ok b := by
  cases x with
  | error e => cases h
  | ok a => exact ⟨a, rfl, h⟩

theorem Except.map_eq_ok {x : Except ε α} {f : α → β} {b : β} (h : x.map f = .ok b) : ∃ a, x = .ok a ∧ f a = b := by
  cases x with
  | error e => cases h
  | ok a => exact ⟨a, rfl, Except.ok.inj h⟩

theorem Except.mapError_eq_ok {x : Except ε α} {f : ε → ε'} {a : α} (h : x.mapError f = .ok a) : x = .ok a := by
  cases x with
  | error e => cases h
  | ok b => exact congrArg Except.ok (Except.ok.inj h)

/-- Two computations in two steps come to the same, as far as `c` shows, if their first steps do as far as `b` shows
and the second steps make no difference that `b` does not show. -/
theorem Except.map_bind_congr {γ δ : Type} {x y : Except ε α} {f g : α → Except ε β} {b : α → γ} {c : β → δ}
    (h : x.map b = y.map b) (hfg : ∀ a a', x = .ok a → y = .ok a' → b a = b a' → (f a).map c = (g a').map c) :
    (x >>= f).map c = (y >>= g).map c := by
  cases x with
  | error e =>
    cases y with
    | error e' =>
      cases h
      rfl
    | ok a' => cases h
  | ok a =>
    cases y with
    | error e' => cases h
    | ok a' => exact hfg a a' rfl rfl (Except.ok.inj h)

/-- The same first step, and second steps that come to the same as far as `c` shows. -/
theorem Except.map_bind_right {δ : Type} {x : Except ε α} {f g : α → Except ε β} {c : β → δ}
    (hfg : ∀ a, (f a).map c = (g a).map c) : (x >>= f).map c = (x >>= g).map c := by
  cases x with
  | error e => rfl
  | ok a => exact hfg a

end

end JobHierarchy
