import JobHierarchy.Memory.World
/-!
# Several clients of one server

Programs that run beside each other take turns: a turn is one step of one program, and a request with its
answer is one step. A program is safe under a relation `R` between servers if its own steps keep to `R`
whatever steps in `R` come between them (`Program.Safe`). Programs that are all safe under one `R` stay so
in every order of turns, so each that ends has what it promised (`Clients.Safe.follow`).
-/

namespace JobHierarchy

open Memory

variable {α β : Type}

/-! ## Turns -/

/-- One step of a program on a server, at a moment, and the server after it. -/
def Program.turn (s : Server) (now : Nat) : Program α → Program α × Server
  | .done a => (.done a, s)
  | .request r next => (next (s.perform r).1, (s.perform r).2)
  | .report _ next => (next, s)
  | .sleep _ next => (next, s)
  | .clock next => (next now, s)
  | .census next => (next (s.tree.size + 1), s)

/-- The program has come to its end. -/
def Program.Ended (p : Program α) : Prop := ∃ a, p = .done a

instance : (p : Program α) → Decidable p.Ended
  | .done a => .isTrue ⟨a, rfl⟩
  | .request .. => .isFalse fun ⟨_, h⟩ => by cases h
  | .report .. => .isFalse fun ⟨_, h⟩ => by cases h
  | .sleep .. => .isFalse fun ⟨_, h⟩ => by cases h
  | .clock _ => .isFalse fun ⟨_, h⟩ => by cases h
  | .census _ => .isFalse fun ⟨_, h⟩ => by cases h

structure Clients (α : Type) where
  server : Server
  programs : List (Program α)

/-- Whose step it is, and when. -/
structure Turn where
  client : Nat
  now : Nat

namespace Clients

def turn (c : Clients α) (t : Turn) : Clients α :=
  match c.programs[t.client]? with
  | none => c
  | some p => ⟨(p.turn c.server t.now).2, c.programs.set t.client (p.turn c.server t.now).1⟩

/-- The clients after some turns. -/
def follow (c : Clients α) (turns : List Turn) : Clients α := turns.foldl turn c

/-- All clients have come to their end. -/
def Ended (c : Clients α) : Prop := ∀ p ∈ c.programs, p.Ended

instance (c : Clients α) : Decidable c.Ended := inferInstanceAs (Decidable (∀ p ∈ c.programs, p.Ended))

theorem follow_append (c : Clients α) (turns turns' : List Turn) :
    c.follow (turns ++ turns') = (c.follow turns).follow turns' := List.foldl_append

theorem length_turn (c : Clients α) (t : Turn) : (c.turn t).programs.length = c.programs.length := by
  unfold turn
  cases c.programs[t.client]? with
  | none => rfl
  | some p => exact List.length_set

theorem length_follow (c : Clients α) (turns : List Turn) :
    (c.follow turns).programs.length = c.programs.length := by
  induction turns generalizing c with
  | nil => rfl
  | cons t turns ih => exact (ih (c.turn t)).trans (c.length_turn t)

/-! ### Coming to an end -/

theorem programs_turn {c : Clients α} {i : Nat} {p : Program α} (hp : c.programs[i]? = some p) (now j : Nat) :
    (c.turn ⟨i, now⟩).programs[j]? = if i = j then some (p.turn c.server now).1 else c.programs[j]? := by
  unfold turn
  rw [hp, List.getElem?_set, if_pos (List.getElem?_eq_some_iff.1 hp).1]

theorem programs_turn_self {c : Clients α} {i : Nat} {p : Program α} (hp : c.programs[i]? = some p) :
    (c.turn ⟨i, 0⟩).programs[i]? = some (p.turn c.server 0).1 := by
  rw [programs_turn hp, if_pos rfl]

/-- `c` can go on until client `i` has ended, while the others wait. -/
def CanEnd (c : Clients α) (i : Nat) : Prop :=
  ∃ turns a, ∀ j, (c.follow turns).programs[j]? = if i = j then some (.done a) else c.programs[j]?

theorem CanEnd.of_turn {c : Clients α} {i : Nat} {p : Program α} (hp : c.programs[i]? = some p)
    (h : (c.turn ⟨i, 0⟩).CanEnd i) : c.CanEnd i := by
  obtain ⟨turns, a, h⟩ := h
  refine ⟨⟨i, 0⟩ :: turns, a, fun j => (h j).trans ?_⟩
  rw [programs_turn hp]
  by_cases hj : i = j <;> simp [hj]

theorem canEnd {c : Clients α} {i : Nat} {p : Program α} (hp : c.programs[i]? = some p) : c.CanEnd i := by
  induction p generalizing c with
  | done a =>
    refine ⟨[], a, fun j => ?_⟩
    by_cases hj : i = j
    · rw [if_pos hj, ← hj]; exact hp
    · rw [if_neg hj]; rfl
  | request r next ih => exact .of_turn hp (ih _ (programs_turn_self hp))
  | report _ next ih => exact .of_turn hp (ih (programs_turn_self hp))
  | sleep _ next ih => exact .of_turn hp (ih (programs_turn_self hp))
  | clock next ih => exact .of_turn hp (ih _ (programs_turn_self hp))
  | census next ih => exact .of_turn hp (ih _ (programs_turn_self hp))

/-- Clients can come to an end one after the other. -/
theorem exists_follow_first_ended (c : Clients α) : ∀ k, ∃ turns, ∀ (i : Nat) (p : Program α), i < k →
    (c.follow turns).programs[i]? = some p → p.Ended
  | 0 => ⟨[], fun i _ hi => absurd hi (Nat.not_lt_zero i)⟩
  | k + 1 => by
    obtain ⟨turns, hturns⟩ := exists_follow_first_ended c k
    cases hk : (c.follow turns).programs[k]? with
    | none =>
      refine ⟨turns, fun i p hi hp => ?_⟩
      rcases Nat.lt_succ_iff_lt_or_eq.1 hi with hi | rfl
      · exact hturns i p hi hp
      · exact absurd (hk.symm.trans hp) (by simp)
    | some q =>
      obtain ⟨more, a, hmore⟩ := canEnd hk
      refine ⟨turns ++ more, fun i p hi hp => ?_⟩
      rw [follow_append, hmore] at hp
      by_cases hki : k = i
      · rw [if_pos hki] at hp; exact ⟨a, (Option.some.inj hp).symm⟩
      · rw [if_neg hki] at hp; exact hturns i p (by omega) hp

/-- However far the clients have come, they can all come to an end. -/
theorem exists_follow_ended (c : Clients α) : ∃ turns, (c.follow turns).Ended := by
  obtain ⟨turns, hturns⟩ := c.exists_follow_first_ended c.programs.length
  refine ⟨turns, fun p hp => ?_⟩
  obtain ⟨i, hi, rfl⟩ := List.mem_iff_getElem.1 hp
  exact hturns i _ (by rw [length_follow] at hi; exact hi) (List.getElem?_eq_getElem hi)

end Clients

/-! ## Safe programs -/

section
variable {R : Server → Server → Prop} {post mid : α → Server → Prop} {s s' : Server}

/-- Whatever steps in `R` come between, the steps of the program are in `R` as well, and what it ends with
and the server at its end satisfy `post`. -/
def Program.Safe (R : Server → Server → Prop) (post : α → Server → Prop) : Program α → Server → Prop
  | .done a, s => post a s
  | .request r next, s =>
    ∀ s', R s s' → R s' (s'.perform r).2 ∧ Safe R post (next (s'.perform r).1) (s'.perform r).2
  | .report _ next, s => Safe R post next s
  | .sleep _ next, s => Safe R post next s
  | .clock next, s => ∀ now, Safe R post (next now) s
  | .census next, s => ∀ n, Safe R post (next n) s

/-- Steps in `R` do no harm to a safe program. -/
theorem Program.Safe.mono (htrans : ∀ s₁ s₂ s₃, R s₁ s₂ → R s₂ s₃ → R s₁ s₃)
    (hpost : ∀ a s s', R s s' → post a s → post a s') {p : Program α} (h : p.Safe R post s) (hr : R s s') :
    p.Safe R post s' := by
  induction p with
  | done a => exact hpost a _ _ hr h
  | request r next ih => exact fun s'' hr' => h s'' (htrans _ _ _ hr hr')
  | report _ next ih => exact ih h
  | sleep _ next ih => exact ih h
  | clock next ih => exact fun now => ih now (h now)
  | census next ih => exact fun n => ih n (h n)

theorem Program.Safe.imp {p : Program α} (h : p.Safe R mid s) (himp : ∀ a s', mid a s' → post a s') :
    p.Safe R post s := by
  induction p generalizing s with
  | done a => exact himp a s h
  | request r next ih => exact fun s' hr => ⟨(h s' hr).1, ih _ (h s' hr).2⟩
  | report _ next ih => exact ih h
  | sleep _ next ih => exact ih h
  | clock next ih => exact fun now => ih now (h now)
  | census next ih => exact fun n => ih n (h n)

theorem Program.Safe.bind {post : β → Server → Prop} {f : α → Program β} {p : Program α} (h : p.Safe R mid s)
    (hf : ∀ a s', mid a s' → (f a).Safe R post s') : (p >>= f).Safe R post s := by
  induction p generalizing s with
  | done a => exact hf a s h
  | request r next ih => exact fun s' hr => ⟨(h s' hr).1, ih _ (h s' hr).2⟩
  | report _ next ih => exact ih h
  | sleep _ next ih => exact ih h
  | clock next ih => exact fun now => ih now (h now)
  | census next ih => exact fun n => ih n (h n)

/-- A turn of a safe program is a step in `R` and leaves it safe. -/
theorem Program.Safe.turn (hrefl : ∀ s, R s s) {p : Program α} (h : p.Safe R post s) (now : Nat) :
    R s (p.turn s now).2 ∧ (p.turn s now).1.Safe R post (p.turn s now).2 := by
  cases p with
  | done a => exact ⟨hrefl s, h⟩
  | request r next => exact h s (hrefl s)
  | report _ next => exact ⟨hrefl s, h⟩
  | sleep _ next => exact ⟨hrefl s, h⟩
  | clock next => exact ⟨hrefl s, h now⟩
  | census next => exact ⟨hrefl s, h _⟩

end

/-! ### Safe operations -/

namespace Operation

variable {R : Server → Server → Prop} {s : Server}

/-- An operation as a safe program that ends with its outcome. -/
abbrev Safe (R : Server → Server → Prop) (post : Except Error α → Server → Prop) (t : Operation α) (s : Server) :
    Prop :=
  Program.Safe R post t.run s

/-- A safe operation that does not fail. -/
abbrev Succeeds (R : Server → Server → Prop) (post : α → Server → Prop) (t : Operation α) (s : Server) : Prop :=
  t.Safe R (fun x s' => ∃ a, x = .ok a ∧ post a s') s

theorem Safe.bind {mid : Except Error α → Server → Prop} {post : Except Error β → Server → Prop} {t : Operation α}
    {f : α → Operation β} (h : t.Safe R mid s) (hok : ∀ a s', mid (.ok a) s' → (f a).Safe R post s')
    (herror : ∀ e s', mid (.error e) s' → post (.error e) s') : (t >>= f).Safe R post s := by
  refine Program.Safe.bind h fun x s' hx => ?_
  cases x with
  | ok a => exact hok a s' hx
  | error e => exact herror e s' hx

theorem Succeeds.bind {mid : α → Server → Prop} {post : Except Error β → Server → Prop} {t : Operation α}
    {f : α → Operation β} (h : t.Succeeds R mid s) (hf : ∀ a s', mid a s' → (f a).Safe R post s') :
    (t >>= f).Safe R post s := by
  refine Safe.bind h (fun a s' ha => ?_) fun e s' he => ?_
  · obtain ⟨b, hb, hmid⟩ := ha
    cases hb
    exact hf a s' hmid
  · obtain ⟨b, hb, -⟩ := he
    cases hb

/-- The outcome as a value: whatever it is, the operation has succeeded. -/
theorem Safe.outcome {post : Except Error α → Server → Prop} {t : Operation α} (h : t.Safe R post s) :
    t.outcome.Succeeds R post s := by
  rw [Succeeds, Safe, run_outcome]
  exact Program.Safe.bind h fun x s' hx => ⟨x, rfl, hx⟩

end Operation

/-! ### Every order of turns -/

namespace Clients

variable {R : Server → Server → Prop} {post : Nat → α → Server → Prop} {c : Clients α}

/-- Every client is safe; each promises something of its own. -/
def Safe (R : Server → Server → Prop) (post : Nat → α → Server → Prop) (c : Clients α) : Prop :=
  ∀ i (p : Program α), c.programs[i]? = some p → p.Safe R (post i) c.server

theorem Safe.turn (hrefl : ∀ s, R s s) (htrans : ∀ s₁ s₂ s₃, R s₁ s₂ → R s₂ s₃ → R s₁ s₃)
    (hpost : ∀ i a s s', R s s' → post i a s → post i a s') (h : c.Safe R post) (t : Turn) :
    R c.server (c.turn t).server ∧ (c.turn t).Safe R post := by
  unfold Clients.turn
  cases hp : c.programs[t.client]? with
  | none => exact ⟨hrefl _, h⟩
  | some p =>
    obtain ⟨hr, hown⟩ := (h _ p hp).turn hrefl t.now
    refine ⟨hr, fun i q hq => ?_⟩
    rw [List.getElem?_set] at hq
    split at hq
    · -- the client whose turn it was
      next hi =>
      split at hq
      · rw [← hi, ← Option.some.inj hq]
        exact hown
      · cases hq
    · exact (h i q hq).mono htrans (hpost i) hr

/-- **Safe clients stay safe in every order of turns**, and all that happens to the server is in `R`. -/
theorem Safe.follow (hrefl : ∀ s, R s s) (htrans : ∀ s₁ s₂ s₃, R s₁ s₂ → R s₂ s₃ → R s₁ s₃)
    (hpost : ∀ i a s s', R s s' → post i a s → post i a s') (h : c.Safe R post) (turns : List Turn) :
    R c.server (c.follow turns).server ∧ (c.follow turns).Safe R post := by
  induction turns generalizing c with
  | nil => exact ⟨hrefl _, h⟩
  | cons t turns ih =>
    obtain ⟨hr, hsafe⟩ := h.turn hrefl htrans hpost t
    obtain ⟨hr', hsafe'⟩ := ih hsafe
    exact ⟨htrans _ _ _ hr hr', hsafe'⟩

end Clients

end JobHierarchy
