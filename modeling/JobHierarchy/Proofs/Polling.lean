import JobHierarchy.Poller
import JobHierarchy.Proofs.Outcomes
import Mathlib.Data.Nat.Find
/-!
# Polling in a world with a clock

A poll in a world is a row of probes with the interval of the poller between one and the next
(`World.atProbe`). It ends with the first probe whose verdict is not to go on, and the world is then the one
after that probe (`World.poll_ends`). The poller's bound on the number of probes is never what ends it: time
does not run backwards, so after that many intervals the timeout has passed.

Nor is it the count of the probes where that starts again from zero. Where it stops the program, it does so
before the probe `2 ^ 32`, and up to there the poll is the same. Both builds are followed at once: the poll that
may be stopped is `Poller.probesUnder`, and the one that counts on is its first case (`World.runStoppable_wraps`).
-/

namespace JobHierarchy

variable {α β : Type}

/-- What a poll that has waited so long ends with after a verdict; nothing if it goes on. -/
def Verdict.ending? (condition : String) (waited : Nat) : Verdict α → Option (Except Error α)
  | .goOn => none
  | .succeed value => some (.ok value)
  | .giveUp => some (.error (Poller.timeoutError condition waited))
  | .fail e => some (.error e)

/-- What a poll tells when it ends after a verdict, with so many attempts counted; nothing if it goes on. -/
def Verdict.notice? (condition : String) (attempts : UInt32) : Verdict α → Option String
  | .goOn => none
  | .succeed _ => some ("'" ++ condition ++ "' met after " ++ toString attempts ++ " attempt(s)")
  | .giveUp => some ("'" ++ condition ++ "' not met after " ++ toString attempts ++ " attempt(s)")
  | .fail e => some ("'" ++ condition ++ "' failed on attempt " ++ toString attempts ++ ": " ++ e.message)

/-- A poll goes on only before the timeout. -/
theorem Outcome.lt_of_goesOn {outcome : Outcome α} {condition : String} {waited timeout : Nat}
    (h : (outcome.verdict waited timeout).ending? condition waited = none) : waited < timeout := by
  cases outcome with
  | ready value => cases h
  | failed e => cases h
  | notYet =>
    rw [Outcome.verdict] at h
    split at h
    · cases h
    · next hlt => exact Nat.lt_of_not_le hlt

/-! ## The count -/

/-- As long as it has room, and always where it starts again from zero, the count is that of the probes. -/
theorem Overflow.next?_ofNat {overflow : Overflow} {k : Nat} (h : overflow = .wraps ∨ k + 1 < UInt32.size) :
    overflow.next? (UInt32.ofNat k) = some (UInt32.ofNat (k + 1)) := by
  have hsucc : UInt32.ofNat (k + 1) = UInt32.ofNat k + 1 := UInt32.ofNat_add k 1
  rw [hsucc]
  rcases h with rfl | h
  · rfl
  · cases overflow with
    | wraps => rfl
    | stops =>
      have hk : (UInt32.ofNat k).toNat = k := UInt32.toNat_ofNat_of_lt (Nat.lt_of_succ_lt h)
      rw [Overflow.next?, hk, if_pos h]

/-- After `2 ^ 32 - 1` probes there is no room. -/
theorem Overflow.next?_last : Overflow.stops.next? (UInt32.ofNat (UInt32.size - 1)) = none := by decide

/-- The probe with the given number and those after it, in either build. -/
def Poller.probesUnder (overflow : Overflow) (p : Poller) (condition : String) (timeout started : Nat)
    (probe : Nat → Program (Outcome α)) (fuel number : Nat) (attempts : UInt32) : ExceptT Error (OptionT Program) α :=
  p.probesFrom Poller.stoppable (Poller.countUnder overflow) condition timeout started
    (fun number => OptionT.lift (probe number)) fuel number attempts

namespace Memory.World

/-- Time does not run backwards. -/
theorem now_le_run (w : World) (p : Program α) : w.now ≤ (w.run p).2.now := by
  induction p generalizing w with
  | done value => exact Nat.le_refl _
  | request r next ih => exact ih (w.server.perform r).1 { w with server := (w.server.perform r).2 }
  | report event next ih => exact ih { w with log := w.log.push event }
  | sleep millis next ih => exact Nat.le_trans (Nat.le_add_right w.now millis) (ih (w.elapse millis))
  | clock next ih => exact ih w.now w
  | census next ih => exact ih (w.server.tree.size + 1) w

/-! ## The row of probes -/

/-- The world at the probe `k`, counted from zero. -/
def atProbe (w : World) (interval : Nat) (probe : Nat → Program α) : Nat → World
  | 0 => w
  | k + 1 => ((w.atProbe interval probe k).run (probe (k + 1))).2.elapse interval

/-- What the probe `k` finds, and the world after it. -/
def probed (w : World) (interval : Nat) (probe : Nat → Program α) (k : Nat) : α × World :=
  (w.atProbe interval probe k).run (probe (k + 1))

/-- The time that has passed after the probe `k`. -/
def waited (w : World) (interval : Nat) (probe : Nat → Program α) (k : Nat) : Nat :=
  (w.probed interval probe k).2.now - w.now

/-- What the poll tells when it ends after the probe `k`. -/
def notice? (w : World) (p : Poller) (condition : String) (timeout : Nat) (probe : Nat → Program (Outcome α))
    (k : Nat) : Option String :=
  ((w.probed p.interval probe k).1.verdict (w.waited p.interval probe k) timeout).notice? condition
    (UInt32.ofNat (k + 1))

/-- What the poll ends with after the probe `k`, if it comes so far and ends there. -/
def ending? (w : World) (p : Poller) (condition : String) (timeout : Nat) (probe : Nat → Program (Outcome α))
    (k : Nat) : Option (Except Error α) :=
  ((w.probed p.interval probe k).1.verdict (w.waited p.interval probe k) timeout).ending? condition
    (w.waited p.interval probe k)

section
variable (w : World) (interval : Nat) (probe : Nat → Program α)

theorem now_le_atProbe : ∀ k, w.now + k * interval ≤ (w.atProbe interval probe k).now
  | 0 => by rw [Nat.zero_mul]; exact Nat.le_refl _
  | k + 1 => by
    have hbefore := now_le_atProbe k
    have hprobe := (w.atProbe interval probe k).now_le_run (probe (k + 1))
    have hnow : (w.atProbe interval probe (k + 1)).now =
        ((w.atProbe interval probe k).run (probe (k + 1))).2.now + interval := rfl
    rw [hnow, Nat.succ_mul]
    omega

theorem now_le_probed (k : Nat) : w.now + k * interval ≤ (w.probed interval probe k).2.now :=
  Nat.le_trans (w.now_le_atProbe interval probe k) ((w.atProbe interval probe k).now_le_run (probe (k + 1)))

theorem mul_le_waited (k : Nat) : k * interval ≤ w.waited interval probe k :=
  Nat.le_sub_of_add_le' (w.now_le_probed interval probe k)

/-- Probes that leave the same worlds are made in the same worlds. -/
theorem atProbe_congr {probe' : Nat → Program β}
    (h : ∀ v k, (World.run v (probe k)).2 = (World.run v (probe' k)).2) :
    ∀ k, w.atProbe interval probe k = w.atProbe interval probe' k
  | 0 => rfl
  | k + 1 => by rw [atProbe, atProbe, atProbe_congr h k, h]

end

/-! ## One probe -/

section
variable (w : World) (p : Poller) (condition : String) (timeout started : Nat) (probe : Nat → Program (Outcome α))
  (fuel number : Nat) (attempts : UInt32)

theorem runOperation_lift (t : Program β) (f : β → Operation α) :
    w.runOperation (ExceptT.lift t >>= f) = (w.run t).2.runOperation (f (w.run t).1) := by
  have hlift : w.runOperation (ExceptT.lift t) = (.ok (w.run t).1, (w.run t).2) := by
    unfold runOperation
    rw [ExceptT.run_lift, map_eq_pure_bind, run_bind]
    rfl
  rw [runOperation_bind, hlift]

/-- A probe, the time after it, and what follows from its verdict. -/
theorem runOperation_probesFrom :
    w.runOperation (p.probesFrom Program.waiting Poller.countOn condition timeout started probe (fuel + 1) number
        attempts) =
      (w.run (probe number)).2.runOperation
        (p.conclude Program.waiting condition ((w.run (probe number)).2.now - started) (attempts + 1)
          (p.probesFrom Program.waiting Poller.countOn condition timeout started probe fuel (number + 1) (attempts + 1))
          ((w.run (probe number)).1.verdict ((w.run (probe number)).2.now - started) timeout)) := by
  rw [Poller.probesFrom, runOperation_lift, runOperation_lift, runOperation_lift]
  rfl

/-- Runs an operation that can be stopped. -/
def runStoppable (w : World) (t : ExceptT Error (OptionT Program) α) : Option (Except Error α) × World :=
  w.run t.run.run

theorem runStoppable_lift (t : Program β) (f : β → ExceptT Error (OptionT Program) α) :
    w.runStoppable (ExceptT.lift (OptionT.lift t) >>= f) = (w.run t).2.runStoppable (f (w.run t).1) := by
  have hrun : (ExceptT.lift (OptionT.lift t) >>= f).run.run = t >>= fun b => (f b).run.run := by
    rw [ExceptT.run_bind_lift, OptionT.run_bind, OptionT.run_lift, Option.elimM, bind_assoc]
    rfl
  rw [runStoppable, hrun, run_bind]
  rfl

variable {w p condition timeout started probe number attempts} {overflow : Overflow} {attempts' : UInt32}

/-- The same in either build, if the program is not stopped. -/
theorem runStoppable_probesUnder (hcount : overflow.next? attempts = some attempts') :
    w.runStoppable (p.probesUnder overflow condition timeout started probe (fuel + 1) number attempts) =
      (w.run (probe number)).2.runStoppable
        (p.conclude Poller.stoppable condition ((w.run (probe number)).2.now - started) attempts'
          (p.probesUnder overflow condition timeout started probe fuel (number + 1) attempts')
          ((w.run (probe number)).1.verdict ((w.run (probe number)).2.now - started) timeout)) := by
  have hcounted (f : UInt32 → ExceptT Error (OptionT Program) α) :
      w.runStoppable (ExceptT.lift (Poller.countUnder overflow attempts) >>= f) = w.runStoppable (f attempts') := by
    rw [Poller.countUnder, hcount]
    rfl
  rw [Poller.probesUnder, Poller.probesFrom, hcounted, runStoppable_lift]
  exact runStoppable_lift _ _ _

/-- Without room for another attempt the program is stopped before the probe. -/
theorem runStoppable_stopped (hcount : overflow.next? attempts = none) :
    w.runStoppable (p.probesUnder overflow condition timeout started probe (fuel + 1) number attempts) = (none, w) := by
  rw [Poller.probesUnder, Poller.probesFrom, Poller.countUnder, hcount]
  rfl

/-- A probe after which the poll goes on. -/
theorem probesUnder_goesOn (hcount : overflow.next? attempts = some attempts')
    (h : ((w.run (probe number)).1.verdict ((w.run (probe number)).2.now - started) timeout).ending? condition
      ((w.run (probe number)).2.now - started) = none) :
    w.runStoppable (p.probesUnder overflow condition timeout started probe (fuel + 1) number attempts) =
      ((w.run (probe number)).2.elapse p.interval).runStoppable
        (p.probesUnder overflow condition timeout started probe fuel (number + 1) attempts') := by
  rw [runStoppable_probesUnder _ hcount]
  cases hv : (w.run (probe number)).1.verdict ((w.run (probe number)).2.now - started) timeout with
  | goOn => exact runStoppable_lift _ _ _
  | succeed value => rw [hv] at h; cases h
  | giveUp => rw [hv] at h; cases h
  | fail e => rw [hv] at h; cases h

/-- A probe after which the poll ends. -/
theorem probesUnder_ends {x : Except Error α} (hcount : overflow.next? attempts = some attempts')
    (h : ((w.run (probe number)).1.verdict ((w.run (probe number)).2.now - started) timeout).ending? condition
      ((w.run (probe number)).2.now - started) = some x) :
    ∃ text, ((w.run (probe number)).1.verdict ((w.run (probe number)).2.now - started) timeout).notice? condition
        attempts' = some text ∧
      w.runStoppable (p.probesUnder overflow condition timeout started probe (fuel + 1) number attempts) =
        (some x, { (w.run (probe number)).2 with log := (w.run (probe number)).2.log.push ⟨.debug, text⟩ }) := by
  rw [runStoppable_probesUnder _ hcount]
  cases hv : (w.run (probe number)).1.verdict ((w.run (probe number)).2.now - started) timeout with
  | goOn => rw [hv] at h; cases h
  | succeed value => rw [hv] at h; cases h; exact ⟨_, rfl, rfl⟩
  | giveUp => rw [hv] at h; cases h; exact ⟨_, rfl, rfl⟩
  | fail e => rw [hv] at h; cases h; exact ⟨_, rfl, rfl⟩

/-- **A count that starts again from zero goes unnoticed**: in that build the program is never stopped. -/
theorem runStoppable_wraps : ∀ (fuel number : Nat) (attempts : UInt32) (w : World),
    w.runStoppable (p.probesUnder .wraps condition timeout started probe fuel number attempts) =
      (some (w.runOperation (p.probesFrom Program.waiting Poller.countOn condition timeout started probe fuel number
          attempts)).1,
        (w.runOperation (p.probesFrom Program.waiting Poller.countOn condition timeout started probe fuel number
          attempts)).2)
  | 0, _, _, _ => rfl
  | fuel + 1, number, attempts, w => by
    rw [runOperation_probesFrom, runStoppable_probesUnder _ rfl]
    cases (w.run (probe number)).1.verdict ((w.run (probe number)).2.now - started) timeout with
    | goOn =>
      rw [Poller.conclude, Poller.conclude, runOperation_lift]
      exact (runStoppable_lift _ _ _).trans (runStoppable_wraps fuel _ _ _)
    | succeed value => rfl
    | giveUp => rfl
    | fail e => rfl

end

/-! ## The whole poll -/

section
variable (w : World) (p : Poller) (condition : String) (timeout : Nat) (probe : Nat → Program (Outcome α))

variable {w p condition timeout probe} in
/-- As long as it goes on and its count has room, a poll is what is left of it at a later probe. -/
theorem pollUnder_goesOn {overflow : Overflow} {k fuel : Nat} (hroom : overflow = .wraps ∨ k < UInt32.size)
    (h : ∀ j < k, w.ending? p condition timeout probe j = none) :
    w.runStoppable (p.probesUnder overflow condition timeout w.now probe (k + fuel) 1 0) =
      (w.atProbe p.interval probe k).runStoppable
        (p.probesUnder overflow condition timeout w.now probe fuel (k + 1) (UInt32.ofNat k)) := by
  induction k generalizing fuel with
  | zero => rw [Nat.zero_add]; rfl
  | succ k ih =>
    have hk : k + 1 + fuel = k + (fuel + 1) := by omega
    rw [hk, ih (hroom.imp_right Nat.lt_of_succ_lt) fun j hj => h j (Nat.lt_succ_of_lt hj)]
    exact probesUnder_goesOn _ (Overflow.next?_ofNat hroom) (h k (Nat.lt_succ_self k))

/-- After as many intervals as fit into the timeout, and one more, a poll does not go on. -/
theorem exists_ending (hi : 0 < p.interval) :
    ∃ k, k + 1 ≤ p.probeBound timeout ∧ w.ending? p condition timeout probe k ≠ none := by
  refine ⟨timeout / p.interval + 1, ?_, ?_⟩
  · rw [Poller.probeBound, Nat.max_eq_right hi]
  · intro hnone
    have hlt := Outcome.lt_of_goesOn hnone
    have hle := w.mul_le_waited p.interval probe (timeout / p.interval + 1)
    have hover := Nat.lt_mul_div_succ timeout hi
    rw [Nat.mul_comm] at hover
    omega

/-- There is a first probe after which a poll does not go on, and its bound on their number comes later. -/
theorem exists_first_ending (hi : 0 < p.interval) :
    ∃ k x, k < p.probeBound timeout ∧ (∀ j < k, w.ending? p condition timeout probe j = none) ∧
      w.ending? p condition timeout probe k = some x := by
  classical
  obtain ⟨stop, hstop, hends⟩ := exists_ending w p condition timeout probe hi
  have hsome : ∃ k, w.ending? p condition timeout probe k ≠ none := ⟨stop, hends⟩
  obtain ⟨x, hx⟩ := Option.ne_none_iff_exists'.1 (Nat.find_spec hsome)
  have hfirst := Nat.find_min' hsome hends
  exact ⟨Nat.find hsome, x, by omega, fun j hj => not_not.1 (Nat.find_min hsome hj), hx⟩

theorem run_pollUnder (overflow : Overflow) : w.run (p.pollUnder overflow condition timeout probe) =
    w.runStoppable (p.probesUnder overflow condition timeout w.now probe (p.probeBound timeout) 1 0) :=
  runStoppable_lift _ _ _

/-- The poll that counts on is the one that is not stopped. -/
theorem run_pollUnder_wraps : w.run (p.pollUnder .wraps condition timeout probe) =
    (some (w.runOperation (p.poll condition timeout probe)).1, (w.runOperation (p.poll condition timeout probe)).2) := by
  have hpoll : w.runOperation (p.poll condition timeout probe) = w.runOperation (p.probesFrom Program.waiting
      Poller.countOn condition timeout w.now probe (p.probeBound timeout) 1 0) := runOperation_lift _ _ _
  rw [run_pollUnder, runStoppable_wraps, hpoll]

section
variable {w p condition timeout probe} {k : Nat}

/-- A poll whose count has room for its last probe ends with it. -/
theorem pollUnder_ends {overflow : Overflow} {x : Except Error α} (hroom : overflow = .wraps ∨ k + 1 < UInt32.size)
    (hbound : k < p.probeBound timeout) (hbefore : ∀ j < k, w.ending? p condition timeout probe j = none)
    (hx : w.ending? p condition timeout probe k = some x) :
    ∃ text, w.notice? p condition timeout probe k = some text ∧
      w.run (p.pollUnder overflow condition timeout probe) = (some x, { (w.probed p.interval probe k).2 with
        log := (w.probed p.interval probe k).2.log.push ⟨.debug, text⟩ }) := by
  obtain ⟨fuel, hfuel⟩ : ∃ fuel, p.probeBound timeout = k + (fuel + 1) := ⟨p.probeBound timeout - k - 1, by omega⟩
  rw [run_pollUnder, hfuel, pollUnder_goesOn (hroom.imp_right Nat.lt_of_succ_lt) hbefore]
  exact probesUnder_ends _ (Overflow.next?_ofNat hroom) hx

/-- A poll whose count has no room for its last probe is stopped once `2 ^ 32 - 1` probes have been made. -/
theorem pollUnder_stopped (hfull : UInt32.size ≤ k + 1) (hbound : k < p.probeBound timeout)
    (hbefore : ∀ j < k, w.ending? p condition timeout probe j = none) :
    w.run (p.pollUnder .stops condition timeout probe) = (none, w.atProbe p.interval probe (UInt32.size - 1)) := by
  have hpos : 0 < UInt32.size := by decide
  obtain ⟨fuel, hfuel⟩ : ∃ fuel, p.probeBound timeout = UInt32.size - 1 + (fuel + 1) :=
    ⟨p.probeBound timeout - UInt32.size, by omega⟩
  have hfirst : ∀ j < UInt32.size - 1, w.ending? p condition timeout probe j = none := fun j hj => hbefore j (by omega)
  rw [run_pollUnder, hfuel, pollUnder_goesOn (.inr (by decide)) hfirst]
  exact runStoppable_stopped _ Overflow.next?_last

end

/-- **A poll ends with the first probe after which it does not go on.** It tells how many attempts it took, counted
in 32 bits. Where the count may stop the program, a poll that would make `2 ^ 32` probes or more is stopped before
the probe `2 ^ 32`. -/
theorem poll_ends (hi : 0 < p.interval) :
    ∃ k x text w', (∀ j < k, w.ending? p condition timeout probe j = none) ∧
      w.ending? p condition timeout probe k = some x ∧ w.notice? p condition timeout probe k = some text ∧
      w' = { (w.probed p.interval probe k).2 with
        log := (w.probed p.interval probe k).2.log.push ⟨.debug, text⟩ } ∧
      w.runOperation (p.poll condition timeout probe) = (x, w') ∧
      w.run (p.pollUnder .stops condition timeout probe) =
        if k + 1 < UInt32.size then (some x, w') else (none, w.atProbe p.interval probe (UInt32.size - 1)) := by
  obtain ⟨k, x, hbound, hbefore, hx⟩ := exists_first_ending w p condition timeout probe hi
  obtain ⟨text, htext, hrun⟩ := pollUnder_ends (.inl (Eq.refl Overflow.wraps)) hbound hbefore hx
  rw [run_pollUnder_wraps] at hrun
  obtain ⟨hvalue, hworld⟩ := Prod.mk.inj hrun
  refine ⟨k, x, text, _, hbefore, hx, htext, rfl, Prod.ext (Option.some.inj hvalue) hworld, ?_⟩
  by_cases hroom : k + 1 < UInt32.size
  · obtain ⟨text', htext', hrun'⟩ := pollUnder_ends (.inr hroom) hbound hbefore hx
    cases Option.some.inj (htext.symm.trans htext')
    rw [hrun', if_pos hroom]
  · rw [if_neg hroom]
    exact pollUnder_stopped (Nat.le_of_not_lt hroom) hbound hbefore

end

end Memory.World

end JobHierarchy
