import JobHierarchy.Proofs.Polling
import Mathlib.Algebra.BigOperators.Group.Finset.Basic
import Mathlib.Order.Bounds.Basic
/-!
# How long a poll takes

The probes of a poll follow a script: each takes its time and finds what it finds. When the probe `k` is over,
all probes so far and the pauses between them have passed (`Script.elapsed`). The poll ends with the first probe
that finds something or is over only after the timeout, and with nothing else
(`Memory.World.poll_follows_script`). A timeout is thus noticed no earlier than it passes, and no later than one
pause and one probe after it. The number of attempts that the poll tells of is that of its probes in 32 bits; in a
build where this count may not overflow, a poll of `2 ^ 32` probes or more is stopped before the probe `2 ^ 32`.
-/

namespace JobHierarchy

variable {α : Type}

/-- How long each probe takes and what it finds. Probes are counted from zero. -/
structure Script (α : Type) where
  latency : Nat → Nat
  outcome : Nat → Outcome α

namespace Script

variable (script : Script α) (interval timeout : Nat)

/-- The time from the start of a poll to the end of the probe `k`. -/
def elapsed (k : Nat) : Nat := (∑ j ∈ Finset.range (k + 1), script.latency j) + k * interval

/-- The probe `k` is one after which a poll does not go on. -/
def Stops (k : Nat) : Prop := script.outcome k ≠ .notYet ∨ timeout ≤ script.elapsed interval k

/-- The script as probes that do nothing else. A poll numbers its probes from one. -/
def probe (number : Nat) : Program (Outcome α) :=
  .sleep (script.latency (number - 1)) (.done (script.outcome (number - 1)))

variable {script interval timeout} in
/-- A poll goes on after a probe that finds nothing and is over before the timeout. -/
theorem not_stops {k : Nat} (hnothing : script.outcome k = .notYet) (hlt : script.elapsed interval k < timeout) :
    ¬ script.Stops interval timeout k := by
  rintro (hfound | hle)
  · exact hfound hnothing
  · exact Nat.not_le_of_lt hlt hle

theorem elapsed_zero : script.elapsed interval 0 = script.latency 0 := by
  simp [elapsed]

theorem elapsed_succ (k : Nat) :
    script.elapsed interval (k + 1) = script.elapsed interval k + interval + script.latency (k + 1) := by
  simp only [elapsed, Finset.sum_range_succ _ (k + 1), Nat.succ_mul]
  omega

variable {script interval timeout} in
/-- A probe that is the first to end after the timeout ends within one pause and its own time after it. -/
theorem elapsed_lt (hi : 0 < interval) {k : Nat} (hbefore : ∀ j < k, script.elapsed interval j < timeout) :
    script.elapsed interval k < timeout + interval + script.latency k := by
  cases k with
  | zero =>
    rw [elapsed_zero]
    omega
  | succ k =>
    have hlast := hbefore k (Nat.lt_succ_self k)
    rw [elapsed_succ]
    omega

end Script

/-! ## Verdicts -/

/-- A poll goes on after a probe that found nothing before the timeout, and only then. -/
theorem Outcome.ending?_eq_none_iff {outcome : Outcome α} {condition : String} {waited timeout : Nat} :
    (outcome.verdict waited timeout).ending? condition waited = none ↔ outcome = .notYet ∧ waited < timeout := by
  constructor
  · intro h
    refine ⟨?_, Outcome.lt_of_goesOn h⟩
    cases outcome with
    | ready value => cases h
    | failed e => cases h
    | notYet => rfl
  · rintro ⟨rfl, hlt⟩
    rw [Outcome.verdict, if_neg (Nat.not_le_of_lt hlt)]
    rfl

/-- What a poll comes to after the outcome of its last probe, and what it tells. -/
theorem Outcome.ends_with {outcome : Outcome α} {condition : String} {waited timeout : Nat} {attempts : UInt32}
    {x : Except Error α} {text : String} (hx : (outcome.verdict waited timeout).ending? condition waited = some x)
    (htext : (outcome.verdict waited timeout).notice? condition attempts = some text) :
    (∀ value, outcome = .ready value → x = .ok value ∧
      text = "'" ++ condition ++ "' met after " ++ toString attempts ++ " attempt(s)") ∧
    (∀ e, outcome = .failed e → x = .error e ∧
      text = "'" ++ condition ++ "' failed on attempt " ++ toString attempts ++ ": " ++ e.message) ∧
    (outcome = .notYet → x = .error (Poller.timeoutError condition waited) ∧
      text = "'" ++ condition ++ "' not met after " ++ toString attempts ++ " attempt(s)" ∧ timeout ≤ waited) := by
  refine ⟨?_, ?_, ?_⟩
  · rintro value rfl
    cases hx
    cases htext
    exact ⟨rfl, rfl⟩
  · rintro e rfl
    cases hx
    cases htext
    exact ⟨rfl, rfl⟩
  · rintro rfl
    by_cases hle : timeout ≤ waited
    · rw [Outcome.verdict, if_pos hle] at hx htext
      cases hx
      cases htext
      exact ⟨rfl, rfl, hle⟩
    · rw [Outcome.verdict, if_neg hle] at hx
      cases hx

/-- A look-up never fails because the item is absent. -/
theorem Outcome.isNotFound_of_ofLookup {found : Except Error (Option α)} {e : Error}
    (h : Outcome.ofLookup found = .failed e) : e.isNotFound = false := by
  cases found with
  | ok value => cases value <;> cases h
  | error e' =>
    rw [Outcome.ofLookup] at h
    split at h
    · cases h
    · next hne =>
      cases h
      exact Bool.eq_false_iff.2 hne

namespace Memory.World

/-- The probes go as the script says, each in the world that it meets. -/
def Follows (w : World) (interval : Nat) (probe : Nat → Program (Outcome α)) (script : Script α) : Prop :=
  ∀ k, (w.probed interval probe k).1 = script.outcome k ∧
    (w.probed interval probe k).2.now = (w.atProbe interval probe k).now + script.latency k

/-- Whatever the probes are, they follow some script. -/
theorem exists_follows (w : World) (interval : Nat) (probe : Nat → Program (Outcome α)) :
    ∃ script, w.Follows interval probe script := by
  let script : Script α :=
    { latency := fun k => (w.probed interval probe k).2.now - (w.atProbe interval probe k).now
      outcome := fun k => (w.probed interval probe k).1 }
  refine ⟨script, fun k => ⟨rfl, ?_⟩⟩
  have hle := (w.atProbe interval probe k).now_le_run (probe (k + 1))
  exact (Nat.add_sub_cancel' hle).symm

/-- Every script is followed by some probes, in every world. -/
theorem follows_probe (w : World) (interval : Nat) (script : Script α) :
    w.Follows interval script.probe script := fun _ => ⟨rfl, rfl⟩

section
variable {w : World} {p : Poller} {probe : Nat → Program (Outcome α)} {script : Script α}
  (h : w.Follows p.interval probe script)
include h

theorem now_probed_of_follows (k : Nat) :
    (w.probed p.interval probe k).2.now = w.now + script.elapsed p.interval k := by
  induction k with
  | zero =>
    have hstart : (w.atProbe p.interval probe 0).now = w.now := rfl
    rw [(h 0).2, hstart, Script.elapsed_zero]
  | succ k ih =>
    have hpause : (w.atProbe p.interval probe (k + 1)).now =
        (w.probed p.interval probe k).2.now + p.interval := rfl
    rw [(h (k + 1)).2, hpause, ih, Script.elapsed_succ]
    omega

theorem waited_of_follows (k : Nat) : w.waited p.interval probe k = script.elapsed p.interval k := by
  rw [waited, now_probed_of_follows h]
  omega

theorem ending?_of_follows (condition : String) (timeout k : Nat) :
    w.ending? p condition timeout probe k =
      ((script.outcome k).verdict (script.elapsed p.interval k) timeout).ending? condition
        (script.elapsed p.interval k) := by
  rw [ending?, waited_of_follows h, (h k).1]

theorem notice?_of_follows (condition : String) (timeout k : Nat) :
    w.notice? p condition timeout probe k =
      ((script.outcome k).verdict (script.elapsed p.interval k) timeout).notice? condition (UInt32.ofNat (k + 1)) := by
  rw [notice?, waited_of_follows h, (h k).1]

/-- A poll goes on exactly after the probes that do not stop it. -/
theorem goesOn_iff_of_follows {condition : String} {timeout k : Nat} :
    w.ending? p condition timeout probe k = none ↔ ¬ script.Stops p.interval timeout k := by
  rw [ending?_of_follows h, Outcome.ending?_eq_none_iff]
  simp only [Script.Stops, not_or, not_not, Nat.not_le]

theorem isLeast_of_follows {condition : String} {timeout k : Nat} {x : Except Error α}
    (hbefore : ∀ j < k, w.ending? p condition timeout probe j = none)
    (hx : w.ending? p condition timeout probe k = some x) : IsLeast {j | script.Stops p.interval timeout j} k := by
  constructor
  · show script.Stops p.interval timeout k
    by_contra hnot
    rw [(goesOn_iff_of_follows h).2 hnot] at hx
    cases hx
  · intro j hj
    exact Nat.le_of_not_lt fun hjk => (goesOn_iff_of_follows h).1 (hbefore j hjk) hj

/-- **What a poll comes to, and when.** Whatever script the probes follow, the poll ends with the first probe that
finds something or is over only after the timeout: its world is the one after that probe, and one line longer in its
log. The poll comes to the value or the error that was found, be it late; if nothing was found, to a timeout with the
time that has passed, which is no earlier than the timeout and less than one pause and one probe later. And where the
probes are look-ups, the poll does not come to an error about an absent item.

The line tells of as many attempts as there were probes, counted in 32 bits. So the probe `2 ^ 32` is told of as the
attempt zero, and nothing else changes there. Only a build that does not let a count overflow stops the program
instead, when it comes to that probe. -/
theorem poll_follows_script (hi : 0 < p.interval) (condition : String) (timeout : Nat) :
    ∃ k x text w',
      IsLeast {j | script.Stops p.interval timeout j} k ∧
      w.runOperation (p.poll condition timeout probe) = (x, w') ∧
      w' = { (w.probed p.interval probe k).2 with
        log := (w.probed p.interval probe k).2.log.push ⟨.debug, text⟩ } ∧
      w'.now = w.now + script.elapsed p.interval k ∧
      (∀ value, script.outcome k = .ready value → x = .ok value ∧
        text = "'" ++ condition ++ "' met after " ++ toString (UInt32.ofNat (k + 1)) ++ " attempt(s)") ∧
      (∀ e, script.outcome k = .failed e → x = .error e ∧
        text = "'" ++ condition ++ "' failed on attempt " ++ toString (UInt32.ofNat (k + 1)) ++ ": " ++ e.message) ∧
      (script.outcome k = .notYet →
        x = .error (Poller.timeoutError condition (script.elapsed p.interval k)) ∧
        text = "'" ++ condition ++ "' not met after " ++ toString (UInt32.ofNat (k + 1)) ++ " attempt(s)" ∧
        timeout ≤ script.elapsed p.interval k ∧
        script.elapsed p.interval k < timeout + p.interval + script.latency k) ∧
      ((∀ j, ∃ found, script.outcome j = .ofLookup found) → ∀ kind name, x ≠ .error (.notFound kind name)) ∧
      w.run (p.pollUnder .stops condition timeout probe) =
        if k + 1 < UInt32.size then (some x, w') else (none, w.atProbe p.interval probe (UInt32.size - 1)) := by
  obtain ⟨k, x, text, w', hbefore, hx, htext, hw', hrun, hstops⟩ := poll_ends w p condition timeout probe hi
  have hleast := isLeast_of_follows h hbefore hx
  have hlt : script.elapsed p.interval k < timeout + p.interval + script.latency k := by
    refine Script.elapsed_lt hi fun j hj => Nat.lt_of_not_le fun hle => ?_
    exact (goesOn_iff_of_follows h).1 (hbefore j hj) (.inr hle)
  rw [ending?_of_follows h] at hx
  rw [notice?_of_follows h] at htext
  obtain ⟨hready, hfailed, hnothing⟩ := Outcome.ends_with hx htext
  refine ⟨k, x, text, w', hleast, hrun, hw', ?_, hready, hfailed, fun hnot => ?_, ?_, hstops⟩
  · rw [hw']
    exact now_probed_of_follows h k
  · obtain ⟨hvalue, hline, hle⟩ := hnothing hnot
    exact ⟨hvalue, hline, hle, hlt⟩
  · intro hlooked kind name he
    cases hfound : script.outcome k with
    | ready value => cases (hready value hfound).1.symm.trans he
    | notYet => cases (hnothing hfound).1.symm.trans he
    | failed e =>
      cases (hfailed e hfound).1.symm.trans he
      obtain ⟨found, hlook⟩ := hlooked k
      have hnot := Outcome.isNotFound_of_ofLookup (hlook.symm.trans hfound)
      cases hnot

end

/-- The second probe takes half a second, and only the third finds what is looked for. -/
def slow : Script Nat where
  latency k := if k = 1 then 500 else 0
  outcome k := if k = 2 then .ofLookup (.ok (some 7)) else .ofLookup (.error (.notFound "job" "app"))

theorem elapsed_slow : slow.elapsed 400 0 = 0 ∧ slow.elapsed 400 1 = 900 ∧ slow.elapsed 400 2 = 1300 := by
  decide

theorem isLeast_slow : IsLeast {j | slow.Stops 400 1000 j} 2 ∧ IsLeast {j | slow.Stops 400 500 j} 1 := by
  obtain ⟨hzero, hone, -⟩ := elapsed_slow
  have hfirst {timeout : Nat} (hpos : 0 < timeout) : ¬ slow.Stops 400 timeout 0 :=
    Script.not_stops rfl (by rwa [hzero])
  have hsecond : ¬ slow.Stops 400 1000 1 := Script.not_stops rfl (by rw [hone]; decide)
  refine ⟨⟨.inl nofun, fun j hj => ?_⟩, ⟨.inr ?_, fun j hj => ?_⟩⟩
  · rcases j with _ | _ | j
    · exact absurd hj (hfirst (by decide))
    · exact absurd hj hsecond
    · omega
  · rw [hone]
    decide
  · rcases j with _ | j
    · exact absurd hj (hfirst (by decide))
    · omega

/-- Nothing is ever found, at once. -/
def never : Script Nat where
  latency _ := 0
  outcome _ := .notYet

theorem elapsed_never (k : Nat) : never.elapsed 1 k = k := by
  simp [Script.elapsed, never]

theorem isLeast_never (timeout : Nat) : IsLeast {j | never.Stops 1 timeout j} timeout := by
  refine ⟨.inr (elapsed_never timeout).ge, fun j hj => ?_⟩
  rcases hj with hfound | hle
  · exact absurd rfl hfound
  · rwa [elapsed_never] at hle

/-- With a timeout of a second the value comes late and counts; with half a second the slow probe is the last, and
the timeout is noticed 400 ms after it has passed. A poll that finds nothing for 4294967295 ms, at one probe each, makes
`2 ^ 32` of them and tells of none, if it is not stopped before the last. -/
theorem poll_follows_script_slow :
    (World.ofServer Server.empty).Follows 400 slow.probe slow ∧ 0 < (⟨400⟩ : Poller).interval ∧
      (∃ w', (World.ofServer Server.empty).runOperation (Poller.poll ⟨400⟩ "app" 1000 slow.probe) = (.ok 7, w') ∧
        w'.now = 1300) ∧
      (∃ w', (World.ofServer Server.empty).runOperation (Poller.poll ⟨400⟩ "app" 500 slow.probe) =
        (.error (.timeout "app" 900000), w') ∧ w'.now = 900) ∧
      (∃ w', (World.ofServer Server.empty).runOperation (Poller.poll ⟨1⟩ "app" 4294967295 never.probe) =
          (.error (.timeout "app" 4294967295000), w') ∧
        w'.log.back? = some ⟨.debug, "'app' not met after 0 attempt(s)"⟩) ∧
      ((World.ofServer Server.empty).run (Poller.pollUnder .stops ⟨1⟩ "app" 4294967295 never.probe)).1 = none := by
  have hfollows := (World.ofServer Server.empty).follows_probe 400 slow
  have hi : 0 < (⟨400⟩ : Poller).interval := by decide
  obtain ⟨-, hone, htwo⟩ := elapsed_slow
  have hnever := (World.ofServer Server.empty).follows_probe 1 never
  obtain ⟨k, x, text, w', hleast, hrun, hw', -, -, -, hlate, -, hstops⟩ :=
    poll_follows_script hnever (p := ⟨1⟩) (by decide) "app" 4294967295
  refine ⟨hfollows, hi, ?_, ?_, ?_, ?_⟩
  · obtain ⟨k, x, text, w', hleast, hrun, -, hnow, hready, -⟩ := poll_follows_script hfollows hi "app" 1000
    obtain rfl := hleast.unique isLeast_slow.1
    obtain ⟨rfl, -⟩ := hready 7 rfl
    rw [htwo] at hnow
    exact ⟨w', hrun, hnow⟩
  · obtain ⟨k, x, text, w', hleast, hrun, -, hnow, -, -, hlate, -⟩ := poll_follows_script hfollows hi "app" 500
    obtain rfl := hleast.unique isLeast_slow.2
    obtain ⟨rfl, -⟩ := hlate rfl
    rw [hone] at hrun hnow
    exact ⟨w', hrun, hnow⟩
  · obtain rfl := hleast.unique (isLeast_never 4294967295)
    obtain ⟨rfl, rfl, -⟩ := hlate rfl
    rw [elapsed_never] at hrun
    refine ⟨w', hrun, ?_⟩
    rw [hw', Array.back?_push]
    decide +kernel
  · obtain rfl := hleast.unique (isLeast_never 4294967295)
    rw [hstops]
    rfl

end Memory.World

end JobHierarchy
